/-
# Document.Entrypoint — generated entrypoint files

The editor generates an entrypoint for each project. One written before the
current template is stale and is replaced as a whole. A stale entrypoint is
told by how it loads the runtime, or by an import marker without the two
things that every entrypoint of the current template has.
-/
import ClassUpgrade.Text.Basic

namespace ClassUpgrade.Document

set_option autoImplicit false
set_option maxRecDepth 2000

def importMarker : Text := utf8 "/* wle:auto-imports:start */"

def constantMarker : Text := utf8 "/* wle:auto-constants:start */"

/-- How entrypoints before the current template load the runtime. -/
def legacyLoad : Text := utf8 "loadRuntime(RuntimeBaseName, \x7b"

/-- The function that every entrypoint of the current template declares. -/
def buttonSetup : Text := utf8 "function setupButtonsXR()"

/-- Whether a document is a generated entrypoint that predates the current template. -/
def isStaleEntrypoint (doc : Text) : Bool :=
  Text.includes legacyLoad doc ||
    (Text.includes importMarker doc &&
      (!Text.includes constantMarker doc || !Text.includes buttonSetup doc))

/-- The template in place of a stale entrypoint, and whether it took its place. -/
def replaceIfStale (doc template : Text) : Text × Bool :=
  if isStaleEntrypoint doc then (template, true) else (doc, false)

def templateLines : List String := [
    "/**",
    " * /!\\ This file is auto-generated.",
    " *",
    " * This is the entry point of your standalone application.",
    " *",
    " * There are multiple tags used by the editor to inject code automatically:",
    " *     - `wle:auto-imports:start` and `wle:auto-imports:end`: The list of import statements",
    " *     - `wle:auto-register:start` and `wle:auto-register:end`: The list of component to register",
    " *     - `wle:auto-constants:start` and `wle:auto-constants:end`: The project's constants,",
    " *        such as the project's name, whether it should use the physx runtime, etc...",
    " *     - `wle:auto-benchmark:start` and `wle:auto-benchmark:end`: Append the benchmarking code",
    " */",
    "",
    "/* wle:auto-imports:start */",
    "/* wle:auto-imports:end */",
    "",
    "import \x7bloadRuntime\x7d from '@wonderlandengine/api';",
    "",
    "/* wle:auto-constants:start */",
    "const RuntimeOptions = \x7b",
    "    physx: false,",
    "    loader: false,",
    "    xrFramebufferScaleFactor: 1,",
    "    canvas: 'canvas',",
    "\x7d;",
    "const Constants = \x7b",
    "    ProjectName: 'MyWonderland',",
    "    RuntimeBaseName: 'WonderlandRuntime',",
    "    WebXRRequiredFeatures: ['local',],",
    "    WebXROptionalFeatures: ['local','hand-tracking','hit-test',],",
    "\x7d;",
    "/* wle:auto-constants:end */",
    "",
    "const engine = await loadRuntime(Constants.RuntimeBaseName, RuntimeOptions);",
    "",
    "engine.onSceneLoaded.once(() => \x7b",
    "    const el = document.getElementById('version');",
    "    if (el) setTimeout(() => el.remove(), 2000);",
    "\x7d);",
    "",
    "/* WebXR setup. */",
    "",
    "function requestSession(mode) \x7b",
    "    engine",
    "        .requestXRSession(mode, Constants.WebXRRequiredFeatures, Constants.WebXROptionalFeatures)",
    "        .catch((e) => console.error(e));",
    "\x7d",
    "",
    "function setupButtonsXR() \x7b",
    "    /* Setup AR / VR buttons */",
    "    const arButton = document.getElementById('ar-button');",
    "    if (arButton) \x7b",
    "        arButton.dataset.supported = engine.arSupported;",
    "        arButton.addEventListener('click', () => requestSession('immersive-ar'));",
    "    \x7d",
    "    const vrButton = document.getElementById('vr-button');",
    "    if (vrButton) \x7b",
    "        vrButton.dataset.supported = engine.vrSupported;",
    "        vrButton.addEventListener('click', () => requestSession('immersive-vr'));",
    "    \x7d",
    "\x7d",
    "",
    "if (document.readyState === 'loading') \x7b",
    "    window.addEventListener('load', setupButtonsXR);",
    "\x7d else \x7b",
    "    setupButtonsXR();",
    "\x7d",
    "",
    "/* wle:auto-register:start */",
    "/* wle:auto-register:end */",
    "",
    "engine.scene.load(`$\x7bConstants.ProjectName\x7d.bin`);",
    "",
    "/* wle:auto-benchmark:start */",
    "/* wle:auto-benchmark:end */",
    ""]

def bundledTemplate : Text := Text.join [Byte.lineFeed] (templateLines.map utf8)

end ClassUpgrade.Document
