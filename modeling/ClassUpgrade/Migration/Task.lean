/-
# Migration.Task — the migration of one file, step by step

A task looks the file up, reads it, transforms its text, writes the text if
it changed, and has it formatted. Each step touches the files at most once,
so tasks that run at the same time are described by how their steps mix. A
task that fails ends at once, and the only step that can change a file before
the formatter runs is the one that writes.
-/
import ClassUpgrade.Migration.Formatter
import ClassUpgrade.Migration.Result

namespace ClassUpgrade.Migration

set_option autoImplicit false

open Document

/-- What tasks work with besides the files. -/
structure Environment where
  /-- The file of the entrypoint template, empty for the bundled one. -/
  templatePath : Text
  /-- Why a path cannot be read, whatever stands there. -/
  readFault : Text → Option Text
  /-- Why a path cannot be written, whatever stands there. -/
  writeFault : Text → Option Text
  formatter : Option Formatter

namespace Environment

/-- The content of a file, or the wording of what is wrong. -/
def read (env : Environment) (tree : FileTree) (path : Text) : Except Text Text :=
  match env.readFault path with
  | some reason => .error reason
  | none => tree.read path

def write (env : Environment) (tree : FileTree) (path content : Text) : Except Text FileTree :=
  match env.writeFault path with
  | some reason => .error reason
  | none => tree.write path content

def template (env : Environment) (tree : FileTree) : Except Text Text :=
  if env.templatePath.isEmpty then .ok bundledTemplate else env.read tree env.templatePath

end Environment

/-- What a task may do. -/
structure Options where
  /-- Whether the file stays unwritten. -/
  dryRun : Bool
  /-- Whether a written file is formatted. -/
  format : Bool
  deriving DecidableEq, Repr

/-- How far a task has come. -/
inductive Stage where
  | waiting
  | found
  | loaded (doc : Text)
  /-- The content is to be written. -/
  | changed (content : Text) (r : FileResult FileError)
  /-- The file is written and to be formatted. -/
  | written (r : FileResult FileError)
  /-- The task is over, and this is the error it ended with. -/
  | finished (r : FileResult FileError) (error : Option FileError)

namespace Stage

/-- Ends a task with an error, which its result names too. -/
def fail (r : FileResult FileError) (e : FileError) : Stage := .finished (r.failWith e) (some e)

/-- Looks the file up: it has to be there and be no directory. -/
def look (path : Text) (tree : FileTree) : Stage :=
  match tree.stat path with
  | .ok (.file _) => .found
  | _ => fail (.ofPath path) (.notFound path)

def load (env : Environment) (path : Text) (tree : FileTree) : Stage :=
  match env.read tree path with
  | .ok doc => .loaded doc
  | .error reason => fail (.ofPath path) (.unreadable path reason)

def rework (env : Environment) (options : Options) (path doc : Text) (tree : FileTree) :
    Stage × List Log.Record :=
  let (outcome, log) := transform (env.template tree) doc
  match outcome with
  | .error cause => (fail (.ofPath path) (.untransformed path cause), log)
  | .ok t =>
    let r := FileResult.ofTransformation path doc t
    (if r.changed && !options.dryRun then .changed t.content r else .finished r none, log)

def writtenRecord (r : FileResult FileError) : Log.Record :=
  ⟨.debug, utf8 "file migrated",
    [(utf8 "path", .text r.path), (utf8 "components", .count r.components.length)]⟩

def save (env : Environment) (path content : Text) (r : FileResult FileError) (tree : FileTree) :
    FileTree × Stage × List Log.Record :=
  match env.write tree path content with
  | .error reason => (tree, fail r (.unwritable path reason), [])
  | .ok tree => (tree, .written r, [writtenRecord r])

def unformattedRecord (path : Text) (e : FormatError) : Log.Record :=
  ⟨.warn, utf8 "formatting skipped", [(utf8 "path", .text path), (utf8 "error", .text e.message)]⟩

/-- Has the file formatted, if that is asked for and there is a formatter. -/
def tidy (env : Environment) (options : Options) (path : Text) (r : FileResult FileError)
    (tree : FileTree) : FileTree × Stage × List Log.Record :=
  match env.formatter with
  | none => (tree, .finished r none, [])
  | some formatter =>
    if !options.format then (tree, .finished r none, [])
    else
      match formatter path tree with
      | (tree, none) => (tree, .finished { r with formatted := true } none, [])
      | (tree, some e) =>
        (tree, .finished { r with warning := e.message } none, [unformattedRecord path e])

/-- Takes one step: the files after it, how far the task has come, and what there is to log. -/
def step (env : Environment) (options : Options) (path : Text) (tree : FileTree) :
    Stage → FileTree × Stage × List Log.Record
  | .waiting => (tree, look path tree, [])
  | .found => (tree, load env path tree, [])
  | .loaded doc =>
    let (stage, log) := rework env options path doc tree
    (tree, stage, log)
  | .changed content r => save env path content r tree
  | .written r => tidy env options path r tree
  | .finished r error => (tree, .finished r error, [])

def stepLimit : Nat := 5

def steps (env : Environment) (options : Options) (path : Text) :
    (count : Nat) → FileTree → Stage → FileTree × Stage × List Log.Record
  | 0, tree, stage => (tree, stage, [])
  | count + 1, tree, stage =>
    let (tree, stage, log) := stage.step env options path tree
    let (tree, stage, more) := steps env options path count tree stage
    (tree, stage, log ++ more)

end Stage

/-- What a migration of one file leaves. -/
structure FileOutcome where
  tree : FileTree
  result : FileResult FileError
  /-- What went wrong. -/
  error : Option FileError
  log : List Log.Record

def migrateFile (env : Environment) (options : Options) (path : Text) (tree : FileTree) :
    FileOutcome :=
  match Stage.steps env options path Stage.stepLimit tree .waiting with
  | (tree, .finished r error, log) => ⟨tree, r, error, log⟩
  -- A task has no steps left by then.
  | (tree, _, log) => ⟨tree, .ofPath path, none, log⟩

inductive PreviewError where
  | file (e : FileError)
  /-- The preview cannot be written, for this reason. -/
  | unwritable (reason : Text)
  deriving DecidableEq, Repr

def PreviewError.message : PreviewError → Text
  | .file e => e.message
  | .unwritable reason => utf8 "failed to write preview: " ++ reason

/-- The text that a migration of the file at a path would leave there; `fault` says why it cannot
be shown. -/
def preview (env : Environment) (fault : Option Text) (path : Text) (tree : FileTree) :
    Except PreviewError Text × List Log.Record :=
  match tree.stat path with
  | .ok (.file _) =>
    match env.read tree path with
    | .error reason => (.error (.file (.unreadable path reason)), [])
    | .ok doc =>
      let (outcome, log) := transform (env.template tree) doc
      match outcome, fault with
      | .error cause, _ => (.error (.file (.untransformed path cause)), log)
      | .ok _, some reason => (.error (.unwritable reason), log)
      | .ok t, none => (.ok t.content, log)
  | _ => (.error (.file (.notFound path)), [])

end ClassUpgrade.Migration
