/-
# Settings.Load — settings from their sources

A setting is taken from the command line, else from a non-empty environment
variable, else from the file, else from the defaults. Only the value that is
taken is decoded. The file is the one asked for, or the first one in the
working directory that has the tool's name; that one may be missing.

Only YAML and JSON are covered. A file that is asked for by an extension of
another format, TOML and dotenv among them, is not decoded here and ends in
`unreadableFile`, whatever it holds.
-/
import ClassUpgrade.Files.Tree
import ClassUpgrade.Settings.Flag
import ClassUpgrade.Settings.Json
import ClassUpgrade.Settings.Validate
import ClassUpgrade.Yaml.Document

namespace ClassUpgrade.Settings

set_option autoImplicit false

open Byte

/-- Where settings come from. -/
structure Sources where
  arguments : Arguments
  environment : List (Text × Text)
  file : List (Text × Value)

namespace Sources

/-- What the environment sets a setting to; an empty variable counts as unset. -/
def environment? (s : Sources) (key : Key) : Option Value :=
  match s.environment.find? (·.1 = key.variableName) with
  | some (_, []) => none
  | some (_, t) => some (.text t)
  | none => none

/-- What the file sets a setting to. Keys are read in any case; an entry that spells the name as it
is counts only where no entry spells it otherwise. The last entry that counts is taken, and nothing
at all is unset. -/
def file? (s : Sources) (key : Key) : Option Value :=
  let named := s.file.filter fun e => Text.lower e.1 = key.name
  let respelled := named.filter fun e => e.1 ≠ key.name
  match respelled.getLast?.orElse fun _ => named.getLast? with
  | some (_, .null) => none
  | some (_, v) => some v
  | none => none

/-- What the highest source that sets a setting sets it to. -/
def value? (s : Sources) (key : Key) : Option Value :=
  (s.arguments.setting? key).orElse fun _ => (s.environment? key).orElse fun _ => s.file? key

/-- The value of a setting, decoded, or its default; none when it cannot be decoded. -/
def decode? {α : Type} (s : Sources) (key : Key) (decode : Value → Option α) (fallback : α) :
    Option α :=
  match s.value? key with
  | some v => decode v
  | none => some fallback

def settings? (s : Sources) : Option Settings := do
  let parallel ← s.decode? .parallel Value.toInt? default.parallel
  let format ← s.decode? .format Value.toBool? default.format
  let formatter ← s.decode? .formatter Value.toText? default.formatter
  let template ← s.decode? .template Value.toText? default.template
  let exclude ← s.decode? .exclude Value.toTexts? default.exclude
  let dryRun ← s.decode? .dryRun Value.toBool? default.dryRun
  let verbose ← s.decode? .verbose Value.toBool? default.verbose
  some { parallel, format, formatter, template, exclude, dryRun, verbose }

end Sources

inductive LoadError where
  /-- The file that was asked for is missing. -/
  | missingFile (path : Text)
  /-- The file that was asked for cannot be read, for this reason. -/
  | inaccessibleFile (reason : Text)
  /-- The extension of the file that was asked for stands for no format. -/
  | unknownFormat (fileExtension : Text)
  /-- The file makes no sense. -/
  | unreadableFile
  /-- A value is of the wrong kind. -/
  | undecodable
  | invalid (problems : List Problem)
  deriving DecidableEq, Repr

/-- The wording of a load error. What is wrong inside a file is not told. -/
def LoadError.message : LoadError → Text
  | .missingFile path =>
    utf8 "failed to read config file: " ++ PathFault.missing.message (utf8 "open") path
  | .inaccessibleFile reason => utf8 "failed to read config file: " ++ reason
  | .unknownFormat fileExtension =>
    utf8 "failed to read config file: Unsupported Config Type " ++ Text.quoted fileExtension
  | .unreadableFile => utf8 "failed to read config file"
  | .undecodable => utf8 "failed to unmarshal config"
  | .invalid ps => utf8 "invalid configuration: " ++ problemLines ps

def fileName : Text := utf8 ".wle-js-upgrade"

/-- The extensions a configuration file may have, in the order in which they are looked for. -/
def fileExtensions : List Text :=
  [utf8 "json", utf8 "toml", utf8 "yaml", utf8 "yml", utf8 "properties", utf8 "props",
    utf8 "prop", utf8 "hcl", utf8 "tfvars", utf8 "dotenv", utf8 "env", utf8 "ini"]

/-- The names looked for in the working directory. -/
def fileNames : List Text := (fileExtensions.map fun e => fileName ++ dot :: e) ++ [fileName]

inductive FileFormat where
  | yaml
  | json
  deriving DecidableEq, Repr

def formatOf? (fileExtension : Text) : Option FileFormat :=
  if fileExtension = utf8 "yaml" ∨ fileExtension = utf8 "yml" then some .yaml
  else if fileExtension = utf8 "json" then some .json
  else none

/-- The entries of a configuration file, which holds a mapping or nothing. -/
def fileEntries (format : FileFormat) (content : Text) : Except LoadError (List (Text × Value)) :=
  let value? :=
    match format with
    | .yaml => Yaml.parse? content
    | .json => Json.parse? content
  match value? with
  | some (.map entries) => .ok entries
  | some .null => .ok []
  | _ => .error .unreadableFile

/-- The entries of the file that was asked for. -/
def readFile (tree : FileTree) (path : Text) : Except LoadError (List (Text × Value)) :=
  let fileExtension := (Path.extension path).drop 1
  if !fileExtensions.contains fileExtension then .error (.unknownFormat fileExtension)
  else
    match tree.stat path with
    | .error .missing => .error (.missingFile path)
    | .error fault => .error (.inaccessibleFile (fault.message (utf8 "open") path))
    | .ok .directory =>
      .error (.inaccessibleFile (PathFault.isDirectory.message (utf8 "read") path))
    | .ok (.file content) =>
      match formatOf? fileExtension with
      | some format => fileEntries format content
      | none => .error .unreadableFile

/-- The entries of the first file in the working directory that has the tool's name. -/
def findFile (tree : FileTree) : List Text → Except LoadError (List (Text × Value))
  | [] => .ok []
  | name :: names =>
    match tree.stat name with
    | .ok (.file content) => fileEntries .yaml content
    | _ => findFile tree names

/-- The settings of a run; an empty `path` asks for no file. -/
def load (tree : FileTree) (path : Text) (environment : List (Text × Text)) (arguments : Arguments) :
    Except LoadError Settings :=
  match (if path.isEmpty then findFile tree fileNames else readFile tree path) with
  | .error e => .error e
  | .ok file =>
    match Sources.settings? ⟨arguments, environment, file⟩ with
    | none => .error .undecodable
    | some settings =>
      let ps := settings.problems
      if ps.isEmpty then .ok settings else .error (.invalid ps)

end ClassUpgrade.Settings
