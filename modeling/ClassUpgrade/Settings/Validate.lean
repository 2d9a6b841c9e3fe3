/-
# Settings.Validate — settings a run can work with
-/
import ClassUpgrade.Glob.Parser
import ClassUpgrade.Text.Quoted
import ClassUpgrade.Text.Trim

namespace ClassUpgrade

set_option autoImplicit false

structure Settings where
  /-- How many files are migrated at once. -/
  parallel : Int
  /-- Whether migrated files are formatted. -/
  format : Bool
  /-- The formatter's command line; the path of the file is added to it. -/
  formatter : Text
  /-- The file of the entrypoint template, empty for the bundled one. -/
  template : Text
  /-- The patterns of the files to leave out. -/
  exclude : List Text
  /-- Whether files stay unwritten. -/
  dryRun : Bool
  /-- Whether every step is logged. -/
  verbose : Bool
  deriving DecidableEq, Repr

namespace Settings

/-- The settings that hold unless a source says otherwise. -/
def default : Settings where
  parallel := 1
  format := true
  formatter := utf8 "npx prettier --write"
  template := []
  exclude := []
  dryRun := false
  verbose := false

/-- What is wrong with settings. -/
inductive Problem where
  | parallel (n : Int)
  | emptyFormatter
  | exclude (pattern : Text) (cause : Glob.PatternError)
  deriving DecidableEq, Repr

def Problem.message : Problem → Text
  | .parallel n => utf8 "invalid parallel: " ++ Text.ofInt n ++ utf8 " (must be at least 1)"
  | .emptyFormatter => utf8 "empty formatter command"
  | .exclude pattern cause =>
    utf8 "invalid exclude pattern " ++ Text.quoted pattern ++ utf8 ": " ++ cause.message

def excludeProblem? (pattern : Text) : Option Problem :=
  match Glob.parse pattern with
  | .ok _ => none
  | .error cause => some (.exclude pattern cause)

def problems (s : Settings) : List Problem :=
  (if s.parallel < 1 then [.parallel s.parallel] else []) ++
    (if s.format && (Text.trim s.formatter).isEmpty then [.emptyFormatter] else []) ++
    s.exclude.filterMap excludeProblem?

def problemLines (ps : List Problem) : Text := Text.join [Byte.lineFeed] (ps.map Problem.message)

end Settings

end ClassUpgrade
