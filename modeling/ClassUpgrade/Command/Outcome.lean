/-
# Command.Outcome — a command line carried out on a file tree

What a command prints, logs and leaves in the files. Migrations and plans
print their results as lines, a preview prints the text of the file.
-/
import ClassUpgrade.Command.Invocation
import ClassUpgrade.Migration.Run
import ClassUpgrade.Report.Console
import ClassUpgrade.Settings.Load

namespace ClassUpgrade.Command

set_option autoImplicit false

open Migration Report

inductive CommandError where
  | invocation (fault : Invocation.Fault)
  | settings (e : Settings.LoadError)
  | run (errors : List RunError)
  | preview (e : PreviewError)
  deriving DecidableEq, Repr

def CommandError.message : CommandError → Text
  | .invocation fault => fault.message
  | .settings e => e.message
  | .run errors => errorLines errors
  | .preview e => e.message

/-- What a command came to. -/
structure Outcome where
  tree : FileTree
  /-- What it printed. -/
  printed : Text
  /-- What it logged, line by line. -/
  logged : Text
  error : Option CommandError

namespace Outcome

def failedEarly (tree : FileTree) (e : CommandError) : Outcome := ⟨tree, [], [], some e⟩

def exitCode (o : Outcome) : Nat := if o.error.isSome then 1 else 0

/-- What a command writes beside its output: the log, and the error last. -/
def diagnostics (o : Outcome) : Text :=
  o.logged ++
    match o.error with
    | none => []
    | some e => utf8 "Error: " ++ e.message ++ [Byte.lineFeed]

end Outcome

def environmentOf (settings : Settings) : Environment where
  templatePath := settings.template
  readFault := fun _ => none
  writeFault := fun _ => none
  formatter := if settings.format then some (Formatter.ofCommand settings.formatter) else none

def requestOf (settings : Settings) (patterns : List Text) : Request where
  patterns := patterns
  exclude := settings.exclude
  parallel := settings.parallel
  options := ⟨settings.dryRun, settings.format⟩

def ofRun (level : Log.Level) (mode : Mode) (report : RunReport) : Outcome where
  tree := report.tree
  printed := Console.printAll ⟨false, mode⟩ (report.events.map (·.map FileError.message))
  logged := Log.render level report.log
  error := if report.errors.isEmpty then none else some (.run report.errors)

/-- Carries out what a command line asks for, with these settings. -/
def perform (settings : Settings) (i : Invocation) (tree : FileTree) : Outcome :=
  let level := Log.Level.threshold settings.verbose false
  let env := environmentOf settings
  let request := requestOf settings i.arguments.positional
  match i.action with
  | .migrate => ofRun level .migrate (runFor .migrate env .calm request tree)
  | .list => ofRun level .plan (runFor .plan env .calm request tree)
  | .preview =>
    let (outcome, log) := preview env none (i.arguments.positional.headD []) tree
    let logged := Log.render level log
    match outcome with
    | .ok t => ⟨tree, t, logged, none⟩
    | .error e => ⟨tree, [], logged, some (.preview e)⟩

/-- Carries out a command line. A request for help does nothing. -/
def execute (environment : List (Text × Text)) (arguments : List Text) (tree : FileTree) : Outcome :=
  match Invocation.parse arguments with
  | .error (.flag .helpRequested) => ⟨tree, [], [], none⟩
  | .error fault => .failedEarly tree (.invocation fault)
  | .ok i =>
    match Settings.load tree i.configPath environment i.arguments with
    | .error e => .failedEarly tree (.settings e)
    | .ok settings => perform settings i tree

end ClassUpgrade.Command
