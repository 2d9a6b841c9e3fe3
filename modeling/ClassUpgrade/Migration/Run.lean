/-
# Migration.Run — the migration of many files

A run resolves its patterns and migrates the files one after the other in
that order. A failure does not stop the run: the errors of the files are
collected. A cancelled run starts no further file, and says so last.
-/
import ClassUpgrade.Files.Selection
import ClassUpgrade.Migration.Task
import ClassUpgrade.Report.Event

namespace ClassUpgrade.Migration

set_option autoImplicit false

open Report

structure Request where
  patterns : List Text
  exclude : List Text
  /-- How many files are migrated at once; less than one means one. -/
  parallel : Int
  options : Options
  deriving DecidableEq, Repr

/-- What happens to a run from outside. -/
structure Circumstances where
  /-- The number of shown results after which the run is cancelled. -/
  cancelAfter : Option Nat
  /-- Why the display does not start. -/
  startFault : Option Text
  /-- Why the display stopped early. -/
  displayFault : Option Text
  deriving DecidableEq, Repr

def Circumstances.calm : Circumstances := ⟨none, none, none⟩

inductive RunError where
  | unresolved (e : Files.SelectionError)
  | noFiles (patterns : List Text)
  | displayNotStarted (reason : Text)
  | file (e : FileError)
  | cancelled
  | displayStopped (reason : Text)
  deriving DecidableEq, Repr

def RunError.message : RunError → Text
  | .unresolved e => utf8 "failed to resolve patterns: " ++ e.message
  | .noFiles patterns =>
    utf8 "no files matched: [" ++ Text.join [Byte.space] patterns ++ utf8 "]"
  | .displayNotStarted reason => utf8 "failed to start UI: " ++ reason
  | .file e => e.message
  | .cancelled => utf8 "context canceled"
  | .displayStopped reason => utf8 "UI failed: " ++ reason

def errorLines (errors : List RunError) : Text :=
  Text.join [Byte.lineFeed] (errors.map RunError.message)

/-- What the files of a run came to. -/
structure Batch where
  tree : FileTree
  /-- The results of the files that were reached, in order. -/
  results : List (FileResult FileError)
  /-- The errors of the files that failed, in order. -/
  errors : List FileError
  log : List Log.Record

def begunRecord (path : Text) : Log.Record :=
  ⟨.debug, utf8 "migrating file", [(utf8 "path", .text path)]⟩

def failureRecord (path : Text) (e : FileError) : Log.Record :=
  ⟨.error, utf8 "migration failed", [(utf8 "path", .text path), (utf8 "error", .text e.message)]⟩

/-- Migrates files in order, at most `limit` of them. -/
def migrateAll (env : Environment) (options : Options) :
    (limit : Option Nat) → List Text → FileTree → Batch
  | _, [], tree => ⟨tree, [], [], []⟩
  | some 0, _ :: _, tree => ⟨tree, [], [], []⟩
  | limit, path :: rest, tree =>
    let outcome := migrateFile env options path tree
    let batch := migrateAll env options (limit.map (· - 1)) rest outcome.tree
    ⟨batch.tree, outcome.result :: batch.results, outcome.error.toList ++ batch.errors,
      begunRecord path :: outcome.log ++ outcome.error.toList.map (failureRecord path) ++
        batch.log⟩

/-- Whether a run that has shown `shown` results is cancelled. -/
def isCancelled (cancelAfter : Option Nat) (shown : Nat) : Bool :=
  match cancelAfter with
  | some n => n ≤ shown
  | none => false

/-- What became of the files of a run by the time the run is through with them. -/
structure Passage where
  batch : Batch
  /-- The results, in the order in which they were shown. -/
  shown : List (FileResult FileError)
  /-- Whether the run was cancelled by then. -/
  cancelled : Bool

/-- What went wrong with the files of a run: their errors, and that it was cancelled. -/
def Passage.errors (p : Passage) : List RunError :=
  p.batch.errors.map .file ++ if p.cancelled then [.cancelled] else []

/-- The passage of files that are migrated one after the other. -/
def Passage.inOrder (env : Environment) (options : Options) (cancelAfter : Option Nat)
    (paths : List Text) (tree : FileTree) : Passage :=
  let batch := migrateAll env options cancelAfter paths tree
  ⟨batch, batch.results, isCancelled cancelAfter batch.results.length⟩

/-- What a run came to. -/
structure RunReport where
  tree : FileTree
  results : List (FileResult FileError)
  errors : List RunError
  /-- What there was to show. -/
  events : List (Event FileError)
  log : List Log.Record

def RunReport.failedEarly (tree : FileTree) (e : RunError) : RunReport := ⟨tree, [], [e], [], []⟩

def stoppedRecord (reason : Text) : Log.Record :=
  ⟨.warn, utf8 "progress display stopped", [(utf8 "error", .text reason)]⟩

def RunReport.ofPassage (circumstances : Circumstances) (count : Nat) (p : Passage) :
    RunReport where
  tree := p.batch.tree
  results := p.batch.results
  errors := p.errors ++ circumstances.displayFault.toList.map .displayStopped
  events := .upcoming count :: p.shown.map .result ++ [.summary p.batch.results, .closed]
  log := p.batch.log ++ circumstances.displayFault.toList.map stoppedRecord

/-- The files that a run gets to, or the report of a run that gets to none. -/
def gather (circumstances : Circumstances) (request : Request) (tree : FileTree) :
    Except RunReport (List Text) :=
  match Files.select tree request.patterns request.exclude with
  | .error e => .error (.failedEarly tree (.unresolved e))
  | .ok [] => .error (.failedEarly tree (.noFiles request.patterns))
  | .ok paths =>
    match circumstances.startFault with
    | some reason => .error (.failedEarly tree (.displayNotStarted reason))
    | none => .ok paths

def run (env : Environment) (circumstances : Circumstances) (request : Request) (tree : FileTree) :
    RunReport :=
  match gather circumstances request tree with
  | .error report => report
  | .ok paths =>
    .ofPassage circumstances paths.length
      (.inOrder env request.options circumstances.cancelAfter paths tree)

/-- The request of a plan: nothing is written and nothing formatted. -/
def Request.forPlan (request : Request) : Request := { request with options := ⟨true, false⟩ }

def plan (env : Environment) (circumstances : Circumstances) (request : Request) (tree : FileTree) :
    RunReport :=
  run env circumstances request.forPlan tree

def runFor (mode : Mode) (env : Environment) (circumstances : Circumstances) (request : Request)
    (tree : FileTree) : RunReport :=
  match mode with
  | .migrate => run env circumstances request tree
  | .plan => plan env circumstances request tree

end ClassUpgrade.Migration
