/-
# Migration.Group — the files of a run, several at once

A group migrates the files of a run with a bounded number of them in flight. A
loop hands the files over in order: it looks whether the run is cancelled,
waits for a place to be free, hands over the next file, and looks again. A file
that was handed over is a task of its own. It looks once more whether the run
is cancelled, goes through the stages of a migration, puts its result in its
place, shows it, and hands in the error if there was one. When the loop has
stopped and nothing is in flight, the group is over.

Steps of the loop, steps of the tasks and the cancellation of the run mix in
any order, so a group is described by what can happen next (`Group.Step`), and
what a run can come to by all that can happen to its group (`Runs`). Each step
of a task touches the files at most once. `Ledger` records what happens in the
order in which it does.
-/
import Mathlib.Logic.Relation
import ClassUpgrade.Migration.Run

namespace ClassUpgrade.Migration

set_option autoImplicit false

/-- How many files are migrated at once, where `parallel` are asked for. -/
def places (parallel : Int) : Nat := max 1 parallel.toNat

/-- What a group records, each in the order in which it happened. -/
structure Ledger where
  /-- The paths whose migration was begun. -/
  begun : List Text
  /-- The paths that were written. -/
  written : List Text
  /-- The results that were shown. -/
  shown : List (FileResult FileError)
  errors : List FileError
  log : List Log.Record

namespace Ledger

def empty : Ledger := ⟨[], [], [], [], []⟩

def append (a b : Ledger) : Ledger :=
  ⟨a.begun ++ b.begun, a.written ++ b.written, a.shown ++ b.shown, a.errors ++ b.errors,
    a.log ++ b.log⟩

end Ledger

/-- Where a file of a group stands. -/
inductive Turn where
  /-- The file has not been handed over. -/
  | pending
  /-- The file has been handed over and its task has not begun. -/
  | launched
  | running (stage : Stage)
  /-- The result is in its place, and has not been shown. -/
  | recorded (r : FileResult FileError) (error : Option FileError)
  /-- The result has been shown, and the error not been handed in. -/
  | shown (error : Option FileError)
  /-- The task is over, with a result or without. -/
  | ended

/-- Whether a file takes one of the places of a group. -/
def Turn.inFlight : Turn → Bool
  | .pending | .ended => false
  | _ => true

structure Member where
  path : Text
  turn : Turn
  /-- The place for the result. -/
  result : Option (FileResult FileError)

/-- What the tasks of a group work with. -/
structure Terms where
  env : Environment
  options : Options
  /-- How many files may be in flight. -/
  limit : Nat
  /-- What a formatter may have done that a cancellation cuts off. -/
  cutOff : Formatter → Prop

/-- What a step of a task works with: the formatter may be cut off, once the run is cancelled. -/
inductive Terms.Provides (terms : Terms) (cancelled : Bool) : Environment → Prop
  | whole : Provides terms cancelled terms.env
  | cut {formatter : Formatter} (stopped : cancelled = true)
      (equipped : terms.env.formatter.isSome = true) (cut : terms.cutOff formatter) :
      Provides terms cancelled { terms.env with formatter := some formatter }

namespace Stage

def isFinished : Stage → Bool
  | .finished _ _ => true
  | _ => false

/-- The path, if the next step of a task writes it. -/
def writes (env : Environment) (path : Text) (tree : FileTree) : Stage → List Text
  | .changed content _ =>
    match env.write tree path content with
    | .ok _ => [path]
    | .error _ => []
  | _ => []

end Stage

/-- What a file of a group can do next: the files and the file's place in the group afterwards,
and what there is to record. -/
inductive Member.Step (terms : Terms) (cancelled : Bool) (tree : FileTree) :
    Member → FileTree → Member → Ledger → Prop
  | decline {path : Text} {result : Option (FileResult FileError)} (stopped : cancelled = true) :
      Step terms cancelled tree ⟨path, .launched, result⟩ tree ⟨path, .ended, result⟩ .empty
  | begin {path : Text} {result : Option (FileResult FileError)} (going : cancelled = false) :
      Step terms cancelled tree ⟨path, .launched, result⟩ tree ⟨path, .running .waiting, result⟩
        { Ledger.empty with begun := [path], log := [begunRecord path] }
  | advance {path : Text} {result : Option (FileResult FileError)} {stage : Stage}
      {env : Environment} (provided : terms.Provides cancelled env)
      (unfinished : stage.isFinished = false) :
      Step terms cancelled tree ⟨path, .running stage, result⟩
        (stage.step env terms.options path tree).1
        ⟨path, .running (stage.step env terms.options path tree).2.1, result⟩
        { Ledger.empty with
          written := stage.writes env path tree
          log := (stage.step env terms.options path tree).2.2 }
  | record {path : Text} {result : Option (FileResult FileError)} {r : FileResult FileError}
      {error : Option FileError} :
      Step terms cancelled tree ⟨path, .running (.finished r error), result⟩ tree
        ⟨path, .recorded r error, some r⟩ .empty
  | display {path : Text} {result : Option (FileResult FileError)} {r : FileResult FileError}
      {error : Option FileError} :
      Step terms cancelled tree ⟨path, .recorded r error, result⟩ tree
        ⟨path, .shown error, result⟩ { Ledger.empty with shown := [r] }
  | handIn {path : Text} {result : Option (FileResult FileError)} {error : Option FileError} :
      Step terms cancelled tree ⟨path, .shown error, result⟩ tree ⟨path, .ended, result⟩
        { Ledger.empty with
          errors := error.toList
          log := error.toList.map (failureRecord path) }

/-- What the loop of a group is about to do. -/
inductive Loop where
  /-- To look whether the run is cancelled, before the file with this number. -/
  | looking (next : Nat)
  /-- To hand over the file with this number. -/
  | handing (next : Nat)
  /-- Nothing: the loop has stopped. -/
  | stopped
  deriving DecidableEq, Repr

/-- The files of a run under way. -/
structure Group where
  tree : FileTree
  cancelled : Bool
  loop : Loop
  members : List Member
  ledger : Ledger

namespace Group

def start (paths : List Text) (tree : FileTree) : Group where
  tree := tree
  cancelled := false
  loop := .looking 0
  members := paths.map (⟨·, .pending, none⟩)
  ledger := .empty

def inFlight (g : Group) : Nat := g.members.countP (·.turn.inFlight)

/-- What can happen to a group next. -/
inductive Step (terms : Terms) : Group → Group → Prop
  | cancel {g : Group} : Step terms g { g with cancelled := true }
  | turnTo {g : Group} {next : Nat} (looking : g.loop = .looking next)
      (more : next < g.members.length) (going : g.cancelled = false) :
      Step terms g { g with loop := .handing next }
  | stop {g : Group} {next : Nat} (looking : g.loop = .looking next)
      (done : g.members.length ≤ next ∨ g.cancelled = true) :
      Step terms g { g with loop := .stopped }
  | handOver {g : Group} {next : Nat} {m : Member} (handing : g.loop = .handing next)
      (free : g.inFlight < terms.limit) (there : g.members[next]? = some m) :
      Step terms g
        { g with
          loop := .looking (next + 1)
          members := g.members.set next { m with turn := .launched } }
  | work {g : Group} {i : Nat} {m m' : Member} {tree' : FileTree} {gain : Ledger}
      (there : g.members[i]? = some m)
      (step : m.Step terms g.cancelled g.tree tree' m' gain) :
      Step terms g
        { g with
          tree := tree'
          members := g.members.set i m'
          ledger := g.ledger.append gain }

/-- All that can happen to a group. -/
abbrev Reaches (terms : Terms) : Group → Group → Prop := Relation.ReflTransGen (Step terms)

def IsOver (g : Group) : Prop := g.loop = .stopped ∧ ∀ m ∈ g.members, m.turn.inFlight = false

def results (g : Group) : List (FileResult FileError) := g.members.filterMap (·.result)

def passage (g : Group) : Passage where
  batch := ⟨g.tree, g.results, g.ledger.errors, g.ledger.log⟩
  shown := g.ledger.shown
  cancelled := g.cancelled

end Group

/-- A report that a run can come to, with what was recorded on the way. When the run is cancelled
is not up to the circumstances here: it can be at any time. -/
inductive Runs (env : Environment) (circumstances : Circumstances) (cutOff : Formatter → Prop)
    (request : Request) (tree : FileTree) : Ledger → RunReport → Prop
  | early {report : RunReport} (refused : gather circumstances request tree = .error report) :
      Runs env circumstances cutOff request tree .empty report
  | through {paths : List Text} {g : Group}
      (gathered : gather circumstances request tree = .ok paths)
      (reaches : Group.Reaches ⟨env, request.options, places request.parallel, cutOff⟩
        (.start paths tree) g)
      (ended : g.IsOver) :
      Runs env circumstances cutOff request tree g.ledger
        (.ofPassage circumstances paths.length g.passage)

end ClassUpgrade.Migration
