/-
# Report.Event — what a run has to show

A run announces how many files it will process, shows each result once, sums
up, and closes. How that looks is up to whoever shows it: `Report.Console`
prints lines, `Report.Progress` keeps a screen.
-/
import ClassUpgrade.Report.Status

namespace ClassUpgrade.Report

set_option autoImplicit false

open Migration

/-- Something to show, with failures of type `ε`. -/
inductive Event (ε : Type) where
  | upcoming (count : Int)
  | result (r : FileResult ε)
  | summary (rs : List (FileResult ε))
  | closed

namespace Event

variable {ε δ : Type}

def map (f : ε → δ) : Event ε → Event δ
  | .upcoming count => .upcoming count
  | .result r => .result (r.map f)
  | .summary rs => .summary (rs.map (·.map f))
  | .closed => .closed

end Event

/-- The mode that a list of wishes leaves: the last one counts. -/
def Mode.ofList (wishes : List Mode) : Mode := wishes.getLast?.getD .migrate

end ClassUpgrade.Report
