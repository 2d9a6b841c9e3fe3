/-
# Report.Progress — events as a screen

The screen has a title, a bar with the share of the files that are done, the
latest results, every warning, and at the end the counts. Styled texts have
tabs spread out, and their lines, if there are several, are made equally
wide.
-/
import ClassUpgrade.Number.Double
import ClassUpgrade.Report.Event
import ClassUpgrade.Report.Grid
import ClassUpgrade.Text.Numeral
import ClassUpgrade.Text.Screen

namespace ClassUpgrade.Report

set_option autoImplicit false

open Byte Migration

inductive Message where
  | event (e : Event Text)
  /-- The key that ends the display. -/
  | interrupt
  | resize (width height : Int)
  /-- Anything else. -/
  | other

def Message.ends : Message → Bool
  | .event .closed => true
  | .interrupt => true
  | _ => false

/-- What the screen shows. -/
structure Progress where
  mode : Mode
  total : Int
  done : Nat
  failed : Nat
  /-- The latest results, oldest first. -/
  recent : List (FileResult Text)
  warnings : List Text
  summary : Option Tally
  barWidth : Nat
  quitting : Bool

namespace Progress

def recentLimit : Nat := 8

def start (mode : Mode) : Progress where
  mode := mode
  total := 0
  done := 0
  failed := 0
  recent := []
  warnings := []
  summary := none
  barWidth := 40
  quitting := false

def latest {α : Type} (n : Nat) (as : List α) : List α := as.drop (as.length - n)

def addResult (p : Progress) (r : FileResult Text) : Progress :=
  { p with
    done := p.done + 1
    failed := if r.failed then p.failed + 1 else p.failed
    warnings :=
      if r.warning.isEmpty then p.warnings else p.warnings ++ [r.path ++ utf8 ": " ++ r.warning]
    recent := latest recentLimit (p.recent ++ [r]) }

/-- The width of the bar in a window: twenty columns less, between ten and sixty. -/
def barWidthIn (window : Int) : Nat := (max 10 (min 60 (window - 20))).toNat

def update (p : Progress) : Message → Progress
  | .event (.upcoming count) => { p with total := count }
  | .event (.result r) => p.addResult r
  | .event (.summary rs) => { p with summary := some (Tally.ofResults rs) }
  | .event .closed => { p with quitting := true }
  | .interrupt => { p with quitting := true }
  | .resize width _ => { p with barWidth := barWidthIn width }
  | .other => p

/-- The share of the files that are done; more than all of them when more are done than were
announced, and none as long as no number was. -/
def share (p : Progress) : Double :=
  let (num, den) := (Double.nearest p.total.toNat 1).ratio
  Double.nearest (p.done * den) num

/-- A text to the right of blanks, up to a width. -/
def setRight (width : Nat) (t : Text) : Text := blanks (width - t.length) ++ t

def percentText (p : Progress) : Text :=
  let percent := if 0 < p.total ∧ p.total ≤ p.done then 100 else (p.share.mulNat 100).roundHalfEven
  space :: setRight 3 (Text.ofNat percent) ++ utf8 "%"

/-- The bar, with the share in percent after it. -/
def bar (p : Progress) : Text :=
  let cells := p.barWidth - p.percentText.length
  let filled := min cells (p.share.mulNat cells).roundHalfUp
  (List.replicate filled (utf8 "█")).flatten ++
    (List.replicate (cells - filled) (utf8 "░")).flatten ++ p.percentText

/-- What a tab is spread out to. -/
def tabBlanks : Text := blanks 4

/-- A styled text: tabs spread out, line breaks unified, and several lines equally wide. -/
def styled (t : Text) : Text :=
  let t := Text.replace [carriageReturn, lineFeed] [lineFeed] (Text.replace [tab] tabBlanks t)
  let lines := linesOf t
  let columns := largest (lines.map Text.screenWidth)
  Text.join [lineFeed] (lines.map fun line => line ++ blanks (columns - line.screenWidth))

def resultLine (mode : Mode) (r : FileResult Text) : Text :=
  (statusOf mode r).paddedLabel ++ r.path ++
    (if r.components.isEmpty then [] else styled (utf8 " (" ++ componentList r ++ utf8 ")")) ++
    (match r.failure with
      | some message => styled (utf8 ": " ++ message)
      | none => [])

def title : Mode → Text
  | .migrate => utf8 "Migrating components"
  | .plan => utf8 "Checking components"

def summaryLine (p : Progress) (tally : Tally) : Text :=
  Text.ofNat p.done ++ utf8 " file(s): " ++ Text.ofNat tally.changed ++ utf8 " changed, " ++
    Text.ofNat tally.skipped ++ utf8 " skipped, " ++ Text.ofNat tally.failed ++ utf8 " failed"

def view (p : Progress) : Text :=
  title p.mode ++ utf8 "\n\n" ++ p.bar ++ utf8 "  " ++ Text.ofNat p.done ++ utf8 "/" ++
    Text.ofInt p.total ++ utf8 "\n\n" ++
    p.recent.flatMap (fun r => resultLine p.mode r ++ [lineFeed]) ++
    p.warnings.flatMap (fun w => styled (utf8 "warning: " ++ w) ++ [lineFeed]) ++
    (match p.summary with
      | some tally => lineFeed :: p.summaryLine tally ++ [lineFeed]
      | none => [])

/-- The screen after messages, up to the first that ends the display. -/
def run (p : Progress) : List Message → Progress
  | [] => p
  | m :: rest => if m.ends then p.update m else run (p.update m) rest

end Progress

end ClassUpgrade.Report
