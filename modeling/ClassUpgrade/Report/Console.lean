/-
# Report.Console — events as lines

Each result is one line, with the methods of its components below it in a
plan and its warning last. The summary is a table.
-/
import ClassUpgrade.Report.Event
import ClassUpgrade.Report.Grid
import ClassUpgrade.Text.Numeral

namespace ClassUpgrade.Report

set_option autoImplicit false

open Byte Migration

/-- What a part of a line is painted for. -/
inductive Tone where
  | failure
  | change
  | warning
  | muted
  deriving DecidableEq, Repr

namespace Tone

def opening : Tone → Text
  | .failure => utf8 "31;1"
  | .change => utf8 "32"
  | .warning => utf8 "33"
  | .muted => utf8 "2"

def closing : Tone → Text
  | .failure => utf8 "0;22"
  | .change => utf8 "0"
  | .warning => utf8 "0"
  | .muted => utf8 "22"

/-- An escape sequence with style numbers. -/
def escape (numbers : Text) : Text := 0x1B :: openBracket :: numbers ++ utf8 "m"

def paint (tone : Tone) (t : Text) : Text := escape tone.opening ++ t ++ escape tone.closing

end Tone

def Status.tone : Status → Tone
  | .failed => .failure
  | .unchanged => .muted
  | .skipped => .muted
  | _ => .change

structure Console where
  color : Bool
  mode : Mode
  deriving DecidableEq, Repr

namespace Console

def toned (c : Console) (tone : Tone) (t : Text) : Text := if c.color then tone.paint t else t

/-- What a run in a mode does to the files. -/
def verb : Mode → Text
  | .migrate => utf8 "Migrating"
  | .plan => utf8 "Checking"

def upcomingLine (c : Console) (count : Int) : Text :=
  verb c.mode ++ space :: Text.ofInt count ++ utf8 " file(s)\n"

/-- The components of a result, in parentheses. -/
def componentPart (r : FileResult Text) : Text :=
  if r.components.isEmpty then [] else utf8 " (" ++ componentList r ++ utf8 ")"

/-- The failure of a result, after a colon. -/
def failurePart (r : FileResult Text) : Text :=
  match r.failure with
  | some message => utf8 ": " ++ message
  | none => []

/-- The methods of the components of a result, a line each. -/
def methodPart (r : FileResult Text) : Text :=
  r.components.flatMap fun typeName =>
    let entries := methodsOf r typeName
    if entries.isEmpty then [] else utf8 "\n  " ++ typeName ++ utf8 ": " ++ methodList entries

def resultLine (c : Console) (r : FileResult Text) : Text :=
  let status := statusOf c.mode r
  c.toned status.tone status.paddedLabel ++ r.path ++ componentPart r ++ failurePart r ++
    (if c.mode = .plan then methodPart r else []) ++
    (if r.warning.isEmpty then []
      else utf8 "\n  " ++ c.toned .warning (utf8 "warning: " ++ r.warning)) ++ [lineFeed]

def summaryGrid (mode : Mode) (rs : List (FileResult Text)) : Grid where
  headers := [utf8 "PATH", utf8 "COMPONENTS", utf8 "IMPORTS", utf8 "STATUS"]
  rows := rs.map fun r => [r.path, componentList r, importList r, (statusOf mode r).label]
  footers :=
    let tally := Tally.ofResults rs
    [utf8 "TOTAL FILES " ++ Text.ofNat rs.length, [], [],
      Text.ofNat tally.changed ++ utf8 " CHANGED " ++ Text.ofNat tally.failed ++ utf8 " FAILED"]

def summaryLines (c : Console) (rs : List (FileResult Text)) : Text :=
  if rs.isEmpty then utf8 "No files processed\n"
  else lineFeed :: (summaryGrid c.mode rs).render

def print (c : Console) : Event Text → Text
  | .upcoming count => c.upcomingLine count
  | .result r => c.resultLine r
  | .summary rs => c.summaryLines rs
  | .closed => []

def printAll (c : Console) (events : List (Event Text)) : Text := events.flatMap c.print

end Console

end ClassUpgrade.Report
