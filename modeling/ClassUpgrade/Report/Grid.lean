/-
# Report.Grid — a table in columns

A column is as wide as the widest line in it. Headers and footers are
centred, with the odd blank on the right; cells are set left, and a cell of
several lines takes as many lines of the table.
-/
import ClassUpgrade.Text.Width

namespace ClassUpgrade.Report

set_option autoImplicit false

open Byte

def blanks (n : Nat) : Text := List.replicate n space

/-- A text with blanks after it, up to a width. -/
def setLeft (width : Nat) (t : Text) : Text := t ++ blanks (width - t.width)

/-- A text between blanks, up to a width. -/
def centre (width : Nat) (t : Text) : Text :=
  let gap := width - t.width
  blanks (gap / 2) ++ t ++ blanks (gap - gap / 2)

def linesOf (t : Text) : List Text := Text.splitOn lineFeed t

/-- The largest of some numbers, or zero. -/
def largest (ns : List Nat) : Nat := ns.foldl max 0

/-- A table: as many headers and footers as each row has cells. -/
structure Grid where
  headers : List Text
  rows : List (List Text)
  footers : List Text
  deriving DecidableEq, Repr

namespace Grid

def columnWidth (g : Grid) (column : Nat) : Nat :=
  largest ((g.headers :: g.footers :: g.rows).flatMap fun cells =>
    (linesOf (cells.getD column [])).map Text.width)

def widths (g : Grid) : List Nat := (List.range g.headers.length).map g.columnWidth

def rule (widths : List Nat) : Text :=
  List.replicate (widths.foldl (fun n width => n + width + 2) 2) hyphen ++ [lineFeed]

/-- A centred text between blanks with what stands after it. -/
def centredCell (width : Nat) (t : Text) (separator : UInt8) : Text :=
  space :: centre width t ++ [space, separator]

/-- The headers on their line: a bar after each but the last. -/
def headerLine (widths : List Nat) (headers : List Text) : Text :=
  space :: ((widths.zip headers).zipIdx.flatMap fun ((width, t), i) =>
    centredCell width t (if i + 1 = headers.length then space else 0x7C)) ++ [lineFeed]

/-- The footers on their line: a bar after each that is not empty, except the last. -/
def footerLine (widths : List Nat) (footers : List Text) : Text :=
  space :: ((widths.zip footers).zipIdx.flatMap fun ((width, t), i) =>
    centredCell width t (if i + 1 = footers.length || t.isEmpty then space else 0x7C)) ++ [lineFeed]

/-- What an exhausted cell has on the further lines of its row. -/
def missingLine : Text := blanks 2

/-- One line of a row, given the lines of each of its cells. -/
def cellLine (widths : List Nat) (cells : List (List Text)) (i : Nat) : Text :=
  let texts := (widths.zip cells).map fun (width, lines) => setLeft width (lines.getD i missingLine)
  blanks 2 ++ Text.join (utf8 " | ") texts ++ blanks 2 ++ [lineFeed]

def rowLines (widths : List Nat) (cells : List Text) : Text :=
  let cells := cells.map linesOf
  (List.range (largest (cells.map List.length))).flatMap (cellLine widths cells)

def render (g : Grid) : Text :=
  let widths := g.widths
  headerLine widths g.headers ++ rule widths ++ g.rows.flatMap (rowLines widths) ++
    rule widths ++ footerLine widths g.footers ++ rule widths

end Grid

end ClassUpgrade.Report
