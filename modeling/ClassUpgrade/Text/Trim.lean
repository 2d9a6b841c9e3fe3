/-
# Text.Trim — white space at the ends and between fields

White space is decided on characters (`Blank.isBlank`), so a stray byte is
never trimmed and never separates fields.
-/
import ClassUpgrade.Text.Blank
import ClassUpgrade.Text.Glyph
import ClassUpgrade.Text.LetterCase

namespace ClassUpgrade.Text

set_option autoImplicit false

def isBlankGlyph (g : Glyph) : Bool := Blank.isBlank g.toChar

def trim (t : Text) : Text :=
  ofGlyphs (((glyphs t).dropWhile isBlankGlyph).reverse.dropWhile isBlankGlyph).reverse

/-- The maximal runs of elements that are no separator, in order; `run` is the run being read,
reversed. -/
def runsFrom {α : Type} (isSeparator : α → Bool) (run : List α) : List α → List (List α)
  | [] => if run.isEmpty then [] else [run.reverse]
  | a :: rest =>
    if isSeparator a then
      if run.isEmpty then runsFrom isSeparator [] rest
      else run.reverse :: runsFrom isSeparator [] rest
    else runsFrom isSeparator (a :: run) rest

/-- The maximal runs of elements that are no separator, in order. -/
def runs {α : Type} (isSeparator : α → Bool) (as : List α) : List (List α) :=
  runsFrom isSeparator [] as

/-- The fields of a text: its maximal runs without white space. -/
def fields (t : Text) : List Text := (runs isBlankGlyph (glyphs t)).map ofGlyphs

/-- The text in lower case; a stray byte becomes U+FFFD. -/
def lower (t : Text) : Text := ofChars ((chars t).map LetterCase.lower)

end ClassUpgrade.Text
