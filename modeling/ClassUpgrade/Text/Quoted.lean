/-
# Text.Quoted — a text between double quotes

Quotes and backslashes take a backslash, characters that show stay as they
are, the usual control characters have their letter, and everything else is
written by its code: `\x` with two digits for a control character or a stray
byte, `\u` with four and `\U` with eight for the rest.
-/
import ClassUpgrade.Text.Glyph
import ClassUpgrade.Text.Numeral
import ClassUpgrade.Text.Printable

namespace ClassUpgrade.Text

set_option autoImplicit false

/-- A character that shows in a quoted text: a graphic one or the plain space. -/
def isShown (c : Char) : Bool := c == ' ' || Printable.isGraphic c

/-- The letter that names a control character after a backslash. -/
def controlLetter? (c : Char) : Option UInt8 :=
  match c.toNat with
  | 0x07 => some 0x61
  | 0x08 => some 0x62
  | 0x09 => some 0x74
  | 0x0A => some 0x6E
  | 0x0B => some 0x76
  | 0x0C => some 0x66
  | 0x0D => some 0x72
  | _ => none

/-- A character that does not show, written by its letter or its code. -/
def codeEscape (c : Char) : Text :=
  match controlLetter? c with
  | some letter => [Byte.backslash, letter]
  | none =>
    if c.toNat < 0x20 ∨ c.toNat = 0x7F then utf8 "\\x" ++ hex 2 c.toNat
    else if c.toNat < 0x10000 then utf8 "\\u" ++ hex 4 c.toNat
    else utf8 "\\U" ++ hex 8 c.toNat

def quotedGlyph : Glyph → Text
  | .stray b => utf8 "\\x" ++ hex 2 b.toNat
  | .char c =>
    if c = Char.ofNat 0x22 ∨ c = Char.ofNat 0x5C then Byte.backslash :: String.utf8EncodeChar c
    else if isShown c then String.utf8EncodeChar c
    else codeEscape c

/-- The text between double quotes, with everything that does not show written out. -/
def quoted (t : Text) : Text :=
  Byte.doubleQuote :: (glyphs t).flatMap quotedGlyph ++ [Byte.doubleQuote]

end ClassUpgrade.Text
