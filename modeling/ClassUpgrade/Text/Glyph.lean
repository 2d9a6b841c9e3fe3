/-
# Text.Glyph — a text read as characters

UTF-8 decoding that loses nothing: a text is a sequence of glyphs, each a
character or a stray byte that belongs to no well-formed sequence. A stray
byte counts as the replacement character U+FFFD wherever a rule asks for a
character, and keeps its byte wherever the text is copied.
-/
import ClassUpgrade.Text.Basic

namespace ClassUpgrade

set_option autoImplicit false

/-- One unit of a decoded text. -/
inductive Glyph where
  | char (c : Char)
  | stray (b : UInt8)
  deriving DecidableEq, Repr

namespace Glyph

/-- The character U+FFFD, which a stray byte counts as. -/
def replacement : Char := Char.ofNat 0xFFFD

/-- The character a glyph counts as. -/
def toChar : Glyph → Char
  | .char c => c
  | .stray _ => replacement

def bytes : Glyph → Text
  | .char c => String.utf8EncodeChar c
  | .stray b => [b]

/-- The six payload bits of a continuation byte. -/
def continuation? (b : UInt8) : Option Nat :=
  if 0x80 ≤ b && b ≤ 0xBF then some (b.toNat - 0x80) else none

/-- The character with code `code`, unless a shorter sequence could have written it. -/
def scalar? (least code : Nat) : Option Char :=
  if least ≤ code ∧ code.isValidChar then some (Char.ofNat code) else none

/-- The character written by a well-formed sequence that starts with `lead`. -/
def sequence? (lead : UInt8) (rest : Text) : Option Char :=
  if lead < 0x80 then some (Char.ofNat lead.toNat)
  else if lead < 0xC0 then none
  else if lead < 0xE0 then do
    let b ← rest[0]?.bind continuation?
    scalar? 0x80 ((lead.toNat - 0xC0) * 64 + b)
  else if lead < 0xF0 then do
    let b ← rest[0]?.bind continuation?
    let c ← rest[1]?.bind continuation?
    scalar? 0x800 (((lead.toNat - 0xE0) * 64 + b) * 64 + c)
  else if lead < 0xF8 then do
    let b ← rest[0]?.bind continuation?
    let c ← rest[1]?.bind continuation?
    let d ← rest[2]?.bind continuation?
    scalar? 0x10000 ((((lead.toNat - 0xF0) * 64 + b) * 64 + c) * 64 + d)
  else none

/-- The glyph at the front of a text whose first byte is `lead`. -/
def first (lead : UInt8) (rest : Text) : Glyph :=
  match sequence? lead rest with
  | some c => .char c
  | none => .stray lead

end Glyph

namespace Text

/-- Decodes after leaving out `skip` bytes, the tail of the glyph just read. -/
def glyphsFrom : Nat → Text → List Glyph
  | _, [] => []
  | skip + 1, _ :: rest => glyphsFrom skip rest
  | 0, lead :: rest =>
    let glyph := Glyph.first lead rest
    glyph :: glyphsFrom (glyph.bytes.length - 1) rest

def glyphs (t : Text) : List Glyph := glyphsFrom 0 t

def ofGlyphs (gs : List Glyph) : Text := gs.flatMap Glyph.bytes

/-- The characters of a text, a stray byte read as U+FFFD. -/
def chars (t : Text) : List Char := (glyphs t).map Glyph.toChar

def ofChars (cs : List Char) : Text := cs.flatMap String.utf8EncodeChar

end Text

end ClassUpgrade
