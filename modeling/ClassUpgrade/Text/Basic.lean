/-
# Text.Basic — texts as sequences of bytes

Every document, path, pattern and message of the tool is a `Text`: a list of
bytes that need not be valid UTF-8. Offsets and lengths count bytes. This
module names the bytes with a meaning of their own and gives the operations
that read a text without decoding it; `Text.Glyph` decodes.
-/

namespace ClassUpgrade

set_option autoImplicit false

/-- A sequence of bytes, in any encoding. -/
abbrev Text := List UInt8

def utf8 (s : String) : Text := s.toUTF8.data.toList

namespace Byte

abbrev tab : UInt8 := 0x09
abbrev lineFeed : UInt8 := 0x0A
abbrev formFeed : UInt8 := 0x0C
abbrev carriageReturn : UInt8 := 0x0D
abbrev space : UInt8 := 0x20
abbrev bang : UInt8 := 0x21
abbrev doubleQuote : UInt8 := 0x22
abbrev hash : UInt8 := 0x23
abbrev dollar : UInt8 := 0x24
abbrev singleQuote : UInt8 := 0x27
abbrev openParen : UInt8 := 0x28
abbrev closeParen : UInt8 := 0x29
abbrev star : UInt8 := 0x2A
abbrev comma : UInt8 := 0x2C
abbrev hyphen : UInt8 := 0x2D
abbrev dot : UInt8 := 0x2E
abbrev slash : UInt8 := 0x2F
abbrev colon : UInt8 := 0x3A
abbrev semicolon : UInt8 := 0x3B
abbrev equals : UInt8 := 0x3D
abbrev question : UInt8 := 0x3F
abbrev openBracket : UInt8 := 0x5B
abbrev backslash : UInt8 := 0x5C
abbrev closeBracket : UInt8 := 0x5D
abbrev underscore : UInt8 := 0x5F
abbrev backtick : UInt8 := 0x60
abbrev openBrace : UInt8 := 0x7B
abbrev closeBrace : UInt8 := 0x7D

/-- An ASCII decimal digit. -/
def isDigit (b : UInt8) : Bool := 0x30 ≤ b && b ≤ 0x39

/-- An ASCII letter of either case. -/
def isAlpha (b : UInt8) : Bool := (0x61 ≤ b && b ≤ 0x7A) || (0x41 ≤ b && b ≤ 0x5A)

/-- The upper-case form of an ASCII letter; every other byte stays. -/
def toUpper (b : UInt8) : UInt8 := if 0x61 ≤ b && b ≤ 0x7A then b - 0x20 else b

def toLower (b : UInt8) : UInt8 := if 0x41 ≤ b && b ≤ 0x5A then b + 0x20 else b

end Byte

namespace Text

/-- The bytes from offset `start` up to, not including, offset `stop`. -/
def slice (t : Text) (start stop : Nat) : Text := (t.drop start).take (stop - start)

def startsWith (t lead : Text) : Bool := lead.isPrefixOf t

def endsWith (t tail : Text) : Bool := tail.reverse.isPrefixOf t.reverse

/-- The text `t` without `lead`, when `lead` stands at its front. -/
def after? (lead t : Text) : Option Text :=
  if startsWith t lead then some (t.drop lead.length) else none

/-- The text `t` without `lead` at its front, or `t` itself. -/
def withoutLead (lead t : Text) : Text := (after? lead t).getD t

/-- The text `t` without `tail` at its end, or `t` itself. -/
def withoutTail (tail t : Text) : Text :=
  if endsWith t tail then t.take (t.length - tail.length) else t

def includes (part : Text) : Text → Bool
  | [] => part.isEmpty
  | c :: rest => startsWith (c :: rest) part || includes part rest

/-- The pieces between the separators: one more than there are separators. -/
def splitOn (separator : UInt8) : Text → List Text
  | [] => [[]]
  | c :: rest =>
    match splitOn separator rest with
    | [] => [[c]]
    | piece :: pieces => if c = separator then [] :: piece :: pieces else (c :: piece) :: pieces

/-- The pieces in order, with `separator` between neighbours. -/
def join (separator : Text) (pieces : List Text) : Text := List.intercalate separator pieces

/-- Byte order: the first differing byte decides, and a prefix comes first. -/
def before (s t : Text) : Bool := decide (s < t)

/-- The text up to its first line feed. -/
def line (t : Text) : Text := t.takeWhile (· != Byte.lineFeed)

/-- Replaces every occurrence of `old`, found from the left and without overlap, by `new`;
`skip` counts the bytes of the occurrence being left out. An empty `old` is never found. -/
def replaceFrom (old new : Text) : Nat → Text → Text
  | _, [] => []
  | skip + 1, _ :: rest => replaceFrom old new skip rest
  | 0, c :: rest =>
    if !old.isEmpty && startsWith (c :: rest) old then
      new ++ replaceFrom old new (old.length - 1) rest
    else c :: replaceFrom old new 0 rest

def replace (old new t : Text) : Text := replaceFrom old new 0 t

end Text

end ClassUpgrade
