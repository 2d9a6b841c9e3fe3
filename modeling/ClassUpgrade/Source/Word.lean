/-
# Source.Word — identifiers, keywords and blanks of script text

The scanner reads ASCII identifiers only: a byte outside ASCII is never part
of a word, and never a blank.
-/
import ClassUpgrade.Text.Basic

namespace ClassUpgrade.Source

set_option autoImplicit false

open Byte

/-- A blank between tokens: space, tab, line feed or carriage return. -/
def isSpace (b : UInt8) : Bool := b == space || b == tab || b == lineFeed || b == carriageReturn

def isWordStart (b : UInt8) : Bool := b == underscore || b == dollar || isAlpha b

def isWordPart (b : UInt8) : Bool := isWordStart b || isDigit b

/-- The identifier at the front of the text, empty when there is none. -/
def word : Text → Text
  | [] => []
  | b :: rest => if isWordStart b then b :: rest.takeWhile isWordPart else []

def spaceLength (t : Text) : Nat := (t.takeWhile isSpace).length

/-- Whether `keyword` opens the text and no longer identifier does. -/
def hasKeyword (keyword t : Text) : Bool :=
  match Text.after? keyword t with
  | none => false
  | some [] => true
  | some (b :: _) => !isWordPart b

/-- Whether a word may start after the bytes `before`, read backwards: it is then
neither the tail of a longer word nor a member of something. -/
def atWordStart : Text → Bool
  | [] => true
  | b :: _ => !isWordPart b && b != dot

end ClassUpgrade.Source
