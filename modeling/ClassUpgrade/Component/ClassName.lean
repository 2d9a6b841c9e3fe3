/-
# Component.ClassName — a class identifier from a type name

The words of a type name are its maximal runs of letters, decimal digits and
underscores. The class name joins them, each with its first character in
upper case; a first word that starts with a digit is left out.
-/
import ClassUpgrade.Text.DecimalDigit
import ClassUpgrade.Text.Letter
import ClassUpgrade.Text.Trim

namespace ClassUpgrade.Component

set_option autoImplicit false

/-- A character that a class identifier may hold. -/
def isNameChar (c : Char) : Bool :=
  c == '_' || Letter.isLetter c || DecimalDigit.isDecimalDigit c

def nameWords (typeName : Text) : List (List Char) :=
  Text.runs (fun c => !isNameChar c) (Text.chars typeName)

def capitalized : List Char → List Char
  | [] => []
  | c :: rest => LetterCase.upper c :: rest

/-- The words without a first one that starts with a digit. -/
def withoutLeadingNumber : List (List Char) → List (List Char)
  | [] => []
  | w :: ws => if w.head?.any DecimalDigit.isDecimalDigit then ws else w :: ws

def classNameChars (typeName : Text) : List Char :=
  (withoutLeadingNumber (nameWords typeName)).flatMap capitalized

/-- The class name of a type name, empty when no word is left. -/
def className (typeName : Text) : Text := Text.ofChars (classNameChars typeName)

end ClassUpgrade.Component
