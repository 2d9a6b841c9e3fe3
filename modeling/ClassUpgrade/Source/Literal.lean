/-
# Source.Literal — strings, templates, comments and regular expressions

A literal is a stretch of script text whose bytes are not structure. Each
scanner here answers with a length: how many bytes of the text in front of it
belong to the literal, zero when none starts there. Only one rule looks back:
whether a slash opens a regular expression depends on the text before it,
which is passed reversed, nearest byte first.
-/
import ClassUpgrade.Source.Word

namespace ClassUpgrade.Source

set_option autoImplicit false

open Byte

def isQuote (b : UInt8) : Bool := b == singleQuote || b == doubleQuote || b == backtick

/-- The length of a string or template after its opening quote. A backslash takes the next
byte along, whatever it is. A line feed ends a string, not a template, and stays outside it. -/
def quotedTail (quote : UInt8) : (escaped : Bool) → Text → Nat
  | _, [] => 0
  | true, _ :: rest => quotedTail quote false rest + 1
  | false, b :: rest =>
    if b = backslash then quotedTail quote true rest + 1
    else if b = quote then 1
    else if b = lineFeed ∧ quote ≠ backtick then 0
    else quotedTail quote false rest + 1

/-- The length of the string or template at the front of the text, taken to be one. -/
def quotedLength : Text → Nat
  | [] => 0
  | quote :: rest => quotedTail quote false rest + 1

/-- The length of a block comment after its opening: through its close, or to the end. -/
def blockTail : Text → Nat
  | [] => 0
  | b :: rest =>
    if b = star ∧ rest.head? = some slash then 2 else blockTail rest + 1

/-- The length of the comment at the front of the text. A line comment leaves its line feed. -/
def commentLength : Text → Nat
  | b :: c :: rest =>
    if b = slash ∧ c = slash then (Text.line rest).length + 2
    else if b = slash ∧ c = star then blockTail rest + 2
    else 0
  | _ => 0

/-- The bytes after which a slash starts an expression. -/
def expressionOperators : Text := utf8 "(,=:[!&|?\x7b\x7d;+-*%<>~^"

/-- The words after which a slash starts an expression. -/
def expressionKeywords : List Text :=
  [utf8 "return", utf8 "typeof", utf8 "instanceof", utf8 "in", utf8 "of", utf8 "new",
    utf8 "delete", utf8 "void", utf8 "throw", utf8 "case", utf8 "do", utf8 "else",
    utf8 "yield", utf8 "await"]

/-- Whether a slash after `before` (reversed) opens a regular expression and does not divide:
it stands at the start of the text, after an operator or after a keyword. -/
def regexAllowed (before : Text) : Bool :=
  match before.dropWhile isSpace with
  | [] => true
  | b :: rest =>
    if expressionOperators.contains b then true
    else if isWordPart b then
      expressionKeywords.contains ((b :: rest).takeWhile isWordPart).reverse
    else false

/-- The length of a regular expression after its opening slash, flags included. A slash inside
a character class does not close it, and a backslash takes the next byte along. There is no
regular expression when the line or the text ends first. -/
def regexTail : (escaped inClass : Bool) → Text → Option Nat
  | _, _, [] => none
  | true, inClass, _ :: rest => (regexTail false inClass rest).map (· + 1)
  | false, inClass, b :: rest =>
    if b = backslash then (regexTail true inClass rest).map (· + 1)
    else if b = openBracket then (regexTail false true rest).map (· + 1)
    else if b = closeBracket then (regexTail false false rest).map (· + 1)
    else if b = slash ∧ inClass = false then some ((rest.takeWhile isWordPart).length + 1)
    else if b = lineFeed ∨ b = carriageReturn then none
    else (regexTail false inClass rest).map (· + 1)

/-- The length of the regular expression that the slash at the front of the text opens. -/
def regexLength : Text → Nat
  | [] => 0
  | _ :: rest =>
    match regexTail false false rest with
    | some n => n + 1
    | none => 0

/-- The length of the literal that starts between `before` (reversed) and the text. -/
def literalLength (before : Text) : Text → Nat
  | [] => 0
  | b :: rest =>
    if isQuote b then quotedLength (b :: rest)
    else if b = slash then
      if commentLength (b :: rest) ≠ 0 then commentLength (b :: rest)
      else if regexAllowed before then regexLength (b :: rest)
      else 0
    else 0

/-- The length of the blanks and comments that open the text, once `skip` bytes of a comment
have been passed over. -/
def triviaFrom : (skip : Nat) → Text → Nat
  | _, [] => 0
  | skip + 1, _ :: rest => triviaFrom skip rest + 1
  | 0, b :: rest =>
    if isSpace b then triviaFrom 0 rest + 1
    else
      match commentLength (b :: rest) with
      | 0 => 0
      | n + 1 => triviaFrom n rest + 1

def triviaLength (t : Text) : Nat := triviaFrom 0 t

end ClassUpgrade.Source
