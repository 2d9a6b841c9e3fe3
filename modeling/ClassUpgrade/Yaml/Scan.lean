/-
# Yaml.Scan — a place in a YAML text

The scan keeps what the next token depends on: where it stands, how deep it
is in flow collections, the indentation of the open block collections, the
places at which a key may turn out to have started, and the tokens that have
been read and not yet taken.

A line ends with a line feed, a carriage return, both, U+0085, U+2028 or
U+2029. The last two stay in the text of a scalar as they are; the others
become a line feed.
-/
import ClassUpgrade.Text.Glyph

namespace ClassUpgrade.Yaml

set_option autoImplicit false

/-- The parts a YAML text consists of. -/
inductive Token where
  | streamEnd
  /-- A directive that gives the version. -/
  | version (major minor : Nat)
  /-- A directive that says what the tags with a handle start with. -/
  | shorthand (handle meaning : Text)
  | documentStart
  | documentEnd
  | sequenceStart
  | mappingStart
  | blockEnd
  | flowSequenceStart
  | flowSequenceEnd
  | flowMappingStart
  | flowMappingEnd
  | entry
  | flowEntry
  | key
  | value
  | alias (name : Text)
  | anchor (name : Text)
  /-- A tag; one without a handle is given in full. -/
  | tag (handle rest : Text)
  | scalar (plain : Bool) (text : Text)
  deriving DecidableEq, Repr

/-- A place where a key may have started. `number` counts the tokens before it. A key is awaited
while the token it would start with may not be taken, and required when nothing else may stand
there. -/
structure PendingKey where
  possible : Bool
  required : Bool
  awaited : Bool
  number : Nat
  index : Nat
  line : Nat
  column : Nat
  deriving DecidableEq, Repr

/-- A place in a text and what the next token depends on. -/
structure Scan where
  rest : List Char
  /-- The number of characters passed. -/
  index : Nat
  line : Nat
  column : Nat
  /-- The number of line breaks since the last character that is not blank. -/
  breaks : Nat
  flowLevel : Nat
  indent : Int
  indents : List Int
  keyAllowed : Bool
  /-- One for the block context and one more for each open flow collection, innermost first. -/
  keys : List PendingKey
  /-- The tokens that have been read and not taken. -/
  queue : List Token
  /-- The number of tokens that have been taken. -/
  taken : Nat
  /-- Whether the text has a second byte order mark in front, which makes every line lose its
  first character. -/
  doublyMarked : Bool

/-- A space or a tab. -/
def isBlank (c : Char) : Bool := c == ' ' || c == '\t'

/-- The line break at the front of a text: what it becomes, and how many characters it takes. -/
def lineBreak? : List Char → Option (Char × Nat)
  | '\r' :: '\n' :: _ => some ('\n', 2)
  | c :: _ =>
    if c == '\r' || c == '\n' || c.toNat == 0x85 then some ('\n', 1)
    else if c.toNat == 0x2028 || c.toNat == 0x2029 then some (c, 1)
    else none
  | [] => none

def startsBreak (cs : List Char) : Bool := (lineBreak? cs).isSome

/-- Whether a text is at its end or has a line break in front. -/
def startsLineEnd (cs : List Char) : Bool := cs.isEmpty || startsBreak cs

/-- Whether a text is at its end or has white space in front. -/
def startsBlank (cs : List Char) : Bool := startsLineEnd cs || cs.head?.any isBlank

namespace Scan

def start (text : List Char) : Scan where
  rest := text
  index := 0
  line := 0
  column := 0
  breaks := 0
  flowLevel := 0
  indent := -1
  indents := []
  keyAllowed := true
  keys := [⟨false, false, false, 0, 0, 0, 0⟩]
  queue := []
  taken := 0
  doublyMarked := text.head? == some (Char.ofNat 0xFEFF)

def skip (s : Scan) : Scan :=
  match s.rest with
  | [] => s
  | c :: rest =>
    { s with
      rest, index := s.index + 1, column := s.column + 1,
      breaks := if isBlank c then s.breaks else 0 }

def skipMany (s : Scan) : Nat → Scan
  | 0 => s
  | n + 1 => (s.skip).skipMany n

/-- The place after the line break in front, if there is one. -/
def skipBreak (s : Scan) : Scan :=
  match lineBreak? s.rest with
  | some (_, n) =>
    { s with
      rest := s.rest.drop n, index := s.index + n, line := s.line + 1, column := 0,
      breaks := s.breaks + 1 }
  | none => s

def skipBlanks (s : Scan) : Scan := s.skipMany (s.rest.takeWhile isBlank).length

def lineLength : List Char → Nat
  | [] => 0
  | c :: rest => if startsBreak (c :: rest) then 0 else lineLength rest + 1

def skipLine (s : Scan) : Scan := s.skipMany (lineLength s.rest)

def push (s : Scan) (t : Token) : Scan := { s with queue := s.queue ++ [t] }

/-- Puts a token in front of the one with a number, or behind all if that one has been taken. -/
def insert (s : Scan) (number : Nat) (t : Token) : Scan :=
  if number < s.taken then s.push t
  else
    let place := number - s.taken
    { s with queue := s.queue.take place ++ t :: s.queue.drop place }

/-- A line that starts with a document marker. -/
def atMarker (s : Scan) (marker : List Char) : Bool :=
  s.column == 0 && marker.isPrefixOf s.rest && startsBlank (s.rest.drop 3)

/-- A line that starts or ends a document. -/
def atDocumentMarker (s : Scan) : Bool := s.atMarker ['-', '-', '-'] || s.atMarker ['.', '.', '.']

/-- How far a scan looks ahead for a comment. -/
def commentReach : Nat := 512

/-- Passes a comment at the end of the line, unless the line has just begun. -/
def skipLineComment (s : Scan) : Scan :=
  let gap := (s.rest.takeWhile isBlank).length
  if s.breaks == 0 && gap < commentReach && (s.rest.drop gap).head? == some '#' then
    (s.skipMany gap).skipLine
  else s

/-- Passes `n` characters that are blanks and line breaks. -/
def skipGap : (n : Nat) → Scan → Scan
  | 0, s => s
  | n + 1, s =>
    match s.rest with
    | '\r' :: '\n' :: rest => skipGap n { s with rest := '\n' :: rest, index := s.index + 1 }
    | _ => skipGap n (if startsBreak s.rest then s.skipBreak else s.skip)

/-- Whether a character may stand between two comments. -/
def isBetweenComments (c : Char) : Bool := isBlank c || c == '\r' || c == '\n'

/-- Passes the comment in front and the comments on the lines below it, blank lines between. -/
def skipComments : (fuel : Nat) → Scan → Scan
  | 0, s => s
  | fuel + 1, s =>
    let s := s.skipLine
    match s.rest with
    | [] => s
    | c :: rest =>
      let gap := (rest.takeWhile isBetweenComments).length + 1
      if isBetweenComments c && gap < commentReach && (s.rest.drop gap).head? == some '#' then
        skipComments fuel (skipGap gap s)
      else s

/-- Passes blanks, comments and line breaks. A tab does not count as indentation. -/
def skipTrivia : (fuel : Nat) → Scan → Scan
  | 0, s => s
  | fuel + 1, s =>
    let s := if s.column == 0 && s.doublyMarked then s.skip else s
    let tabs := s.flowLevel > 0 || !s.keyAllowed
    let s := s.skipMany (s.rest.takeWhile fun c => c == ' ' || (tabs && c == '\t')).length
    let s := if s.rest.head? == some '#' then skipComments (s.rest.length + 1) s else s
    if startsBreak s.rest then
      let s := s.skipBreak
      skipTrivia fuel { s with keyAllowed := s.keyAllowed || s.flowLevel == 0 }
    else s

end Scan

end ClassUpgrade.Yaml
