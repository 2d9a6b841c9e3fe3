/-
# Shell.Source — the text of a script while it is read

Reading goes byte by byte and counts lines. A backslash before a line break
joins two lines. One token can be put back. The parts of the language that
hold no commands are read here: quoted text, the parameter between braces and
the sign of a redirection.
-/
import ClassUpgrade.Shell.Script

namespace ClassUpgrade.Shell

set_option autoImplicit false

open Byte

/-- A part of a script. -/
inductive Token where
  | fileEnd
  | lineEnd
  | semicolon
  | ampersand
  | andAlso
  | orElse
  | bar
  | openParen
  | closeParen
  | caseEnd
  | redirect (descriptor : Nat) (kind : Redirect) (stripped : Bool)
  | word (w : Word)
  | keyword (t : Text)

namespace Token

def label : Token → Text
  | .fileEnd => utf8 "end of file"
  | .lineEnd => utf8 "newline"
  | .semicolon => utf8 "\";\""
  | .ampersand => utf8 "\"&\""
  | .andAlso => utf8 "\"&&\""
  | .orElse => utf8 "\"||\""
  | .bar => utf8 "\"|\""
  | .openParen => utf8 "\"(\""
  | .closeParen => utf8 "\")\""
  | .caseEnd => utf8 "\";;\""
  | .redirect _ _ _ => utf8 "redirection"
  | .word _ => utf8 "word"
  | .keyword t => doubleQuote :: t ++ [doubleQuote]

def isKeyword (keyword : String) : Token → Bool
  | .keyword t => t == utf8 keyword
  | _ => false

/-- Whether a list of commands ends in front of a token. -/
def endsList : Token → Bool
  | .fileEnd | .closeParen | .caseEnd => true
  | .keyword t =>
    [utf8 "do", utf8 "done", utf8 "elif", utf8 "else", utf8 "esac", utf8 "fi", utf8 "then",
      [closeBrace]].contains t
  | _ => false

end Token

/-- A here-document whose text has not been read. -/
structure Awaited where
  number : Nat
  mark : Text
  stripped : Bool
  literal : Bool

/-- A script that is being read. -/
structure Source where
  rest : Text
  line : Nat
  /-- A token that has been read and put back. -/
  pushed : Option Token
  /-- The word that was read last. -/
  lastWord : Word
  awaited : List Awaited
  /-- The texts of here-documents by their numbers. -/
  documents : List (Nat × Word)
  /-- The number of the next here-document. -/
  nextDocument : Nat
  /-- The here-document whose text is being read. -/
  current : Option Awaited
  /-- What stands after the mark that has ended it. -/
  afterMark : Option Text
  /-- The words that stand for a text where a command starts. -/
  aliases : List (Text × Text)
  /-- The aliases being read, each with the number of bytes after it. -/
  expanding : List (Text × Nat)
  /-- The number of bytes after the last alias that ends with a blank: the word there can be an alias
  too. -/
  chained : Option Nat
  /-- Whether the text is that of a file or of the input, whose lines are shown while they are read
  if that is asked for. -/
  isShown : Bool

namespace Source

def start (text : Text) (nextDocument : Nat) (aliases : List (Text × Text)) : Source :=
  ⟨text, 1, none, [], [], [], nextDocument, none, none, aliases, [], none, false⟩

end Source

/-- Why a script makes no sense, and the line that shows it. -/
structure SyntaxFault where
  line : Nat
  message : Text
  deriving DecidableEq, Repr

/-- A step of reading a script. -/
abbrev Parse := StateT Source (Except SyntaxFault)

namespace Parse

def refuse {α : Type} (message : Text) : Parse α := do throw ⟨(← get).line, message⟩

def longestComplaint : Nat := 63

/-- Refuses a token, and says what is expected in its place. -/
def unexpected {α : Type} (t : Token) (expected : Option Token) : Parse α :=
  refuse ((t.label ++ utf8 " unexpected" ++
    match expected with
    | some e => utf8 " (expecting " ++ e.label ++ utf8 ")"
    | none => []).take longestComplaint)

def front : Parse (Option UInt8) := do return (← get).rest.head?

def drop (n : Nat) : Parse Unit := modify fun s => { s with rest := s.rest.drop n }

/-- A text from the first place that joins no lines, and the number of joints passed. -/
def afterJoints : Text → Text × Nat
  | 0x5C :: 0x0A :: rest =>
    let (t, n) := afterJoints rest
    (t, n + 1)
  | t => (t, 0)

/-- Starts a line. In a here-document, the line with its mark is the end of the text. -/
def startLine : Parse Unit := modify fun s =>
  match s.current with
  | none => s
  | some a =>
    let (rest, n) := afterJoints s.rest
    let rest := if a.stripped then rest.dropWhile (· == tab) else rest
    if Text.line rest == a.mark then
      let afterMark := rest.drop (a.mark.length + 1)
      { s with rest := [], afterMark := some afterMark, line := s.line + n + 1 }
    else { s with rest, line := s.line + n }

def dropLine : Parse Unit := do
  modify fun s => { s with rest := s.rest.drop 1, line := s.line + 1 }
  startLine

/-- The byte in front, joints passed. -/
def frontJoined : Parse (Option UInt8) := do
  modify fun s =>
    let (rest, n) := afterJoints s.rest
    { s with rest, line := s.line + n }
  front

/-- Passes a byte if it is in front, and says whether it was. -/
def accept (b : UInt8) : Parse Bool := do
  if (← frontJoined) == some b then
    drop 1
    pure true
  else pure false

/-- The bytes of a kind in front. -/
def takeJoined (isWanted : UInt8 → Bool) : (fuel : Nat) → Parse Text
  | 0 => pure []
  | fuel + 1 => do
    match ← frontJoined with
    | some b =>
      if isWanted b then
        drop 1
        let rest ← takeJoined isWanted fuel
        pure (b :: rest)
      else pure []
    | none => pure []

def pushBack (t : Token) : Parse Unit := modify fun s => { s with pushed := some t }

/-- The end of fuel, of which there is always enough. -/
def exhausted {α : Type} : Parse α := refuse (utf8 "too long")

/-- As much fuel as the text needs. -/
def enough : Parse Nat := do return (← get).rest.length + 1

end Parse

open Parse

/-- Ends a word unless it is quoted. -/
def endsWord (b : UInt8) : Bool :=
  [space, tab, lineFeed, semicolon, 0x26, 0x7C, 0x3C, 0x3E, openParen, closeParen].contains b

/-- The parameter that a byte alone stands for. -/
def specialParameter? (b : UInt8) : Option Parameter :=
  if isDigit b then some (.position (b.toNat - 48))
  else if b == Byte.hash then some .count
  else if b == question then some .status
  else if b == 0x40 then some .each
  else if b == star then some .joined
  else if b == hyphen then some .options
  else if b == dollar then some .process
  else if b == bang then some .background
  else none

/-- A word being put together: its pieces and the bytes of the last one, reversed. -/
structure Draft where
  pieces : List Piece
  quoted : Bool
  bytes : List UInt8

namespace Draft

def empty : Draft := ⟨[], false, []⟩

def closed (d : Draft) : Draft :=
  if d.bytes.isEmpty then d else ⟨.text d.quoted d.bytes.reverse :: d.pieces, false, []⟩

def add (d : Draft) (quoted : Bool) (b : UInt8) : Draft :=
  if d.quoted == quoted then { d with bytes := b :: d.bytes }
  else { d.closed with quoted, bytes := [b] }

def push (d : Draft) (p : Piece) : Draft := { d.closed with pieces := p :: d.closed.pieces }

def pushAll (d : Draft) (ps : List Piece) : Draft :=
  { d.closed with pieces := ps.reverse ++ d.closed.pieces }

def done (d : Draft) : Word := d.closed.pieces.reverse

end Draft

/-- Refuses a text that ends between quotes. A here-document needs no quotes, but what is open
around them there is left open too. -/
def refuseOpenQuotes {α : Type} : Parse α := do
  if (← get).current.isSome then refuse (utf8 "Missing '\x7d'")
  else refuse (utf8 "Unterminated quoted string")

/-- The text between single quotes, the second one passed. -/
def readSingleQuoted : (fuel : Nat) → (reversed : Text) → Parse Text
  | 0, _ => refuseOpenQuotes
  | fuel + 1, reversed => do
    match ← front with
    | none => refuseOpenQuotes
    | some b =>
      if b == singleQuote then
        drop 1
        pure reversed.reverse
      else if b == lineFeed then
        dropLine
        readSingleQuoted fuel (b :: reversed)
      else
        drop 1
        readSingleQuoted fuel (b :: reversed)

/-- The text between backquotes, the second one passed. A backslash takes the meaning from a
backslash, a dollar sign and a backquote, and between double quotes from a double quote. -/
def readBackquoted (quoted : Bool) : (fuel : Nat) → (reversed : Text) → Parse Text
  | 0, _ => refuse (utf8 "EOF in backquote substitution")
  | fuel + 1, reversed => do
    match ← frontJoined with
    | none => refuse (utf8 "EOF in backquote substitution")
    | some b =>
      if b == backtick then
        drop 1
        pure reversed.reverse
      else if b == lineFeed then
        dropLine
        readBackquoted quoted fuel (b :: reversed)
      else if b == backslash then
        drop 1
        match ← front with
        | none => refuse (utf8 "EOF in backquote substitution")
        | some c =>
          drop 1
          if [backslash, backtick, dollar].contains c || (quoted && c == doubleQuote) then
            readBackquoted quoted fuel (c :: reversed)
          else readBackquoted quoted fuel (c :: b :: reversed)
      else
        drop 1
        readBackquoted quoted fuel (b :: reversed)

/-- A parameter and what is done with it, after the opening brace. The operation is none where the
closing brace has been passed. -/
def readBraced : Parse (Parameter × Option Operation) := do
  let fuel ← enough
  match ← frontJoined with
  | some c =>
    if isNameStart c then
      let name ← takeJoined isNameByte fuel
      pure (.named name, ← readOperation)
    else if isDigit c then
      let digits ← takeJoined isDigit fuel
      pure (.position ((Text.digits? 10 digits).getD 0), ← readOperation)
    else if c == closeBrace then pure (.named [], some .unknown)
    else
      drop 1
      if c == Byte.hash then readAfterHash
      else
        match specialParameter? c with
        | some p => pure (p, ← readOperation)
        | none => pure (.named [], some .unknown)
  | none => pure (.named [], some .unknown)
where
  /-- What stands after the number sign: the parameter whose length is asked for, or an operation
  on the number of arguments. -/
  readAfterHash : Parse (Parameter × Option Operation) := do
    let fuel ← enough
    match ← frontJoined with
    | some c =>
      if isNameByte c then
        let name ← takeJoined (if isDigit c then isDigit else isNameByte) fuel
        let p :=
          if isDigit c then Parameter.position ((Text.digits? 10 name).getD 0) else .named name
        pure (p, some (if (← frontJoined) == some closeBrace then .length else .unknown))
      else
        let rest := (← get).rest
        match specialParameter? c, rest[1]? == some closeBrace && c != closeBrace with
        | some p, true =>
          drop 1
          pure (p, some .length)
        | none, true => pure (.count, ← readOperation)
        | _, false => pure (.count, ← readOperation)
    | none => pure (.count, ← readOperation)
  /-- The operation on a parameter; none at the closing brace. -/
  readOperation : Parse (Option Operation) := do
    match ← frontJoined with
    | none => pure (some .unknown)
    | some c =>
      drop 1
      if c == closeBrace then pure none
      else if c == 0x25 || c == Byte.hash then
        let twice ← accept c
        pure (some (.trim (c == Byte.hash) twice))
      else if c == colon then
        match ← frontJoined with
        | none => pure (some .unknown)
        | some d =>
          drop 1
          pure (some (operationOf true d))
      else pure (some (operationOf false c))
  /-- The operation that a sign stands for. -/
  operationOf (nonEmpty : Bool) (b : UInt8) : Operation :=
    if b == hyphen then .orElse nonEmpty
    else if b == equals then .orAssign nonEmpty
    else if b == question then .orFail nonEmpty
    else if b == 0x2B then .instead nonEmpty
    else if b == closeBrace then .value
    else .unknown

def readRedirect (descriptor : Option Nat) : Parse Token := do
  let sign ← front
  drop 1
  if sign == some 0x3E then
    let fd := descriptor.getD 1
    if ← accept 0x3E then pure (.redirect fd .append false)
    else if ← accept 0x7C then pure (.redirect fd .overwrite false)
    else if ← accept 0x26 then pure (.redirect fd .copy false)
    else pure (.redirect fd .write false)
  else
    let fd := descriptor.getD 0
    if ← accept 0x3C then
      let stripped ← accept hyphen
      pure (.redirect fd (.document 0) stripped)
    else if ← accept 0x26 then pure (.redirect fd .copy false)
    else if ← accept 0x3E then pure (.redirect fd .readWrite false)
    else pure (.redirect fd .read false)

/-- Which tokens are looked for where the next one is read. -/
structure Expectation where
  /-- Line breaks are passed. -/
  skipsLines : Bool
  keywords : Bool
  aliases : Bool

/-- A place where no word has a meaning of its own. -/
def anyToken : Expectation := ⟨false, false, false⟩

/-- A place where a command starts, on this line. -/
def commandHere : Expectation := ⟨false, true, true⟩

/-- A place where a command starts, on this line or below. -/
def commandBelow : Expectation := ⟨true, true, true⟩

/-- The lines up to a mark, the rest after it and the number of lines passed. -/
def documentLines (a : Awaited) : (fuel : Nat) → Text → Text × Text × Nat
  | 0, t => ([], t, 0)
  | _, [] => ([], [], 0)
  | fuel + 1, t =>
    let line := Text.line t
    let rest := t.drop (line.length + 1)
    let shown := if a.stripped then line.dropWhile (· == tab) else line
    if shown == a.mark then ([], rest, 1)
    else
      let ended := line.length < t.length
      let (more, rest, n) := documentLines a fuel rest
      (shown ++ (if ended then [lineFeed] else []) ++ more, rest, n + 1)

/-- What a word with quoted text stands between. -/
inductive Enclosure where
  /-- Double quotes. -/
  | quotes
  /-- The braces of a parameter between double quotes; a double quote hides braces up to the next
  one. -/
  | braces (hidden : Bool)
  /-- The parentheses of arithmetic, and how many more are open. -/
  | parens (depth : Nat)
  | document
  deriving DecidableEq, Repr

/-- What a byte does inside an enclosure. -/
inductive Reach where
  | ended
  | left (e : Enclosure)
  | shown (e : Enclosure)
  deriving DecidableEq, Repr

namespace Enclosure

/-- Refuses an enclosure that is not closed by the end of the text, unless that closes it. -/
def atEnd (e : Enclosure) : Parse Unit :=
  match e with
  | .quotes | .braces _ => refuseOpenQuotes
  | .parens _ => refuse (utf8 "Missing '))'")
  | .document => pure ()

/-- Whether a backslash takes the meaning from a byte. -/
def isEscapable (e : Enclosure) (b : UInt8) : Bool :=
  [dollar, backtick, backslash].contains b ||
    match e with
    | .quotes | .parens _ => b == doubleQuote
    | .braces _ => b == doubleQuote || b == closeBrace
    | .document => false

/-- Passes a byte that starts nothing to be replaced. -/
def pass (e : Enclosure) (b : UInt8) : Parse Reach := do
  if b == lineFeed then dropLine else drop 1
  match e with
  | .quotes => pure (if b == doubleQuote then .ended else .shown e)
  | .braces hidden =>
    pure (if b == doubleQuote then .left (.braces (!hidden))
      else if b == closeBrace && !hidden then .ended
      else .shown e)
  | .parens depth =>
    if b == openParen then pure (.shown (.parens (depth + 1)))
    else if b == closeParen then
      match depth with
      | 0 => pure (if ← accept closeParen then .ended else .shown e)
      | depth + 1 => pure (.shown (.parens depth))
    else pure (.shown e)
  | .document => pure (.shown e)

end Enclosure

end ClassUpgrade.Shell
