/-
# Yaml.Token — the tokens of a YAML text

Collections in block style are told by indentation, those in flow style by
brackets. A key is recognised late, by the colon after it: the scan then puts
the key token, and the start of the mapping if one starts there, in front of
what it has read since. So a token can be taken only when it is sure that no
key starts with it.
-/
import ClassUpgrade.Yaml.Text

namespace ClassUpgrade.Yaml

set_option autoImplicit false

namespace Scan

/-! ## Indentation -/

/-- How many collections may be open at a time, in each of the two styles. -/
def mostOpen : Nat := 10000

/-- Closes block collections that are indented by more than `column`. -/
def unrollTo (column : Int) : List Int → Scan → Scan
  | [], s => s
  | outer :: rest, s =>
    if column < s.indent then
      unrollTo column rest ({ s with indent := outer, indents := rest }.push .blockEnd)
    else s

/-- Closes the block collections that end at a column; flow collections ignore indentation. -/
def unroll (s : Scan) (column : Int) : Scan :=
  if s.flowLevel == 0 then unrollTo column s.indents s else s

/-- Opens a block collection at a column deeper than the current one. Its start goes in front of
the token with a number, or behind all tokens. -/
def roll (s : Scan) (column : Nat) (number : Option Nat) (t : Token) : Option Scan :=
  if s.flowLevel == 0 && s.indent < (column : Int) then
    if s.indents.length ≥ mostOpen then none
    else
      let s := { s with indents := s.indent :: s.indents, indent := column }
      match number with
      | some n => some (s.insert n t)
      | none => some (s.push t)
  else some s

/-! ## Pending keys -/

/-- Whether a pending key lies too far back: on an earlier line, or too many characters ago. -/
def isStale (s : Scan) (k : PendingKey) : Bool := k.line < s.line || k.index + 1024 < s.index

/-- A key that cannot be one any more. -/
def given (k : PendingKey) : PendingKey := { k with possible := false, awaited := false }

/-- Gives up the innermost pending key; one that has to be a key is an error. -/
def dropKey (s : Scan) : Option Scan :=
  match s.keys with
  | k :: rest =>
    if !k.possible then some s
    else if k.required then none
    else some { s with keys := given k :: rest }
  | [] => some s

def nextNumber (s : Scan) : Nat := s.taken + s.queue.length

/-- Remembers that a key may start here. -/
def saveKey (s : Scan) : Option Scan :=
  if s.keyAllowed then do
    let s ← s.dropKey
    let k : PendingKey :=
      { possible := true, required := s.flowLevel == 0 && s.indent == (s.column : Int),
        awaited := true, number := s.nextNumber, index := s.index, line := s.line,
        column := s.column }
    some { s with keys := k :: s.keys.drop 1 }
  else some s

/-! ## Indicators -/

def openFlow (s : Scan) (t : Token) : Option Scan := do
  let s ← s.saveKey
  guard (s.flowLevel < mostOpen)
  let inner : PendingKey :=
    { possible := false, required := false, awaited := false, number := s.nextNumber,
      index := s.index, line := s.line, column := s.column }
  let s := { s with flowLevel := s.flowLevel + 1, keys := inner :: s.keys, keyAllowed := true }
  some (s.skip.push t)

/-- The close of a flow collection. When nothing in the collection could have been a key, the
collection itself is not waited for as a key either. -/
def closeFlow (s : Scan) (t : Token) : Option Scan := do
  let s ← s.dropKey
  let keys :=
    match s.flowLevel, s.keys with
    | _ + 1, inner :: outer =>
      outer.map fun k => if k.number == inner.number then { k with awaited := false } else k
    | _, keys => keys
  some ({ s with flowLevel := s.flowLevel - 1, keys, keyAllowed := false }.skip.push t)

def flowEntry (s : Scan) : Option Scan := do
  let s ← s.dropKey
  some ({ s with keyAllowed := true }.skip.push .flowEntry)

def blockEntry (s : Scan) : Option Scan := do
  guard (s.flowLevel != 0 || s.keyAllowed)
  let s ← s.roll s.column none .sequenceStart
  let s ← s.dropKey
  some ({ s with keyAllowed := true }.skip.push .entry)

def keyMark (s : Scan) : Option Scan := do
  guard (s.flowLevel != 0 || s.keyAllowed)
  let s ← s.roll s.column none .mappingStart
  let s ← s.dropKey
  some ({ s with keyAllowed := s.flowLevel == 0 }.skip.push .key)

/-- A value without a key on its line. -/
def valueAlone (s : Scan) : Option Scan := do
  guard (s.flowLevel != 0 || s.keyAllowed)
  let s ← s.roll s.column none .mappingStart
  some ({ s with keyAllowed := s.flowLevel == 0 }.skip.push .value)

/-- The mark of a value, which makes the pending key a key. -/
def valueMark (s : Scan) : Option Scan :=
  match s.keys with
  | k :: rest =>
    if !k.possible then valueAlone s
    else if s.isStale k then
      if k.required then none else valueAlone { s with keys := given k :: rest }
    else do
      let s := { s with keys := given k :: rest }.insert k.number .key
      let s ← s.roll k.column (some k.number) .mappingStart
      some ({ s with keyAllowed := false }.skip.push .value)
  | [] => valueAlone s

/-! ## Names, tags and directives -/

/-- A character of the name of an anchor, an alias or a handle. -/
def isNameChar (c : Char) : Bool := c.isAlphanum || c == '_' || c == '-'

/-- An anchor or an alias. -/
def named (s : Scan) (make : Text → Token) : Option Scan := do
  let s ← s.saveKey
  let name := (s.rest.drop 1).takeWhile isNameChar
  let after := s.rest.drop (name.length + 1)
  guard (!name.isEmpty && (startsBlank after || after.head?.any "?:,]\x7d%@\x60".toList.contains))
  some (({ s with keyAllowed := false }.skipMany (name.length + 1)).push (make (Text.ofChars name)))

/-- A character that stands for itself in a tag. -/
def isTagChar (c : Char) : Bool := isNameChar c || ";/?:@&=+$,.!~*'()[]".toList.contains c

/-- The byte written as a percent sign and two hexadecimal digits in front of a text. -/
def percentByte? : List Char → Option Nat
  | '%' :: rest => hexNumber? 2 rest
  | _ => none

/-- How many bytes a character takes that starts with a byte. -/
def leadWidth (b : Nat) : Nat :=
  if b < 0x80 then 1
  else if 0xC0 ≤ b ∧ b < 0xE0 then 2
  else if 0xE0 ≤ b ∧ b < 0xF0 then 3
  else if 0xF0 ≤ b ∧ b < 0xF8 then 4
  else 0

/-- The bytes of one character written with percent signs in front of a text. -/
def percentBytes? (cs : List Char) : Option (List Nat) := do
  let lead ← percentByte? cs
  guard (leadWidth lead != 0)
  let trail ← (List.range (leadWidth lead - 1)).mapM fun i => do
    let b ← percentByte? (cs.drop (3 * (i + 1)))
    guard (0x80 ≤ b && b < 0xC0)
    some b
  some (lead :: trail)

/-- Reads the part of a tag in which percent signs stand for bytes: its bytes and what follows. -/
def tagText? : (fuel : Nat) → List Char → Option (Text × List Char)
  | 0, _ => none
  | fuel + 1, cs =>
    match cs with
    | [] => some ([], [])
    | '%' :: _ => do
      let bytes ← percentBytes? cs
      let (text, rest) ← tagText? fuel (cs.drop (3 * bytes.length))
      some (bytes.map (fun b => UInt8.ofNat b) ++ text, rest)
    | c :: rest =>
      if isTagChar c then do
        let (text, rest) ← tagText? fuel rest
        some (Text.ofChars [c] ++ text, rest)
      else some ([], cs)

/-- The handle and the rest of the tag in front of a text, and what follows it. A tag in angle
brackets has no handle. -/
def tag? (cs : List Char) : Option (Text × Text × List Char) :=
  match cs with
  | '!' :: '<' :: rest => do
    let (text, rest) ← tagText? (rest.length + 1) rest
    guard (!text.isEmpty && rest.head? == some '>')
    some ([], text, rest.drop 1)
  | _ => do
    let name := (cs.drop 1).takeWhile isNameChar
    let after := cs.drop (name.length + 1)
    if after.head? == some '!' then
      let (text, rest) ← tagText? (after.length + 1) (after.drop 1)
      guard (!text.isEmpty)
      some (Text.ofChars ('!' :: name ++ ['!']), text, rest)
    else
      let (text, rest) ← tagText? (after.length + 1) after
      let whole := Text.ofChars name ++ text
      if whole.isEmpty then some ([], utf8 "!", rest) else some (utf8 "!", whole, rest)

def tagged (s : Scan) : Option Scan := do
  let s ← s.saveKey
  let (handle, text, after) ← tag? s.rest
  guard (startsBlank after)
  some (({ s with keyAllowed := false }.skipMany (s.rest.length - after.length)).push
    (.tag handle text))

/-- A document marker or a directive closes every block. -/
def closeBlocks (s : Scan) : Option Scan := do
  let s ← (s.unroll (-1)).dropKey
  some { s with keyAllowed := false }

def marker (s : Scan) (t : Token) : Option Scan := do
  let s ← s.closeBlocks
  some ((s.skipMany 3).push t)

def versionNumber? (cs : List Char) : Option (Nat × List Char) := do
  let digits := cs.takeWhile Char.isDigit
  guard (!digits.isEmpty && digits.length ≤ 2)
  some (digits.foldl (fun n d => n * 10 + (d.toNat - '0'.toNat)) 0, cs.drop digits.length)

/-- The version that a directive gives, and what follows it. -/
def version? (cs : List Char) : Option (Token × List Char) := do
  let (major, cs) ← versionNumber? (cs.dropWhile isBlank)
  guard (cs.head? == some '.')
  let (minor, cs) ← versionNumber? (cs.drop 1)
  some (.version major minor, cs)

/-- The handle that a directive gives and what it stands for, and what follows. -/
def shorthand? (cs : List Char) : Option (Token × List Char) := do
  let cs := cs.dropWhile isBlank
  guard (cs.head? == some '!')
  let name := (cs.drop 1).takeWhile isNameChar
  let after := cs.drop (name.length + 1)
  let (handle, after) ←
    if after.head? == some '!' then some ('!' :: name ++ ['!'], after.drop 1)
    else if name.isEmpty then some (['!'], after)
    else none
  guard (after.head?.any isBlank)
  let after := after.dropWhile isBlank
  let (meaning, after) ← tagText? (after.length + 1) after
  guard (!meaning.isEmpty && startsBlank after)
  some (.shorthand (Text.ofChars handle) meaning, after)

/-- A directive, which takes its line. -/
def directive (s : Scan) : Option Scan := do
  let s ← s.closeBlocks
  let name := (s.rest.drop 1).takeWhile isNameChar
  let value := s.rest.drop (name.length + 1)
  guard (startsBlank value)
  let (token, after) ←
    if name == "YAML".toList then version? value
    else if name == "TAG".toList then shorthand? value
    else none
  let s := ((s.skipMany (s.rest.length - after.length)).push token).skipBlanks
  let s := if s.rest.head? == some '#' then s.skipLine else s
  guard (startsLineEnd s.rest)
  some s.skipBreak

/-! ## Scalars -/

def quoted (s : Scan) (quote : Char) : Option Scan := do
  let s ← s.saveKey
  let (text, s) ← quotedFrom quote (s.rest.length + 1) { s with keyAllowed := false }.skip []
  some (s.push (.scalar false (Text.ofChars text)))

def block (s : Scan) (literal : Bool) : Option Scan := do
  let s ← s.dropKey
  let (text, s) ← blockScalar literal { s with keyAllowed := true }
  some (s.push (.scalar false (Text.ofChars text)))

/-- Whether a plain scalar may start with `c` before `rest`. -/
def startsPlain (s : Scan) (c : Char) (rest : List Char) : Bool :=
  (!startsBlank (c :: rest) && !("-?:,[]\x7b\x7d#&*!|>\x27\x22%@\x60".toList.contains c)) ||
    (c == '-' && !(rest.head?.any isBlank)) ||
    (s.flowLevel == 0 && (c == '?' || c == ':') && !startsBlank rest)

def plain (s : Scan) : Option Scan := do
  let s ← s.saveKey
  let (text, s) ← plainFrom (s.indent + 1) (s.rest.length + 1) { s with keyAllowed := false } [] .none
  some (s.push (.scalar true (Text.ofChars text)))

/-! ## Tokens -/

/-- The token at a place that is neither white space nor a document marker. -/
def content (s : Scan) (c : Char) (rest : List Char) : Option Scan :=
  let apart := startsBlank rest
  let flow := s.flowLevel != 0
  if c == '[' then s.openFlow .flowSequenceStart
  else if c == '\x7b' then s.openFlow .flowMappingStart
  else if c == ']' then s.closeFlow .flowSequenceEnd
  else if c == '\x7d' then s.closeFlow .flowMappingEnd
  else if c == ',' then s.flowEntry
  else if c == '-' && apart then s.blockEntry
  else if c == '?' && (flow || apart) then s.keyMark
  else if c == ':' && (flow || apart) then s.valueMark
  else if c == '*' then s.named .alias
  else if c == '&' then s.named .anchor
  else if c == '!' then s.tagged
  else if (c == '|' || c == '>') && !flow then s.block (c == '|')
  else if c == '\'' || c == '"' then s.quoted c
  else if s.startsPlain c rest then s.plain
  else none

/-- The end of the text, which ends its last line. -/
def finish (s : Scan) : Option Scan := do
  let s := if s.column == 0 then s else { s with column := 0, line := s.line + 1 }
  let s ← s.closeBlocks
  some (s.push .streamEnd)

/-- Passes the comment after a token, which the mark of an entry does not have. -/
def afterToken (s : Scan) : Scan :=
  if s.queue.getLast? = some .entry then s else s.skipLineComment

/-- Reads the next token, or fails where none can start. -/
def next (s : Scan) : Option Scan :=
  let s := s.skipTrivia (s.rest.length + 1)
  let s := s.unroll s.column
  match s.rest with
  | [] => s.finish
  | c :: rest =>
    if s.column == 0 && c == '%' then s.directive
    else if s.atMarker ['-', '-', '-'] then s.marker .documentStart
    else if s.atMarker ['.', '.', '.'] then s.marker .documentEnd
    else (s.content c rest).map afterToken

/-- How many tokens are read ahead of the one in front. -/
def lookahead : Nat := 2

/-- Reads tokens until the one in front can be taken: there are some behind it, and no key is
waited for that would start with it. -/
def ready : (fuel : Nat) → Scan → Option Scan
  | 0, _ => none
  | fuel + 1, s =>
    if s.queue.length ≤ lookahead then s.next.bind (ready fuel)
    else
      match s.keys.find? fun k => k.awaited && k.number == s.taken with
      | none => some s
      | some k =>
        if !k.possible then some s
        else if s.isStale k then
          if k.required then none
          else some { s with
            keys := s.keys.map fun k' => if k'.awaited && k'.number == s.taken then given k' else k' }
        else s.next.bind (ready fuel)

/-- The token in front, and the scan that has made sure of it. -/
def peek? (s : Scan) : Option (Token × Scan) := do
  let s ← s.ready (s.rest.length + 4)
  let t ← s.queue.head?
  some (t, s)

def take (s : Scan) : Scan := { s with queue := s.queue.drop 1, taken := s.taken + 1 }

end Scan

end ClassUpgrade.Yaml
