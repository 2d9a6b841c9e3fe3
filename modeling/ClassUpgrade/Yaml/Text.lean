/-
# Yaml.Text — the texts of scalars

A plain or quoted scalar goes on over lines: a single line break becomes a
space, and of several the first is left out. A block scalar keeps its lines,
or folds them likewise.
-/
import ClassUpgrade.Yaml.Scan

namespace ClassUpgrade.Yaml

set_option autoImplicit false

/-- White space met inside a scalar: blanks on a line, or line breaks. The first of them is left
out of `further` and may have been taken away by a backslash. -/
inductive Gap where
  | blanks (reversed : List Char)
  | breaks (first : Option Char) (further : List Char)
  deriving DecidableEq, Repr

namespace Gap

def none : Gap := .blanks []

def isSome : Gap → Bool
  | .blanks cs => !cs.isEmpty
  | .breaks _ _ => true

def addBlank (c : Char) : Gap → Gap
  | .blanks cs => .blanks (c :: cs)
  | gap => gap

def addBreak (c : Char) : Gap → Gap
  | .blanks _ => .breaks (some c) []
  | .breaks first further => .breaks first (c :: further)

/-- What a gap becomes in the text, reversed: a single line feed is a space, and one with others
after it is left out. -/
def folded : Gap → List Char
  | .blanks cs => cs
  | .breaks (some '\n') [] => [' ']
  | .breaks (some '\n') further => further
  | .breaks first further => further ++ first.toList

end Gap

/-- Whether a character ends a plain scalar in front of it. -/
def endsPlain (flow : Bool) (c : Char) (rest : List Char) : Bool :=
  (c == ':' && startsBlank rest) ||
    (flow && (c == ',' || c == '?' || c == '[' || c == ']' || c == '\x7b' || c == '\x7d'))

/-- Reads a plain scalar: `text` is what has been read, reversed. A scalar goes on over lines that
are indented by at least `indent`. -/
def plainFrom (indent : Int) :
    (fuel : Nat) → Scan → (text : List Char) → Gap → Option (List Char × Scan)
  | 0, _, _, _ => none
  | fuel + 1, s, text, gap =>
    let finish : Option (List Char × Scan) :=
      some (text.reverse,
        match gap with
        | .breaks _ _ => { s with keyAllowed := true }
        | .blanks _ => s)
    match lineBreak? s.rest, s.rest with
    | _, [] => finish
    | some (b, _), _ => plainFrom indent fuel s.skipBreak text (gap.addBreak b)
    | none, c :: rest =>
      if isBlank c then
        match gap with
        | .breaks _ _ =>
          if c == '\t' && (s.column : Int) < indent then none
          else plainFrom indent fuel s.skip text gap
        | .blanks _ => plainFrom indent fuel s.skip text (gap.addBlank c)
      else if s.flowLevel == 0 && gap.isSome && (s.column : Int) < indent then finish
      else if s.atDocumentMarker then finish
      else if c == '#' && gap.isSome then finish
      else if endsPlain (s.flowLevel != 0) c rest then finish
      else plainFrom indent fuel s.skip (c :: gap.folded ++ text) .none

def hexValue? (c : Char) : Option Nat :=
  if '0' ≤ c ∧ c ≤ '9' then some (c.toNat - '0'.toNat)
  else if 'a' ≤ c ∧ c ≤ 'f' then some (c.toNat - 'a'.toNat + 10)
  else if 'A' ≤ c ∧ c ≤ 'F' then some (c.toNat - 'A'.toNat + 10)
  else none

/-- The number with `digits` hexadecimal digits at the front of a text. -/
def hexNumber? (digits : Nat) (cs : List Char) : Option Nat := do
  let front := cs.take digits
  guard (front.length == digits)
  front.foldl (fun acc c => do some ((← acc) * 16 + (← hexValue? c))) (some 0)

/-- The character with a hexadecimal code of `digits` digits at the front of a text. -/
def hexEscape? (digits : Nat) (cs : List Char) : Option Char := do
  let code ← hexNumber? digits cs
  guard (decide code.isValidChar)
  some (Char.ofNat code)

/-- What a backslash and the text after it stand for, and how many characters after the backslash
it takes. -/
def escape? (cs : List Char) : Option (Char × Nat) :=
  match cs with
  | '0' :: _ => some (Char.ofNat 0, 1)
  | 'a' :: _ => some (Char.ofNat 7, 1)
  | 'b' :: _ => some (Char.ofNat 8, 1)
  | 't' :: _ => some ('\t', 1)
  | '\t' :: _ => some ('\t', 1)
  | 'n' :: _ => some ('\n', 1)
  | 'v' :: _ => some (Char.ofNat 11, 1)
  | 'f' :: _ => some (Char.ofNat 12, 1)
  | 'r' :: _ => some ('\r', 1)
  | 'e' :: _ => some (Char.ofNat 27, 1)
  | ' ' :: _ => some (' ', 1)
  | '"' :: _ => some ('"', 1)
  | '\'' :: _ => some ('\'', 1)
  | '\\' :: _ => some ('\\', 1)
  | 'N' :: _ => some (Char.ofNat 0x85, 1)
  | '_' :: _ => some (Char.ofNat 0xA0, 1)
  | 'L' :: _ => some (Char.ofNat 0x2028, 1)
  | 'P' :: _ => some (Char.ofNat 0x2029, 1)
  | 'x' :: rest => (hexEscape? 2 rest).map fun c => (c, 3)
  | 'u' :: rest => (hexEscape? 4 rest).map fun c => (c, 5)
  | 'U' :: rest => (hexEscape? 8 rest).map fun c => (c, 9)
  | _ => none

/-- Passes white space inside a quoted scalar. -/
def quotedGap : (fuel : Nat) → Scan → Gap → Gap × Scan
  | 0, s, gap => (gap, s)
  | fuel + 1, s, gap =>
    match lineBreak? s.rest, s.rest with
    | some (b, _), _ => quotedGap fuel s.skipBreak (gap.addBreak b)
    | none, c :: _ => if isBlank c then quotedGap fuel s.skip (gap.addBlank c) else (gap, s)
    | none, [] => (gap, s)

/-- Reads a quoted scalar after its opening quote. -/
def quotedFrom (quote : Char) : (fuel : Nat) → Scan → (text : List Char) → Option (List Char × Scan)
  | 0, _, _ => none
  | fuel + 1, s, text =>
    if s.atDocumentMarker then none
    else
      match s.rest with
      | [] => none
      | c :: rest =>
        if isBlank c || startsBreak s.rest then
          let (gap, s) := quotedGap (s.rest.length + 1) s .none
          quotedFrom quote fuel s (gap.folded ++ text)
        else if quote == '\'' && c == '\'' && rest.head? == some '\'' then
          quotedFrom quote fuel (s.skipMany 2) ('\'' :: text)
        else if c == quote then some (text.reverse, s.skip)
        else if quote == '"' && c == '\\' then
          if startsBreak rest then
            let s := s.skip.skipBreak
            let (gap, s) := quotedGap (s.rest.length + 1) s (.breaks none [])
            quotedFrom quote fuel s (gap.folded ++ text)
          else
            match escape? rest with
            | none => none
            | some (d, n) => quotedFrom quote fuel (s.skipMany (n + 1)) (d :: text)
        else quotedFrom quote fuel s.skip (c :: text)

/-- What a block scalar does with the line breaks at its end. -/
inductive Chomping where
  | strip
  | clip
  | keep
  deriving DecidableEq, Repr

/-- The header of a block scalar after its indicator: the chomping, an indentation and the length.
A chomping sign and a digit may stand in either order. -/
def blockHeader (cs : List Char) : Chomping × Nat × Nat :=
  let sign? (c : Char) : Option Chomping :=
    if c = '+' then some .keep else if c = '-' then some .strip else none
  let digit? (c : Char) : Option Nat := if '1' ≤ c ∧ c ≤ '9' then some (c.toNat - '0'.toNat) else none
  match cs with
  | [] => (.clip, 0, 0)
  | c :: rest =>
    match sign? c, digit? c with
    | some chomping, _ =>
      match rest.head?.bind digit? with
      | some n => (chomping, n, 2)
      | none => (chomping, 0, 1)
    | none, some n =>
      match rest.head?.bind sign? with
      | some chomping => (chomping, n, 2)
      | none => (.clip, n, 1)
    | none, none => (.clip, 0, 0)

/-- Passes indentation and empty lines: the line breaks passed, reversed, and the largest column
met. An indentation of zero is still to be found. -/
def blockBreaks (indent : Nat) :
    (fuel : Nat) → Scan → (breaks : List Char) → (widest : Nat) →
      Option (List Char × Nat × Scan)
  | 0, _, _, _ => none
  | fuel + 1, s, breaks, widest =>
    let inIndentation := indent == 0 || s.column < indent
    match s.rest with
    | ' ' :: _ =>
      if inIndentation then blockBreaks indent fuel s.skip breaks (max widest (s.column + 1))
      else some (breaks, widest, s)
    | '\t' :: _ => if inIndentation then none else some (breaks, widest, s)
    | rest =>
      match lineBreak? rest with
      | some (b, _) => blockBreaks indent fuel s.skipBreak (b :: breaks) widest
      | none => some (breaks, widest, s)

/-- Reads the lines of a block scalar that are indented by `indent`. `text` is reversed, `ended`
is the break at the end of the last line, not written yet, and `breaks` those of the empty lines
after it; `spaced` says that the last line starts with a blank. -/
def blockLines (literal : Bool) (indent : Nat) (chomping : Chomping) :
    (fuel : Nat) → Scan → (text : List Char) → (ended : Option Char) → (spaced : Bool) →
      (breaks : List Char) → Option (List Char × Scan)
  | 0, _, _, _, _, _ => none
  | fuel + 1, s, text, ended, spaced, breaks =>
    if s.column == indent && !s.rest.isEmpty then
      let blank := s.rest.head?.any isBlank
      let joined :=
        if !literal && !spaced && !blank && ended == some '\n' then
          (if breaks.isEmpty then [' '] else [])
        else ended.toList
      let text := breaks ++ joined ++ text
      let line := s.rest.take (Scan.lineLength s.rest)
      let s := s.skipLine
      let ended := (lineBreak? s.rest).map Prod.fst
      match blockBreaks indent (s.rest.length + 2) s.skipBreak [] 0 with
      | none => none
      | some (breaks, _, s) =>
        blockLines literal indent chomping fuel s (line.reverse ++ text) ended blank breaks
    else
      let final := if chomping != .strip then ended.toList ++ text else text
      let final := if chomping == .keep then breaks ++ final else final
      some (final.reverse, s)

/-- Reads a block scalar whose indicator is in front. -/
def blockScalar (literal : Bool) (s : Scan) : Option (List Char × Scan) := do
  let s := s.skip
  let (chomping, increment, n) := blockHeader s.rest
  let s := (s.skipMany n).skipBlanks
  let s := if s.rest.head? == some '#' then s.skipLine else s
  guard (startsLineEnd s.rest)
  let s := s.skipBreak
  let outer := s.indent
  let wanted : Nat := if increment == 0 then 0 else (max outer 0).toNat + increment
  let (breaks, widest, s) ← blockBreaks wanted (s.rest.length + 2) s [] s.column
  let indent := if wanted == 0 then max widest (max (outer + 1).toNat 1) else wanted
  blockLines literal indent chomping (s.rest.length + 2) s [] none false breaks

end ClassUpgrade.Yaml
