/-
# Glob.Parser — the written form of patterns

`*` stands for a run without a separator and `**` for any run, `?` for one
character but the separator, `[abc]`, `[a-z]` and their `!` forms for one
character, `{p,q}` for alternatives and `\c` for the character itself.
Outside braces a comma and a closing brace stand for themselves, a brace left
open is closed by the end, and a backslash at the end stands for nothing.
-/
import ClassUpgrade.Glob.Pattern
import ClassUpgrade.Text.Glyph

namespace ClassUpgrade.Glob

set_option autoImplicit false

/-- Why a text is no pattern. -/
inductive PatternError where
  /-- A character that cannot be read. -/
  | unreadable
  /-- The end of the pattern inside brackets. -/
  | unexpectedEnd
  /-- No closing bracket after a range. -/
  | expectedClose
  /-- A range whose upper end lies below its lower end. -/
  | reversedRange (high low : Char)
  /-- Brackets around nothing. -/
  | emptyList
  deriving DecidableEq, Repr

def PatternError.message : PatternError → Text
  | .unreadable => utf8 "could not read rune"
  | .unexpectedEnd => utf8 "unexpected end of input"
  | .expectedClose => utf8 "expected close range character"
  | .reversedRange high low =>
    utf8 "hi character '" ++ String.utf8EncodeChar high ++
      utf8 "' should be greater than lo '" ++ String.utf8EncodeChar low ++ utf8 "'"
  | .emptyList => utf8 "could not parse range"

/-- The character that ends a text wherever it stands. -/
def terminator : Char := Char.ofNat 0

/-- Whether nothing can be read: the text is at its end, or in front of a terminator or of a
character that cannot be read. -/
def atEnd : List Char → Bool
  | [] => true
  | c :: _ => c == terminator || c == Glyph.replacement

/-- The characters of a list up to where it ends, and how many characters they take; a backslash
takes the next character as it is, and a terminator ends the list and counts to it. -/
def listed : (escaped : Bool) → List Char → List Char × Nat
  | _, [] => ([], 0)
  | escaped, c :: rest =>
    if c == Glyph.replacement then ([], 0)
    else if c == terminator then ([], 1)
    else if !escaped && c == ']' then ([], 0)
    else if !escaped && c == '\\' then
      let (cs, n) := listed true rest
      (cs, n + 1)
    else
      let (cs, n) := listed false rest
      (c :: cs, n + 1)

def expectClose (cs : List Char) : Except PatternError Unit :=
  if atEnd cs then .error .unexpectedEnd
  else if cs.head? == some ']' then .ok ()
  else .error .expectedClose

/-- What brackets hold after an optional `!`, and how many characters it takes through the closing
bracket: a range when the second character is a hyphen, and a list otherwise. -/
def bracketBody (negated : Bool) (cs : List Char) : Except PatternError (Pattern × Nat) :=
  match cs with
  | low :: '-' :: rest =>
    if atEnd cs || atEnd rest then .error .unexpectedEnd
    else
      match rest with
      | [] => .error .unexpectedEnd
      | high :: after => do
        expectClose after
        if high < low then .error (.reversedRange high low)
        else .ok (.range negated low high, 4)
  | _ => do
    if atEnd cs then .error .unexpectedEnd
    else
      let (chars, n) := listed false cs
      expectClose (cs.drop n)
      if cs.head? == some ']' && cs[1]? == some Glyph.replacement then .error .unreadable
      else if chars.isEmpty then .error .emptyList
      else .ok (.list negated chars, n + 1)

/-- The pattern of brackets after their opening, and how many characters it takes. -/
def bracket (cs : List Char) : Except PatternError (Pattern × Nat) :=
  match cs with
  | '!' :: rest => (bracketBody true rest).map fun (p, n) => (p, n + 1)
  | _ => bracketBody false cs

/-- An open brace: the pattern before it and the alternatives completed inside it. -/
structure Frame where
  outer : Pattern
  finished : Option Pattern
  deriving DecidableEq, Repr

namespace Frame

def finish (f : Frame) (current : Pattern) : Pattern :=
  match f.finished with
  | none => current
  | some p => .either p current

/-- The pattern up to and including the closed brace. -/
def close (f : Frame) (current : Pattern) : Pattern := .seq f.outer (f.finish current)

end Frame

/-- Parses inside the braces of `frames`, innermost first, after the pattern `current` of the
alternative being read; `skip` characters belong to what was just parsed. A terminator ends the
pattern, except that right after plain characters, when `inText` holds, it is passed over. -/
def parseFrom (frames : List Frame) (current : Pattern) (inText : Bool) :
    (skip : Nat) → List Char → Except PatternError Pattern
  | _, [] => .ok (frames.foldl (fun p f => f.close p) current)
  | skip + 1, _ :: rest => parseFrom frames current inText skip rest
  | 0, c :: rest =>
    if c == Glyph.replacement then .error .unreadable
    else if c == terminator then
      if inText then parseFrom frames current false 0 rest
      else .ok (frames.foldl (fun p f => f.close p) current)
    else
      match c, frames with
      | '{', _ => parseFrom (⟨current, none⟩ :: frames) .empty false 0 rest
      | ',', f :: outer =>
        parseFrom (⟨f.outer, some (f.finish current)⟩ :: outer) .empty false 0 rest
      | '}', f :: outer => parseFrom outer (f.close current) false 0 rest
      | '[', _ =>
        match bracket rest with
        | .error e => .error e
        | .ok (p, n) => parseFrom frames (.seq current p) false n rest
      | '?', _ => parseFrom frames (.seq current .one) false 0 rest
      | '*', _ =>
        if rest.head? = some '*' then parseFrom frames (.seq current .anything) false 1 rest
        else parseFrom frames (.seq current .run) false 0 rest
      | '\\', _ =>
        match rest with
        | [] => parseFrom frames current true 0 rest
        | d :: _ =>
          if atEnd rest then parseFrom frames current true 0 rest
          else parseFrom frames (.seq current (.char d)) true 1 rest
      | _, _ => parseFrom frames (.seq current (.char c)) true 0 rest

def parse (t : Text) : Except PatternError Pattern := parseFrom [] .empty false 0 (Text.chars t)

end ClassUpgrade.Glob
