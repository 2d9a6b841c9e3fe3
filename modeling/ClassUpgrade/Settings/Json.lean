/-
# Settings.Json — the value of a JSON text

Strict JSON: no comments, no comma after a last element. Numbers are rounded
to doubles, and one too large for a double is refused. Half of a surrogate
pair becomes U+FFFD.
-/
import ClassUpgrade.Settings.Value
import ClassUpgrade.Text.Glyph

namespace ClassUpgrade.Settings.Json

set_option autoImplicit false

open Number

def skipSpace (cs : List Char) : List Char :=
  cs.dropWhile fun c => c == ' ' || c == '\t' || c == '\n' || c == '\r'

/-- The value of four hexadecimal digits in front, and the rest. -/
def hexUnit? (cs : List Char) : Option (Nat × List Char) := do
  guard ((cs.take 4).length == 4)
  let n ← Text.digits? 16 ((cs.take 4).map fun c => if c.toNat < 0x80 then c.toUInt8 else 0)
  some (n, cs.drop 4)

/-- The character of an escape by code, joining a surrogate pair. -/
def unitChar? (cs : List Char) : Option (Char × List Char) := do
  let (high, rest) ← hexUnit? cs
  if 0xD800 ≤ high ∧ high < 0xDC00 then
    match rest with
    | '\\' :: 'u' :: more =>
      match hexUnit? more with
      | none => none
      | some (low, after) =>
        if 0xDC00 ≤ low ∧ low < 0xE000 then
          some (Char.ofNat (0x10000 + (high - 0xD800) * 0x400 + (low - 0xDC00)), after)
        else some (Glyph.replacement, rest)
    | _ => some (Glyph.replacement, rest)
  else if 0xDC00 ≤ high ∧ high < 0xE000 then some (Glyph.replacement, rest)
  else some (Char.ofNat high, rest)

def escapeChar? (cs : List Char) : Option (Char × List Char) :=
  match cs with
  | '"' :: rest => some ('"', rest)
  | '\\' :: rest => some ('\\', rest)
  | '/' :: rest => some ('/', rest)
  | 'b' :: rest => some (Char.ofNat 8, rest)
  | 'f' :: rest => some (Char.ofNat 12, rest)
  | 'n' :: rest => some ('\n', rest)
  | 'r' :: rest => some ('\r', rest)
  | 't' :: rest => some ('\t', rest)
  | 'u' :: rest => unitChar? rest
  | _ => none

/-- A string after its opening quote; `text` is reversed. -/
def stringFrom : (fuel : Nat) → (text : List Char) → List Char → Option (List Char × List Char)
  | 0, _, _ => none
  | _, _, [] => none
  | fuel + 1, text, c :: rest =>
    if c = '"' then some (text.reverse, rest)
    else if c = '\\' then
      match escapeChar? rest with
      | some (d, rest) => stringFrom fuel (d :: text) rest
      | none => none
    else if c.toNat < 0x20 then none
    else stringFrom fuel (c :: text) rest

def digitRun (cs : List Char) : List Char × List Char :=
  (cs.takeWhile Char.isDigit, cs.dropWhile Char.isDigit)

/-- The characters of a number in front, and the rest. -/
def numberText? (cs : List Char) : Option (List Char × List Char) := do
  let (sign, cs) := if cs.head? = some '-' then (['-'], cs.drop 1) else ([], cs)
  let (whole, cs) := digitRun cs
  guard (!whole.isEmpty && (whole.length == 1 || whole.head? != some '0'))
  let (fraction, cs) ←
    match cs with
    | '.' :: rest =>
      let (digits, rest) := digitRun rest
      if digits.isEmpty then none else some ('.' :: digits, rest)
    | _ => some ([], cs)
  let (exponent, cs) ←
    match cs with
    | e :: rest =>
      if e = 'e' ∨ e = 'E' then
        let (sign, rest) :=
          match rest with
          | '+' :: rest => (['+'], rest)
          | '-' :: rest => (['-'], rest)
          | _ => ([], rest)
        let (digits, rest) := digitRun rest
        if digits.isEmpty then none else some (e :: sign ++ digits, rest)
      else some ([], cs)
    | [] => some ([], cs)
  some (sign ++ whole ++ fraction ++ exponent, cs)

def afterWord? (word : String) (cs : List Char) : Option (List Char) :=
  if word.toList.isPrefixOf cs then some (cs.drop word.length) else none

mutual

/-- A value, after white space, and the rest. -/
def value? : (fuel : Nat) → List Char → Option (Value × List Char)
  | 0, _ => none
  | fuel + 1, cs =>
    match skipSpace cs with
    | [] => none
    | c :: rest =>
      if c = '\x7b' then
        match skipSpace rest with
        | '\x7d' :: rest => some (.map [], rest)
        | rest => (members? fuel rest).map fun (es, rest) => (.map es, rest)
      else if c = '[' then
        match skipSpace rest with
        | ']' :: rest => some (.list [], rest)
        | rest => (elements? fuel rest).map fun (vs, rest) => (.list vs, rest)
      else if c = '"' then
        (stringFrom (rest.length + 1) [] rest).map fun (t, rest) => (.text (Text.ofChars t), rest)
      else if c = 't' then (afterWord? "true" (c :: rest)).map fun rest => (.bool true, rest)
      else if c = 'f' then (afterWord? "false" (c :: rest)).map fun rest => (.bool false, rest)
      else if c = 'n' then (afterWord? "null" (c :: rest)).map fun rest => (.null, rest)
      else do
        let (digits, rest) ← numberText? (c :: rest)
        let r ← parseFloating? (digits.map Char.toUInt8)
        some (.real r, rest)

/-- The elements of an array, through its close. -/
def elements? : (fuel : Nat) → List Char → Option (List Value × List Char)
  | 0, _ => none
  | fuel + 1, cs => do
    let (v, rest) ← value? fuel cs
    match skipSpace rest with
    | ',' :: rest =>
      let (vs, rest) ← elements? fuel rest
      some (v :: vs, rest)
    | ']' :: rest => some ([v], rest)
    | _ => none

/-- The members of an object, through its close. -/
def members? : (fuel : Nat) → List Char → Option (List (Text × Value) × List Char)
  | 0, _ => none
  | fuel + 1, cs =>
    match skipSpace cs with
    | '"' :: rest => do
      let (name, rest) ← stringFrom (rest.length + 1) [] rest
      match skipSpace rest with
      | ':' :: rest =>
        let (v, rest) ← value? fuel rest
        let entry := (Text.ofChars name, v)
        match skipSpace rest with
        | ',' :: rest =>
          let (es, rest) ← members? fuel rest
          some (entry :: es, rest)
        | '\x7d' :: rest => some ([entry], rest)
        | _ => none
      | _ => none
    | _ => none

end

def parse? (t : Text) : Option Value := do
  let cs := Text.chars t
  let (v, rest) ← value? (cs.length + 1) cs
  guard (skipSpace rest).isEmpty
  some v

end ClassUpgrade.Settings.Json
