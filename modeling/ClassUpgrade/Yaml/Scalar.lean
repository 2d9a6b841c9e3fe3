/-
# Yaml.Scalar — what a scalar means

A plain scalar is a truth value, nothing, a number or a date when it is
written like one, and a text otherwise. A tag asks for one of these kinds, and
a scalar that is not written like it is refused. A tag of no known kind leaves
the text as it is written.
-/
import ClassUpgrade.Settings.Value
import ClassUpgrade.Text.Base64

namespace ClassUpgrade.Yaml

set_option autoImplicit false

open Number Settings Byte

/-- The words with a meaning of their own. -/
def wordValue? (t : Text) : Option Value :=
  if [utf8 "true", utf8 "True", utf8 "TRUE"].contains t then some (.bool true)
  else if [utf8 "false", utf8 "False", utf8 "FALSE"].contains t then some (.bool false)
  else if [[], utf8 "~", utf8 "null", utf8 "Null", utf8 "NULL"].contains t then some .null
  else if [utf8 ".nan", utf8 ".NaN", utf8 ".NAN"].contains t then some (.real .undefined)
  else if [utf8 ".inf", utf8 ".Inf", utf8 ".INF", utf8 "+.inf", utf8 "+.Inf", utf8 "+.INF"].contains t
  then some (.real (.infinite false))
  else if [utf8 "-.inf", utf8 "-.Inf", utf8 "-.INF"].contains t then some (.real (.infinite true))
  else none

/-- A number of one or two digits at the front of a text. -/
def shortNumber? (t : Text) : Option (Nat × Text) := do
  let digits := (t.takeWhile isDigit).take 2
  let n ← Text.digits? 10 digits
  some (n, t.drop digits.length)

def afterByte? (b : UInt8) (t : Text) : Option Text := Text.after? [b] t

def monthDays (year month : Nat) : Nat :=
  if month = 2 then
    if year % 4 = 0 ∧ (year % 100 ≠ 0 ∨ year % 400 = 0) then 29 else 28
  else if [4, 6, 9, 11].contains month then 30
  else 31

/-- What follows a fraction of a second, if one stands in front; a point or a comma starts it. -/
def afterFraction (t : Text) : Text :=
  match t with
  | mark :: rest =>
    let digits := rest.takeWhile isDigit
    if (mark = dot || mark = comma) && !digits.isEmpty then rest.drop digits.length else t
  | [] => []

/-- A time of day, with a fraction of a second, at the front of a text: what follows it. -/
def afterTime? (t : Text) : Option Text := do
  let (hour, t) ← shortNumber? t
  let t ← afterByte? colon t
  let (minute, t) ← shortNumber? t
  let t ← afterByte? colon t
  let (second, t) ← shortNumber? t
  guard (hour < 24 && minute < 60 && second < 60)
  some (afterFraction t)

/-- Whether a text is a time zone: an offset of at most 24 hours and 60 minutes. -/
def isZone (t : Text) : Bool :=
  match t with
  | [0x5A] => true
  | [sign, a, b, 0x3A, c, d] =>
    let within (most : Nat) (digits : Text) : Bool :=
      ((Text.digits? 10 digits).map fun n => decide (n ≤ most)).getD false
    (sign == 0x2B || sign == hyphen) && within 24 [a, b] && within 60 [c, d]
  | _ => false

/-- Whether a text is a date, or a date with a time. -/
def isDate (t : Text) : Bool :=
  let rest? : Option Text := do
    let year := t.takeWhile isDigit
    guard (year.length == 4)
    let y ← Text.digits? 10 year
    let t ← afterByte? hyphen (t.drop 4)
    let (month, t) ← shortNumber? t
    let t ← afterByte? hyphen t
    let (day, t) ← shortNumber? t
    guard (1 ≤ month && month ≤ 12 && 1 ≤ day && day ≤ monthDays y month)
    some t
  match rest? with
  | none => false
  | some [] => true
  | some (b :: rest) =>
    if toLower b = 0x74 then ((afterTime? rest).map isZone).getD false
    else if b = space then ((afterTime? (rest.dropWhile (· = space))).map List.isEmpty).getD false
    else false

/-- An integer in a given base, with its sign after the marker of the base. -/
def markedInteger? (base : Nat) (t : Text) : Option Int := do
  let (negative, digits) :=
    match t with
    | 0x2D :: rest => (true, rest)
    | 0x2B :: rest => (false, rest)
    | _ => (false, t)
  guard (!digits.isEmpty)
  let n ← (digitsFrom base 0 digits).toOption
  if negative then
    guard (n ≤ 0x8000000000000000)
    some (-n)
  else
    guard (n < 0x8000000000000000 || digits.length = t.length)
    some n

/-- The value of a scalar that starts like a number, underscores left out. -/
def numberValue? (t : Text) : Option Value :=
  match parseInteger t, parseNatural t with
  | .ok n, _ => some (.int n)
  | _, .ok n => some (.int n)
  | _, _ =>
    match parseFloating? t with
    | some r => some (.real r)
    | none =>
      match Text.after? (utf8 "0b") t, Text.after? (utf8 "0o") t with
      | some rest, _ => (markedInteger? 2 rest).map .int
      | _, some rest => (markedInteger? 8 rest).map .int
      | _, _ => none

/-- The value of a fraction that starts with its point; underscores may separate its digits. -/
def fractionValue? (t : Text) : Option Value :=
  if t.contains underscore && !underscoresOk t then none
  else (parseFloating? (t.filter (· != underscore))).map .real

/-- What a scalar is written like; `dated` says that it may be a date. -/
def writtenValue (dated : Bool) (t : Text) : Value :=
  match wordValue? t with
  | some v => v
  | none =>
    match t with
    | [] => .null
    | b :: _ =>
      if b = dot then (fractionValue? t).getD (.text t)
      else if isDigit b || b = hyphen || b = 0x2B then
        if dated && isDate t then .date
        else (numberValue? (t.filter (· != underscore))).getD (.text t)
      else .text t

def plainValue (t : Text) : Value := writtenValue true t

/-- The kinds of scalars that a tag can ask for. -/
inductive Tag where
  | text
  | truth
  | integer
  | fraction
  | nothing
  | date
  /-- Bytes written in Base64. -/
  | binary
  /-- The key whose value is merged into the mapping it stands in. -/
  | merge
  | other
  deriving DecidableEq, Repr

namespace Tag

/-- What the tags of the standard kinds start with. -/
def standard : Text := utf8 "tag:yaml.org,2002:"

def ofText (tag : Text) : Tag :=
  let name := (Text.after? standard tag).getD (Text.withoutLead (utf8 "!!") tag)
  if name.length = tag.length then .other
  else if name = utf8 "str" then .text
  else if name = utf8 "bool" then .truth
  else if name = utf8 "int" then .integer
  else if name = utf8 "float" then .fraction
  else if name = utf8 "null" then .nothing
  else if name = utf8 "timestamp" then .date
  else if name = utf8 "binary" then .binary
  else if name = utf8 "merge" then .merge
  else .other

def ofValue : Value → Tag
  | .null => .nothing
  | .bool _ => .truth
  | .int _ => .integer
  | .real _ => .fraction
  | .date => .date
  | .text _ => .text
  | .list _ | .map _ => .other

/-- The kind that a scalar has without a tag. -/
def implied (plain : Bool) (t : Text) : Tag :=
  if !plain then .text
  else if t = utf8 "<<" then .merge
  else ofValue (plainValue t)

end Tag

def fractionOf? (n : Int) : Option Floating :=
  if smallestInt ≤ n ∧ n ≤ largestInt then some (.finite (n < 0) (Double.nearest n.natAbs 1))
  else none

/-- The value of a scalar under a tag; none when it is not written like what the tag asks for. -/
def scalarValue? (tag : Tag) (t : Text) : Option Value :=
  match tag with
  | .text | .merge | .other => some (.text t)
  | .binary => (Base64.decode? t).map .text
  | tag =>
    let v := writtenValue (tag = .date) t
    if Tag.ofValue v = tag then some v
    else
      match tag, v with
      | .fraction, .int n => (fractionOf? n).map .real
      | _, _ => none

end ClassUpgrade.Yaml
