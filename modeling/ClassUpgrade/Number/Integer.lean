/-
# Number.Integer — integers as people write them

An integer may have a sign, a base given by its prefix (`0x`, `0o`, `0b`, or
a plain `0` for octal), and underscores between its digits. Values are kept
to 64 bits: one that does not fit is refused.
-/
import ClassUpgrade.Text.Numeral

namespace ClassUpgrade.Number

set_option autoImplicit false

open Byte

def largestInt : Int := 0x7FFFFFFFFFFFFFFF

def smallestInt : Int := -0x8000000000000000

/-- The integer of 64 bits with the same remainder. -/
def wrap (n : Int) : Int := Int.bmod n 0x10000000000000000

inductive Fault where
  | malformed
  | outOfRange
  deriving DecidableEq, Repr

def Fault.reason : Fault → Text
  | .malformed => utf8 "invalid syntax"
  | .outOfRange => utf8 "value out of range"

/-- The base that the front of a number gives, and the digits after it. -/
def baseOf (t : Text) : Nat × Text :=
  match t with
  | 0x30 :: letter :: rest =>
    if rest.isEmpty then (8, letter :: rest)
    else if toLower letter = 0x62 then (2, rest)
    else if toLower letter = 0x6F then (8, rest)
    else if toLower letter = 0x78 then (16, rest)
    else (8, letter :: rest)
  | 0x30 :: rest => (8, rest)
  | _ => (10, t)

/-- Whether every underscore stands after a digit or a base prefix and before a digit; `digit` says
that a digit came last and `gap` that an underscore did. -/
def underscoresFit (hexadecimal : Bool) : (digit gap : Bool) → Text → Bool
  | _, gap, [] => !gap
  | digit, gap, b :: rest =>
    if isDigit b || (hexadecimal && 0x61 ≤ toLower b && toLower b ≤ 0x66) then
      underscoresFit hexadecimal true false rest
    else if b = underscore then digit && underscoresFit hexadecimal false true rest
    else !gap && underscoresFit hexadecimal false false rest

/-- Whether the underscores of a number without sign separate digits. -/
def underscoresOk (t : Text) : Bool :=
  let letter := (t[1]?.map toLower).getD 0
  if t.head? = some 0x30 && (letter == 0x62 || letter == 0x6F || letter == 0x78) then
    underscoresFit (letter == 0x78) true false (t.drop 2)
  else underscoresFit false false false t

/-- The value of digits read so far and those to come; it may not pass 64 bits. -/
def digitsFrom (base : Nat) : (value : Nat) → Text → Except Fault Nat
  | value, [] => .ok value
  | value, b :: rest =>
    if b = underscore then digitsFrom base value rest
    else
      match Text.digitValue? b with
      | none => .error .malformed
      | some d =>
        if base ≤ d then .error .malformed
        else if 0x10000000000000000 ≤ value * base + d then .error .outOfRange
        else digitsFrom base (value * base + d) rest

/-- A natural number of at most 64 bits. -/
def parseNatural (t : Text) : Except Fault Nat :=
  if t.isEmpty then .error .malformed
  else
    let (base, digits) := baseOf t
    match digitsFrom base 0 digits with
    | .error e => .error e
    | .ok n => if t.contains underscore && !underscoresOk t then .error .malformed else .ok n

def parseInteger (t : Text) : Except Fault Int :=
  let (negative, digits) :=
    match t with
    | 0x2D :: rest => (true, rest)
    | 0x2B :: rest => (false, rest)
    | _ => (false, t)
  match parseNatural digits with
  | .error e => .error e
  | .ok n =>
    if negative then if 0x8000000000000000 < n then .error .outOfRange else .ok (-n)
    else if 0x8000000000000000 ≤ n then .error .outOfRange
    else .ok n

/-- A truth value: one of the usual spellings. -/
def parseTruth? (t : Text) : Option Bool :=
  if [utf8 "1", utf8 "t", utf8 "T", utf8 "TRUE", utf8 "true", utf8 "True"].contains t then some true
  else if [utf8 "0", utf8 "f", utf8 "F", utf8 "FALSE", utf8 "false", utf8 "False"].contains t then
    some false
  else none

end ClassUpgrade.Number
