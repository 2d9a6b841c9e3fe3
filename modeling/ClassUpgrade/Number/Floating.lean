/-
# Number.Floating — decimal fractions read as doubles

A decimal text is rounded to the nearest double. One that is too large for a
double is refused.
-/
import ClassUpgrade.Number.Double
import ClassUpgrade.Number.Integer

namespace ClassUpgrade.Number

set_option autoImplicit false

open Byte

/-- A number that need not be an integer. -/
inductive Floating where
  | finite (negative : Bool) (magnitude : Double)
  | infinite (negative : Bool)
  | undefined
  deriving DecidableEq, Repr

namespace Floating

/-- The integer without the fraction; what does not fit in 64 bits becomes the smallest one. -/
def truncate : Floating → Int
  | .finite negative magnitude =>
    let n : Int := if negative then -magnitude.floor else magnitude.floor
    if smallestInt ≤ n ∧ n ≤ largestInt then n else smallestInt
  | _ => smallestInt

def isZero : Floating → Bool
  | .finite _ magnitude => magnitude.mantissa == 0
  | _ => false

/-- The number in decimal, with the fewest digits that read back. -/
def render : Floating → Text
  | .finite negative magnitude => (if negative then [hyphen] else []) ++ magnitude.render
  | .infinite negative => if negative then utf8 "-Inf" else utf8 "+Inf"
  | .undefined => utf8 "NaN"

end Floating

/-- A decimal fraction: sign, digits, how many of them follow the point, and the exponent. -/
structure Decimal where
  negative : Bool
  digits : Text
  places : Nat
  exponent : Int
  deriving DecidableEq, Repr

/-- The exponent at the end of a decimal fraction, which has at least one digit. -/
def exponent? (t : Text) : Option Int :=
  match t with
  | [] => some 0
  | e :: rest =>
    if toLower e ≠ 0x65 then none
    else
      match rest with
      | 0x2D :: digits => (Text.digits? 10 digits).map fun n => -n
      | 0x2B :: digits => (Text.digits? 10 digits).map fun n => n
      | digits => (Text.digits? 10 digits).map fun n => n

/-- Reads `[sign] digits [. digits] [exponent]` with a digit before or after the point. -/
def decimal? (t : Text) : Option Decimal :=
  let (negative, t) :=
    match t with
    | 0x2D :: rest => (true, rest)
    | 0x2B :: rest => (false, rest)
    | _ => (false, t)
  let whole := t.takeWhile isDigit
  let (fraction, rest) :=
    match t.dropWhile isDigit with
    | 0x2E :: rest => (rest.takeWhile isDigit, rest.dropWhile isDigit)
    | rest => ([], rest)
  if whole.isEmpty && fraction.isEmpty then none
  else (exponent? rest).map fun e => ⟨negative, whole ++ fraction, fraction.length, e⟩

/-- The double nearest to a decimal fraction, unless it is too large. Exponents far outside the
range of doubles are cut, which changes no result. -/
def Decimal.toFloating? (d : Decimal) : Option Floating :=
  let digits := (Text.digits? 10 d.digits).getD 0
  let e := max (-100000) (min 100000 (d.exponent - d.places))
  if digits = 0 then some (.finite d.negative .zero)
  else
    let size : Int := d.digits.length + e
    if size < -400 then some (.finite d.negative .zero)
    else if (Text.ofNat digits).length + e > 310 then none
    else
      let m := Double.ofDecimal digits e
      if m.overflows then none else some (.finite d.negative m)

def parseFloating? (t : Text) : Option Floating := (decimal? t).bind Decimal.toFloating?

end ClassUpgrade.Number
