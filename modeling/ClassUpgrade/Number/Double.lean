/-
# Number.Double — binary fractions with 53 bits

A double is `mantissa * 2 ^ exponent`. Only values that are not negative occur
here; a sign is kept beside them. `nearest` rounds a ratio to the nearest
double, a tie to the even mantissa, and `shortest` writes the fewest decimal
digits that round back to the same double, the nearest of those.
-/
import ClassUpgrade.Text.Numeral

namespace ClassUpgrade

set_option autoImplicit false

/-- The value `mantissa * 2 ^ exponent`. -/
structure Double where
  mantissa : Nat
  exponent : Int
  deriving DecidableEq, Repr

namespace Double

def leastExponent : Int := -1074

def zero : Double := ⟨0, leastExponent⟩

def ratio (d : Double) : Nat × Nat :=
  (d.mantissa * Nat.pow 2 d.exponent.toNat, Nat.pow 2 (-d.exponent).toNat)

/-- A quotient rounded to the nearest integer, a tie to the even one. -/
def roundToEven (num den : Nat) : Nat :=
  let q := num / den
  let twice := 2 * (num % den)
  if twice < den ∨ (twice = den ∧ q % 2 = 0) then q else q + 1

/-- The quotient of a ratio and a power of two, as a ratio. -/
def scaled (num den : Nat) (exponent : Int) : Nat × Nat :=
  (num * Nat.pow 2 (-exponent).toNat, den * Nat.pow 2 exponent.toNat)

/-- The exponent that leaves 53 bits of a ratio, or the smallest one. -/
def exponentOf (num den : Nat) : Int :=
  let guess : Int := (Nat.log2 num : Int) - Nat.log2 den - 52
  let (n, d) := scaled num den guess
  max leastExponent (if n < d * Nat.pow 2 52 then guess - 1 else guess)

def nearest (num den : Nat) : Double :=
  if num = 0 ∨ den = 0 then zero
  else
    let exponent := exponentOf num den
    let (n, d) := scaled num den exponent
    ⟨roundToEven n d, exponent⟩

def overflows (d : Double) : Bool :=
  let (n, m) := d.ratio
  m * Nat.pow 2 1024 ≤ n

def mulNat (d : Double) (n : Nat) : Double :=
  let (num, den) := d.ratio
  nearest (num * n) den

def floor (d : Double) : Nat := d.ratio.1 / d.ratio.2

/-- The nearest integer, a half going up. -/
def roundHalfUp (d : Double) : Nat := (2 * d.ratio.1 + d.ratio.2) / (2 * d.ratio.2)

/-- The nearest integer, a half going to the even one. -/
def roundHalfEven (d : Double) : Nat := roundToEven d.ratio.1 d.ratio.2

def sameValue (a b : Double) : Bool := a.ratio.1 * b.ratio.2 == b.ratio.1 * a.ratio.2

def tenPower (e : Int) : Nat × Nat := (Nat.pow 10 e.toNat, Nat.pow 10 (-e).toNat)

def ofDecimal (digits : Nat) (e : Int) : Double :=
  let (n, d) := tenPower e
  nearest (digits * n) d

/-- Of the two multiples of `10 ^ e` around a double, the nearer one that rounds back to it. -/
def onGrid? (d : Double) (e : Int) : Option Nat :=
  let (num, den) := d.ratio
  let (tn, td) := tenPower e
  let lower := num * td / (den * tn)
  let candidates := [lower, lower + 1].filter fun c => sameValue (ofDecimal c e) d
  match candidates with
  | [] => none
  | [c] => some c
  | a :: b :: _ =>
    -- twice the value against the sum of both candidates
    if 2 * num * td < (a + b) * den * tn then some a
    else if 2 * num * td > (a + b) * den * tn then some b
    else some (if a % 2 = 0 then a else b)

/-- The first grid, from coarse to fine, on which a double has a decimal that rounds back. -/
def searchGrid (d : Double) : (fuel : Nat) → Int → Nat × Int
  | 0, e => ((d.onGrid? e).getD 0, e)
  | fuel + 1, e =>
    match d.onGrid? e with
    | some c => (c, e)
    | none => searchGrid d fuel (e - 1)

/-- The fewest digits that round back to a double, with their exponent of ten. -/
def shortest (d : Double) : Nat × Int :=
  if d.mantissa = 0 then (0, 0)
  else
    let (num, den) := d.ratio
    let top : Int := (Nat.toDigits 10 (num / den)).length
    let start : Int := if num / den = 0 then 0 else top
    searchGrid d 400 start

/-- The value in decimal without an exponent. -/
def render (d : Double) : Text :=
  let (digits, e) := d.shortest
  let text := Text.ofNat digits
  if 0 ≤ e then text ++ List.replicate e.toNat 0x30
  else
    let places := (-e).toNat
    let padded := List.replicate (places + 1 - text.length) 0x30 ++ text
    let whole := padded.take (padded.length - places)
    let fraction := padded.drop (padded.length - places)
    whole ++ Byte.dot :: fraction

end Double

end ClassUpgrade
