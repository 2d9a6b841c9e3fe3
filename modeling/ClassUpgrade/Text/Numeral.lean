/-
# Text.Numeral — numbers written in decimal and hexadecimal

A number is written with the fewest digits; a negative one takes a hyphen.
-/
import ClassUpgrade.Text.Basic

namespace ClassUpgrade.Text

set_option autoImplicit false

/-- A natural number in decimal. -/
def ofNat (n : Nat) : Text := (Nat.toDigits 10 n).map Char.toUInt8

def ofInt : Int → Text
  | .ofNat n => ofNat n
  | .negSucc n => Byte.hyphen :: ofNat (n + 1)

/-- Lower-case hexadecimal digits, at least `width` of them. -/
def hex (width n : Nat) : Text :=
  let digits := (Nat.toDigits 16 n).map Char.toUInt8
  List.replicate (width - digits.length) 0x30 ++ digits

/-- The value of a digit of either case in a base up to 36. -/
def digitValue? (b : UInt8) : Option Nat :=
  if Byte.isDigit b then some (b.toNat - 0x30)
  else if Byte.isAlpha b then some ((Byte.toLower b).toNat - 0x61 + 10)
  else none

/-- The value of a non-empty run of digits in `base`. -/
def digits? (base : Nat) (t : Text) : Option Nat :=
  if t.isEmpty then none
  else t.foldl (fun acc b => do
    let total ← acc
    let digit ← digitValue? b
    if digit < base then some (total * base + digit) else none) (some 0)

end ClassUpgrade.Text
