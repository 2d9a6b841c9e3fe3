/-
# Text.Base64 — bytes written with sixty-four characters

Four characters write three bytes. The last group may write fewer, and is
then filled up with `=`. Line breaks between characters count for nothing.
-/
import ClassUpgrade.Text.Basic

namespace ClassUpgrade.Base64

set_option autoImplicit false

open Byte

/-- The six bits that a character writes. -/
def digit? (b : UInt8) : Option Nat :=
  if 0x41 ≤ b && b ≤ 0x5A then some (b.toNat - 0x41)
  else if 0x61 ≤ b && b ≤ 0x7A then some (b.toNat - 0x61 + 26)
  else if isDigit b then some (b.toNat - 0x30 + 52)
  else if b = 0x2B then some 62
  else if b = slash then some 63
  else none

/-- The bytes of a number of 24 bits, highest first. -/
def bytesOf (n : Nat) : Text := [(n / 65536).toUInt8, (n / 256).toUInt8, n.toUInt8]

/-- The bytes that groups of four characters write; only the last group may be filled up. -/
def groups? : Text → Option Text
  | [] => some []
  | [a, b, 0x3D, 0x3D] => do
    let n := (← digit? a) * 262144 + (← digit? b) * 4096
    some ((bytesOf n).take 1)
  | [a, b, c, 0x3D] => do
    let n := (← digit? a) * 262144 + (← digit? b) * 4096 + (← digit? c) * 64
    some ((bytesOf n).take 2)
  | a :: b :: c :: d :: rest => do
    let n := (← digit? a) * 262144 + (← digit? b) * 4096 + (← digit? c) * 64 + (← digit? d)
    some (bytesOf n ++ (← groups? rest))
  | _ => none

def decode? (t : Text) : Option Text :=
  groups? (t.filter fun b => b != lineFeed && b != carriageReturn)

end ClassUpgrade.Base64
