/-
# Shell.Pattern — patterns for texts

A star matches any bytes, a question mark any single one, and brackets one of
those they list. A byte that was quoted or that follows a backslash matches
itself, and so does a bracket that is not closed.
-/
import ClassUpgrade.Text.Basic

namespace ClassUpgrade.Shell

set_option autoImplicit false

open Byte

/-- A byte, and whether it was quoted. -/
abbrev Mark := Bool × UInt8

/-- A kind of bytes with a name. -/
inductive ByteClass where
  | alnum
  | alpha
  | blank
  | cntrl
  | digit
  | graph
  | lower
  | print
  | punct
  | space
  | upper
  | xdigit
  deriving DecidableEq, Repr

namespace ByteClass

def names : List (Text × ByteClass) :=
  [(utf8 "alnum", alnum), (utf8 "alpha", alpha), (utf8 "blank", blank), (utf8 "cntrl", cntrl),
    (utf8 "digit", digit), (utf8 "graph", graph), (utf8 "lower", lower), (utf8 "print", print),
    (utf8 "punct", punct), (utf8 "space", space), (utf8 "upper", upper), (utf8 "xdigit", xdigit)]

def holds (c : ByteClass) (b : UInt8) : Bool :=
  match c with
  | alnum => isAlpha b || isDigit b
  | alpha => isAlpha b
  | blank => b == Byte.space || b == tab
  | cntrl => b < 0x20 || b == 0x7F
  | digit => isDigit b
  | graph => 0x20 < b && b < 0x7F
  | lower => 0x61 ≤ b && b ≤ 0x7A
  | print => 0x20 ≤ b && b < 0x7F
  | punct => 0x20 < b && b < 0x7F && !(isAlpha b || isDigit b)
  | space => b == Byte.space || (0x09 ≤ b && b ≤ 0x0D)
  | upper => 0x41 ≤ b && b ≤ 0x5A
  | xdigit => isDigit b || (0x61 ≤ toLower b && toLower b ≤ 0x66)

end ByteClass

/-- What brackets list. -/
inductive Listed where
  | range (low high : UInt8)
  | kind (c : ByteClass)
  deriving DecidableEq, Repr

def Listed.holds (l : Listed) (b : UInt8) : Bool :=
  match l with
  | .range low high => low ≤ b && b ≤ high
  | .kind c => c.holds b

/-- A part of a pattern. -/
inductive Atom where
  | many
  | one
  | byte (b : UInt8)
  | among (negated : Bool) (listed : List Listed)
  deriving DecidableEq, Repr

/-- The class whose name stands at the front of a pattern, between a bracket and a colon and a colon
and a bracket, and its length. -/
def classAt? (marks : List Mark) : Option (ByteClass × Nat) :=
  match marks with
  | (false, 0x5B) :: (false, 0x3A) :: rest =>
    let name := (rest.takeWhile fun m => isAlpha m.2).map Prod.snd
    match rest.drop name.length with
    | (false, 0x3A) :: (false, 0x5D) :: _ =>
      (ByteClass.names.lookup name).map fun c => (c, name.length + 4)
    | _ => none
  | _ => none

/-- What brackets list up to the closing one, and the number of marks passed; none if there is
none. A closing bracket that comes `first` is listed. -/
def listedAt? : (fuel : Nat) → (first : Bool) → List Mark → Option (List Listed × Nat)
  | 0, _, _ => none
  | _, _, [] => none
  | fuel + 1, first, m :: rest =>
    if m == (false, closeBracket) && !first then some ([], 1)
    else
      match classAt? (m :: rest) with
      | some (c, n) => do
        let (listed, passed) ← listedAt? fuel false ((m :: rest).drop n)
        some (.kind c :: listed, passed + n)
      | none =>
        match rest with
        | (false, 0x2D) :: high :: after =>
          if high == (false, closeBracket) then do
            let (listed, passed) ← listedAt? fuel false rest
            some (.range m.2 m.2 :: listed, passed + 1)
          else do
            let (listed, passed) ← listedAt? fuel false after
            some (.range m.2 high.2 :: listed, passed + 3)
        | _ => do
          let (listed, passed) ← listedAt? fuel false rest
          some (.range m.2 m.2 :: listed, passed + 1)

/-- The brackets whose opening one has been passed: what they stand for, and their length. -/
def bracketsAt? (marks : List Mark) : Option (Atom × Nat) :=
  let negated := marks.head? == some (false, bang)
  let inner := if negated then marks.drop 1 else marks
  (listedAt? (inner.length + 1) true inner).map fun (listed, n) =>
    (.among negated listed, if negated then n + 1 else n)

/-- The parts of a pattern; `skip` counts the marks of one that are still to come. -/
def atomsFrom : (skip : Nat) → List Mark → List Atom
  | _, [] => []
  | skip + 1, _ :: rest => atomsFrom skip rest
  | 0, (quoted, b) :: rest =>
    if quoted then .byte b :: atomsFrom 0 rest
    else if b == backslash then
      match rest with
      | [] => [.byte b]
      | (_, c) :: _ => .byte c :: atomsFrom 1 rest
    else if b == star then .many :: atomsFrom 0 rest
    else if b == question then .one :: atomsFrom 0 rest
    else if b == openBracket then
      match bracketsAt? rest with
      | some (atom, n) => atom :: atomsFrom n rest
      | none => .byte b :: atomsFrom 0 rest
    else .byte b :: atomsFrom 0 rest

def atomsOf (marks : List Mark) : List Atom := atomsFrom 0 marks

def Atom.holds (a : Atom) (b : UInt8) : Bool :=
  match a with
  | .many | .one => true
  | .byte c => b == c
  | .among negated listed => listed.any (·.holds b) != negated

/-- The text and everything that is left of it when bytes are taken from its front. -/
def tailsOf : Text → List Text
  | [] => [[]]
  | b :: rest => (b :: rest) :: tailsOf rest

def matchesAtoms : List Atom → Text → Bool
  | [], t => t.isEmpty
  | .many :: atoms, t => (tailsOf t).any (matchesAtoms atoms)
  | atom :: atoms, t =>
    match t with
    | [] => false
    | b :: rest => atom.holds b && matchesAtoms atoms rest

def matchesPattern (pattern : List Mark) (t : Text) : Bool := matchesAtoms (atomsOf pattern) t

/-- A text without what a pattern matches at its front or at its end. -/
def trimmed (front longest : Bool) (pattern : List Mark) (t : Text) : Text :=
  let atoms := atomsOf pattern
  let lengths := List.range (t.length + 1)
  let lengths := if longest then lengths.reverse else lengths
  let cut? := lengths.find? fun n =>
    matchesAtoms atoms (if front then t.take n else t.drop (t.length - n))
  match cut? with
  | some n => if front then t.drop n else t.take (t.length - n)
  | none => t

/-- Whether a pattern can match anything but one text. -/
def isMagic (marks : List Mark) : Bool :=
  (atomsOf marks).any fun
    | .byte _ => false
    | _ => true

end ClassUpgrade.Shell
