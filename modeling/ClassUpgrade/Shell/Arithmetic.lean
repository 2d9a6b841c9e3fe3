/-
# Shell.Arithmetic — integer expressions

Expressions have the operators and precedences of C, assignments included,
over integers of 64 bits that wrap. They are evaluated while they are read, so
a division by zero shows before a fault further on. What a condition leaves
out is read and not evaluated.
-/
import ClassUpgrade.Number.Integer
import ClassUpgrade.Shell.Script

namespace ClassUpgrade.Shell

set_option autoImplicit false

open Byte Number

/-- An operator between two operands. -/
inductive BinaryOp where
  | multiply
  | divide
  | remainder
  | add
  | subtract
  | shiftLeft
  | shiftRight
  | less
  | lessEqual
  | greater
  | greaterEqual
  | equal
  | notEqual
  | bitAnd
  | bitXor
  | bitOr
  deriving DecidableEq, Repr

/-- How tightly an operator binds; a lower number binds more tightly. -/
def BinaryOp.precedence : BinaryOp → Nat
  | .multiply | .divide | .remainder => 0
  | .add | .subtract => 1
  | .shiftLeft | .shiftRight => 2
  | .less | .lessEqual | .greater | .greaterEqual => 3
  | .equal | .notEqual => 4
  | .bitAnd => 5
  | .bitXor => 6
  | .bitOr => 7

/-- A part of an expression. -/
inductive Lexeme where
  | fin
  | number (n : Int)
  | name (t : Text)
  | binary (op : BinaryOp)
  /-- An assignment, with an operator or without. -/
  | assign (op : Option BinaryOp)
  | not
  | complement
  | both
  | either
  | question
  | colon
  | openParen
  | closeParen
  | bad
  deriving DecidableEq, Repr

/-- Why an expression has no value. -/
inductive ArithmeticFault where
  | expecting (what : Text)
  | divisionByZero
  | illegalNumber (t : Text)
  deriving DecidableEq, Repr

def ArithmeticFault.message (f : ArithmeticFault) (expression : Text) : Text :=
  let about (what : Text) : Text :=
    utf8 "arithmetic expression: " ++ what ++ utf8 ": \"" ++ expression ++ [doubleQuote]
  match f with
  | .expecting what => about (utf8 "expecting " ++ what)
  | .divisionByZero => about (utf8 "division by zero")
  | .illegalNumber t => utf8 "Illegal number: " ++ t

/-- The white space that numbers may have around them. -/
def isSpaceByte (b : UInt8) : Bool := b == space || (0x09 ≤ b && b ≤ 0x0D)

/-- The operators with their signs, longer ones first. -/
def signs : List (Text × Lexeme) :=
  [(utf8 "<<=", .assign (some .shiftLeft)), (utf8 ">>=", .assign (some .shiftRight)),
    (utf8 "*=", .assign (some .multiply)), (utf8 "/=", .assign (some .divide)),
    (utf8 "%=", .assign (some .remainder)), (utf8 "+=", .assign (some .add)),
    (utf8 "-=", .assign (some .subtract)), (utf8 "&=", .assign (some .bitAnd)),
    (utf8 "^=", .assign (some .bitXor)), (utf8 "|=", .assign (some .bitOr)),
    (utf8 "<<", .binary .shiftLeft), (utf8 ">>", .binary .shiftRight),
    (utf8 "<=", .binary .lessEqual), (utf8 ">=", .binary .greaterEqual),
    (utf8 "==", .binary .equal), (utf8 "!=", .binary .notEqual),
    (utf8 "&&", .both), (utf8 "||", .either),
    (utf8 "*", .binary .multiply), (utf8 "/", .binary .divide), (utf8 "%", .binary .remainder),
    (utf8 "+", .binary .add), (utf8 "-", .binary .subtract), (utf8 "<", .binary .less),
    (utf8 ">", .binary .greater), (utf8 "&", .binary .bitAnd), (utf8 "^", .binary .bitXor),
    (utf8 "|", .binary .bitOr), (utf8 "=", .assign none), (utf8 "!", .not),
    (utf8 "~", .complement), (utf8 "?", .question), (utf8 ":", .colon), (utf8 "(", .openParen),
    (utf8 ")", .closeParen)]

/-- The digits of a number without sign at the front of a text: its base and how many bytes stand
before its digits, and how many digits there are. -/
def numeralAt (t : Text) : Nat × Nat × Nat :=
  let run (base : Nat) (t : Text) : Nat :=
    (t.takeWhile fun b => (Text.digitValue? b).any (· < base)).length
  match t with
  | 0x30 :: x :: rest =>
    if toLower x == 0x78 && run 16 rest > 0 then (16, 2, run 16 rest)
    else (8, 0, run 8 t)
  | 0x30 :: [] => (8, 0, 1)
  | _ => (10, 0, run 10 t)

/-- A number kept to 64 bits. -/
def clamped (n : Int) : Int := min (max n smallestInt) largestInt

def lexemes : (fuel : Nat) → Text → List Lexeme
  | 0, _ => []
  | _, [] => []
  | fuel + 1, b :: rest =>
    if isSpaceByte b then lexemes fuel rest
    else if isDigit b then
      let (base, lead, count) := numeralAt (b :: rest)
      let digits := ((b :: rest).drop lead).take count
      .number (clamped (((Text.digits? base digits).getD 0 : Nat) : Int)) ::
        lexemes fuel ((b :: rest).drop (lead + count))
    else if isNameStart b then
      let name := (b :: rest).takeWhile isNameByte
      .name name :: lexemes fuel ((b :: rest).drop name.length)
    else
      match signs.find? fun (sign, _) => Text.startsWith (b :: rest) sign with
      | some (sign, lexeme) => lexeme :: lexemes fuel ((b :: rest).drop sign.length)
      | none => [.bad]

/-- A number in a base, or in the base that its front shows, with a sign and white space around
it. A blank text is zero unless a base is given. -/
def integerOf? (base : Option Nat) (t : Text) : Option Int :=
  let inner := t.dropWhile isSpaceByte
  let (negative, digits) :=
    match inner with
    | 0x2D :: rest => (true, rest)
    | 0x2B :: rest => (false, rest)
    | _ => (false, inner)
  let (base', lead, count) :=
    match base with
    | some base =>
      (base, 0, (digits.takeWhile fun b => (Text.digitValue? b).any (· < base)).length)
    | none => numeralAt digits
  if count == 0 then
    if base.isNone && inner.isEmpty then some 0 else none
  else
    let value := (Text.digits? base' ((digits.drop lead).take count)).getD 0
    let n : Int := if negative then -(value : Int) else value
    let after := digits.drop (lead + count)
    if after.all isSpaceByte && clamped n == n then some n else none

/-- The state of an evaluation: the lexemes to come and the values given to names, latest first. -/
structure Calculation where
  rest : List Lexeme
  assigned : List (Text × Int)

/-- A step of an evaluation. -/
abbrev Calculate := StateT Calculation (Except ArithmeticFault)

def BinaryOp.apply (op : BinaryOp) (a b : Int) : Except ArithmeticFault Int :=
  let truth (holds : Bool) : Int := if holds then 1 else 0
  let bits (n : Int) : BitVec 64 := BitVec.ofInt 64 n
  match op with
  | .multiply => .ok (wrap (a * b))
  | .divide => if b == 0 then .error .divisionByZero else .ok (wrap (Int.tdiv a b))
  | .remainder => if b == 0 then .error .divisionByZero else .ok (Int.tmod a b)
  | .add => .ok (wrap (a + b))
  | .subtract => .ok (wrap (a - b))
  | .shiftLeft => .ok ((bits a).shiftLeft (b % 64).toNat).toInt
  | .shiftRight => .ok ((bits a).sshiftRight (b % 64).toNat).toInt
  | .less => .ok (truth (a < b))
  | .lessEqual => .ok (truth (a ≤ b))
  | .greater => .ok (truth (b < a))
  | .greaterEqual => .ok (truth (b ≤ a))
  | .equal => .ok (truth (a == b))
  | .notEqual => .ok (truth (a != b))
  | .bitAnd => .ok ((bits a).and (bits b)).toInt
  | .bitXor => .ok ((bits a).xor (bits b)).toInt
  | .bitOr => .ok ((bits a).or (bits b)).toInt

namespace Calculate

def front : Calculate Lexeme := do return (← get).rest.headD .fin

def next : Calculate Lexeme := do
  let c ← get
  set { c with rest := c.rest.drop 1 }
  return c.rest.headD .fin

/-- The value of a name; one that is not set is zero. -/
def valueOf (lookup : Text → Option Text) (name : Text) : Calculate Int := do
  match (← get).assigned.lookup name with
  | some n => pure n
  | none =>
    match lookup name with
    | none => pure 0
    | some t =>
      match integerOf? none t with
      | some n => pure n
      | none => throw (.illegalNumber t)

def assign (name : Text) (n : Int) : Calculate Unit :=
  modify fun c => { c with assigned := (name, n) :: c.assigned }

end Calculate

open Calculate

mutual

/-- An expression, which may be an assignment. `live` is not set where it is only read. -/
def expression (lookup : Text → Option Text) : (fuel : Nat) → (live : Bool) → Calculate Int
  | 0, _ => throw (.expecting (utf8 "primary"))
  | fuel + 1, live => do
    let c ← get
    match c.rest with
    | .name name :: .assign op :: rest =>
      set { c with rest }
      let n ← expression lookup fuel live
      if live then
        let n ←
          match op with
          | none => pure n
          | some op => op.apply (← valueOf lookup name) n
        assign name n
        pure n
      else pure n
    | _ => choice lookup fuel live

/-- A choice between two expressions, or a disjunction. -/
def choice (lookup : Text → Option Text) : (fuel : Nat) → (live : Bool) → Calculate Int
  | 0, _ => throw (.expecting (utf8 "primary"))
  | fuel + 1, live => do
    let a ← disjunction lookup fuel live
    if (← front) == .question then
      let _ ← next
      let b ← expression lookup fuel (live && a != 0)
      if (← next) != .colon then throw (.expecting (utf8 "':'"))
      let c ← choice lookup fuel (live && a == 0)
      pure (if a != 0 then b else c)
    else pure a

def disjunction (lookup : Text → Option Text) : (fuel : Nat) → (live : Bool) → Calculate Int
  | 0, _ => throw (.expecting (utf8 "primary"))
  | fuel + 1, live => do
    let a ← conjunction lookup fuel live
    if (← front) == .either then
      let _ ← next
      let b ← disjunction lookup fuel (live && a == 0)
      pure (if a != 0 || b != 0 then 1 else 0)
    else pure a

def conjunction (lookup : Text → Option Text) : (fuel : Nat) → (live : Bool) → Calculate Int
  | 0, _ => throw (.expecting (utf8 "primary"))
  | fuel + 1, live => do
    let a ← operand lookup fuel live
    let a ← operations lookup fuel live a 8
    if (← front) == .both then
      let _ ← next
      let b ← conjunction lookup fuel (live && a != 0)
      pure (if a != 0 && b != 0 then 1 else 0)
    else pure a

/-- The operations on an operand whose operators bind more tightly than a precedence. -/
def operations (lookup : Text → Option Text) :
    (fuel : Nat) → (live : Bool) → (a : Int) → (limit : Nat) → Calculate Int
  | 0, _, _, _ => throw (.expecting (utf8 "primary"))
  | fuel + 1, live, a, limit => do
    match ← front with
    | .binary op =>
      if op.precedence < limit then
        let _ ← next
        let b ← operand lookup fuel live
        let b ← operations lookup fuel live b op.precedence
        let n ← if live then op.apply a b else pure b
        operations lookup fuel live n limit
      else pure a
    | _ => pure a

/-- An operand with the signs in front of it. -/
def operand (lookup : Text → Option Text) : (fuel : Nat) → (live : Bool) → Calculate Int
  | 0, _ => throw (.expecting (utf8 "primary"))
  | fuel + 1, live => do
    match ← next with
    | .openParen =>
      let n ← expression lookup fuel live
      if (← next) != .closeParen then throw (.expecting (utf8 "')'"))
      pure n
    | .number n => pure n
    | .name name => if live then valueOf lookup name else pure 0
    | .binary .add => operand lookup fuel live
    | .binary .subtract => return wrap (-(← operand lookup fuel live))
    | .not => return if (← operand lookup fuel live) == 0 then 1 else 0
    | .complement => return -(← operand lookup fuel live) - 1
    | _ => throw (.expecting (utf8 "primary"))

end

/-- The value of an expression, and the values that it gives to names, latest first. -/
def calculate (lookup : Text → Option Text) (t : Text) :
    Except ArithmeticFault (Int × List (Text × Int)) := do
  let parts := lexemes (t.length + 1) t
  let (n, c) ← (expression lookup (16 * parts.length + 16) true).run ⟨parts, []⟩
  if c.rest.isEmpty then .ok (n, c.assigned) else .error (.expecting (utf8 "EOF"))

end ClassUpgrade.Shell
