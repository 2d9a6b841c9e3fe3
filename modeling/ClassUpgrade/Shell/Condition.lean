/-
# Shell.Condition — the conditions of `test`

A condition is a list of words: operators with one or two operands, joined by
`-a` and `-o`, with `!` and parentheses. A word is an operator only where its
operands are there, so that texts which look like operators can be compared.
-/
import ClassUpgrade.Files.Tree
import ClassUpgrade.Shell.Arithmetic

namespace ClassUpgrade.Shell

set_option autoImplicit false

open Byte

/-- A kind of operators, or the end of the condition. -/
inductive OperatorKind where
  | fin
  | unary
  | binary
  | not
  | and
  | or
  | openParen
  | closeParen
  deriving DecidableEq, Repr

def unaryOperators : List Text :=
  ["-r", "-w", "-x", "-e", "-f", "-d", "-c", "-b", "-p", "-u", "-g", "-k", "-s", "-t", "-z", "-n",
    "-h", "-O", "-G", "-L", "-S"].map utf8

def binaryOperators : List Text :=
  ["=", "!=", "<", ">", "-eq", "-ne", "-ge", "-gt", "-le", "-lt", "-nt", "-ot", "-ef"].map utf8

def operatorKind? (t : Text) : Option OperatorKind :=
  if unaryOperators.contains t then some .unary
  else if binaryOperators.contains t then some .binary
  else if t == utf8 "!" then some .not
  else if t == utf8 "-a" then some .and
  else if t == utf8 "-o" then some .or
  else if t == utf8 "(" then some .openParen
  else if t == utf8 ")" then some .closeParen
  else none

/-- A step of a test, over the place of the word it has come to. It fails with a complaint. -/
abbrev Test := StateT Nat (Except Text)

/-- What a condition is tested on: the words, and what a path names. -/
structure Circumstance where
  words : Array Text
  stat : Text → Except PathFault Node

namespace Circumstance

/-- The kind of the word at a place; none for an operand. -/
def kindAt (c : Circumstance) (place : Nat) : Option OperatorKind :=
  match c.words[place]? with
  | none => some .fin
  | some t =>
    match operatorKind? t with
    | some .unary =>
      match c.words[place + 1]?, c.words[place + 2]? with
      | none, _ => none
      | some _, none => some .unary
      | some next, some _ => if operatorKind? next == some .binary then none else some .unary
    | some .openParen => if c.words[place + 1]?.isNone then none else some .openParen
    | kind => kind

def pathIs (c : Circumstance) (test path : Text) : Bool :=
  match c.stat path with
  | .error _ => false
  | .ok node =>
    if [utf8 "-e", utf8 "-r", utf8 "-w", utf8 "-O", utf8 "-G"].contains test then true
    else
      match node with
      | .directory => test == utf8 "-d" || test == utf8 "-x" || test == utf8 "-s"
      | .file content => test == utf8 "-f" || (test == utf8 "-s" && !content.isEmpty)

def holdsOne (c : Circumstance) (operator operand : Text) : Except Text Bool :=
  if operator == utf8 "-z" then .ok operand.isEmpty
  else if operator == utf8 "-n" then .ok (!operand.isEmpty)
  else if operator == utf8 "-t" then
    match integerOf? (some 10) operand with
    | some _ => .ok false
    | none => .error (utf8 "Illegal number: " ++ operand)
  else .ok (c.pathIs operator operand)

def holdsTwo (c : Circumstance) (operator left right : Text) : Except Text Bool :=
  let number (t : Text) : Except Text Int :=
    match integerOf? (some 10) t with
    | some n => .ok n
    | none => .error (utf8 "Illegal number: " ++ t)
  let compare (relation : Int → Int → Bool) : Except Text Bool := do
    let a ← number left
    let b ← number right
    .ok (relation a b)
  if operator == utf8 "=" then .ok (left == right)
  else if operator == utf8 "!=" then .ok (left != right)
  else if operator == utf8 "<" then .ok (Text.before left right)
  else if operator == utf8 ">" then .ok (Text.before right left)
  else if operator == utf8 "-eq" then compare (· == ·)
  else if operator == utf8 "-ne" then compare (· != ·)
  else if operator == utf8 "-ge" then compare fun a b => b ≤ a
  else if operator == utf8 "-gt" then compare fun a b => b < a
  else if operator == utf8 "-le" then compare fun a b => a ≤ b
  else if operator == utf8 "-lt" then compare fun a b => a < b
  else if operator == utf8 "-ef" then
    .ok (Path.clean left == Path.clean right && (c.stat left).toOption.isSome)
  else .ok false

def complain {α : Type} (word what : Text) : Test α :=
  throw (if word.isEmpty then what else word ++ utf8 ": " ++ what)

mutual

/-- Conditions joined by `-o`, of which the one at the current place has a kind. -/
def disjunction (c : Circumstance) : (fuel : Nat) → Option OperatorKind → Test Bool
  | 0, _ => pure false
  | fuel + 1, kind => do
    let a ← c.conjunction fuel kind
    let place ← get
    if c.kindAt (place + 1) == some .or then
      set (place + 2)
      let b ← c.disjunction fuel (c.kindAt (place + 2))
      pure (a || b)
    else pure a

/-- Conditions joined by `-a`. -/
def conjunction (c : Circumstance) : (fuel : Nat) → Option OperatorKind → Test Bool
  | 0, _ => pure false
  | fuel + 1, kind => do
    let a ← c.negation fuel kind
    let place ← get
    if c.kindAt (place + 1) == some .and then
      set (place + 2)
      let b ← c.conjunction fuel (c.kindAt (place + 2))
      pure (a && b)
    else pure a

/-- A condition with exclamation marks in front of it. -/
def negation (c : Circumstance) : (fuel : Nat) → Option OperatorKind → Test Bool
  | 0, _ => pure false
  | fuel + 1, kind => do
    if kind == some .not then
      let place ← get
      let kind := c.kindAt (place + 1)
      if kind != some .fin then set (place + 1)
      let b ← c.negation fuel kind
      pure (!b)
    else c.primary fuel kind

/-- An operator with its operands, a condition in parentheses, or a word alone. -/
def primary (c : Circumstance) : (fuel : Nat) → Option OperatorKind → Test Bool
  | 0, _ => pure false
  | fuel + 1, kind => do
    let place ← get
    match kind, c.words[place]? with
    | some .fin, _ | _, none => pure false
    | some .openParen, some _ =>
      set (place + 1)
      let inner := c.kindAt (place + 1)
      if inner == some .closeParen then pure false
      else
        let b ← c.disjunction fuel inner
        modify (· + 1)
        if c.kindAt (← get) != some .closeParen then complain [] (utf8 "closing paren expected")
        pure b
    | some .unary, some operator =>
      set (place + 1)
      match c.words[place + 1]? with
      | none => complain operator (utf8 "argument expected")
      | some operand => c.holdsOne operator operand
    | _, some left =>
      match c.words[place + 1]?, c.kindAt (place + 1) with
      | some operator, some .binary =>
        set (place + 2)
        match c.words[place + 2]? with
        | none => complain operator (utf8 "argument expected")
        | some right => c.holdsTwo operator left right
      | _, _ => pure (!left.isEmpty)

end

/-- Whether a condition holds, from the kind of its first word on. -/
def evaluate (c : Circumstance) (kind : Option OperatorKind) : Except Text Bool := do
  let (b, place) ← (c.disjunction (4 * c.words.size + 8) kind).run 0
  match c.words[place]?, c.words[place + 1]? with
  | some word, some _ => .error (word ++ utf8 ": unexpected operator")
  | _, _ => .ok b

end Circumstance

/-- Whether a condition holds. With three words an operator in the middle decides, and with three or
four an exclamation mark in front or parentheses around the others. -/
def conditionHolds (stat : Text → Except PathFault Node) :
    (fuel : Nat) → List Text → Except Text Bool
  | 0, _ => .ok false
  | _, [] => .ok false
  | fuel + 1, words =>
    let c : Circumstance := ⟨words.toArray, stat⟩
    let count := words.length
    if count == 3 && (words[1]?.bind operatorKind?) == some .binary then c.evaluate none
    else if count == 3 || count == 4 then
      if words.head? == some (utf8 "(") && words.getLast? == some (utf8 ")") then
        let inner : Circumstance := ⟨((words.drop 1).dropLast).toArray, stat⟩
        inner.evaluate (inner.kindAt 0)
      else if words.head? == some (utf8 "!") then
        (conditionHolds stat fuel (words.drop 1)).map (!·)
      else c.evaluate (c.kindAt 0)
    else c.evaluate (c.kindAt 0)

end ClassUpgrade.Shell
