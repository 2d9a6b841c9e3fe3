/-
# Glob.Pattern — patterns for paths

A pattern describes a set of texts of characters. Its meaning is given by the
rests it leaves: every tail of the text that remains after some front part
has been matched. A text is matched when the empty rest is among them.
-/

namespace ClassUpgrade.Glob

set_option autoImplicit false

/-- The character between the segments of a path. -/
def separator : Char := '/'

/-- A pattern over the characters of a path. -/
inductive Pattern where
  /-- The empty text. -/
  | empty
  /-- This character. -/
  | char (c : Char)
  /-- One character but the separator. -/
  | one
  /-- Any run of characters but the separator. -/
  | run
  /-- Any run of characters. -/
  | anything
  /-- One character of a list, or one outside it. -/
  | list (negated : Bool) (cs : List Char)
  /-- One character between two, or one that is not. -/
  | range (negated : Bool) (low high : Char)
  /-- One pattern after the other. -/
  | seq (p q : Pattern)
  /-- Either pattern. -/
  | either (p q : Pattern)
  deriving DecidableEq, Repr

/-- The rest after one character that satisfies a condition. -/
def restAfter (condition : Char → Bool) : List Char → List (List Char)
  | [] => []
  | c :: rest => if condition c then [rest] else []

/-- The rests after every run of characters that satisfy a condition. -/
def restsAfterRun (condition : Char → Bool) : List Char → List (List Char)
  | [] => [[]]
  | c :: rest => (c :: rest) :: if condition c then restsAfterRun condition rest else []

namespace Pattern

/-- Every rest that the pattern leaves of a text. -/
def rests : Pattern → List Char → List (List Char)
  | .empty, s => [s]
  | .char c, s => restAfter (· == c) s
  | .one, s => restAfter (· != separator) s
  | .run, s => restsAfterRun (· != separator) s
  | .anything, s => restsAfterRun (fun _ => true) s
  | .list negated cs, s => restAfter (fun c => cs.contains c != negated) s
  | .range negated low high, s => restAfter (fun c => (low ≤ c && c ≤ high) != negated) s
  | .seq p q, s => ((p.rests s).flatMap q.rests).eraseDups
  | .either p q, s => p.rests s ++ q.rests s

/-- Whether the pattern matches the whole text. -/
def accepts (p : Pattern) (s : List Char) : Bool := (p.rests s).contains []

end Pattern

end ClassUpgrade.Glob
