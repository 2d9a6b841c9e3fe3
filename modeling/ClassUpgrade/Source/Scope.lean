/-
# Source.Scope — matching brackets around literals

The close of a bracket is found by counting brackets of its own kind outside
literals. The walk takes one byte at a time: `skip` bytes of a literal are
still to be passed over, and `depth` brackets opened on the way are still
open.
-/
import ClassUpgrade.Source.Cursor
import ClassUpgrade.Text.Numeral

namespace ClassUpgrade.Source

set_option autoImplicit false

open Byte

/-- The region of a matched pair of braces: `start` is the offset of the opening brace and
`stop` that of its closing one. -/
structure Span where
  start : Nat
  stop : Nat
  deriving DecidableEq, Repr

namespace Span

/-- The number of bytes covered, both ends included. -/
def length (s : Span) : Nat := s.stop + 1 - s.start

/-- The text strictly between the two ends. -/
def inner (s : Span) (t : Text) : Text := t.slice (s.start + 1) s.stop

end Span

/-- An opening brace that is never closed, or an offset at which there is none. -/
structure UnmatchedScope where
  offset : Int
  deriving DecidableEq, Repr

def UnmatchedScope.message (e : UnmatchedScope) : Text :=
  utf8 "unmatched scope: brace at offset " ++ Text.ofInt e.offset ++ utf8 " is never closed"

structure Bracket where
  opening : UInt8
  closing : UInt8
  deriving DecidableEq, Repr

/-- The bracket of scopes. -/
def Bracket.brace : Bracket := ⟨openBrace, closeBrace⟩

/-- The bracket of parameter groups. -/
def Bracket.paren : Bracket := ⟨openParen, closeParen⟩

/-- The offset at which the innermost bracket opened before the walk is closed. The walk stands
after `before` (reversed), inside a literal for `skip` more bytes, with `depth` brackets opened
on the way. -/
def closeFrom (kind : Bracket) (before : Text) (skip depth : Nat) : Text → Option Nat
  | [] => none
  | b :: rest =>
    match skip with
    | skip + 1 => closeFrom kind (b :: before) skip depth rest
    | 0 =>
      match literalLength before (b :: rest) with
      | n + 1 => closeFrom kind (b :: before) n depth rest
      | 0 =>
        if b = kind.opening then closeFrom kind (b :: before) 0 (depth + 1) rest
        else if b = kind.closing then
          match depth with
          | 0 => some before.length
          | depth + 1 => closeFrom kind (b :: before) 0 depth rest
        else closeFrom kind (b :: before) 0 depth rest

namespace Cursor

/-- The offset of the bracket that closes the opening one in front. -/
def closeOf? (c : Cursor) (kind : Bracket) : Option Nat := do
  let inside ← c.expect? kind.opening
  closeFrom kind inside.before 0 0 inside.after

end Cursor

/-- The offset of the parenthesis closing the one at `start`. -/
def groupEnd? (t : Text) (start : Nat) : Option Nat := (Cursor.ofOffset t start).closeOf? .paren

/-- The offset of the brace closing the one at `start`, which may be any integer. -/
def scopeEnd (t : Text) (start : Int) : Except UnmatchedScope Nat :=
  if start < 0 then .error ⟨start⟩
  else
    match (Cursor.ofOffset t start.toNat).closeOf? .brace with
    | some stop => .ok stop
    | none => .error ⟨start⟩

def scope (t : Text) (start : Int) : Except UnmatchedScope Span :=
  (scopeEnd t start).map fun stop => ⟨start.toNat, stop⟩

/-- The span of the scope that the brace at a place opens. -/
def Cursor.scope (c : Cursor) : Except UnmatchedScope Span :=
  match c.closeOf? .brace with
  | some stop => .ok ⟨c.offset, stop⟩
  | none => .error ⟨c.offset⟩

end ClassUpgrade.Source
