/-
# Source.Cursor — a place in a text

A cursor splits a text in two: what lies before it, kept reversed so that the
nearest byte comes first, and what lies after it. Moving forward never leaves
the text, and the text itself never changes.
-/
import ClassUpgrade.Source.Literal

namespace ClassUpgrade.Source

set_option autoImplicit false

/-- A place in a text: the bytes before it, nearest first, and the bytes after it. -/
structure Cursor where
  before : Text
  after : Text
  deriving DecidableEq, Repr

namespace Cursor

def start (t : Text) : Cursor := ⟨[], t⟩

/-- The place at an offset, or the end of the text when the offset lies beyond it. -/
def ofOffset (t : Text) (offset : Nat) : Cursor := ⟨(t.take offset).reverse, t.drop offset⟩

def offset (c : Cursor) : Nat := c.before.length

def text (c : Cursor) : Text := c.before.reverse ++ c.after

/-- The place `n` bytes further on, or the end. -/
def advance (c : Cursor) (n : Nat) : Cursor := ⟨(c.after.take n).reverse ++ c.before, c.after.drop n⟩

def skipSpace (c : Cursor) : Cursor := c.advance (spaceLength c.after)

def skipTrivia (c : Cursor) : Cursor := c.advance (triviaLength c.after)

def peek? (c : Cursor) : Option UInt8 := c.after.head?

/-- The place past the byte `b`, when `b` is in front. -/
def expect? (c : Cursor) (b : UInt8) : Option Cursor :=
  if c.peek? = some b then some (c.advance 1) else none

/-- The place past the byte `b` when it is in front, else the place itself. -/
def skipByte (c : Cursor) (b : UInt8) : Cursor := (c.expect? b).getD c

def word (c : Cursor) : Text := Source.word c.after

def hasKeyword (c : Cursor) (keyword : Text) : Bool := Source.hasKeyword keyword c.after

/-- Whether an identifier starts here that is neither a tail nor a member. -/
def startsWord (c : Cursor) : Bool := !c.word.isEmpty && atWordStart c.before

def literalLength (c : Cursor) : Nat := Source.literalLength c.before c.after

end Cursor

end ClassUpgrade.Source
