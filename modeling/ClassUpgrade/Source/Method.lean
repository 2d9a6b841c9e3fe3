/-
# Source.Method — the entries of a methods object

A methods object holds entries `name: function(params) {…}`, with `async`
allowed before `function` or before the name, and the short form
`name(params) {…}`. The scan walks the top level only: a nested scope is
passed over as a whole, so that a header inside a body is left alone.
-/
import ClassUpgrade.Source.Scope

namespace ClassUpgrade.Source

set_option autoImplicit false

open Byte

/-- The words that can stand before `(…) {` without naming a method. -/
def reservedWords : List Text :=
  [utf8 "if", utf8 "for", utf8 "while", utf8 "switch", utf8 "catch", utf8 "with",
    utf8 "function", utf8 "return", utf8 "else", utf8 "do", utf8 "try", utf8 "finally",
    utf8 "new", utf8 "typeof", utf8 "await", utf8 "yield"]

structure MethodHeader where
  name : Text
  isAsync : Bool
  params : Text
  deriving DecidableEq, Repr

/-- The header in class form, up to and including the brace of the body. -/
def MethodHeader.render (h : MethodHeader) : Text :=
  (if h.isAsync then utf8 "async " else []) ++ h.name ++ utf8 "(" ++ h.params ++ utf8 ") \x7b"

/-- A method of a methods object and the braces of its body. -/
structure MethodEntry extends MethodHeader where
  body : Span
  deriving DecidableEq, Repr

/-- A method entry and the offset at which its header starts. -/
structure MethodMatch where
  start : Nat
  entry : MethodEntry
  deriving DecidableEq, Repr

/-- The name at a place, whether a leading `async` marks it, and the place after it. A lone
`async` is itself the name. -/
def methodName (c : Cursor) : Text × Bool × Cursor :=
  let first := c.word
  let rest := c.advance first.length
  if first = utf8 "async" then
    let spaced := rest.skipSpace
    if spaceLength rest.after ≠ 0 ∧ spaced.word ≠ [] then
      (spaced.word, true, spaced.advance spaced.word.length)
    else (first, false, rest)
  else (first, false, rest)

/-- The place past a keyword and the blanks after it, with whether the keyword was there. -/
def optionalKeyword (c : Cursor) (keyword : Text) : Bool × Cursor :=
  if c.hasKeyword keyword then (true, (c.advance keyword.length).skipSpace) else (false, c)

/-- The place past an optional `: [async] [function]`, with whether `async` was there. -/
def methodMarker (c : Cursor) : Bool × Cursor :=
  match c.expect? colon with
  | none => (false, c)
  | some c =>
    let (marked, c) := optionalKeyword c.skipSpace (utf8 "async")
    (marked, (optionalKeyword c (utf8 "function")).2)

/-- The method header at a place, with the place of the brace that opens the body. The header
reads `[async] name [: [async] [function]] (params) {`. -/
def methodHeader? (c : Cursor) : Option (MethodHeader × Cursor) := do
  let (name, marked, c) := methodName c
  if reservedWords.contains name then none
  else
    let (markedAgain, c) := methodMarker c.skipSpace
    let close ← c.closeOf? .paren
    let params := c.after.slice 1 (close - c.offset)
    let brace := (c.advance (close + 1 - c.offset)).skipSpace
    if brace.peek? = some openBrace then some (⟨name, marked || markedAgain, params⟩, brace)
    else none

/-- The method entries at the top level from a place on. The walk stands after `before`
(reversed) and has `skip` bytes of a literal, a word, a scope or an entry still to pass over. -/
def methodsFrom (before : Text) (skip : Nat) :
    Text → Except UnmatchedScope (List MethodMatch)
  | [] => .ok []
  | b :: rest =>
    match skip with
    | skip + 1 => methodsFrom (b :: before) skip rest
    | 0 =>
      match literalLength before (b :: rest) with
      | n + 1 => methodsFrom (b :: before) n rest
      | 0 =>
        let here : Cursor := ⟨before, b :: rest⟩
        if b = openBrace then
          match here.scope with
          | .error e => .error e
          | .ok span => methodsFrom (b :: before) (span.stop - span.start) rest
        else if here.startsWord then
          match methodHeader? here with
          | none => methodsFrom (b :: before) (here.word.length - 1) rest
          | some (header, brace) =>
            match brace.scope with
            | .error e => .error e
            | .ok body =>
              (methodsFrom (b :: before) (body.stop - here.offset) rest).map
                (⟨here.offset, { header with body }⟩ :: ·)
        else methodsFrom (b :: before) 0 rest

/-- The method entries at the top level of an object body, with the offsets of their headers. -/
def methodMatches (block : Text) : Except UnmatchedScope (List MethodMatch) :=
  methodsFrom [] 0 block

/-- The method entries at the top level of an object body. -/
def methodEntries (block : Text) : Except UnmatchedScope (List MethodEntry) :=
  (methodMatches block).map (·.map MethodMatch.entry)

end ClassUpgrade.Source
