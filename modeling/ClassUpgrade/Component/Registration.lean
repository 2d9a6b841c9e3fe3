/-
# Component.Registration — legacy registration calls in a document

A registration reads `WL.registerComponent('type-name', {…}, {…});`. The
survey of a document walks its text once, outside literals, and lists the
registrations in order of appearance up to the first one whose braces do not
match.
-/
import ClassUpgrade.Source.Scope

namespace ClassUpgrade.Component

set_option autoImplicit false

open Byte Source

def registrationObject : Text := utf8 "WL"

def registrationFunction : Text := utf8 "registerComponent"

/-- A registration call found in a document: `start` is its first byte, `stop` the offset after
its last. -/
structure Registration where
  start : Nat
  stop : Nat
  typeName : Text
  properties : Span
  methods : Option Span
  deriving DecidableEq, Repr

/-- What a registration defines; a registration without methods defines the empty text. -/
structure Definition where
  typeName : Text
  properties : Text
  methods : Text
  deriving DecidableEq, Repr

namespace Registration

/-- The region of the whole statement, last byte included. -/
def span (r : Registration) : Span := ⟨r.start, r.stop - 1⟩

def definition (r : Registration) (doc : Text) : Definition where
  typeName := r.typeName
  properties := r.properties.inner doc
  methods := (r.methods.map (·.inner doc)).getD []

end Registration

/-- The quoted type name at a place and the place after its closing quote. The name is not
empty and holds neither a line feed nor a backslash. -/
def quotedName? (c : Cursor) : Option (Text × Cursor) := do
  let quote ← c.peek?
  guard (isQuote quote)
  let opened := c.advance 1
  let name := opened.after.takeWhile (· != quote)
  let closed ← (opened.advance name.length).expect? quote
  guard (!name.isEmpty && !name.contains lineFeed && !name.contains backslash)
  some (name, closed)

/-- The registration head `WL.registerComponent('type-name', {` at a place: the type name and
the place of the brace. -/
def registrationHead? (c : Cursor) : Option (Text × Cursor) := do
  guard (c.word == registrationObject)
  let c ← (c.advance registrationObject.length).skipSpace.expect? dot
  let c := c.skipSpace
  guard (c.word == registrationFunction)
  let c ← (c.advance registrationFunction.length).skipSpace.expect? openParen
  let (name, c) ← quotedName? c.skipSpace
  let c ← c.skipSpace.expect? comma
  let c := c.skipSpace
  guard (c.peek? == some openBrace)
  some (name, c)

/-- The place past blanks and comments, and past one comma with what follows it. -/
def skipSeparator (c : Cursor) : Cursor :=
  match c.skipTrivia.expect? comma with
  | some c => c.skipTrivia
  | none => c.skipTrivia

/-- The place after the end of a call whose arguments end at `c`: past the parenthesis, blanks
on its line and a semicolon. -/
def callEnd? (c : Cursor) : Option Cursor := do
  let c ← c.expect? closeParen
  some ((c.advance (c.after.takeWhile fun b => b == space || b == tab).length).skipByte semicolon)

/-- Completes a registration from its head at offset `start`: the scope of the properties, an
optional scope of methods, and the end of the call. Without a closing parenthesis where one is
expected, the registration ends with its last scope. -/
def complete (start : Nat) (typeName : Text) (brace : Cursor) :
    Except UnmatchedScope Registration :=
  match brace.scope with
  | .error e => .error e
  | .ok properties =>
    let afterProperties := brace.advance properties.length
    let next := skipSeparator afterProperties
    if next.peek? = some openBrace then
      match next.scope with
      | .error e => .error e
      | .ok methods =>
        let afterMethods := next.advance methods.length
        let stop := (callEnd? (skipSeparator afterMethods)).getD afterMethods
        .ok ⟨start, stop.offset, typeName, properties, some methods⟩
    else
      let stop := (callEnd? next).getD afterProperties
      .ok ⟨start, stop.offset, typeName, properties, none⟩

/-- The registrations of a document, up to the first unmatched scope if there is one. -/
structure Survey where
  found : List Registration
  failure : Option UnmatchedScope
  deriving DecidableEq, Repr

/-- Surveys a document from a place on: `skip` bytes of a literal, a word or a registration are
still to be passed over. -/
def surveyFrom (before : Text) (skip : Nat) : Text → Survey
  | [] => ⟨[], none⟩
  | b :: rest =>
    match skip with
    | skip + 1 => surveyFrom (b :: before) skip rest
    | 0 =>
      match literalLength before (b :: rest) with
      | n + 1 => surveyFrom (b :: before) n rest
      | 0 =>
        let here : Cursor := ⟨before, b :: rest⟩
        if here.startsWord then
          match registrationHead? here with
          | none => surveyFrom (b :: before) (here.word.length - 1) rest
          | some (typeName, brace) =>
            match complete here.offset typeName brace with
            | .error e => ⟨[], some e⟩
            | .ok r =>
              let more := surveyFrom (b :: before) (r.stop - r.start - 1) rest
              { more with found := r :: more.found }
        else surveyFrom (b :: before) 0 rest

def survey (doc : Text) : Survey := surveyFrom [] 0 doc

/-- The registrations of a document, in order of appearance, unless a scope is unmatched. -/
def registrations (doc : Text) : Except UnmatchedScope (List Registration) :=
  match survey doc with
  | ⟨found, none⟩ => .ok found
  | ⟨_, some e⟩ => .error e

end ClassUpgrade.Component
