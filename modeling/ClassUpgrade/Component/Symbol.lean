/-
# Component.Symbol — legacy symbols and what replaces them

A symbol rule finds every occurrence of a pattern, from the left and without
overlap, and puts a template in its place; it may also name a symbol for
the import lines. Rules are grouped in stages: a table runs stage
by stage, the rules of one stage in table order.

A pattern is a sequence of atoms and is matched without backtracking. That
finds every match, because each run of blanks or word bytes in a pattern is
followed by a byte that the run cannot hold, and no name in a choice is the
front part of another.
-/
import ClassUpgrade.Component.Import
import ClassUpgrade.Source.Cursor

namespace ClassUpgrade.Component

set_option autoImplicit false

open Byte Source

/-- A byte of a word as the patterns see it: ASCII letters, digits and the underscore. The
dollar sign is none. -/
def isSymbolByte (b : UInt8) : Bool := isAlpha b || isDigit b || b == underscore

/-- A blank as the patterns see it: a form feed counts. -/
def isPatternBlank (b : UInt8) : Bool := isSpace b || b == formFeed

/-- A step of a pattern. -/
inductive Atom where
  /-- A place with a word byte on exactly one side. -/
  | edge
  /-- This very text. -/
  | exact (t : Text)
  /-- A run of blanks, at least this many. -/
  | blanks (least : Nat)
  /-- One of these names, which is captured. -/
  | oneOf (names : List Text)
  /-- A non-empty run of word bytes, which is captured. -/
  | word
  deriving DecidableEq, Repr

/-- Whether a word byte is next in the bytes on one side of a place. -/
def facesWord (side : Text) : Bool := side.head?.any isSymbolByte

/-- How many bytes an atom takes at a place, and what it captures. -/
def Atom.match? (c : Cursor) : Atom → Option (Nat × Text)
  | .edge => if facesWord c.before != facesWord c.after then some (0, []) else none
  | .exact t => if Text.startsWith c.after t then some (t.length, []) else none
  | .blanks least =>
    let n := (c.after.takeWhile isPatternBlank).length
    if least ≤ n then some (n, []) else none
  | .oneOf names => (names.find? (Text.startsWith c.after)).map fun name => (name.length, name)
  | .word =>
    let run := c.after.takeWhile isSymbolByte
    if run.isEmpty then none else some (run.length, run)

/-- How many bytes a pattern takes at a place, and what it captures. -/
def matchPattern? (c : Cursor) : List Atom → Option (Nat × Text)
  | [] => some (0, [])
  | atom :: rest => do
    let (n, captured) ← atom.match? c
    let (m, more) ← matchPattern? (c.advance n) rest
    some (n + m, captured ++ more)

/-- A text with a gap for what a pattern captured. -/
structure Template where
  lead : Text
  trail : Text
  deriving DecidableEq, Repr

def Template.expand (t : Template) (captured : Text) : Text := t.lead ++ captured ++ t.trail

/-- The groups of rules, in the order in which they run. -/
inductive Stage where
  | properties
  | constructors
  | math
  | globals
  | nested
  | renames
  deriving DecidableEq, Repr

def Stage.all : List Stage := [.properties, .constructors, .math, .globals, .nested, .renames]

/-- Replaces every occurrence of a pattern, and names a symbol to import for each. -/
structure SymbolRule where
  stage : Stage
  pattern : List Atom
  replacement : Template
  imported : Option (Library × Template)
  deriving DecidableEq, Repr

namespace SymbolRule

def importsOf (r : SymbolRule) (captured : Text) : List Import :=
  match r.imported with
  | some (library, symbol) => [⟨library, symbol.expand captured⟩]
  | none => []

/-- Applies a rule from a place on: `skip` bytes of an occurrence are still to be left out. -/
def applyFrom (r : SymbolRule) (before : Text) (skip : Nat) : Text → Text × List Import
  | [] => ([], [])
  | b :: rest =>
    match skip with
    | skip + 1 => r.applyFrom (b :: before) skip rest
    | 0 =>
      match matchPattern? ⟨before, b :: rest⟩ r.pattern with
      | some (n, captured) =>
        let (text, imports) := r.applyFrom (b :: before) (n - 1) rest
        (r.replacement.expand captured ++ text, r.importsOf captured ++ imports)
      | none =>
        let (text, imports) := r.applyFrom (b :: before) 0 rest
        (b :: text, imports)

/-- The text with every occurrence replaced, and the imports asked for, in order. -/
def apply (r : SymbolRule) (t : Text) : Text × List Import := r.applyFrom [] 0 t

end SymbolRule

/-- Rules in some order. -/
abbrev SymbolTable := List SymbolRule

namespace SymbolTable

/-- The rules stage by stage, those of one stage in table order. -/
def ordered (t : SymbolTable) : SymbolTable :=
  Stage.all.flatMap fun stage => t.filter (·.stage == stage)

/-- Applies rules one after the other, each to what the one before it left. -/
def applyAll : SymbolTable → Text → Text × List Import
  | [], text => (text, [])
  | rule :: rest, text =>
    let (once, imports) := rule.apply text
    let (final, more) := applyAll rest once
    (final, imports ++ more)

def apply (t : SymbolTable) (text : Text) : Text × List Import := applyAll t.ordered text

end SymbolTable

/-- The properties of the former global that now live on the engine of a component. -/
def engineGlobals : List Text :=
  [utf8 "scene", utf8 "physics", utf8 "textures", utf8 "canvas", utf8 "arSupported",
    utf8 "vrSupported", utf8 "onSceneLoaded", utf8 "onXRSessionStart", utf8 "onXRSessionEnd",
    utf8 "onXRSupported", utf8 "xrFrame"]

/-- The classes whose constructor takes the engine first. -/
def engineConstructors : List Text := [utf8 "Texture"]

/-- What a call of such a constructor starts with, up to its parenthesis. -/
def constructorCall : List Atom :=
  [.edge, .exact (utf8 "new"), .blanks 1, .exact (utf8 "WL."), .oneOf engineConstructors,
    .blanks 0, .exact (utf8 "(")]

def bareConstructorRule : SymbolRule where
  stage := .constructors
  pattern := constructorCall ++ [.blanks 0, .exact (utf8 ")")]
  replacement := ⟨utf8 "new ", utf8 "(this.engine)"⟩
  imported := some (.engine, ⟨[], []⟩)

def constructorRule : SymbolRule where
  stage := .constructors
  pattern := constructorCall
  replacement := ⟨utf8 "new ", utf8 "(this.engine, "⟩
  imported := some (.engine, ⟨[], []⟩)

/-- A member of the former math global. -/
def mathRule : SymbolRule where
  stage := .math
  pattern := [.edge, .exact (utf8 "glMatrix."), .word, .exact (utf8 ".")]
  replacement := ⟨[], utf8 "."⟩
  imported := some (.math, ⟨[], []⟩)

/-- A property that moved to the engine. -/
def globalRule : SymbolRule where
  stage := .globals
  pattern := [.edge, .exact (utf8 "WL."), .oneOf engineGlobals, .edge]
  replacement := ⟨utf8 "this.engine.", []⟩
  imported := none

/-- A property of the former global that moved below `engine.xr` under a new name. -/
def nestedRule (legacy current : Text) : SymbolRule where
  stage := .nested
  pattern := [.edge, .exact (utf8 "WL." ++ legacy), .edge]
  replacement := ⟨utf8 "this.engine.xr." ++ current, []⟩
  imported := none

def renameRule (legacy current : Text) : SymbolRule where
  stage := .renames
  pattern := [.edge, .exact legacy, .edge]
  replacement := ⟨current, []⟩
  imported := none

def defaultSymbolTable : SymbolTable :=
  [bareConstructorRule, constructorRule, mathRule, globalRule,
    nestedRule (utf8 "xrBaseLayer") (utf8 "baseLayer"),
    nestedRule (utf8 "xrFramebuffer") (utf8 "framebuffer"),
    nestedRule (utf8 "xrSession") (utf8 "session"),
    renameRule (utf8 "getTranslationLocal") (utf8 "getPositionLocal"),
    renameRule (utf8 "getTranslationWorld") (utf8 "getPositionWorld"),
    renameRule (utf8 "resetTranslationRotation") (utf8 "resetPositionRotation")]

/-- The rule for property types: they lose the namespace. -/
def propertyTypeRule : SymbolRule where
  stage := .properties
  pattern := [.edge, .exact (utf8 "WL.Type.")]
  replacement := ⟨utf8 "Type.", []⟩
  imported := some (.engine, ⟨utf8 "Type", []⟩)

end ClassUpgrade.Component
