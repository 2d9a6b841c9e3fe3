/-
# Component.Import — the symbols an upgraded document imports

The symbols of one library are kept in byte order without duplicates, so
that two documents that need the same symbols get the same import line,
whatever the order in which the symbols were met.
-/
import ClassUpgrade.Text.NameSet

namespace ClassUpgrade.Component

set_option autoImplicit false

/-- A library that upgraded code imports symbols from. -/
inductive Library where
  | engine
  | math
  deriving DecidableEq, Repr

namespace Library

/-- The libraries in the order of their import lines. -/
def all : List Library := [.engine, .math]

def specifier : Library → Text
  | .engine => utf8 "@wonderlandengine/api"
  | .math => utf8 "gl-matrix"

/-- The library of a module specifier; every specifier but that of the math library stands for
the engine. -/
def ofSpecifier (t : Text) : Library := if t = specifier .math then .math else .engine

end Library

/-- The symbols imported from one library. -/
abbrev ImportSet := NameSet

/-- A symbol that upgraded code refers to. -/
structure Import where
  library : Library
  symbol : Text
  deriving DecidableEq, Repr

/-- What the upgrade of one document has found so far: the symbols to import and the type names
of the registrations upgraded, in order of appearance. -/
structure Findings where
  engine : ImportSet
  math : ImportSet
  components : List Text

namespace Findings

def empty : Findings := ⟨.empty, .empty, []⟩

def imports (f : Findings) : Library → ImportSet
  | .engine => f.engine
  | .math => f.math

def record (f : Findings) (i : Import) : Findings :=
  match i.library with
  | .engine => { f with engine := f.engine.insert i.symbol }
  | .math => { f with math := f.math.insert i.symbol }

def recordAll (f : Findings) (is : List Import) : Findings := is.foldl record f

def addComponent (f : Findings) (typeName : Text) : Findings :=
  { f with components := f.components ++ [typeName] }

/-- The libraries with symbols to import, in order, with their symbols. -/
def importTable (f : Findings) : List (Library × List Text) :=
  (Library.all.map fun l => (l, (f.imports l).names)).filter fun (_, symbols) => !symbols.isEmpty

/-- One import line for each library with symbols. -/
def renderImports (f : Findings) : Text :=
  f.importTable.flatMap fun (library, symbols) =>
    utf8 "import \x7b" ++ Text.join (utf8 ", ") symbols ++ utf8 "\x7d from '" ++
      library.specifier ++ utf8 "';\n"

end Findings

end ClassUpgrade.Component
