/-
# Component.Method — a methods object as class methods

The symbol rules run over the whole object body first. Then every entry
header takes its class form and the comma after an entry becomes a line
break; everything else is kept.
-/
import ClassUpgrade.Component.Symbol
import ClassUpgrade.Source.Method

namespace ClassUpgrade.Component

set_option autoImplicit false

open Byte Source

/-- The text of `block` from offset `last` on, with the entries in class form. -/
def spliceMethods (block : Text) (last : Nat) : List MethodMatch → Text
  | [] => block.drop last
  | m :: rest =>
    let body := m.entry.body
    let entry := block.slice last m.start ++ m.entry.render ++
      block.slice (body.start + 1) (body.stop + 1)
    if block[body.stop + 1]? = some comma then
      entry ++ lineFeed :: spliceMethods block (body.stop + 2) rest
    else entry ++ spliceMethods block (body.stop + 1) rest

/-- The class form of a methods object body, and the imports that its symbols ask for. The
imports are known also when a scope of the body is unmatched. -/
def upgradeMethods (block : Text) : Except UnmatchedScope Text × List Import :=
  let (renamed, imports) := defaultSymbolTable.apply block
  ((methodMatches renamed).map (spliceMethods renamed 0), imports)

/-- The class form is spliced from the entries that are found behind the rules. -/
theorem upgradeMethods_fst (block : Text) : (upgradeMethods block).1 =
    (methodMatches (defaultSymbolTable.apply block).1).map
      (spliceMethods (defaultSymbolTable.apply block).1 0) := by
  unfold upgradeMethods
  cases defaultSymbolTable.apply block
  rfl

end ClassUpgrade.Component
