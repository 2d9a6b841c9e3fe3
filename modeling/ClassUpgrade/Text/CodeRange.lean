/-
# Text.CodeRange — sets of characters as ranges of code points
-/

namespace ClassUpgrade

set_option autoImplicit false

/-- The code points from `first` to `last`, both included. -/
structure CodeRange where
  first : Nat
  last : Nat
  deriving DecidableEq, Repr

namespace CodeRange

def holds (r : CodeRange) (c : Char) : Bool := r.first ≤ c.toNat && c.toNat ≤ r.last

def anyHolds (rs : List CodeRange) (c : Char) : Bool := rs.any (·.holds c)

end CodeRange

end ClassUpgrade
