/-
# Text.Blank — white space

The table is that of Unicode 17.0; the property has been the same since
version 6.3.
-/
import ClassUpgrade.Text.CodeRange

namespace ClassUpgrade.Blank

set_option autoImplicit false
set_option maxRecDepth 4000

/-- The code points with the property White_Space, in order. -/
def ranges : List CodeRange := [
    ⟨0x9, 0xD⟩, ⟨0x20, 0x20⟩, ⟨0x85, 0x85⟩, ⟨0xA0, 0xA0⟩, ⟨0x1680, 0x1680⟩, ⟨0x2000, 0x200A⟩,
    ⟨0x2028, 0x2029⟩, ⟨0x202F, 0x202F⟩, ⟨0x205F, 0x205F⟩, ⟨0x3000, 0x3000⟩]

/-- A white space character: the ASCII blanks, U+0085, U+00A0 and the spaces and line separators of
the other blocks. The zero width space U+200B is none. -/
def isBlank (c : Char) : Bool := CodeRange.anyHolds ranges c

end ClassUpgrade.Blank
