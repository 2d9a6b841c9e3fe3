/-
# Proofs.Component.ClassName — the bytes of a class name

The characters of a class name are name characters of the type name, the first
of each word in upper case. A byte below 0x80 is written only by the character
with that code, so what is no name character and no upper-case partner of one is
no byte of a class name: the dot is none (`dot_notMem_className`).
-/
import ClassUpgrade.Component.ClassName

namespace ClassUpgrade

set_option autoImplicit false

/-! ## Characters and bytes -/

/-- A byte below 0x80 is written by one character only. -/
theorem toNat_of_mem_utf8EncodeChar {c : Char} {b : UInt8} (mem : b ∈ String.utf8EncodeChar c)
    (ascii : b.toNat < 0x80) : c.toNat = b.toNat := by
  have code_eq : c.toNat = c.val.toNat := rfl
  have high : ∀ n, 0x80 ≤ n % 0x100 → b ≠ UInt8.ofNat n := by
    rintro n large rfl
    rw [UInt8.toNat_ofNat'] at ascii
    omega
  unfold String.utf8EncodeChar at mem
  dsimp only at mem
  split at mem
  · obtain rfl := List.mem_singleton.mp mem
    rw [UInt8.toNat_ofNat']
    omega
  · -- every byte of a longer sequence has its highest bit set
    exfalso
    split at mem
    · simp only [List.mem_cons, List.not_mem_nil, or_false] at mem
      rcases mem with eq | eq <;> exact high _ (by omega) eq
    · split at mem <;> simp only [List.mem_cons, List.not_mem_nil, or_false] at mem
      · rcases mem with eq | eq | eq <;> exact high _ (by omega) eq
      · rcases mem with eq | eq | eq | eq <;> exact high _ (by omega) eq

/-- A code that is no character counts as zero. -/
theorem toNat_char_ofNat (n : Nat) : (Char.ofNat n).toNat = n ∨ (Char.ofNat n).toNat = 0 := by
  unfold Char.ofNat
  by_cases valid : n.isValidChar
  · rw [dif_pos valid]
    exact .inl rfl
  · rw [dif_neg valid]
    exact .inr rfl

namespace LetterCase

/-- The upper-case partner of another character is no dot. -/
theorem toNat_upper_ne_dot {c : Char} (other : c.toNat ≠ 0x2E) : (upper c).toNat ≠ 0x2E := by
  have above : ∀ s ∈ upperShifts, (0x2E : Int) < s.first + s.shift := by decide +kernel
  unfold upper CaseShift.apply
  split
  · rename_i s found
    have moved := List.find?_some found
    have far := above s (List.mem_of_find?_eq_some found)
    simp only [CaseShift.moves, Bool.and_eq_true, decide_eq_true_eq] at moved
    obtain ⟨⟨from_first, -⟩, -⟩ := moved
    rcases toNat_char_ofNat (c.toNat + s.shift).toNat with code | code <;> omega
  · exact other

end LetterCase

namespace Text

/-- The elements of a run are no separators. -/
theorem isSeparator_of_mem_runsFrom {α : Type} {isSeparator : α → Bool} :
    ∀ (as run : List α), (∀ a ∈ run, isSeparator a = false) →
      ∀ w ∈ runsFrom isSeparator run as, ∀ a ∈ w, isSeparator a = false
  | [], run, plain, w, mem, a, inside => by
      unfold runsFrom at mem
      split at mem
      · cases mem
      · obtain rfl := List.mem_singleton.mp mem
        exact plain a (List.mem_reverse.mp inside)
  | b :: rest, run, plain, w, mem, a, inside => by
      unfold runsFrom at mem
      split at mem
      · split at mem
        · exact isSeparator_of_mem_runsFrom rest [] (by simp) w mem a inside
        · rcases List.mem_cons.mp mem with rfl | later
          · exact plain a (List.mem_reverse.mp inside)
          · exact isSeparator_of_mem_runsFrom rest [] (by simp) w later a inside
      · rename_i b_plain
        refine isSeparator_of_mem_runsFrom rest (b :: run) ?_ w mem a inside
        intro x x_mem
        rcases List.mem_cons.mp x_mem with rfl | old
        · simpa using b_plain
        · exact plain x old

end Text

namespace Component

open Byte

theorem isNameChar_of_mem_nameWords {typeName : Text} {w : List Char} (mem : w ∈ nameWords typeName)
    {c : Char} (inside : c ∈ w) : isNameChar c = true := by
  simpa using Text.isSeparator_of_mem_runsFrom _ [] (by simp) w mem c inside

theorem mem_of_mem_withoutLeadingNumber {words : List (List Char)} {w : List Char}
    (mem : w ∈ withoutLeadingNumber words) : w ∈ words := by
  unfold withoutLeadingNumber at mem
  split at mem
  · exact mem
  · split at mem
    · exact List.mem_cons_of_mem _ mem
    · exact mem

/-- A character of a class name is a name character or the upper-case partner of one. -/
theorem mem_classNameChars {typeName : Text} {c : Char} (mem : c ∈ classNameChars typeName) :
    ∃ d, isNameChar d = true ∧ (c = d ∨ c = LetterCase.upper d) := by
  obtain ⟨w, w_mem, inside⟩ := List.mem_flatMap.mp mem
  have named : ∀ d ∈ w, isNameChar d = true := fun d mem' =>
    isNameChar_of_mem_nameWords (mem_of_mem_withoutLeadingNumber w_mem) mem'
  cases w with
  | nil => cases inside
  | cons first rest =>
      rcases List.mem_cons.mp inside with rfl | later
      · exact ⟨first, named first List.mem_cons_self, .inr rfl⟩
      · exact ⟨c, named c (List.mem_cons_of_mem _ later), .inl rfl⟩

/-- **A class name has no dot.** -/
theorem dot_notMem_className (typeName : Text) : dot ∉ className typeName := by
  intro mem
  obtain ⟨c, c_mem, inside⟩ := List.mem_flatMap.mp mem
  have code : c.toNat = 0x2E := toNat_of_mem_utf8EncodeChar inside (by decide)
  obtain ⟨d, named, same⟩ := mem_classNameChars c_mem
  have noDot : d.toNat ≠ 0x2E := by
    intro is_dot
    have : d = '.' := Char.toNat_inj.mp is_dot
    rw [this] at named
    exact absurd named (by decide +kernel)
  rcases same with rfl | rfl
  · exact noDot code
  · exact LetterCase.toNat_upper_ne_dot noDot code

end Component

end ClassUpgrade
