/-
# Proofs.Text.LetterCase — the upper-case partner of a letter is a letter

Upper case is a table of moves, letters and digits are tables of ranges, and
what one table says of another is decided on the tables. A move takes its
letters to letters, most of them as a whole interval and one of them every other
code point (`CaseShift.lands`), or it moves no letter, as that of the Roman
numerals. No move has a decimal digit.
-/
import ClassUpgrade.Text.DecimalDigit
import ClassUpgrade.Text.Letter
import ClassUpgrade.Text.LetterCase

namespace ClassUpgrade

set_option autoImplicit false
set_option maxRecDepth 4000

/-! ## Ranges of code points -/

namespace CodeRange

/-- Whether one of the ranges holds all code points from `first` to `last`. -/
def covers (rs : List CodeRange) (first last : Nat) : Bool :=
  rs.any fun r => Nat.ble r.first first && Nat.ble last r.last

/-- Whether none of the ranges has a code point from `first` to `last`. -/
def misses (rs : List CodeRange) (first last : Nat) : Bool :=
  rs.all fun r => Nat.blt last r.first || Nat.blt r.last first

theorem anyHolds_iff {rs : List CodeRange} {c : Char} :
    anyHolds rs c = true ↔ ∃ r ∈ rs, r.first ≤ c.toNat ∧ c.toNat ≤ r.last := by
  simp [anyHolds, holds]

theorem covers_iff {rs : List CodeRange} {first last : Nat} :
    covers rs first last = true ↔ ∃ r ∈ rs, r.first ≤ first ∧ last ≤ r.last := by
  simp [covers]

theorem anyHolds_of_misses {rs : List CodeRange} {first last : Nat} {c : Char}
    (missed : misses rs first last = true) (least : first ≤ c.toNat) (most : c.toNat ≤ last) :
    anyHolds rs c = false := by
  rw [Bool.eq_false_iff, ne_eq, anyHolds_iff]
  rintro ⟨r, mem, above, below⟩
  have apart := List.all_eq_true.mp missed r mem
  simp only [Bool.or_eq_true, Nat.blt_eq] at apart
  omega

end CodeRange

namespace Letter

/-- Every code point of a letter is that of a character. -/
theorem isValidChar_of_covers {n : Nat} (covered : CodeRange.covers ranges n n = true) :
    n.isValidChar := by
  have scalar : ∀ r ∈ ranges, r.last < 0xD800 ∨ (0xDFFF < r.first ∧ r.last < 0x110000) := by
    decide +kernel
  obtain ⟨r, mem, least, most⟩ := CodeRange.covers_iff.mp covered
  rcases scalar r mem with low | high
  · exact .inl (by omega)
  · exact .inr (by omega)

theorem isLetter_ofNat {n : Nat} (covered : CodeRange.covers ranges n n = true) :
    isLetter (Char.ofNat n) = true := by
  have code : (Char.ofNat n).toNat = n := by
    unfold Char.ofNat
    rw [dif_pos (isValidChar_of_covers covered)]
    rfl
  rw [isLetter, CodeRange.anyHolds_iff, code]
  exact CodeRange.covers_iff.mp covered

/-- A letter is no decimal digit. -/
theorem isDecimalDigit_eq_false {c : Char} (letter : isLetter c = true) :
    DecimalDigit.isDecimalDigit c = false := by
  have apart : (ranges.all fun r =>
      CodeRange.misses DecimalDigit.ranges r.first r.last) = true := by decide +kernel
  obtain ⟨r, mem, least, most⟩ := CodeRange.anyHolds_iff.mp letter
  exact CodeRange.anyHolds_of_misses (List.all_eq_true.mp apart r mem) least most

end Letter

/-! ## Moves -/

namespace CaseShift

def target (s : CaseShift) (code : Nat) : Nat := (code + s.shift).toNat

/-- Whether a move takes its code points to letters: the whole interval, or one by one. -/
def lands (s : CaseShift) : Bool :=
  CodeRange.covers Letter.ranges (s.target s.first) (s.target s.last) ||
    (List.range (s.last + 1 - s.first)).all fun k =>
      k % s.step != 0 ||
        CodeRange.covers Letter.ranges (s.target (s.first + k)) (s.target (s.first + k))

theorem covers_of_lands {s : CaseShift} (lands_eq : s.lands = true) {code : Nat}
    (moved : s.moves code = true) :
    CodeRange.covers Letter.ranges (s.target code) (s.target code) = true := by
  simp only [moves, Bool.and_eq_true, decide_eq_true_eq, beq_iff_eq] at moved
  obtain ⟨⟨least, most⟩, stepped⟩ := moved
  rcases Bool.or_eq_true_iff.mp lands_eq with whole | single
  · obtain ⟨r, mem, above, below⟩ := CodeRange.covers_iff.mp whole
    refine CodeRange.covers_iff.mpr ⟨r, mem, ?_⟩
    unfold target at *
    omega
  · have here := List.all_eq_true.mp single (code - s.first) (List.mem_range.mpr (by omega))
    rw [stepped, Nat.add_sub_cancel' least] at here
    simpa using here

end CaseShift

namespace LetterCase

/-- A character that no move has stays. -/
theorem upper_eq_of_misses {rs : List CodeRange} {c : Char} (held : CodeRange.anyHolds rs c = true)
    (apart : ∀ s ∈ upperShifts, CodeRange.misses rs s.first s.last = true) : upper c = c := by
  unfold upper CaseShift.apply
  split
  · rename_i s found
    have moved := List.find?_some found
    simp only [CaseShift.moves, Bool.and_eq_true, decide_eq_true_eq] at moved
    rw [CodeRange.anyHolds_of_misses (apart s (List.mem_of_find?_eq_some found)) moved.1.1
      moved.1.2] at held
    cases held
  · rfl

/-- A decimal digit is its own upper-case partner. -/
theorem upper_of_isDecimalDigit {c : Char} (digit : DecimalDigit.isDecimalDigit c = true) :
    upper c = c :=
  upper_eq_of_misses digit (by decide +kernel)

/-- **The upper-case partner of a letter is a letter.** -/
theorem isLetter_upper {c : Char} (letter : Letter.isLetter c = true) :
    Letter.isLetter (upper c) = true := by
  have tables : ∀ s ∈ upperShifts,
      (s.lands || CodeRange.misses Letter.ranges s.first s.last) = true := by decide +kernel
  unfold upper CaseShift.apply
  split
  · rename_i s found
    have moved := List.find?_some found
    rcases Bool.or_eq_true_iff.mp (tables s (List.mem_of_find?_eq_some found)) with lands | misses
    · exact Letter.isLetter_ofNat (CaseShift.covers_of_lands lands moved)
    · simp only [CaseShift.moves, Bool.and_eq_true, decide_eq_true_eq] at moved
      rw [Letter.isLetter, CodeRange.anyHolds_of_misses misses moved.1.1 moved.1.2] at letter
      cases letter
  · exact letter

end LetterCase

end ClassUpgrade
