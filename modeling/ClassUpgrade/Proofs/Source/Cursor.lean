/-
# Proofs.Source.Cursor — a place is its text and its offset

A cursor keeps the bytes on its two sides; what the scanners promise is said
about the text it lies in and its offset there. Moving forward keeps the text
(`text_advance`) and adds to the offset, up to the end of the text
(`offset_advance`). A place is determined by the two (`eq_of_text_offset`), so
two scanners that stop at one offset of one text stop at the same place.
-/
import ClassUpgrade.Source.Cursor

namespace ClassUpgrade.Source.Cursor

set_option autoImplicit false

/-! ## Text and offset -/

theorem offset_add_length (c : Cursor) : c.offset + c.after.length = c.text.length := by
  simp [offset, text]

theorem offset_le_length (c : Cursor) : c.offset ≤ c.text.length := by
  have := c.offset_add_length
  omega

@[simp] theorem text_start (t : Text) : (start t).text = t := by simp [start, text]

@[simp] theorem offset_start (t : Text) : (start t).offset = 0 := rfl

@[simp] theorem text_advance (c : Cursor) (n : Nat) : (c.advance n).text = c.text := by
  simp [advance, text, List.append_assoc, List.take_append_drop]

@[simp] theorem offset_advance (c : Cursor) (n : Nat) :
    (c.advance n).offset = c.offset + min n c.after.length := by
  simp [advance, offset, Nat.add_comm]

theorem after_advance (c : Cursor) (n : Nat) : (c.advance n).after = c.after.drop n := rfl

/-- A text and an offset in it have one place. -/
theorem eq_of_text_offset {c d : Cursor} (text_eq : c.text = d.text)
    (offset_eq : c.offset = d.offset) : c = d := by
  obtain ⟨before, after⟩ := c
  obtain ⟨before', after'⟩ := d
  have sides := List.append_inj text_eq (by simpa [offset] using offset_eq)
  have same : before = before' := List.reverse_inj.mp sides.1
  rw [same, show after = after' from sides.2]

/-! ## Moving forward -/

@[simp] theorem advance_zero (c : Cursor) : c.advance 0 = c := rfl

theorem advance_cons (before : Text) (b : UInt8) (rest : Text) (n : Nat) :
    (⟨before, b :: rest⟩ : Cursor).advance (n + 1) = (⟨b :: before, rest⟩ : Cursor).advance n := by
  simp [advance]

theorem advance_advance (c : Cursor) (m n : Nat) :
    (c.advance m).advance n = c.advance (m + n) := by
  apply eq_of_text_offset (by simp)
  simp only [offset_advance, after_advance, List.length_drop]
  omega

theorem advance_append (before x y : Text) :
    (⟨before, x ++ y⟩ : Cursor).advance x.length = ⟨x.reverse ++ before, y⟩ := by
  simp [advance]

/-- Further on, fewer bytes are in front. -/
theorem length_after_lt {c : Cursor} {n : Nat} (pos : 0 < n) (more : c.after ≠ []) :
    (c.advance n).after.length < c.after.length := by
  have := List.length_pos_iff.mpr more
  rw [after_advance, List.length_drop]
  omega

theorem advance_of_nil {c : Cursor} (done : c.after = []) (n : Nat) : c.advance n = c := by
  apply eq_of_text_offset (by simp)
  simp [done]

/-- The way from a place to a later one is as long as their offsets are apart. -/
theorem advance_sub {c d : Cursor} (text_eq : c.text = d.text) (le : c.offset ≤ d.offset) :
    c.advance (d.offset - c.offset) = d := by
  apply eq_of_text_offset (by simpa using text_eq)
  have := d.offset_le_length
  have := c.offset_add_length
  rw [offset_advance, text_eq] at *
  omega

/-! ## The byte in front -/

theorem peek?_eq_some_iff {c : Cursor} {b : UInt8} :
    c.peek? = some b ↔ ∃ rest, c.after = b :: rest := by
  unfold peek?
  cases c.after with
  | nil => simp
  | cons x rest => simp

theorem ne_nil_of_peek? {c : Cursor} {b : UInt8} (front : c.peek? = some b) : c.after ≠ [] := by
  obtain ⟨rest, after_eq⟩ := peek?_eq_some_iff.mp front
  simp [after_eq]

theorem offset_lt_of_peek? {c : Cursor} {b : UInt8} (front : c.peek? = some b) :
    c.offset < c.text.length := by
  have := List.length_pos_iff.mpr (ne_nil_of_peek? front)
  have := c.offset_add_length
  omega

theorem expect?_eq_some_iff {c d : Cursor} {b : UInt8} :
    c.expect? b = some d ↔ c.peek? = some b ∧ d = c.advance 1 := by
  unfold expect?
  split
  · rename_i front
    simp [front, eq_comm]
  · rename_i other
    simp [other]

theorem after_of_expect? {c d : Cursor} {b : UInt8} (found : c.expect? b = some d) :
    c.after = b :: d.after := by
  obtain ⟨front, rfl⟩ := expect?_eq_some_iff.mp found
  obtain ⟨rest, after_eq⟩ := peek?_eq_some_iff.mp front
  simp [after_advance, after_eq]

theorem offset_advance_one {c : Cursor} {b : UInt8} (front : c.peek? = some b) :
    (c.advance 1).offset = c.offset + 1 := by
  have := List.length_pos_iff.mpr (ne_nil_of_peek? front)
  rw [offset_advance]
  omega

/-! ## The place at an offset -/

@[simp] theorem text_ofOffset (t : Text) (n : Nat) : (ofOffset t n).text = t := by
  simp [ofOffset, text, List.take_append_drop]

@[simp] theorem offset_ofOffset (t : Text) (n : Nat) : (ofOffset t n).offset = min n t.length := by
  simp [ofOffset, offset]

theorem ofOffset_offset (c : Cursor) : ofOffset c.text c.offset = c := by
  apply eq_of_text_offset (by simp)
  have := c.offset_le_length
  rw [offset_ofOffset]
  omega

theorem after_eq_drop (c : Cursor) : c.after = c.text.drop c.offset := by
  conv => lhs; rw [← ofOffset_offset c]
  rfl

theorem advance_ofOffset (t : Text) (m n : Nat) :
    (ofOffset t m).advance n = ofOffset t (m + n) := by
  apply eq_of_text_offset (by simp)
  have := (ofOffset t m).offset_add_length
  rw [text_ofOffset] at this
  rw [offset_advance, offset_ofOffset] at *
  rw [offset_ofOffset]
  omega

theorem peek?_ofOffset (t : Text) (n : Nat) : (ofOffset t n).peek? = t[n]? := by
  simp [ofOffset, peek?, List.head?_drop]

theorem peek?_eq_getElem? (c : Cursor) : c.peek? = c.text[c.offset]? := by
  rw [← peek?_ofOffset, ofOffset_offset]

end ClassUpgrade.Source.Cursor
