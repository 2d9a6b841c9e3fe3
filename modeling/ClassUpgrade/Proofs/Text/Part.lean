/-
# Proofs.Text.Part — the parts of a text

A slice of a text is a part of it, and a text is its slices put together again.
How often a part occurs in a text is at least what its pieces have
(`occurrences_append_le`). A part that occurs where two texts meet, and in
neither of them, lies across the seam; it does not where a byte next to the seam
is of a kind that the part has none of (`infix_of_seam`, `infix_of_separator`).
-/
import Mathlib.Data.List.Infix
import ClassUpgrade.Text.Basic

namespace ClassUpgrade.Text

set_option autoImplicit false

theorem slice_append_drop (t : Text) {i j : Nat} (le : i ≤ j) :
    t.slice i j ++ t.drop j = t.drop i := by
  have : t.drop j = (t.drop i).drop (j - i) := by rw [List.drop_drop]; congr 1; omega
  rw [this, Text.slice, List.take_append_drop]

theorem length_slice (t : Text) {i j : Nat} (inside : j ≤ t.length) :
    (t.slice i j).length = j - i := by
  rw [Text.slice, List.length_take, List.length_drop]
  omega

theorem slice_append_slice (t : Text) {i k j : Nat} (le : i ≤ k) (le' : k ≤ j)
    (inside : k ≤ t.length) : t.slice i k ++ t.slice k j = t.slice i j := by
  have length_eq := length_slice t (i := i) inside
  have taken : t.slice i j = (t.slice i k ++ t.drop k).take (j - i) := by
    rw [slice_append_drop t le, Text.slice]
  rw [taken, List.take_append, List.take_of_length_le (by omega), length_eq,
    Nat.sub_sub_sub_cancel_right le]
  rfl

theorem slice_infix (t : Text) (i j : Nat) : t.slice i j <:+: t :=
  (List.take_prefix _ _).isInfix.trans (List.drop_suffix _ _).isInfix

theorem slice_infix_slice (t : Text) {i i' j j' : Nat} (after : i ≤ i') (before : j' ≤ j) :
    t.slice i' j' <:+: t.slice i j := by
  have front : t.slice i' j' <:+ t.slice i j' := by
    rw [Text.slice, Text.slice, ← List.drop_take, ← List.drop_take]
    exact List.drop_suffix_drop_left _ after
  have back : t.slice i j' <+: t.slice i j := List.take_prefix_take_left (by omega)
  exact front.isInfix.trans back.isInfix

theorem slice_succ {t : Text} {i j : Nat} {b : UInt8} (here : t[j]? = some b) (le : i ≤ j) :
    t.slice i (j + 1) = t.slice i j ++ [b] := by
  rw [Text.slice, Nat.sub_add_comm le, List.take_add_one, List.getElem?_drop,
    Nat.add_sub_cancel' le, here]
  rfl

theorem slice_eq_of_append {t x y z : Text} {i j : Nat} (whole : t = x ++ (y ++ z))
    (first : x.length = i) (last : i + y.length = j) : t.slice i j = y := by
  subst whole first last
  simp [Text.slice]

theorem getElem?_eq_of_append {t x y : Text} {i : Nat} (whole : t = x ++ y) (first : x.length = i) :
    t[i]? = y.head? := by
  subst whole first
  rw [List.getElem?_append_right (Nat.le_refl _), Nat.sub_self, List.head?_eq_getElem?]

/-! ## Fronts -/

theorem after?_eq_some_iff {lead t rest : Text} : after? lead t = some rest ↔ t = lead ++ rest := by
  unfold after?
  constructor
  · intro found
    split at found
    · rename_i front
      obtain ⟨rest', rfl⟩ := List.isPrefixOf_iff_prefix.mp front
      rw [List.drop_left] at found
      rw [Option.some.inj found]
    · cases found
  · rintro rfl
    have front : startsWith (lead ++ rest) lead = true :=
      List.isPrefixOf_iff_prefix.mpr (List.prefix_append lead rest)
    rw [if_pos front, List.drop_left]

/-! ## Occurrences -/

def occurrences (part : Text) : Text → Nat
  | [] => if part.isEmpty then 1 else 0
  | b :: rest => (if startsWith (b :: rest) part then 1 else 0) + occurrences part rest

theorem occurrences_append_le {part : Text} (ne_nil : part ≠ []) : ∀ x y : Text,
    occurrences part x + occurrences part y ≤ occurrences part (x ++ y)
  | [], y => by simp [occurrences, ne_nil]
  | b :: x, y => by
      have ih := occurrences_append_le ne_nil x y
      have grows : startsWith (b :: x) part = true → startsWith (b :: (x ++ y)) part = true := by
        simp only [startsWith, List.isPrefixOf_iff_prefix]
        exact fun leads => leads.trans (List.prefix_append (b :: x) y)
      simp only [List.cons_append, occurrences]
      split
      · rename_i leads
        rw [if_pos (grows leads)]
        omega
      · omega

theorem occurrences_pos {part : Text} : ∀ {t : Text}, part <:+: t → 0 < occurrences part t
  | [], inside => by simp [occurrences, List.infix_nil.mp inside]
  | b :: rest, inside => by
      rcases List.infix_cons_iff.mp inside with leads | later
      · have found : startsWith (b :: rest) part = true := List.isPrefixOf_iff_prefix.mpr leads
        rw [occurrences, if_pos found]
        omega
      · have := occurrences_pos later
        rw [occurrences]
        omega

/-! ## Seams -/

/-- A part of bytes of one kind does not lie across a seam that has a byte of another kind next
to it. -/
theorem infix_of_seam {kind : UInt8 → Bool} {part x y : Text} (kinds : ∀ b ∈ part, kind b = true)
    (seam : (∀ b ∈ x.getLast?, kind b = false) ∨ ∀ b ∈ y.head?, kind b = false)
    (inside : part <:+: x ++ y) : part <:+: x ∨ part <:+: y := by
  rcases List.infix_append_iff_ne_nil.mp inside with left | right | across
  · exact .inl left
  · exact .inr right
  · obtain ⟨front, back, front_ne, back_ne, rfl, ends, leads⟩ := across
    exfalso
    rcases seam with last | first
    · have mem := List.getLast_mem front_ne
      have same : x.getLast? = some (front.getLast front_ne) := by
        obtain ⟨z, rfl⟩ := ends
        rw [List.getLast?_append_of_ne_nil _ front_ne, List.getLast?_eq_some_getLast front_ne]
      have other := last _ same
      rw [kinds _ (List.mem_append_left _ mem)] at other
      cases other
    · obtain ⟨b, rest, rfl⟩ := List.exists_cons_of_ne_nil back_ne
      obtain ⟨z, rfl⟩ := leads
      have other := first b (by simp)
      rw [kinds b (by simp)] at other
      cases other

/-- A part does not lie across a byte that it does not have. -/
theorem infix_of_separator {part x y : Text} {separator : UInt8} (other : separator ∉ part)
    (inside : part <:+: x ++ separator :: y) : part <:+: x ∨ part <:+: y := by
  have kinds : ∀ b ∈ part, (b != separator) = true := by
    intro b mem
    simp only [bne_iff_ne, ne_eq]
    rintro rfl
    exact other mem
  rcases infix_of_seam kinds (.inr (by simp)) inside with left | right
  · exact .inl left
  · rcases infix_of_seam (x := [separator]) kinds (.inl (by simp)) right with alone | behind
    · refine .inl ?_
      have : part = [] := by
        rcases (List.infix_singleton_iff part separator).mp alone with rfl | rfl
        · rfl
        · exact absurd List.mem_cons_self other
      exact this ▸ List.nil_infix
    · exact .inr behind

end ClassUpgrade.Text
