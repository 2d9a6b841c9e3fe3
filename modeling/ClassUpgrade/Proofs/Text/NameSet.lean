/-
# Proofs.Text.NameSet — a set of names is its members

Membership in what a set of names grows to: an insertion adds a name that is
not empty, and `insertAll`, `ofList` and `union` are runs of insertions. As the
names stand in strict order, two sets with the same members are one set
(`eq_of_mem_iff`).
-/
import ClassUpgrade.Text.NameSet
import Mathlib.Data.List.Sort

namespace ClassUpgrade.NameSet

set_option autoImplicit false

theorem mem_insert {s : NameSet} {name x : Text} :
    x ∈ (s.insert name).names ↔ x ∈ s.names ∨ (x = name ∧ x ≠ []) := by
  unfold NameSet.insert
  split
  · rename_i unnamed
    subst unnamed
    simp
  · rename_i named
    rw [mem_insertName]
    constructor
    · rintro (rfl | mem)
      · exact .inr ⟨rfl, named⟩
      · exact .inl mem
    · rintro (mem | ⟨rfl, -⟩)
      · exact .inr mem
      · exact .inl rfl

theorem mem_insertAll {s : NameSet} {names : List Text} {x : Text} :
    x ∈ (s.insertAll names).names ↔ x ∈ s.names ∨ (x ∈ names ∧ x ≠ []) := by
  induction names generalizing s with
  | nil => simp [insertAll]
  | cons name rest ih =>
      have step : s.insertAll (name :: rest) = (s.insert name).insertAll rest := rfl
      rw [step, ih, mem_insert, List.mem_cons, or_assoc, or_and_right]

theorem mem_ofList {names : List Text} {x : Text} :
    x ∈ (ofList names).names ↔ x ∈ names ∧ x ≠ [] := by
  rw [ofList, mem_insertAll, or_iff_right]
  exact List.not_mem_nil

theorem mem_union {s t : NameSet} {x : Text} :
    x ∈ (s.union t).names ↔ x ∈ s.names ∨ x ∈ t.names := by
  rw [union, mem_insertAll, and_iff_left_of_imp (t.nonempty x)]

theorem contains_iff {s : NameSet} {x : Text} : s.contains x = true ↔ x ∈ s.names :=
  List.contains_iff_mem

/-- A set of names is determined by its members. -/
theorem eq_of_mem_iff {s t : NameSet} (same : ∀ x, x ∈ s.names ↔ x ∈ t.names) : s = t := by
  obtain ⟨names, sorted, nonempty⟩ := s
  obtain ⟨names', sorted', nonempty'⟩ := t
  obtain rfl : names = names' := sorted.eq_of_mem_iff sorted' same
  rfl

end ClassUpgrade.NameSet
