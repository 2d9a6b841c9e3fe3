/-
# Proofs.Glob.Pattern — what a pattern matches, said without rests

The meaning of a pattern is given by the rests that it leaves of a text.
`Pattern.Matches` says the same of the part that is matched, one equation for
each form of pattern: `mem_rests_iff` ties the two together, and `accepts_iff`
is what the other modules use.
-/
import ClassUpgrade.Glob.Pattern

namespace ClassUpgrade.Glob

set_option autoImplicit false

def Pattern.Matches : Pattern → List Char → Prop
  | .empty, s => s = []
  | .char c, s => s = [c]
  | .one, s => ∃ c, c ≠ separator ∧ s = [c]
  | .run, s => separator ∉ s
  | .anything, _ => True
  | .list negated cs, s => ∃ c, (cs.contains c != negated) = true ∧ s = [c]
  | .range negated low high, s =>
    ∃ c, ((low ≤ c && c ≤ high) != negated) = true ∧ s = [c]
  | .seq p q, s => ∃ x y, s = x ++ y ∧ p.Matches x ∧ q.Matches y
  | .either p q, s => p.Matches s ∨ q.Matches s

theorem mem_restAfter_iff {condition : Char → Bool} {s t : List Char} :
    t ∈ restAfter condition s ↔ ∃ x, s = x ++ t ∧ ∃ c, condition c = true ∧ x = [c] := by
  constructor
  · intro mem
    cases s with
    | nil => cases mem
    | cons c rest =>
        rw [restAfter] at mem
        split at mem
        · rename_i holds
          obtain rfl := List.mem_singleton.mp mem
          exact ⟨[c], rfl, c, holds, rfl⟩
        · cases mem
  · rintro ⟨_, rfl, c, holds, rfl⟩
    rw [List.singleton_append, restAfter, if_pos holds]
    exact List.mem_singleton_self t

theorem mem_restsAfterRun_iff {condition : Char → Bool} {s t : List Char} :
    t ∈ restsAfterRun condition s ↔ ∃ x, s = x ++ t ∧ ∀ c ∈ x, condition c = true := by
  induction s with
  | nil =>
      simp only [restsAfterRun, List.mem_singleton]
      constructor
      · rintro rfl
        exact ⟨[], rfl, by simp⟩
      · rintro ⟨x, whole, -⟩
        exact (List.append_eq_nil_iff.mp whole.symm).2
  | cons c rest ih =>
      rw [restsAfterRun, List.mem_cons]
      constructor
      · rintro (rfl | later)
        · exact ⟨[], rfl, by simp⟩
        · split at later
          · rename_i holds
            obtain ⟨x, rfl, all⟩ := ih.mp later
            exact ⟨c :: x, rfl, List.forall_mem_cons.mpr ⟨holds, all⟩⟩
          · cases later
      · rintro ⟨x, whole, all⟩
        cases x with
        | nil => exact .inl whole.symm
        | cons d x =>
            obtain ⟨rfl, rest_eq⟩ := List.cons.inj whole
            obtain ⟨holds, all⟩ := List.forall_mem_cons.mp all
            rw [if_pos holds]
            exact .inr (ih.mpr ⟨x, rest_eq, all⟩)

namespace Pattern

/-- **Rests and matched parts**: a pattern leaves a rest exactly when it matches the part in front
of it. -/
theorem mem_rests_iff (p : Pattern) (s t : List Char) :
    t ∈ p.rests s ↔ ∃ x, s = x ++ t ∧ p.Matches x := by
  induction p generalizing s t with
  | empty => simp [rests, Matches, eq_comm]
  | char c =>
      rw [rests, mem_restAfter_iff]
      simp [Matches]
  | one =>
      rw [rests, mem_restAfter_iff]
      simp [Matches]
  | run =>
      rw [rests, mem_restsAfterRun_iff]
      simp only [Matches, bne_iff_ne, ne_eq, List.forall_mem_ne']
  | anything =>
      rw [rests, mem_restsAfterRun_iff]
      simp [Matches]
  | list negated cs => rw [rests, mem_restAfter_iff]; rfl
  | range negated low high => rw [rests, mem_restAfter_iff]; rfl
  | seq p q ihp ihq =>
      simp only [rests, List.mem_eraseDups, List.mem_flatMap, ihp, ihq, Matches]
      constructor
      · rintro ⟨_, ⟨x, rfl, matched⟩, y, rfl, matched'⟩
        exact ⟨x ++ y, (List.append_assoc x y t).symm, x, y, rfl, matched, matched'⟩
      · rintro ⟨_, rfl, x, y, rfl, matched, matched'⟩
        exact ⟨y ++ t, ⟨x, List.append_assoc x y t, matched⟩, y, rfl, matched'⟩
  | either p q ihp ihq =>
      simp only [rests, List.mem_append, ihp, ihq, Matches, and_or_left, exists_or]

/-- A pattern accepts what it matches. -/
theorem accepts_iff {p : Pattern} {s : List Char} : p.accepts s = true ↔ p.Matches s := by
  rw [accepts, List.contains_iff_mem, mem_rests_iff]
  simp

end Pattern

end ClassUpgrade.Glob
