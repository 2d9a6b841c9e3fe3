/-
# Proofs.Glob.Wildcard — which wildcards stand for no directory

A segment `**` with a segment behind it should also stand for no directory: a
path that matches the pattern without some of these segments should be accepted
by its matchers (`EachOptional`). The forms in which a pattern is tried leave out
none of them, the leading one, or all inner ones but those that follow one that
was left out. With one such segment these are all choices there are
(`mem_forms_of_shortens`).

With two of them they are not. A pattern without braces, brackets and escapes
shows it by the number of separators alone: where every form keeps a wildcard,
each asks for more separators than the pattern without any does; and where a form
has none, it asks for fewer than the pattern with all but one.

* `wildcards_optional`: what the matchers accept, and when each wildcard is optional;
* `wildcards_optional_twoInner`: two inner wildcards that are optional together only.
-/
import ClassUpgrade.Proofs.Glob.Token

namespace ClassUpgrade.Glob

set_option autoImplicit false

open Byte

/-! ## Leaving out wildcards -/

/-- Segments without some of the wildcards that have a segment behind them. -/
inductive Shortens : List Text → List Text → Prop
  | last (s : Text) : Shortens [s] [s]
  | keep (s : Text) {l l' : List Text} (rest : Shortens l l') : Shortens (s :: l) (s :: l')
  | drop {l l' : List Text} (rest : Shortens l l') : Shortens (wildcard :: l) l'

/-- The number of wildcards that have a segment behind them. -/
def optionalWildcards (l : List Text) : Nat := l.dropLast.count wildcard

/-- Every wildcard with a segment behind it stands for no directory too, whatever the others stand
for. -/
def EachOptional (pattern : Text) : Prop :=
  ∀ matchers, compile pattern = .ok matchers →
    ∀ l, Shortens (Path.segments pattern) l → ∀ path, Accepts l path →
      anyAccepts matchers path = true

theorem optionalWildcards_cons (s : Text) {l : List Text} (ne_nil : l ≠ []) :
    optionalWildcards (s :: l) = optionalWildcards l + if s = wildcard then 1 else 0 := by
  rw [optionalWildcards, List.dropLast_cons_of_ne_nil ne_nil, List.count_cons, optionalWildcards]
  simp only [beq_iff_eq]

namespace Shortens

variable {l l' : List Text}

theorem ne_nil (shortens : Shortens l l') : l ≠ [] := by
  cases shortens <;> exact List.cons_ne_nil _ _

theorem ne_nil' (shortens : Shortens l l') : l' ≠ [] := by
  induction shortens with
  | last s => exact List.cons_ne_nil s []
  | keep s _ _ => exact List.cons_ne_nil s _
  | drop _ ih => exact ih

theorem refl : ∀ {l : List Text}, l ≠ [] → Shortens l l
  | [], ne_nil => absurd rfl ne_nil
  | [s], _ => .last s
  | s :: t :: rest, _ => .keep s (refl (List.cons_ne_nil t rest))

theorem sublist (shortens : Shortens l l') : l'.Sublist l := by
  induction shortens with
  | last s => exact List.Sublist.refl [s]
  | keep s _ ih => exact ih.cons_cons s
  | drop _ ih => exact ih.cons wildcard

/-- Nothing but wildcards is left out. -/
theorem length_add_count (shortens : Shortens l l') :
    l.length + l'.count wildcard = l'.length + l.count wildcard := by
  induction shortens with
  | last s => rfl
  | keep s _ ih =>
      simp only [List.length_cons, List.count_cons]
      omega
  | drop _ ih =>
      simp only [List.length_cons, List.count_cons_self]
      omega

theorem thin {l : List Text} (ne_nil : l ≠ []) : Shortens l (thin l) := by
  induction l using thin.induct with
  | case1 t rest ih =>
      rw [Glob.thin, if_pos rfl]
      refine .drop ?_
      cases rest with
      | nil => exact .last t
      | cons u rest => exact .keep t (ih (List.cons_ne_nil u rest))
  | case2 s t rest other ih =>
      rw [Glob.thin, if_neg other]
      exact .keep s (ih (List.cons_ne_nil t rest))
  | case3 l short =>
      rw [Glob.thin]
      · exact refl ne_nil
      · exact short

end Shortens

theorem behindLeading_eq_some_iff {l l' : List Text} :
    behindLeading l = some l' ↔ l' ≠ [] ∧ l = wildcard :: l' := by
  constructor
  · intro found
    unfold behindLeading at found
    split at found
    · rename_i s t rest
      obtain ⟨rfl, same⟩ := Option.ite_none_right_eq_some.mp found
      obtain rfl := Option.some.inj same
      exact ⟨List.cons_ne_nil t rest, rfl⟩
    · cases found
  · rintro ⟨ne_nil, rfl⟩
    obtain ⟨t, rest, rfl⟩ := List.exists_cons_of_ne_nil ne_nil
    rw [behindLeading, if_pos rfl]

/-- The forms of a pattern: all segments, those behind a leading wildcard, and those that thinning
leaves behind the first. -/
theorem mem_forms_cons_iff {s : Text} {rest f : List Text} :
    f ∈ forms (s :: rest) ↔ f = s :: rest ∨ (f ≠ [] ∧ s = wildcard ∧ f = rest) ∨
      f = s :: thin rest := by
  rw [forms, List.cons_append, List.mem_cons, List.mem_append, Option.mem_toList,
    behindLeading_eq_some_iff, List.mem_singleton, collapse, List.cons.injEq, eq_comm (a := rest)]

/-- Every form leaves out wildcards and nothing else. -/
theorem shortens_of_mem_forms {l f : List Text} (ne_nil : l ≠ []) (mem : f ∈ forms l) :
    Shortens l f := by
  obtain ⟨s, rest, rfl⟩ := List.exists_cons_of_ne_nil ne_nil
  rcases mem_forms_cons_iff.mp mem with rfl | ⟨some_left, rfl, rfl⟩ | rfl
  · exact .refl ne_nil
  · exact .drop (.refl some_left)
  · by_cases alone : rest = []
    · subst alone
      exact .last s
    · exact .keep s (.thin alone)

/-! ## One wildcard -/

theorem eq_of_shortens {l l' : List Text} (shortens : Shortens l l')
    (none : optionalWildcards l = 0) : l' = l := by
  induction shortens with
  | last s => rfl
  | keep s rest ih =>
      rw [optionalWildcards_cons s rest.ne_nil] at none
      rw [ih (by omega)]
  | drop rest ih =>
      rw [optionalWildcards_cons wildcard rest.ne_nil, if_pos rfl] at none
      omega

/-- Among segments with one wildcard to leave out, that is what thinning leaves out. -/
theorem eq_thin_of_shortens {l l' : List Text} (shortens : Shortens l l')
    (single : optionalWildcards l ≤ 1) : l' = l ∨ l' = thin l := by
  induction shortens with
  | last s => exact .inl rfl
  | @keep s l l' rest ih =>
      rw [optionalWildcards_cons s rest.ne_nil] at single
      by_cases wild : s = wildcard
      · rw [if_pos wild] at single
        rw [eq_of_shortens rest (by omega)]
        exact .inl rfl
      · obtain ⟨t, more, rfl⟩ := List.exists_cons_of_ne_nil rest.ne_nil
        rw [thin, if_neg wild]
        exact (ih (by omega)).imp (congrArg (s :: ·)) (congrArg (s :: ·))
  | @drop l l' rest ih =>
      obtain ⟨t, more, rfl⟩ := List.exists_cons_of_ne_nil rest.ne_nil
      rw [optionalWildcards_cons wildcard rest.ne_nil, if_pos rfl] at single
      have none : optionalWildcards (t :: more) = 0 := by omega
      rw [thin, if_pos rfl, eq_of_shortens rest none]
      refine .inr (congrArg (t :: ·) ?_)
      by_cases alone : more = []
      · rw [alone]
        rfl
      · rw [optionalWildcards_cons t alone] at none
        exact (eq_of_shortens (.thin alone) (by omega)).symm

/-- **With one wildcard to leave out, the forms are all the choices there are.** -/
theorem mem_forms_of_shortens {l l' : List Text} (shortens : Shortens l l')
    (single : optionalWildcards l ≤ 1) : l' ∈ forms l := by
  cases shortens with
  | last s => exact mem_forms_cons_iff.mpr (.inl rfl)
  | keep s rest =>
      rw [optionalWildcards_cons s rest.ne_nil] at single
      rcases eq_thin_of_shortens rest (by omega) with rfl | rfl
      · exact mem_forms_cons_iff.mpr (.inl rfl)
      · exact mem_forms_cons_iff.mpr (.inr (.inr rfl))
  | drop rest =>
      rw [optionalWildcards_cons wildcard rest.ne_nil, if_pos rfl] at single
      obtain rfl := eq_of_shortens rest (by omega)
      exact mem_forms_cons_iff.mpr (.inr (.inl ⟨rest.ne_nil, rfl, rfl⟩))

theorem eachOptional_of_single {pattern : Text}
    (single : optionalWildcards (Path.segments pattern) ≤ 1) : EachOptional pattern :=
  fun _ compiled l shortens _ accepts =>
    (anyAccepts_iff compiled).mpr ⟨l, mem_forms_of_shortens shortens single, accepts⟩

/-! ## Several wildcards -/

/-- All wildcards can be left out of segments that do not end in one. -/
theorem exists_shortens_bounded : ∀ {l : List Text}, l ≠ [] → l.getLast? ≠ some wildcard →
    ∃ l', Shortens l l' ∧ wildcard ∉ l'
  | [], ne_nil, _ => absurd rfl ne_nil
  | [s], _, last => ⟨[s], .last s, by simpa [eq_comm] using last⟩
  | s :: t :: rest, _, last => by
      rw [List.getLast?_cons_cons] at last
      obtain ⟨l', shortens, bounded⟩ := exists_shortens_bounded (List.cons_ne_nil t rest) last
      by_cases wild : s = wildcard
      · subst wild
        exact ⟨l', .drop shortens, bounded⟩
      · exact ⟨s :: l', .keep s shortens, by simp [bounded, Ne.symm wild]⟩

/-- One wildcard can be left out. -/
theorem exists_shortens_single : ∀ {l : List Text}, 0 < optionalWildcards l →
    ∃ l', Shortens l l' ∧ l'.length + 1 = l.length
  | [], pos => absurd pos (by decide)
  | [s], pos => absurd pos (by simp [optionalWildcards])
  | s :: t :: rest, pos => by
      have ne_nil := List.cons_ne_nil t rest
      by_cases wild : s = wildcard
      · subst wild
        exact ⟨t :: rest, .drop (.refl ne_nil), rfl⟩
      · rw [optionalWildcards_cons s ne_nil, if_neg wild] at pos
        obtain ⟨l', shortens, length⟩ := exists_shortens_single pos
        exact ⟨s :: l', .keep s shortens, congrArg Nat.succ length⟩

theorem count_eq_optionalWildcards {l : List Text} (last : l.getLast? ≠ some wildcard) :
    l.count wildcard = optionalWildcards l := by
  rcases List.eq_nil_or_concat l with rfl | ⟨front, s, rfl⟩
  · rfl
  · rw [List.concat_eq_append, List.getLast?_concat, ne_eq, Option.some_inj] at last
    rw [List.concat_eq_append, optionalWildcards, List.dropLast_concat, List.count_append,
      List.count_singleton, if_neg (by simpa using last), Nat.add_zero]

/-- A form that asks for as many separators as a path has. -/
theorem exists_form {pattern : Text} (simple : ∀ s ∈ Path.segments pattern, IsSimple s)
    (optional : EachOptional pattern) {l : List Text}
    (shortens : Shortens (Path.segments pattern) l) :
    ∃ f ∈ forms (Path.segments pattern), f.length ≤ l.length ∧
      (wildcard ∉ f → f.length = l.length) := by
  have ne_nil := Path.segments_ne_nil pattern
  have simple_of : ∀ {f}, Shortens (Path.segments pattern) f → ∀ s ∈ f, IsSimple s :=
    fun shortens s mem => simple s (shortens.sublist.subset mem)
  obtain ⟨matchers, compiled⟩ : ∃ matchers, compile pattern = .ok matchers := by
    refine exists_parseAll pattern fun t mem => ?_
    obtain ⟨f, form, rfl⟩ := mem_variants_iff.mp mem
    have simple := simple_ofSegments (simple_of (shortens_of_mem_forms ne_nil form))
    exact ⟨_, parseFrom_tokens simple .empty false⟩
  obtain ⟨path, accepts, length⟩ := exists_accepts shortens.ne_nil' (simple_of shortens)
  obtain ⟨f, mem, accepts⟩ :=
    (anyAccepts_iff compiled).mp (optional matchers compiled l shortens path accepts)
  have form := shortens_of_mem_forms ne_nil mem
  refine ⟨f, mem, ?_, fun bounded => ?_⟩
  · exact length ▸ length_le_of_accepts form.ne_nil' (simple_of form) accepts
  · exact length ▸ length_eq_of_accepts form.ne_nil' (simple_of form) bounded accepts

/-- Where the form without inner wildcards keeps a wildcard, every form does. -/
theorem mem_form_of_mem_collapse {l f : List Text} (several : 1 < l.count wildcard)
    (kept : wildcard ∈ collapse l) (mem : f ∈ forms l) : wildcard ∈ f := by
  cases l with
  | nil => cases kept
  | cons s rest =>
      rcases mem_forms_cons_iff.mp mem with rfl | ⟨-, rfl, rfl⟩ | rfl
      · exact List.count_pos_iff.mp (by omega)
      · rw [List.count_cons_self] at several
        exact List.count_pos_iff.mp (by omega)
      · exact kept

/-- Where it keeps none, there is no leading wildcard either. -/
theorem eq_collapse_of_mem_forms {l f : List Text} (bounded : wildcard ∉ collapse l)
    (mem : f ∈ forms l) : f = l ∨ f = collapse l := by
  rw [forms, List.cons_append, List.mem_cons, List.mem_append, Option.mem_toList,
    behindLeading_eq_some_iff, List.mem_singleton] at mem
  rcases mem with rfl | ⟨-, rfl⟩ | rfl
  · exact .inl rfl
  · exact absurd List.mem_cons_self bounded
  · exact .inr rfl

/-- **Two wildcards are not optional one by one.** -/
theorem single_of_eachOptional {pattern : Text}
    (simple : ∀ s ∈ Path.segments pattern, IsSimple s)
    (last : (Path.segments pattern).getLast? ≠ some wildcard) (optional : EachOptional pattern) :
    optionalWildcards (Path.segments pattern) ≤ 1 := by
  by_contra several
  rw [← count_eq_optionalWildcards last, not_le] at several
  have ne_nil := Path.segments_ne_nil pattern
  by_cases kept : wildcard ∈ collapse (Path.segments pattern)
  · -- Every form has more segments than the pattern without any wildcard.
    obtain ⟨l, shortens, bounded⟩ := exists_shortens_bounded ne_nil last
    obtain ⟨f, mem, le, -⟩ := exists_form simple optional shortens
    have left_out := shortens.length_add_count
    have left_out' := (shortens_of_mem_forms ne_nil mem).length_add_count
    have wild := List.count_pos_iff.mpr (mem_form_of_mem_collapse several kept mem)
    rw [List.count_eq_zero.mpr bounded] at left_out
    omega
  · -- A form has more segments than the pattern with all wildcards but one, or it has none and fewer.
    have some_wildcard : 0 < optionalWildcards (Path.segments pattern) := by
      rw [← count_eq_optionalWildcards last]
      omega
    obtain ⟨l, shortens, length⟩ := exists_shortens_single some_wildcard
    obtain ⟨f, mem, le, same⟩ := exists_form simple optional shortens
    rcases eq_collapse_of_mem_forms kept mem with rfl | rfl
    · omega
    · have left_out := (shortens_of_mem_forms ne_nil mem).length_add_count
      have same := same kept
      rw [List.count_eq_zero.mpr kept] at left_out
      omega

/-- **When each wildcard is optional.** The matchers of a pattern accept what one of its forms
accepts, and every form leaves out wildcards that have a segment behind them, and nothing else. With at
most one such wildcard each of them is optional. A pattern without braces, brackets and escapes
that does not end in a wildcard has optional wildcards only in that case. -/
theorem wildcards_optional (pattern : Text) :
    (∀ matchers path, compile pattern = .ok matchers →
      (anyAccepts matchers path = true ↔
        ∃ l ∈ forms (Path.segments pattern), Accepts l path)) ∧
    (∀ l ∈ forms (Path.segments pattern), Shortens (Path.segments pattern) l) ∧
    (optionalWildcards (Path.segments pattern) ≤ 1 → EachOptional pattern) ∧
    ((∀ s ∈ Path.segments pattern, IsSimple s) →
      (Path.segments pattern).getLast? ≠ some wildcard →
      (EachOptional pattern ↔ optionalWildcards (Path.segments pattern) ≤ 1)) := by
  refine ⟨fun _ _ compiled => anyAccepts_iff compiled, fun l mem => ?_, eachOptional_of_single,
    fun simple last => ⟨single_of_eachOptional simple last, eachOptional_of_single⟩⟩
  exact shortens_of_mem_forms (Path.segments_ne_nil pattern) mem

/-- A pattern with two wildcards behind its first segment. -/
def twoInner : Text := utf8 "a/**/b/**/c"

/-- The pattern with both wildcards or with neither matches a path, but a path that it matches without
the first one is lost. -/
theorem wildcards_optional_twoInner :
    (∃ matchers, compile twoInner = .ok matchers ∧ anyAccepts matchers (utf8 "a/x/b/x/c") = true ∧
      anyAccepts matchers (utf8 "a/b/c") = true ∧ anyAccepts matchers (utf8 "a/b/x/c") = false) ∧
    Accepts (Path.segments (utf8 "a/b/**/c")) (utf8 "a/b/x/c") ∧
    ¬ EachOptional twoInner := by
  refine ⟨⟨_, by rfl, by decide +kernel, by decide +kernel, by decide +kernel⟩,
    ⟨_, by rfl, by decide +kernel⟩, ?_⟩
  have simple : ∀ s ∈ Path.segments twoInner, IsSimple s := by decide +kernel
  rw [(wildcards_optional twoInner).2.2.2 simple (by decide)]
  decide

end ClassUpgrade.Glob
