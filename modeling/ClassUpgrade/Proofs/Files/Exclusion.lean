/-
# Proofs.Files.Exclusion — exclude patterns that pass the check

Settings are checked with their exclude patterns as they are written. A run
compiles other texts: each pattern cleaned as a path, and the forms of that in
which directory wildcards stand for nothing. Both edits work on the segments
between slashes and know nothing of brackets, which may hold a slash.

`exclude_usable_iff` says when a list that passes the check is usable in a run:
exactly if the edited texts are patterns. Two cases are told by the patterns as
they are written: every segment of a pattern is a pattern by itself, so that any
choice of them is (`usable_of_segments`), or the pattern is clean and has no
inner wildcard, so that nothing is edited but its front (`usable_of_clean`). Two
patterns that are in neither case pass the check and stop every run.
-/
import ClassUpgrade.Proofs.Files.Selection
import ClassUpgrade.Proofs.Glob.Bracket
import ClassUpgrade.Settings.Validate

namespace ClassUpgrade.Files

set_option autoImplicit false

open Glob Settings

/-- **Segments that are patterns** can be chosen from in any way. -/
theorem usable_of_segments {t : Text} (lasting : 0 ∉ t)
    (patterns : ∀ s ∈ Path.segments t, IsPattern s) :
    ∃ matchers, compile (Path.clean t) = .ok matchers := by
  refine exists_compile_iff.mpr fun l tried => isPattern_ofSegments fun s mem => ?_
  obtain rfl | rfl | mem := Path.mem_segments_clean (mem_of_mem_forms tried mem)
  · exact ⟨List.not_mem_nil, .empty, rfl⟩
  · exact ⟨by decide, _, rfl⟩
  · exact ⟨fun zero => lasting (Path.mem_of_mem_segments mem zero), patterns s mem⟩

/-- **A clean pattern without inner wildcards** is edited at its front only. -/
theorem usable_of_clean {t : Text} (lasting : 0 ∉ t) (pattern : IsPattern t)
    (isClean : Path.clean t = t) (noInner : Text.includes innerWildcard t = false) :
    ∃ matchers, compile (Path.clean t) = .ok matchers := by
  rw [isClean, exists_compile_iff_variants]
  intro v mem
  rw [variants, noInner, if_neg Bool.false_ne_true, List.append_nil, List.mem_cons,
    Option.mem_toList, Text.after?_eq_some_iff] at mem
  obtain rfl | rfl := mem
  · exact pattern
  · exact isPattern_behind_leadingWildcard lasting pattern

theorem isPattern_of_valid {settings : Settings} (valid : settings.problems = []) :
    ∀ t ∈ settings.exclude, IsPattern t := by
  intro t mem
  rw [problems, List.append_eq_nil_iff, List.filterMap_eq_nil_iff] at valid
  have fine := valid.2 t mem
  unfold excludeProblem? at fine
  split at fine
  · rename_i p parsed
    exact ⟨p, parsed⟩
  · cases fine

/-- No selection fails for its exclude list: where one fails, naming the paths fails already. -/
def Harmless (exclude : List Text) : Prop :=
  ∀ tree patterns e, select tree patterns exclude = .error e → resolveAll tree patterns = .error e

theorem harmless_iff {exclude : List Text} :
    Harmless exclude ↔ ∃ matchers, compileAll exclude = .ok matchers := by
  constructor
  · intro harmless
    cases compiled : compileAll exclude with
    | ok matchers => exact ⟨matchers, rfl⟩
    | error e =>
        -- Where no path is named, only the exclude list can fail.
        have failed : select .empty [] exclude = .error (.invalidPattern e) := by
          rw [select, compiled]
        cases harmless .empty [] _ failed
  · rintro ⟨matchers, compiled⟩ tree patterns e failed
    rw [select, compiled] at failed
    cases named : resolveAll tree patterns with
    | error e' =>
        rw [named] at failed
        exact failed
    | ok paths =>
        rw [named] at failed
        cases failed

/-- **When exclude patterns that pass the check can be used.** No run fails for its exclude list exactly
if the list compiles, and it compiles exactly if the forms of each pattern, cleaned, are patterns. So
it does where no pattern has a terminator and each is made of segments that are patterns, or is clean
and has no inner wildcard. -/
theorem exclude_usable_iff (settings : Settings) (valid : settings.problems = []) :
    (Harmless settings.exclude ↔ ∃ matchers, compileAll settings.exclude = .ok matchers) ∧
    ((∃ matchers, compileAll settings.exclude = .ok matchers) ↔
      ∀ t ∈ settings.exclude, ∀ l ∈ forms (Path.segments (Path.clean t)),
        IsPattern (Path.ofSegments l)) ∧
    ((∀ t ∈ settings.exclude, 0 ∉ t ∧ ((∀ s ∈ Path.segments t, IsPattern s) ∨
        (Path.clean t = t ∧ Text.includes innerWildcard t = false))) →
      ∃ matchers, compileAll settings.exclude = .ok matchers) := by
  refine ⟨harmless_iff, ?_, fun told => usable_iff.mp fun t mem => ?_⟩
  · rw [← usable_iff, Usable]
    exact forall₂_congr fun t _ => exists_compile_iff
  · obtain ⟨lasting, patterns | ⟨isClean, noInner⟩⟩ := told t mem
    · exact usable_of_segments lasting patterns
    · exact usable_of_clean lasting (isPattern_of_valid valid t mem) isClean noInner

def excluding (pattern : Text) : Settings := { Settings.default with exclude := [pattern] }

/-- Brackets around what looks like a wildcard, and brackets that a step up cuts, pass the check, and
a run that excludes them fails. Brackets within a segment do no harm. -/
theorem exclude_unusable_acrossSlash :
    (excluding (utf8 "[/**/-]")).problems = [] ∧ ¬ Harmless (excluding (utf8 "[/**/-]")).exclude ∧
    (excluding (utf8 "lib[/_]/../*")).problems = [] ∧
      ¬ Harmless (excluding (utf8 "lib[/_]/../*")).exclude ∧
    ∃ matchers, compileAll (excluding (utf8 "a/[bc]/../**/d")).exclude = .ok matchers := by
  have wildcardValid : (excluding (utf8 "[/**/-]")).problems = [] := by rfl
  have cutValid : (excluding (utf8 "lib[/_]/../*")).problems = [] := by rfl
  have within : (excluding (utf8 "a/[bc]/../**/d")).problems = [] := by rfl
  obtain ⟨wildcardHarmless, -, -⟩ := exclude_usable_iff _ wildcardValid
  obtain ⟨cutHarmless, -, -⟩ := exclude_usable_iff _ cutValid
  obtain ⟨-, -, usable⟩ := exclude_usable_iff _ within
  refine ⟨wildcardValid, fun harmless => ?_, cutValid, fun harmless => ?_, usable fun t mem => ?_⟩
  · obtain ⟨matchers, compiled⟩ := wildcardHarmless.mp harmless
    cases compiled
  · obtain ⟨matchers, compiled⟩ := cutHarmless.mp harmless
    cases compiled
  · obtain rfl := List.mem_singleton.mp mem
    refine ⟨by decide, .inl ?_⟩
    have split : Path.segments (utf8 "a/[bc]/../**/d") =
        [utf8 "a", utf8 "[bc]", utf8 "..", utf8 "**", utf8 "d"] := by rfl
    rw [split]
    simp only [List.forall_mem_cons]
    exact ⟨⟨_, rfl⟩, ⟨_, rfl⟩, ⟨_, rfl⟩, ⟨_, rfl⟩, ⟨_, rfl⟩, List.forall_mem_nil _⟩

end ClassUpgrade.Files
