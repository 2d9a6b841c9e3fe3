/-
# Proofs.Files.Selection — how selections compose

A selection depends on its exclude list through the paths that the list
matches only (`select_eq_ok_iff`), and leaving out doubles and leaving out
excluded paths can be done in either order (`eraseDups_filter`). From these:

* `select_append_iff`: patterns can be taken one after the other; the later ones
  add what the earlier ones have not named, behind it;
* `select_widened`: a longer exclude list takes paths out and moves none;
* `selection_composes`: both, with what every selected path is.
-/
import ClassUpgrade.Files.Selection
import ClassUpgrade.Proofs.Files.Path

namespace ClassUpgrade.Files

set_option autoImplicit false

open Glob

/-! ## Lists without doubles -/

theorem eraseDups_filter (keep : Text → Bool) (l : List Text) :
    (l.filter keep).eraseDups = l.eraseDups.filter keep := by
  match l with
  | [] => rfl
  | a :: rest =>
      have shorter : (rest.filter fun b => !b == a).length < rest.length + 1 :=
        Nat.lt_succ_of_le (List.length_filter_le _ rest)
      have ih := eraseDups_filter keep (rest.filter fun b => !b == a)
      rw [List.filter_comm] at ih
      rw [List.eraseDups_cons]
      by_cases kept : keep a = true
      · rw [List.filter_cons_of_pos kept, List.filter_cons_of_pos kept, List.eraseDups_cons, ih]
      · rw [List.filter_cons_of_neg kept, List.filter_cons_of_neg kept, ← ih]
        congr 1
        refine (List.filter_eq_self.mpr fun b mem => ?_).symm
        have chosen := (List.mem_filter.mp mem).2
        simp only [Bool.not_eq_true', beq_eq_false_iff_ne]
        rintro rfl
        exact kept chosen
termination_by l.length

theorem nodup_eraseDups (l : List Text) : l.eraseDups.Nodup := by
  match l with
  | [] => exact List.nodup_nil
  | a :: rest =>
      have shorter : (rest.filter fun b => !b == a).length < rest.length + 1 :=
        Nat.lt_succ_of_le (List.length_filter_le _ rest)
      rw [List.eraseDups_cons, List.nodup_cons]
      refine ⟨?_, nodup_eraseDups _⟩
      simp
termination_by l.length

/-! ## Exclude lists -/

/-- Whether one of the patterns, cleaned as a path, matches a path. -/
def excludes (exclude : List Text) (path : Text) : Bool :=
  exclude.any fun pattern =>
    match compile (Path.clean pattern) with
    | .ok matchers => anyAccepts matchers path
    | .error _ => false

/-- Every pattern of an exclude list compiles. -/
def Usable (exclude : List Text) : Prop :=
  ∀ pattern ∈ exclude, ∃ matchers, compile (Path.clean pattern) = .ok matchers

theorem compileAll_cons_eq_ok_iff {pattern : Text} {rest : List Text} {matchers : List Pattern} :
    compileAll (pattern :: rest) = .ok matchers ↔
      ∃ first more, compile (Path.clean pattern) = .ok first ∧ compileAll rest = .ok more ∧
        matchers = first ++ more := by
  rw [compileAll]
  cases compile (Path.clean pattern) with
  | error e => simp
  | ok first =>
      cases compileAll rest with
      | error e => simp [Except.map]
      | ok more => simp [Except.map, eq_comm]

theorem usable_iff {exclude : List Text} :
    Usable exclude ↔ ∃ matchers, compileAll exclude = .ok matchers := by
  induction exclude with
  | nil => exact iff_of_true (fun _ mem => absurd mem List.not_mem_nil) ⟨[], rfl⟩
  | cons pattern rest ih =>
      simp only [compileAll_cons_eq_ok_iff]
      rw [Usable, List.forall_mem_cons, ← Usable, ih]
      constructor
      · rintro ⟨⟨first, compiled⟩, more, compiled'⟩
        exact ⟨_, first, more, compiled, compiled', rfl⟩
      · rintro ⟨_, first, more, compiled, compiled', -⟩
        exact ⟨⟨first, compiled⟩, more, compiled'⟩

/-- The matchers of an exclude list match what its patterns match. -/
theorem anyAccepts_compileAll {exclude : List Text} {matchers : List Pattern} (path : Text)
    (compiled : compileAll exclude = .ok matchers) :
    anyAccepts matchers path = excludes exclude path := by
  induction exclude generalizing matchers with
  | nil =>
      obtain rfl := Except.ok.inj compiled
      rfl
  | cons pattern rest ih =>
      obtain ⟨first, more, front, behind, rfl⟩ := compileAll_cons_eq_ok_iff.mp compiled
      rw [excludes, List.any_cons, ← excludes, front, ← ih behind, anyAccepts, List.any_append]
      rfl

theorem excludes_of_subset {exclude wider : List Text} (within : exclude ⊆ wider) {path : Text}
    (excluded : excludes exclude path = true) : excludes wider path = true := by
  obtain ⟨pattern, mem, accepts⟩ := List.any_eq_true.mp excluded
  exact List.any_eq_true.mpr ⟨pattern, within mem, accepts⟩

/-! ## Selections -/

theorem resolveAll_append_eq_ok_iff {tree : FileTree} {patterns more paths : List Text} :
    resolveAll tree (patterns ++ more) = .ok paths ↔
      ∃ first second, resolveAll tree patterns = .ok first ∧ resolveAll tree more = .ok second ∧
        paths = first ++ second := by
  induction patterns generalizing paths with
  | nil =>
      constructor
      · exact fun resolved => ⟨[], paths, rfl, resolved, rfl⟩
      · rintro ⟨_, second, first_eq, resolved, rfl⟩
        obtain rfl := Except.ok.inj first_eq
        exact resolved
  | cons pattern rest ih =>
      rw [List.cons_append, resolveAll, resolveAll]
      cases resolve tree pattern with
      | error e => simp [bind, Except.bind]
      | ok named =>
          simp only [bind, Except.bind]
          cases joined : resolveAll tree (rest ++ more) with
          | error e =>
              refine iff_of_false (fun failed => by cases failed) ?_
              rintro ⟨first, second, resolved, resolved', -⟩
              cases behind : resolveAll tree rest with
              | error e' => rw [behind] at resolved; cases resolved
              | ok found =>
                  have succeeds := ih.mpr ⟨found, second, behind, resolved', rfl⟩
                  rw [joined] at succeeds
                  cases succeeds
          | ok found =>
              obtain ⟨first, second, resolved, resolved', rfl⟩ := ih.mp joined
              simp [resolved, resolved', eq_comm, List.append_assoc]

/-- **What a selection is**: every pattern of the exclude list compiles, every pattern names its
paths, and of these, cleaned, each stays once that is not excluded. -/
theorem select_eq_ok_iff {tree : FileTree} {patterns exclude paths : List Text} :
    select tree patterns exclude = .ok paths ↔
      Usable exclude ∧ ∃ named, resolveAll tree patterns = .ok named ∧
        paths = ((named.map Path.clean).filter fun p => !excludes exclude p).eraseDups := by
  rw [usable_iff, select]
  cases compiled : compileAll exclude with
  | error e => simp
  | ok matchers =>
      simp only [anyAccepts_compileAll _ compiled]
      cases resolveAll tree patterns with
      | error e => simp [Except.map]
      | ok named => simp [Except.map, eq_comm]

/-- Patterns can be taken one after the other. -/
theorem select_append_iff {tree : FileTree} {patterns more exclude paths : List Text} :
    select tree (patterns ++ more) exclude = .ok paths ↔
      ∃ first second, select tree patterns exclude = .ok first ∧
        select tree more exclude = .ok second ∧
        paths = first ++ second.filter fun p => !first.contains p := by
  have joined : ∀ a b : List Text, (a ++ b).eraseDups =
      a.eraseDups ++ b.eraseDups.filter fun p => !a.eraseDups.contains p := by
    intro a b
    rw [List.eraseDups_append, List.removeAll, eraseDups_filter]
    congr 1
    refine List.filter_congr fun p _ => ?_
    rw [Bool.eq_iff_iff]
    simp [List.mem_eraseDups]
  simp only [select_eq_ok_iff, resolveAll_append_eq_ok_iff]
  constructor
  · rintro ⟨usable, _, ⟨named, named', resolved, resolved', rfl⟩, rfl⟩
    refine ⟨_, _, ⟨usable, named, resolved, rfl⟩, ⟨usable, named', resolved', rfl⟩, ?_⟩
    rw [List.map_append, List.filter_append, joined]
  · rintro ⟨_, _, ⟨usable, named, resolved, rfl⟩, ⟨-, named', resolved', rfl⟩, rfl⟩
    refine ⟨usable, _, ⟨named, named', resolved, resolved', rfl⟩, ?_⟩
    rw [List.map_append, List.filter_append, joined]

theorem nodup_select {tree : FileTree} {patterns exclude paths : List Text}
    (selected : select tree patterns exclude = .ok paths) : paths.Nodup := by
  obtain ⟨-, named, -, rfl⟩ := select_eq_ok_iff.mp selected
  exact nodup_eraseDups _

/-- A selected path is cleaned, and no exclude pattern matches it. -/
theorem clean_of_mem_select {tree : FileTree} {patterns exclude paths : List Text}
    (selected : select tree patterns exclude = .ok paths) {p : Text} (mem : p ∈ paths) :
    Path.clean p = p ∧ excludes exclude p = false := by
  obtain ⟨-, named, -, rfl⟩ := select_eq_ok_iff.mp selected
  obtain ⟨mem, kept⟩ := List.mem_filter.mp (List.mem_eraseDups.mp mem)
  obtain ⟨q, -, rfl⟩ := List.mem_map.mp mem
  exact ⟨Path.clean_clean q, by simpa using kept⟩

/-- A longer exclude list takes out what it matches and moves nothing. -/
theorem select_widened {tree : FileTree} {patterns exclude wider paths : List Text}
    (selected : select tree patterns exclude = .ok paths) (within : exclude ⊆ wider)
    (usable : Usable wider) :
    select tree patterns wider = .ok (paths.filter fun p => !excludes wider p) := by
  obtain ⟨-, named, resolved, rfl⟩ := select_eq_ok_iff.mp selected
  refine select_eq_ok_iff.mpr ⟨usable, named, resolved, ?_⟩
  rw [← eraseDups_filter, List.filter_filter]
  congr 1
  refine List.filter_congr fun p _ => ?_
  cases kept : excludes wider p with
  | true => rfl
  | false =>
      cases excluded : excludes exclude p with
      | true => rw [excludes_of_subset within excluded] at kept; cases kept
      | false => rfl

/-- **Selections compose.** Patterns taken together select what the first ones do and then, in
their order, what only the others do; a selection has no path twice, cleaned paths only and none
that is excluded; and a longer exclude list takes paths out of it and moves none. -/
theorem selection_composes (tree : FileTree) (patterns more exclude : List Text) :
    (∀ paths, select tree (patterns ++ more) exclude = .ok paths ↔
      ∃ first second, select tree patterns exclude = .ok first ∧
        select tree more exclude = .ok second ∧
        paths = first ++ second.filter fun p => !first.contains p) ∧
    ∀ paths, select tree patterns exclude = .ok paths →
      paths.Nodup ∧ (∀ p ∈ paths, Path.clean p = p ∧ excludes exclude p = false) ∧
        ∀ wider, exclude ⊆ wider → Usable wider →
          select tree patterns wider = .ok (paths.filter fun p => !excludes wider p) := by
  refine ⟨fun paths => select_append_iff, fun paths selected => ?_⟩
  exact ⟨nodup_select selected, fun p mem => clean_of_mem_select selected mem,
    fun wider within usable => select_widened selected within usable⟩

def scriptTree : FileTree :=
  ⟨.ofList [([utf8 "a.js"], .file []), ([utf8 "sub"], .directory),
    ([utf8 "sub", utf8 "c.js"], .file [])]⟩

/-- A script that is named by a path and by a pattern is selected once, and an exclude pattern
with a slash too many takes the other one out. -/
theorem selection_composes_twoSpellings :
    select scriptTree [utf8 "./a.js"] [] = .ok [utf8 "a.js"] ∧
      select scriptTree [utf8 "*.js", utf8 "sub"] [] = .ok [utf8 "a.js", utf8 "sub/c.js"] ∧
      select scriptTree ([utf8 "./a.js"] ++ [utf8 "*.js", utf8 "sub"]) [] =
        .ok [utf8 "a.js", utf8 "sub/c.js"] ∧
      select scriptTree ([utf8 "./a.js"] ++ [utf8 "*.js", utf8 "sub"]) [utf8 "sub//?.js"] =
        .ok [utf8 "a.js"] := by
  have first : select scriptTree [utf8 "./a.js"] [] = .ok [utf8 "a.js"] := by decide +kernel
  have second : select scriptTree [utf8 "*.js", utf8 "sub"] [] =
      .ok [utf8 "a.js", utf8 "sub/c.js"] := by decide +kernel
  have composes := selection_composes scriptTree [utf8 "./a.js"] [utf8 "*.js", utf8 "sub"] []
  have joined : select scriptTree ([utf8 "./a.js"] ++ [utf8 "*.js", utf8 "sub"]) [] =
      .ok [utf8 "a.js", utf8 "sub/c.js"] :=
    (composes.1 _).mpr ⟨_, _, first, second, by decide +kernel⟩
  refine ⟨first, second, joined, ?_⟩
  have usable : Usable [utf8 "sub//?.js"] := usable_iff.mpr ⟨_, by rfl⟩
  have narrowed :=
    ((selection_composes scriptTree ([utf8 "./a.js"] ++ [utf8 "*.js", utf8 "sub"]) [] []).2 _
      joined).2.2 [utf8 "sub//?.js"] (List.nil_subset _) usable
  rw [narrowed]
  decide +kernel

end ClassUpgrade.Files
