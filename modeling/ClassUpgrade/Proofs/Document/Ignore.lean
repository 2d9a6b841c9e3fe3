/-
# Proofs.Document.Ignore — what comments opt out of

A directive names stages or, without names, means everything. A rule is
determined by what it ignores (`IgnoreRule.ext`), and merging rules ignores what
either of them does (`IgnoreRule.ignores_merge`), so that the rule of a document
is said comment by comment (`ignores_ignoreRule_iff`) and neither the order of
the comments nor their number matters (`ignoreRule_congr`).
-/
import ClassUpgrade.Document.Ignore
import ClassUpgrade.Proofs.Text.NameSet
import ClassUpgrade.Proofs.Text.Part

namespace ClassUpgrade.Document

set_option autoImplicit false

open Byte

/-! ## Directives -/

/-- The stages that a list names: its parts without white space at the ends, in lower case. -/
def partNames (list : Text) : List Text :=
  (Text.splitOn comma (Text.trim list)).map fun part => Text.lower (Text.trim part)

/-- A comment that is a directive without names. -/
def OptsOut (comment : Text) : Prop :=
  ∃ list, commentBody comment = directive ++ list ∧ ∀ name ∈ partNames list, name = []

/-- A comment that is a directive with a stage among its names. -/
def OptsOutOf (stage comment : Text) : Prop :=
  ∃ list, commentBody comment = directive ++ list ∧ stage ∈ partNames list ∧ stage ≠ []

theorem mem_stageNames {list stage : Text} :
    stage ∈ (stageNames (Text.trim list)).names ↔ stage ∈ partNames list ∧ stage ≠ [] :=
  NameSet.mem_ofList

theorem stageNames_size_eq_zero_iff {list : Text} :
    (stageNames (Text.trim list)).size = 0 ↔ ∀ name ∈ partNames list, name = [] := by
  rw [NameSet.size, List.length_eq_zero_iff, List.eq_nil_iff_forall_not_mem]
  refine forall_congr' fun name => ?_
  rw [mem_stageNames, not_and, not_ne_iff]

/-- The rule of a directive. -/
theorem parseDirective?_eq_some_iff {comment : Text} {rule : IgnoreRule} :
    parseDirective? comment = some rule ↔ ∃ list, commentBody comment = directive ++ list ∧
      rule = if (stageNames (Text.trim list)).size = 0 then .everything
        else .stages (stageNames (Text.trim list)) := by
  unfold parseDirective?
  rw [Option.bind_eq_bind, Option.bind_eq_some_iff]
  refine exists_congr fun list => ?_
  rw [Text.after?_eq_some_iff, Option.some_inj, eq_comm (a := rule)]

/-- The comments that opt out of everything. -/
theorem all_parseDirective? {comment : Text} :
    (∃ rule, parseDirective? comment = some rule ∧ rule.all = true) ↔ OptsOut comment := by
  simp only [parseDirective?_eq_some_iff]
  constructor
  · rintro ⟨rule, ⟨list, body_eq, rfl⟩, all⟩
    refine ⟨list, body_eq, stageNames_size_eq_zero_iff.mp ?_⟩
    by_contra named
    rw [if_neg named] at all
    cases all
  · rintro ⟨list, body_eq, unnamed⟩
    refine ⟨_, ⟨list, body_eq, rfl⟩, ?_⟩
    rw [if_pos (stageNames_size_eq_zero_iff.mpr unnamed)]
    rfl

theorem ignores_of_all {rule : IgnoreRule} (stage : Text) (all : rule.all = true) :
    rule.ignores stage = true := by
  cases rule with
  | everything => rfl
  | stages names => cases all

/-- The comments whose rule ignores a stage. -/
theorem ignores_parseDirective? {comment stage : Text} :
    (∃ rule, parseDirective? comment = some rule ∧ rule.ignores stage = true) ↔
      OptsOut comment ∨ OptsOutOf stage comment := by
  constructor
  · rintro ⟨rule, parsed, ignores⟩
    cases all : rule.all with
    | true => exact .inl (all_parseDirective?.mp ⟨rule, parsed, all⟩)
    | false =>
        obtain ⟨list, body_eq, rfl⟩ := parseDirective?_eq_some_iff.mp parsed
        refine .inr ⟨list, body_eq, mem_stageNames.mp ?_⟩
        split at ignores
        · rename_i unnamed
          rw [if_pos unnamed] at all
          cases all
        · exact NameSet.contains_iff.mp ignores
  · rintro (optsOut | ⟨list, body_eq, named⟩)
    · obtain ⟨rule, parsed, all⟩ := all_parseDirective?.mpr optsOut
      exact ⟨rule, parsed, ignores_of_all stage all⟩
    · refine ⟨_, parseDirective?_eq_some_iff.mpr ⟨list, body_eq, rfl⟩, ?_⟩
      split
      · rfl
      · exact NameSet.contains_iff.mpr (mem_stageNames.mpr named)

/-! ## Merging rules -/

namespace IgnoreRule

theorem all_merge (a b : IgnoreRule) : (a.merge b).all = (a.all || b.all) := by
  cases a <;> cases b <;> rfl

/-- Either part of a rule is heeded. -/
theorem ignores_merge (a b : IgnoreRule) (stage : Text) :
    (a.merge b).ignores stage = (a.ignores stage || b.ignores stage) := by
  cases a with
  | everything => rfl
  | stages names =>
      cases b with
      | everything => exact (Bool.or_true _).symm
      | stages names' =>
          rw [Bool.eq_iff_iff, Bool.or_eq_true]
          simp only [merge, ignores, NameSet.contains_iff, NameSet.mem_union]

/-- A rule is determined by what it ignores. -/
theorem ext {a b : IgnoreRule} (all : a.all = b.all)
    (ignores : ∀ stage, a.ignores stage = true ↔ b.ignores stage = true) : a = b := by
  cases a with
  | everything =>
      cases b with
      | everything => rfl
      | stages names => cases all
  | stages names =>
      cases b with
      | everything => cases all
      | stages names' =>
          refine congrArg stages (NameSet.eq_of_mem_iff fun stage => ?_)
          rw [← NameSet.contains_iff, ← NameSet.contains_iff]
          exact ignores stage

end IgnoreRule

/-- A rule with those of the directives among comments. -/
def heed (rule : IgnoreRule) (comments : List Text) : IgnoreRule :=
  comments.foldl
    (fun rule comment =>
      match parseDirective? comment with
      | some r => rule.merge r
      | none => rule)
    rule

/-- One more comment. -/
theorem heed_cons (rule : IgnoreRule) (comment : Text) (comments : List Text) :
    heed rule (comment :: comments) =
      heed (((parseDirective? comment).map rule.merge).getD rule) comments := by
  unfold heed
  rw [List.foldl_cons]
  cases parseDirective? comment <;> rfl

/-- **What holds of a merged rule when it holds of either part** holds after a run over comments when
it held before or holds of a directive among them. -/
theorem heed_iff (holds : IgnoreRule → Prop)
    (merge : ∀ a b, holds (a.merge b) ↔ holds a ∨ holds b) (comments : List Text) :
    ∀ rule, holds (heed rule comments) ↔
      holds rule ∨ ∃ c ∈ comments, ∃ r, parseDirective? c = some r ∧ holds r := by
  induction comments with
  | nil => simp [heed]
  | cons comment comments ih =>
      intro rule
      rw [heed_cons, ih, List.exists_mem_cons_iff, ← or_assoc]
      refine or_congr_left ?_
      cases parseDirective? comment with
      | none => simp
      | some r => simp [merge]

/-- Everything is ignored when a leading comment opts out of it. -/
theorem all_ignoreRule_iff (doc : Text) :
    (ignoreRule doc).all = true ↔ ∃ c ∈ leadingComments doc, OptsOut c := by
  have merge : ∀ a b : IgnoreRule, (a.merge b).all = true ↔ a.all = true ∨ b.all = true := by
    intro a b
    rw [IgnoreRule.all_merge, Bool.or_eq_true]
  have collected := heed_iff (fun rule => rule.all = true) merge (leadingComments doc) .nothing
  simp only [all_parseDirective?] at collected
  refine collected.trans (or_iff_right ?_)
  exact Bool.false_ne_true

/-- A stage is ignored when a leading comment opts out of it or of everything. -/
theorem ignores_ignoreRule_iff (doc stage : Text) :
    (ignoreRule doc).ignores stage = true ↔
      ∃ c ∈ leadingComments doc, OptsOut c ∨ OptsOutOf stage c := by
  have merge : ∀ a b : IgnoreRule, (a.merge b).ignores stage = true ↔
      a.ignores stage = true ∨ b.ignores stage = true := by
    intro a b
    rw [IgnoreRule.ignores_merge, Bool.or_eq_true]
  have collected := heed_iff (fun rule => rule.ignores stage = true) merge (leadingComments doc)
    .nothing
  simp only [ignores_parseDirective?] at collected
  refine collected.trans (or_iff_right ?_)
  exact Bool.false_ne_true

/-- **What a document opts out of depends on the set of its leading comments alone.** -/
theorem ignoreRule_congr {doc doc' : Text}
    (same : ∀ c, c ∈ leadingComments doc ↔ c ∈ leadingComments doc') :
    ignoreRule doc = ignoreRule doc' := by
  refine IgnoreRule.ext ?_ fun stage => ?_
  · rw [Bool.eq_iff_iff, all_ignoreRule_iff, all_ignoreRule_iff]
    simp only [same]
  · rw [ignores_ignoreRule_iff, ignores_ignoreRule_iff]
    simp only [same]

end ClassUpgrade.Document
