/-
# Proofs.Report.Label — when a label tells what was done

A report calls each result by its status, in the line of the result and in the
summary, and the status depends on what the report was started for. A label is
truthful (`Truthful`) if a file that is called migrated or replaced has been
written, and a file that a dry run leaves unwritten is called one that would be
migrated or replaced.

In a plan every label is truthful. A migration takes its mode from the way it
was started and not from its options, so that it has the words of a migration
for a dry run too. And it calls a replaced entrypoint so by the stage that the
document went through, even where the template has the text of the document and
there is nothing to write. `label_truthful_iff` says that these two are all that
can go wrong, for every order of the steps and every moment of a cancellation.
-/
import Mathlib.Data.List.Nodup
import ClassUpgrade.Proofs.Files.Selection
import ClassUpgrade.Proofs.Migration.Passage

namespace ClassUpgrade.Report

set_option autoImplicit false

open Document Migration
open Files (nodup_select)

/-! ## Labels and flags -/

def Event.shown {ε : Type} : Event ε → List (FileResult ε)
  | .result r => [r]
  | .summary rs => rs
  | .upcoming _ | .closed => []

/-- What a result is called is what became of the file: it was written if it is called migrated or
replaced, and if it would have changed but for the dry run it is called so. -/
structure Truthful (mode : Mode) (options : Options) (r : FileResult FileError) (written : Prop) :
    Prop where
  done : statusOf mode r = .migrated ∨ statusOf mode r = .replaced → written
  would : r.failed = false → r.changed = true → options.dryRun = true →
    statusOf mode r = .wouldMigrate ∨ statusOf mode r = .wouldReplace

/-- A document that opts out stays as it is. -/
theorem transform_skipped {template : Except Text Text} {doc : Text} {t : Transformation}
    (ran : (transform template doc).1 = .ok t) (skipped : t.skipped = true) :
    t.content = doc ∧ t.entrypointReplaced = false := by
  unfold transform at ran
  dsimp only at ran
  split at ran
  · obtain rfl := Except.ok.inj ran
    exact ⟨rfl, rfl⟩
  · split at ran
    · split at ran
      · cases ran
      · obtain rfl := Except.ok.inj ran
        cases skipped
    · split at ran
      · obtain rfl := Except.ok.inj ran
        cases skipped
      · unfold transformComponents at ran
        split at ran
        · cases ran
        · dsimp only at ran
          split at ran
          · cases ran
          · obtain rfl := Except.ok.inj ran
            cases skipped

theorem flags_of_skipped {path : Text} {r : FileResult FileError} (tells : r.Tells path)
    (skipped : r.skipped = true) : r.changed = false ∧ r.entrypointReplaced = false := by
  obtain ⟨template, doc, t, ran, same⟩ := tells
  have flag : t.skipped = true := (congrArg FileResult.skipped same).symm.trans skipped
  obtain ⟨unchanged, kept⟩ := transform_skipped ran flag
  refine ⟨(congrArg FileResult.changed same).trans ?_,
    (congrArg FileResult.entrypointReplaced same).trans kept⟩
  rw [FileResult.ofTransformation, unchanged]
  exact bne_self_eq_false doc

/-- Whether a label is truthful is a matter of the flags of its result. -/
theorem truthful_iff {mode : Mode} {options : Options} {r : FileResult FileError} {written : Prop}
    (tells : r.failed = false → r.Tells r.path) (wrote : written ↔ r.isWritten options = true) :
    Truthful mode options r written ↔
      mode = .plan ∨ r.failed = true ∨
        ((options.dryRun = true → r.changed = false) ∧
          (r.entrypointReplaced = true → r.changed = true)) := by
  cases failed : r.failed with
  | true =>
      have status : statusOf mode r = .failed := if_pos failed
      refine iff_of_true ⟨fun called => ?_, fun fine => ?_⟩ (.inr (.inl rfl))
      · simp [status] at called
      · rw [failed] at fine
        cases fine
  | false =>
      cases skipped : r.skipped with
      | true =>
          obtain ⟨unchanged, kept⟩ := flags_of_skipped (tells failed) skipped
          have status : statusOf mode r = .skipped := by simp [statusOf, failed, skipped]
          refine iff_of_true ⟨fun called => ?_, fun _ changed => ?_⟩
            (.inr (.inr ⟨fun _ => unchanged, fun replaced => ?_⟩))
          · simp [status] at called
          · rw [unchanged] at changed
            cases changed
          · rw [kept] at replaced
            cases replaced
      | false =>
          -- What is left is a table: the label by the flags, and the write by the flags.
          have written_iff : written ↔ r.changed = true ∧ options.dryRun = false := by
            simp [wrote, FileResult.isWritten, failed]
          have unfolds : Truthful mode options r written ↔ _ ∧ _ :=
            ⟨fun truthful => ⟨truthful.done, truthful.would⟩, fun both => ⟨both.1, both.2⟩⟩
          rw [unfolds, written_iff]
          cases mode <;> cases replaced : r.entrypointReplaced <;> cases changed : r.changed <;>
            simp [statusOf, failed, skipped, replaced, changed]

/-! ## Results and writes of a run -/

/-- A path has been written exactly if its result says so, where no path is listed twice. -/
theorem mem_written_iff {options : Options} {paths : List Text} {g : Group}
    (settled : g.Settled options paths) (once : paths.Nodup) {r : FileResult FileError}
    (mem : r ∈ g.results) : r.path ∈ g.ledger.written ↔ r.isWritten options = true := by
  rw [settled.written.mem_iff, List.mem_map]
  constructor
  · rintro ⟨r', written, same⟩
    obtain ⟨mem', written⟩ := List.mem_filter.mp written
    have : r' = r := List.inj_on_of_nodup_map (settled.inOrder.nodup once) mem' mem same
    rwa [← this]
  · exact fun written => ⟨r, List.mem_filter.mpr ⟨mem, written⟩, rfl⟩

/-- What a report shows of a group that is over are the results of the group. -/
theorem mem_results_of_shown {options : Options} {paths : List Text} {g : Group}
    (settled : g.Settled options paths) {circumstances : Circumstances} {count : Nat}
    {event : Event FileError}
    (listed : event ∈ (RunReport.ofPassage circumstances count g.passage).events)
    {r : FileResult FileError} (shown : r ∈ event.shown) : r ∈ g.results := by
  simp only [RunReport.ofPassage, List.cons_append, List.mem_cons, List.mem_append, List.mem_map,
    List.not_mem_nil, or_false] at listed
  obtain rfl | ⟨r', mem, rfl⟩ | rfl | rfl := listed
  · cases shown
  · obtain rfl := List.mem_singleton.mp shown
    exact settled.shown.mem_iff.mp mem
  · exact shown
  · cases shown

def requestFor (mode : Mode) (request : Request) : Request :=
  match mode with
  | .migrate => request
  | .plan => request.forPlan

/-- What a run in a mode reports is among the reports that the run can come to. -/
theorem runs_runFor (mode : Mode) (env : Environment) (circumstances : Circumstances)
    (cutOff : Formatter → Prop) (request : Request) (tree : FileTree) :
    ∃ ledger, Runs env circumstances cutOff (requestFor mode request) tree ledger
      (runFor mode env circumstances request tree) := by
  cases mode with
  | migrate => exact runs_run env circumstances cutOff request tree
  | plan => exact runs_run env circumstances cutOff request.forPlan tree

/-- **When a label tells what was done.** Every result that a run shows without a failure tells what
a transformation made of a document. Its label is truthful in a plan, after a failure, and
otherwise exactly unless a dry run would have changed the file, or the template that took the
document's place has the same text. -/
theorem label_truthful_iff (mode : Mode) (env : Environment) (circumstances : Circumstances)
    (cutOff : Formatter → Prop) (request : Request) (tree : FileTree) (ledger : Ledger)
    (report : RunReport)
    (runs : Runs env circumstances cutOff (requestFor mode request) tree ledger report)
    (event : Event FileError) (listed : event ∈ report.events) (r : FileResult FileError)
    (shown : r ∈ event.shown) :
    (r.failed = false → r.Tells r.path) ∧
    (Truthful mode (requestFor mode request).options r (r.path ∈ ledger.written) ↔
      mode = .plan ∨ r.failed = true ∨
        ((request.options.dryRun = true → r.changed = false) ∧
          (r.entrypointReplaced = true → r.changed = true))) := by
  cases runs with
  | early refused =>
      rw [(early_of_gather refused).2.2.2] at listed
      cases listed
  | through gathered reaches ended =>
      have settled := (sound_of_reaches reaches).settled ended
      have mem := mem_results_of_shown settled listed shown
      have once := nodup_select (select_of_gather gathered)
      have tells : r.failed = false → r.Tells r.path := fun fine =>
        (settled.sound r mem).2.2 (by simpa [FileResult.failed] using fine)
      refine ⟨tells, ?_⟩
      rw [truthful_iff tells (mem_written_iff settled once mem)]
      cases mode with
      | plan => exact iff_of_true (.inl rfl) (.inl rfl)
      | migrate => exact Iff.rfl

/-- A script `a.js` with one registration. -/
def oneComponent : FileTree :=
  ⟨.ofList [([utf8 "a.js"], .file (utf8 "WL.registerComponent('a', \x7b\x7d, \x7b\x7d);\n"))]⟩

/-- The bundled template, and no formatter. -/
def plainEnvironment : Environment where
  templatePath := []
  readFault := fun _ => none
  writeFault := fun _ => none
  formatter := none

def dryRequest : Request := ⟨[utf8 "a.js"], [], 1, ⟨true, false⟩⟩

def dryResult : FileResult FileError :=
  (migrateFile plainEnvironment ⟨true, false⟩ (utf8 "a.js") oneComponent).result

/-- A migration that is a dry run leaves the script alone and calls it migrated; a plan, which is
the same run, says that it would migrate it. -/
theorem label_dryRun_oneComponent :
    ∃ ledger ledger',
      Runs plainEnvironment .calm (fun _ => False) (requestFor .migrate dryRequest) oneComponent
        ledger (runFor .migrate plainEnvironment .calm dryRequest oneComponent) ∧
      Runs plainEnvironment .calm (fun _ => False) (requestFor .plan dryRequest) oneComponent
        ledger' (runFor .plan plainEnvironment .calm dryRequest oneComponent) ∧
      .result dryResult ∈
        (runFor .migrate plainEnvironment .calm dryRequest oneComponent).events ∧
      .result dryResult ∈ (runFor .plan plainEnvironment .calm dryRequest oneComponent).events ∧
      (runFor .migrate plainEnvironment .calm dryRequest oneComponent).tree = oneComponent ∧
      (statusOf .migrate dryResult).label = utf8 "migrated" ∧
      (statusOf .plan dryResult).label = utf8 "would migrate" ∧
      ¬ Truthful .migrate dryRequest.options dryResult (dryResult.path ∈ ledger.written) ∧
      Truthful .plan dryRequest.options dryResult (dryResult.path ∈ ledger'.written) := by
  obtain ⟨ledger, runs⟩ :=
    runs_runFor .migrate plainEnvironment .calm (fun _ => False) dryRequest oneComponent
  obtain ⟨ledger', plans⟩ :=
    runs_runFor .plan plainEnvironment .calm (fun _ => False) dryRequest oneComponent
  have listed : .result dryResult ∈
      (run plainEnvironment .calm dryRequest oneComponent).events := by
    have events : (run plainEnvironment .calm dryRequest oneComponent).events =
        [.upcoming 1, .result dryResult, .summary [dryResult], .closed] := by
      rfl
    rw [events]
    exact List.mem_cons_of_mem _ List.mem_cons_self
  refine ⟨ledger, ledger', runs, plans, listed, listed, by rfl, by rfl, by rfl,
    fun truthful => ?_, ?_⟩
  · have condition := (label_truthful_iff .migrate plainEnvironment .calm _ dryRequest
      oneComponent ledger _ runs _ listed _ (List.mem_singleton_self _)).2
    obtain planned | failed | ⟨kept, -⟩ := condition.mp truthful
    · cases planned
    · cases failed
    · cases kept rfl
  · have condition := (label_truthful_iff .plan plainEnvironment .calm _ dryRequest
      oneComponent ledger' _ plans _ listed _ (List.mem_singleton_self _)).2
    exact condition.mpr (.inl rfl)

end ClassUpgrade.Report
