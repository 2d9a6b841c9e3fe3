/-
# Proofs.Report.Tally — a summary and its rows

The last line of a summary counts the results that changed a file, that failed
and that were skipped; each row above it calls one result by its status. Both
go through the flags of a result case by case, and the rows have one case more:
a row is `replaced` as soon as the template took the document's place, while
the count of changes asks whether the text is another one.

So the two agree on failures and on skipped files, and on changes exactly if no
result is an echo (`FileResult.echoes`): one of a template that took the place
of a document with the very same text. A migration returns an echo only with a
template that is stale itself (`echo_of_returns`), and with such a template it
does (`echoes_migrateFile`). The bundled template is not stale, so that with it
every summary agrees with its rows (`tally_agrees_of_bundled`).
-/
import ClassUpgrade.Proofs.Document.Prologue
import ClassUpgrade.Proofs.Migration.Rehearsal
import ClassUpgrade.Proofs.Report.Label

namespace ClassUpgrade.Migration

set_option autoImplicit false

open Document

/-! ## Results that a migration returns -/

/-- Whether the template took the place of a document with the same text. -/
def FileResult.echoes {ε : Type} (r : FileResult ε) : Bool :=
  !r.failed && !r.skipped && r.entrypointReplaced && !r.changed

section Task

variable (env : Environment) (options : Options) (path : Text)

/-- A task can come to a stage while anything happens to the files between its steps. -/
inductive Comes : Stage → Prop
  | start : Comes .waiting
  | step {stage : Stage} (comes : Comes stage) (tree : FileTree) :
      Comes (stage.step env options path tree).2.1

/-- A migration of the file at a path can return a result. -/
def Returns (r : FileResult FileError) : Prop :=
  ∃ error, Comes env options path (.finished r error)

/-- A result is that of a transformation with the template as some files have it. -/
def Told (r : FileResult FileError) : Prop :=
  ∃ tree doc t, (transform (env.template tree) doc).1 = .ok t ∧
    r.unformatted = .ofTransformation path doc t

/-- What is known of the result of a task at a stage. -/
def Stage.Tells : Stage → Prop
  | .waiting | .found | .loaded _ => True
  | .changed _ r | .written r => Told env path r
  | .finished r _ => r.failed = false → Told env path r

variable {env options path}

theorem Stage.tells_fail {r : FileResult FileError} {e : FileError} :
    (Stage.fail r e).Tells env path :=
  fun fine => nomatch fine

/-- **One step** keeps what is known of a result. -/
theorem Stage.Tells.step {stage : Stage} (tells : stage.Tells env path) (tree : FileTree) :
    (stage.step env options path tree).2.1.Tells env path := by
  cases stage with
  | waiting =>
      simp only [Stage.step, Stage.look]
      split
      · trivial
      · exact Stage.tells_fail
  | found =>
      simp only [Stage.step, Stage.load]
      split
      · trivial
      · exact Stage.tells_fail
  | loaded doc =>
      simp only [Stage.step, Stage.rework]
      split
      · exact Stage.tells_fail
      · rename_i t ran
        have told : Told env path (.ofTransformation path doc t) := ⟨tree, doc, t, ran, rfl⟩
        dsimp only
        split
        · exact told
        · exact fun _ => told
  | changed content r =>
      simp only [Stage.step, Stage.save]
      split
      · exact Stage.tells_fail
      · exact tells
  | written r =>
      obtain ⟨r', now, log, tidied, same, -⟩ := tidy_finishes env options path r tree
      simp only [Stage.step, tidied]
      obtain ⟨tree', doc, t, ran, told⟩ := tells
      exact fun _ => ⟨tree', doc, t, ran, same.trans told⟩
  | finished r error => exact tells

theorem Comes.tells {stage : Stage} (comes : Comes env options path stage) :
    stage.Tells env path := by
  induction comes with
  | start => trivial
  | step _ tree ih => exact ih.step tree

theorem Comes.steps {stage : Stage} (comes : Comes env options path stage) (count : Nat)
    (tree : FileTree) : Comes env options path (Stage.steps env options path count tree stage).2.1 := by
  induction count generalizing stage tree with
  | zero => exact comes
  | succ count ih => exact ih (comes.step tree) _

/-- What a migration that is left alone returns. -/
theorem returns_migrateFile (env : Environment) (options : Options) (path : Text)
    (tree : FileTree) : Returns env options path (migrateFile env options path tree).result := by
  have comes := (Comes.start : Comes env options path .waiting).steps Stage.stepLimit tree
  rw [steps_migrateFile] at comes
  exact ⟨_, comes⟩

/-- **An echo** needs a template that is a stale entrypoint itself. -/
theorem echo_of_returns {r : FileResult FileError} (returns : Returns env options path r)
    (echoes : r.echoes = true) :
    ∃ tree doc, env.template tree = .ok doc ∧ isStaleEntrypoint doc = true ∧
      (ignoreRule doc).ignores entrypointStage = false := by
  simp only [FileResult.echoes, Bool.and_eq_true, Bool.not_eq_true'] at echoes
  obtain ⟨⟨⟨fine, -⟩, replaced⟩, unchanged⟩ := echoes
  obtain ⟨error, comes⟩ := returns
  obtain ⟨tree, doc, t, ran, told⟩ := comes.tells fine
  have replaced' : t.entrypointReplaced = true :=
    (congrArg FileResult.entrypointReplaced told).symm.trans replaced
  have unchanged' : (t.content != doc) = false :=
    (congrArg FileResult.changed told).symm.trans unchanged
  obtain ⟨heeded, stale, template_eq⟩ := transform_replaced ran replaced'
  rw [bne_eq_false_iff_eq.mp unchanged'] at template_eq
  exact ⟨tree, doc, template_eq, stale, heeded⟩

/-- Such a template echoes each file with its text. -/
theorem echoes_migrateFile {tree : FileTree} {old doc : Text}
    (found : tree.stat path = .ok (.file old)) (loaded : env.read tree path = .ok doc)
    (template_eq : env.template tree = .ok doc) (stale : isStaleEntrypoint doc = true)
    (heeded : (ignoreRule doc).ignores entrypointStage = false) :
    (migrateFile env options path tree).result.echoes = true := by
  obtain ⟨t, ran, replaced⟩ := transform_of_stale doc heeded stale
  obtain ⟨-, -, content_eq⟩ := transform_replaced ran replaced
  have unchanged : (t.content != doc) = false :=
    bne_eq_false_iff_eq.mpr (Except.ok.inj content_eq).symm
  have heeds : t.skipped = false := by
    by_contra skipped
    rw [Bool.not_eq_false] at skipped
    exact absurd replaced (by simp [(Report.transform_skipped ran skipped).2])
  have rehearsed : rehearse env path tree = .ok (doc, t) := by
    simp only [rehearse, found, loaded, template_eq, ran]
  obtain ⟨log, steps_eq⟩ := steps_rehearse env options path tree
  rw [rehearsed, Stage.ofRehearsal, unchanged, Bool.false_and, if_neg Bool.false_ne_true]
    at steps_eq
  rw [steps_settle steps_eq]
  simp [FileResult.echoes, FileResult.ofTransformation, FileResult.failed, FileResult.ofPath,
    heeds, replaced, unchanged]

end Task

end ClassUpgrade.Migration

namespace ClassUpgrade.Report

set_option autoImplicit false

open Document Migration

/-- Whether a row says that a file changed or would change. -/
def Status.saysChange : Status → Bool
  | .migrated | .replaced | .wouldMigrate | .wouldReplace => true
  | .failed | .skipped | .unchanged => false

/-! ## Counts -/

section Counts

variable {ε : Type}

theorem foldl_add (rs : List (FileResult ε)) (t : Tally) : rs.foldl Tally.add t =
    ⟨t.changed + rs.countP fun r => !r.failed && !r.skipped && r.changed,
      t.failed + rs.countP (·.failed), t.skipped + rs.countP fun r => !r.failed && r.skipped⟩ := by
  induction rs generalizing t with
  | nil => rfl
  | cons r rest ih =>
      rw [List.foldl_cons, ih, Tally.add]
      cases failed : r.failed <;> cases skipped : r.skipped <;> cases changed : r.changed <;>
        simp [failed, skipped, changed] <;> omega

/-- **A summary is the sum of its results.** -/
theorem ofResults_eq (rs : List (FileResult ε)) : Tally.ofResults rs =
    ⟨rs.countP fun r => !r.failed && !r.skipped && r.changed, rs.countP (·.failed),
      rs.countP fun r => !r.failed && r.skipped⟩ := by
  simp [Tally.ofResults, foldl_add, Tally.zero]

/-- What a row says, by the flags of its result. -/
theorem statusOf_flags (mode : Mode) (r : FileResult ε) :
    decide (statusOf mode r = .failed) = r.failed ∧
      decide (statusOf mode r = .skipped) = (!r.failed && r.skipped) ∧
      (statusOf mode r).saysChange =
        (!r.failed && !r.skipped && (r.entrypointReplaced || r.changed)) := by
  unfold statusOf
  cases mode <;> cases r.failed <;> cases r.skipped <;> cases r.entrypointReplaced <;>
    cases r.changed <;> exact ⟨rfl, rfl, rfl⟩

/-- **Rows that say a change** are the results that count as changed and the echoes. -/
theorem countP_saysChange (mode : Mode) (rs : List (FileResult ε)) :
    rs.countP (fun r => (statusOf mode r).saysChange) =
      (Tally.ofResults rs).changed + rs.countP (·.echoes) := by
  rw [ofResults_eq]
  dsimp only
  induction rs with
  | nil => rfl
  | cons r rest ih =>
      rw [List.countP_cons, List.countP_cons, List.countP_cons, ih, (statusOf_flags mode r).2.2,
        FileResult.echoes]
      cases r.failed <;> cases r.skipped <;> cases r.entrypointReplaced <;> cases r.changed <;>
        simp <;> omega

end Counts

/-- **When a summary agrees with its rows.** The results are those that migrations with one template
return, whatever happened to the files. As many results count as failed and as skipped as rows say
so. Rows that say a change are the results that count as changed and the echoes, so that these
numbers are the same exactly if there is no echo; and there is one only if the template can be a
stale entrypoint itself. -/
theorem tally_agrees_iff (mode : Mode) (env : Environment) (results : List (FileResult FileError))
    (returned : ∀ r ∈ results, ∃ options path, Returns env options path r) :
    let tally := Tally.ofResults results
    let rows := fun p : Status → Bool => results.countP fun r => p (statusOf mode r)
    tally.failed = rows (· = .failed) ∧ tally.skipped = rows (· = .skipped) ∧
      rows Status.saysChange = tally.changed + results.countP (·.echoes) ∧
      (tally.changed = rows Status.saysChange ↔ ∀ r ∈ results, r.echoes = false) ∧
      ∀ r ∈ results, r.echoes = true → ∃ tree doc, env.template tree = .ok doc ∧
        isStaleEntrypoint doc = true ∧ (ignoreRule doc).ignores entrypointStage = false := by
  intro tally rows
  have changes : rows Status.saysChange = tally.changed + results.countP (·.echoes) :=
    countP_saysChange mode results
  refine ⟨?_, ?_, changes, ?_, fun r mem echoes => ?_⟩
  · have flags := funext fun r : FileResult FileError => (statusOf_flags mode r).1
    simp only [tally, rows, ofResults_eq, flags]
  · have flags := funext fun r : FileResult FileError => (statusOf_flags mode r).2.1
    simp only [tally, rows, ofResults_eq, flags]
  · rw [changes, Nat.left_eq_add, List.countP_eq_zero]
    simp only [Bool.not_eq_true]
  · obtain ⟨options, path, returns⟩ := returned r mem
    exact echo_of_returns returns echoes

def staleScript : Text := utf8 "loadRuntime(RuntimeBaseName, \x7b\x7d);\n"

/-- A stale entrypoint, and a template with its text. -/
def echoTree : FileTree :=
  ⟨.ofList [([utf8 "index.js"], .file staleScript), ([utf8 "t.js"], .file staleScript)]⟩

/-- The result of a migration of the entrypoint with the template. -/
def echoResult : FileResult FileError :=
  (migrateFile { plainEnvironment with templatePath := utf8 "t.js" } ⟨false, true⟩
    (utf8 "index.js") echoTree).result

/-- A row says `replaced`, and the summary counts no change. -/
theorem tally_disagrees_echoTree :
    Returns { plainEnvironment with templatePath := utf8 "t.js" } ⟨false, true⟩ (utf8 "index.js")
      echoResult ∧
    statusOf .migrate echoResult = .replaced ∧ (Tally.ofResults [echoResult]).changed = 0 ∧
    ¬ (Tally.ofResults [echoResult]).changed =
      [echoResult].countP fun r => (statusOf .migrate r).saysChange := by
  have returns := returns_migrateFile { plainEnvironment with templatePath := utf8 "t.js" }
    ⟨false, true⟩ (utf8 "index.js") echoTree
  have echoes : echoResult.echoes = true :=
    echoes_migrateFile (by rfl) (by rfl) (by rfl) (by rfl) (by rfl)
  refine ⟨returns, by rfl, by rfl, fun agrees => ?_⟩
  obtain ⟨-, -, -, agrees_iff, -⟩ := tally_agrees_iff .migrate _ [echoResult]
    (List.forall_mem_singleton.mpr ⟨_, _, returns⟩)
  have none_echoes := agrees_iff.mp agrees echoResult (List.mem_singleton_self _)
  exact absurd echoes (by simp [none_echoes])

theorem not_stale_bundledTemplate : isStaleEntrypoint bundledTemplate = false := by
  decide +kernel

/-- With the bundled template every summary agrees with its rows. -/
theorem tally_agrees_of_bundled (mode : Mode) {env : Environment} (bundled : env.templatePath = [])
    (results : List (FileResult FileError))
    (returned : ∀ r ∈ results, ∃ options path, Returns env options path r) :
    (Tally.ofResults results).changed =
      results.countP fun r => (statusOf mode r).saysChange := by
  rw [countP_saysChange, Nat.left_eq_add, List.countP_eq_zero]
  intro r mem echoes
  obtain ⟨options, path, returns⟩ := returned r mem
  obtain ⟨tree, doc, template_eq, stale, -⟩ := echo_of_returns returns echoes
  rw [Environment.template, bundled] at template_eq
  obtain rfl := Except.ok.inj template_eq
  rw [not_stale_bundledTemplate] at stale
  cases stale

end ClassUpgrade.Report
