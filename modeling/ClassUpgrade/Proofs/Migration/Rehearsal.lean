/-
# Proofs.Migration.Rehearsal — a plan and a preview foretell the migration

What a migration of a file finds out before it writes depends on the files and
on nothing that it is asked to do: whether the file is there, whether it can be
read, and what its text is transformed into (`rehearse`). A preview says that
and no more (`preview_eq`). A migration whose write succeeds adds to it only
what the formatter said (`migrateFile_of_rehearse`), and a dry run adds nothing.

A plan is a run of dry runs, so that it leaves the files alone. Where the files
of a run are nothing to each other, each migration finds the files as they were
at the start, and the results of a run are those of its files alone
(`Passage.Parted`). Hence the results of a plan are those of the migration, up
to the formatter (`plan_foretells`).
-/
import ClassUpgrade.Proofs.Migration.Interleaving

namespace ClassUpgrade.Migration

set_option autoImplicit false

open Document FileTree

/-! ## One file -/

/-- What the migration of a file finds out before it writes: the text of the file, and what that
is transformed into. -/
def rehearse (env : Environment) (path : Text) (tree : FileTree) :
    Except FileError (Text × Transformation) :=
  match tree.stat path with
  | .ok (.file _) =>
      match env.read tree path with
      | .error reason => .error (.unreadable path reason)
      | .ok doc =>
          match (transform (env.template tree) doc).1 with
          | .error cause => .error (.untransformed path cause)
          | .ok t => .ok (doc, t)
  | _ => .error (.notFound path)

section File

variable {env : Environment} {options : Options} {path : Text} {tree : FileTree}

/-- **A preview shows what the rehearsal comes to.** -/
theorem preview_eq (env : Environment) (path : Text) (tree : FileTree) :
    (preview env none path tree).1 =
      match rehearse env path tree with
      | .error e => .error (.file e)
      | .ok (_, t) => .ok t.content := by
  unfold preview rehearse
  cases tree.stat path with
  | error fault => rfl
  | ok node =>
      cases node with
      | directory => rfl
      | file content =>
          cases env.read tree path with
          | error reason => rfl
          | ok doc =>
              dsimp only
              generalize transform (env.template tree) doc = outcome
              obtain ⟨cause | t, log⟩ := outcome
              · rfl
              · rfl

/-- The stage that a task comes to with what it has found out. -/
def Stage.ofRehearsal (options : Options) (path : Text) :
    Except FileError (Text × Transformation) → Stage
  | .error e => .fail (.ofPath path) e
  | .ok (doc, t) =>
      if t.content != doc && !options.dryRun then .changed t.content (.ofTransformation path doc t)
      else .finished (.ofTransformation path doc t) none

/-- The first three steps of a task are the rehearsal. -/
theorem steps_rehearse (env : Environment) (options : Options) (path : Text) (tree : FileTree) :
    ∃ log, Stage.steps env options path 3 tree .waiting =
      (tree, .ofRehearsal options path (rehearse env path tree), log) := by
  unfold rehearse
  simp only [Stage.steps, Stage.step, Stage.look]
  cases tree.stat path with
  | error fault => exact ⟨_, rfl⟩
  | ok node =>
      cases node with
      | directory => exact ⟨_, rfl⟩
      | file content =>
          simp only [Stage.load]
          cases env.read tree path with
          | error reason => exact ⟨_, rfl⟩
          | ok doc =>
              simp only [Stage.rework]
              generalize transform (env.template tree) doc = outcome
              obtain ⟨cause | t, log⟩ := outcome
              · exact ⟨_, rfl⟩
              · exact ⟨_, rfl⟩

theorem Environment.read_ok {text : Text} (loaded : env.read tree path = .ok text) :
    tree.read path = .ok text := by
  unfold Environment.read at loaded
  split at loaded
  · cases loaded
  · exact loaded

theorem found_of_rehearse {doc : Text} {t : Transformation}
    (rehearsed : rehearse env path tree = .ok (doc, t)) :
    (∃ old, tree.stat path = .ok (.file old)) ∧ tree.read path = .ok doc := by
  unfold rehearse at rehearsed
  split at rehearsed
  · rename_i old found
    split at rehearsed
    · cases rehearsed
    · rename_i text loaded
      split at rehearsed
      · cases rehearsed
      · obtain ⟨rfl, -⟩ := Prod.mk.inj (Except.ok.inj rehearsed)
        exact ⟨⟨old, found⟩, Environment.read_ok loaded⟩
  · cases rehearsed

/-- What a formatter does to a result is to say something in it. -/
theorem tidy_finishes (env : Environment) (options : Options) (path : Text)
    (r : FileResult FileError) (tree : FileTree) :
    ∃ r' now log, Stage.tidy env options path r tree = (now, .finished r' none, log) ∧
      r'.unformatted = r.unformatted ∧ (options.format = false → now = tree) := by
  obtain unasked | ⟨formatter, asked, formatter_eq⟩ := formatting_cases env options
  · exact ⟨r, tree, [], tidy_of_unasked env options path r tree unasked, rfl, fun _ => rfl⟩
  · rw [tidy_of_asked env options path r tree asked formatter_eq]
    split
    · exact ⟨_, _, _, rfl, rfl, fun unasked => by rw [asked] at unasked; cases unasked⟩
    · exact ⟨_, _, _, rfl, rfl, fun unasked => by rw [asked] at unasked; cases unasked⟩

theorem migrateFile_of_error {e : FileError} (rehearsed : rehearse env path tree = .error e) :
    (migrateFile env options path tree).result = (FileResult.ofPath path).failWith e ∧
      (migrateFile env options path tree).error = some e := by
  obtain ⟨log, steps_eq⟩ := steps_rehearse env options path tree
  rw [rehearsed] at steps_eq
  rw [steps_settle steps_eq]
  exact ⟨rfl, rfl⟩

/-- **A migration comes to what its rehearsal says**, as long as nothing stands in the way of its
write: it does not fail, its result is that of the transformation but for the formatter, and
without a formatter the file holds the transformed text. -/
theorem migrateFile_of_rehearse {doc : Text} {t : Transformation}
    (rehearsed : rehearse env path tree = .ok (doc, t)) (writable : env.writeFault path = none) :
    (migrateFile env options path tree).error = none ∧
      (migrateFile env options path tree).result.unformatted = .ofTransformation path doc t ∧
      (options = ⟨false, false⟩ →
        (migrateFile env options path tree).tree.read path = .ok t.content) := by
  obtain ⟨⟨old, found⟩, loaded⟩ := found_of_rehearse rehearsed
  obtain ⟨log, steps_eq⟩ := steps_rehearse env options path tree
  rw [rehearsed, Stage.ofRehearsal] at steps_eq
  split at steps_eq
  · -- The text is written over the file, and the formatter has the last step.
    obtain ⟨tree', wrote⟩ := exists_write (exists_names_iff.mpr ⟨old, found⟩) t.content
    have saved : Stage.save env path t.content (.ofTransformation path doc t) tree =
        (tree', .written (.ofTransformation path doc t),
          [Stage.writtenRecord (.ofTransformation path doc t)]) := by
      simp only [Stage.save, Environment.write, writable, wrote]
    obtain ⟨r, now, said, tidied, same, unformatted⟩ :=
      tidy_finishes env options path (.ofTransformation path doc t) tree'
    have last : Stage.steps env options path 5 tree .waiting =
        (now, .finished r none,
          log ++ [Stage.writtenRecord (.ofTransformation path doc t)] ++ said) := by
      rw [steps_succ, steps_succ, steps_eq]
      simp only [Stage.step, saved, tidied]
    rw [steps_settle last]
    refine ⟨rfl, same, fun plain => ?_⟩
    rw [unformatted (congrArg Options.format plain)]
    exact read_of_write found wrote
  · rename_i stays
    rw [steps_settle steps_eq]
    refine ⟨rfl, rfl, fun plain => ?_⟩
    have unchanged : t.content = doc := by
      simpa [plain] using stays
    rw [unchanged]
    exact loaded

/-- But for the formatter, a result does not depend on what the migration may do. -/
theorem result_unformatted (writable : env.writeFault path = none) (options options' : Options) :
    (migrateFile env options path tree).result.unformatted =
      (migrateFile env options' path tree).result.unformatted := by
  cases rehearsed : rehearse env path tree with
  | error e => rw [(migrateFile_of_error rehearsed).1, (migrateFile_of_error rehearsed).1]
  | ok found =>
      obtain ⟨doc, t⟩ := found
      rw [(migrateFile_of_rehearse rehearsed writable).2.1,
        (migrateFile_of_rehearse rehearsed writable).2.1]

end File

/-! ## Many files -/

/-- A dry run leaves the files alone, whatever the order of the steps. -/
theorem tree_of_dryRun {terms : Terms} {paths : List Text} {tree : FileTree} {g : Group}
    (dry : terms.options.dryRun = true) (reaches : Group.Reaches terms (.start paths tree) g) :
    g.tree = tree := by
  induction reaches with
  | refl => rfl
  | tail reaches step ih =>
      have sound := sound_of_reaches reaches
      cases step with
      | cancel | turnTo | stop | handOver => exact ih
      | work there step =>
          have known := sound.members _ (List.mem_of_getElem? there)
          cases step with
          | decline | begin | record | display | handIn => exact ih
          | @advance path result stage env =>
              -- A task comes to write, or to format, only if it is no dry run.
              cases known with
              | running sound =>
                  cases stage with
                  | waiting | found | loaded | finished => exact ih
                  | changed content r | written r =>
                      obtain ⟨-, -, live⟩ := sound
                      rw [dry] at live
                      cases live

section Run

variable {env : Environment} {circumstances : Circumstances} {cutOff : Formatter → Prop}
  {request : Request} {tree : FileTree} {ledger : Ledger} {report : RunReport}

/-- The files that a run gets to do not depend on what it does with them. -/
theorem gather_forPlan (circumstances : Circumstances) (request : Request) (tree : FileTree) :
    gather circumstances request.forPlan tree = gather circumstances request tree :=
  rfl

theorem cancelled_mem_iff {count : Nat} {p : Passage} :
    .cancelled ∈ (RunReport.ofPassage circumstances count p).errors ↔ p.cancelled = true := by
  cases cancelled : p.cancelled <;> simp [RunReport.ofPassage, Passage.errors, cancelled]

/-- **The results of a run that is not cancelled are those of its files alone.** -/
theorem Runs.results_eq (runs : Runs env circumstances cutOff request tree ledger report)
    (apart : ∀ paths, Files.select tree request.patterns request.exclude = .ok paths →
      Apart env paths tree) (going : .cancelled ∉ report.errors) :
    report.results =
      match gather circumstances request tree with
      | .error _ => []
      | .ok paths => paths.map fun path => (migrateFile env request.options path tree).result := by
  cases runs with
  | early refused =>
      rw [refused]
      exact (early_of_gather refused).2.1
  | @through paths g gathered reaches ended =>
      rw [gathered]
      have uncancelled : g.cancelled = false :=
        Bool.eq_false_iff.mpr fun cancelled => going (cancelled_mem_iff.mpr cancelled)
      have parted :=
        parted_of_over (apart paths (select_of_gather gathered)) reaches uncancelled ended
      exact parted.results

theorem not_cancelled_of_calm (calm : circumstances.cancelAfter = none) :
    .cancelled ∉ (run env circumstances request tree).errors := by
  unfold run
  cases gathered : gather circumstances request tree with
  | error early => exact (early_of_gather gathered).2.2.1
  | ok paths =>
      dsimp only
      rw [cancelled_mem_iff, calm]
      exact Bool.noConfusion

end Run

/-- **A plan and a preview foretell the migration.** Where nothing stands in the way of a write, the
paths of a run name distinct files, none of which is the template, and the formatter keeps to the
file it is given:

* a plan leaves the files alone, and however many files are in flight and whatever the order of
  their steps, a plan that is not cancelled has the results of a migration that is not cancelled,
  up to what the formatter said; this goes for the plan and the migration that take the files one
  after the other;
* a preview fails exactly if the migration of the file does, with the same message, and shows what
  the file holds after a migration without a formatter otherwise. -/
theorem plan_foretells (env : Environment) (circumstances : Circumstances)
    (cutOff : Formatter → Prop) (request : Request) (tree : FileTree)
    (writable : ∀ path, env.writeFault path = none)
    (apart : ∀ paths, Files.select tree request.patterns request.exclude = .ok paths →
      Apart env paths tree) :
    (∀ ledger report, Runs env circumstances cutOff request.forPlan tree ledger report →
      report.tree = tree) ∧
    (∀ ledger ledger' report report',
      Runs env circumstances cutOff request.forPlan tree ledger report →
      Runs env circumstances cutOff request tree ledger' report' →
      .cancelled ∉ report.errors → .cancelled ∉ report'.errors →
        report.results.map (·.unformatted) = report'.results.map (·.unformatted)) ∧
    (circumstances.cancelAfter = none →
      (plan env circumstances request tree).tree = tree ∧
      (plan env circumstances request tree).results.map (·.unformatted) =
        (run env circumstances request tree).results.map (·.unformatted)) ∧
    (∀ path,
      (∀ e, (preview env none path tree).1 = .error e →
        ∃ e', (migrateFile env request.options path tree).error = some e' ∧
          e.message = e'.message) ∧
      (∀ text, (preview env none path tree).1 = .ok text →
        (migrateFile env request.options path tree).error = none ∧
          (migrateFile env ⟨false, false⟩ path tree).tree.read path = .ok text)) := by
  have keeps : ∀ ledger report, Runs env circumstances cutOff request.forPlan tree ledger report →
      report.tree = tree := by
    intro ledger report runs
    cases runs with
    | early refused => exact (early_of_gather refused).1
    | through gathered reaches ended => exact tree_of_dryRun rfl reaches
  have same : ∀ ledger ledger' report report',
      Runs env circumstances cutOff request.forPlan tree ledger report →
      Runs env circumstances cutOff request tree ledger' report' →
      .cancelled ∉ report.errors → .cancelled ∉ report'.errors →
        report.results.map (·.unformatted) = report'.results.map (·.unformatted) := by
    intro ledger ledger' report report' planned ran going going'
    rw [planned.results_eq apart going, ran.results_eq apart going', gather_forPlan]
    cases gather circumstances request tree with
    | error early => rfl
    | ok paths =>
        simp only [List.map_map]
        exact List.map_congr_left fun path _ => result_unformatted (writable path) _ _
  refine ⟨keeps, same, fun calm => ?_, fun path => ?_⟩
  · obtain ⟨ledger, planned⟩ := runs_run env circumstances cutOff request.forPlan tree
    obtain ⟨ledger', ran⟩ := runs_run env circumstances cutOff request tree
    exact ⟨keeps _ _ planned, same _ _ _ _ planned ran (not_cancelled_of_calm calm)
      (not_cancelled_of_calm calm)⟩
  · rw [preview_eq]
    cases rehearsed : rehearse env path tree with
    | error e =>
        refine ⟨fun e' failed => ?_, fun text shown => by cases shown⟩
        obtain rfl := Except.error.inj failed
        exact ⟨e, (migrateFile_of_error rehearsed).2, rfl⟩
    | ok found =>
        obtain ⟨doc, t⟩ := found
        refine ⟨fun e' failed => (by cases failed), fun text shown => ?_⟩
        obtain rfl := Except.ok.inj shown
        exact ⟨(migrateFile_of_rehearse rehearsed (writable path)).1,
          (migrateFile_of_rehearse rehearsed (writable path)).2.2 rfl⟩

/-- The plan for the two entrypoints foretells that the template takes their place, and so does the
preview of one of them. -/
theorem plan_foretells_pairTree :
    (plan endingLines .calm ⟨[utf8 "a", utf8 "b"], [], 2, ⟨false, true⟩⟩ pairTree).tree = pairTree ∧
    (plan endingLines .calm ⟨[utf8 "a", utf8 "b"], [], 2, ⟨false, true⟩⟩ pairTree).results.map
        (·.unformatted) =
      (run endingLines .calm ⟨[utf8 "a", utf8 "b"], [], 2, ⟨false, true⟩⟩ pairTree).results.map
        (·.unformatted) ∧
    (run endingLines .calm ⟨[utf8 "a", utf8 "b"], [], 2, ⟨false, true⟩⟩ pairTree).results.map
        (fun r => (r.path, r.entrypointReplaced, r.formatted)) =
      [(utf8 "a", true, true), (utf8 "b", true, true)] ∧
    (preview endingLines none (utf8 "a") pairTree).1 = .ok (utf8 "x") ∧
    (migrateFile endingLines ⟨false, false⟩ (utf8 "a") pairTree).tree.read (utf8 "a") =
      .ok (utf8 "x") := by
  have selected : Files.select pairTree [utf8 "a", utf8 "b"] [] = .ok [utf8 "a", utf8 "b"] := by
    rfl
  obtain ⟨-, -, planned, previewed⟩ := plan_foretells endingLines .calm (fun _ => False)
    ⟨[utf8 "a", utf8 "b"], [], 2, ⟨false, true⟩⟩ pairTree (fun _ => rfl) fun paths named => by
      obtain rfl := Except.ok.inj (selected.symm.trans named)
      exact apart_pairTree
  have shown : (preview endingLines none (utf8 "a") pairTree).1 = .ok (utf8 "x") := by
    rfl
  obtain ⟨unchanged, same⟩ := planned rfl
  exact ⟨unchanged, same, by rfl, shown, ((previewed _).2 _ shown).2⟩

end ClassUpgrade.Migration
