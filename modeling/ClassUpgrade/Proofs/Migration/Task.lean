/-
# Proofs.Migration.Task — what the migration of a file does to the files

A task changes the files in two ways: it writes, and it has a formatter run.
Both are named here (`Action`), each step of a task is given the action it
takes (`Stage.action?`), and `steps_tree` says that the files after any number
of steps are the actions of those steps performed in order. So a statement
about actions is one about the files, for every formatter.

`Reached` lists what is known when a task has come to a stage: one constructor
for each way to come there, with the files and the actions so far. A step keeps
it (`Reached.step`), hence so does a task (`reached_migrateFile`), and a task
is finished by its last step (`remaining_steps`). Every law of a migration is
read off the constructors for a finished task.
-/
import ClassUpgrade.Migration.Task
import ClassUpgrade.Proofs.Files.Tree

namespace ClassUpgrade.Migration

set_option autoImplicit false

open Document

/-! ## Actions -/

/-- What a task does to the files. -/
inductive Action where
  | write (path content : Text)
  | format (path : Text)
  deriving DecidableEq, Repr

/-- The files after an action; a write that fails leaves them as they are. -/
def Environment.perform (env : Environment) (tree : FileTree) : Action → FileTree
  | .write path content =>
      match env.write tree path content with
      | .ok tree' => tree'
      | .error _ => tree
  | .format path =>
      match env.formatter with
      | some formatter => (formatter path tree).1
      | none => tree

section Task

variable (env : Environment) (options : Options) (path : Text)

/-- The action of the step that a task takes next. -/
def Stage.action? : Stage → Option Action
  | .changed content _ => some (.write path content)
  | .written _ => if options.format && env.formatter.isSome then some (.format path) else none
  | _ => none

def Stage.actions : (count : Nat) → FileTree → Stage → List Action
  | 0, _, _ => []
  | count + 1, tree, stage =>
      let (tree', stage', _) := stage.step env options path tree
      (stage.action? env options path).toList ++ actions count tree' stage'

def actionsOf (tree : FileTree) : List Action :=
  Stage.actions env options path Stage.stepLimit tree .waiting

theorem tidy_of_unasked (r : FileResult FileError) (tree : FileTree)
    (unasked : (options.format && env.formatter.isSome) = false) :
    Stage.tidy env options path r tree = (tree, .finished r none, []) := by
  unfold Stage.tidy
  split
  · rfl
  · rename_i formatter formatter_eq
    rw [formatter_eq, Option.isSome_some, Bool.and_true] at unasked
    rw [unasked]
    rfl

theorem tidy_of_asked (r : FileResult FileError) (tree : FileTree) {formatter : Formatter}
    (asked : options.format = true) (formatter_eq : env.formatter = some formatter) :
    Stage.tidy env options path r tree =
      match formatter path tree with
      | (tree, none) => (tree, .finished { r with formatted := true } none, [])
      | (tree, some e) =>
          (tree, .finished { r with warning := e.message } none,
            [Stage.unformattedRecord path e]) := by
  unfold Stage.tidy
  rw [formatter_eq, asked]
  rfl

/-- Whether a written file is formatted, and by what. -/
theorem formatting_cases : (options.format && env.formatter.isSome) = false ∨
    ∃ formatter, options.format = true ∧ env.formatter = some formatter := by
  cases options.format <;> cases env.formatter <;> simp

theorem step_tree (tree : FileTree) (stage : Stage) :
    (stage.step env options path tree).1 =
      (stage.action? env options path).toList.foldl env.perform tree := by
  cases stage with
  | waiting | found | loaded _ | finished _ _ => rfl
  | changed content r =>
      simp only [Stage.step, Stage.save, Stage.action?, Option.toList, List.foldl,
        Environment.perform]
      split <;> rename_i outcome <;> rw [outcome]
  | written r =>
      simp only [Stage.step, Stage.action?]
      obtain unasked | ⟨formatter, asked, formatter_eq⟩ := formatting_cases env options
      · rw [tidy_of_unasked env options path r tree unasked, unasked]
        rfl
      · rw [tidy_of_asked env options path r tree asked formatter_eq, asked, formatter_eq]
        simp only [Option.isSome_some, Bool.and_self, ↓reduceIte, Option.toList, List.foldl,
          Environment.perform, formatter_eq]
        split <;> rename_i outcome <;> rw [outcome]

/-- **The files after steps are the actions of those steps, performed in order.** -/
theorem steps_tree (count : Nat) (tree : FileTree) (stage : Stage) :
    (Stage.steps env options path count tree stage).1 =
      (Stage.actions env options path count tree stage).foldl env.perform tree := by
  induction count generalizing tree stage with
  | zero => rfl
  | succ count ih =>
      rw [Stage.steps, Stage.actions, List.foldl_append, ← step_tree, ← ih]

/-! ## The stages of a task -/

/-- A write is due: the path names a file that can be read, its text `doc` is transformed into
another one, and the run is no dry run. -/
structure Due (tree : FileTree) (doc : Text) (t : Transformation) : Prop where
  found : ∃ old, tree.stat path = .ok (.file old)
  loaded : env.read tree path = .ok doc
  ran : (transform (env.template tree) doc).1 = .ok t
  differs : t.content ≠ doc
  live : options.dryRun = false

/-- A task that was begun with the files `tree` can have come to a stage with these files and
these actions. -/
inductive Reached (tree : FileTree) : Stage → FileTree → List Action → Prop
  | waiting : Reached tree .waiting tree []
  | found {old : Text} (found : tree.stat path = .ok (.file old)) : Reached tree .found tree []
  | loaded {old doc : Text} (found : tree.stat path = .ok (.file old))
      (loaded : env.read tree path = .ok doc) : Reached tree (.loaded doc) tree []
  | changed {doc : Text} {t : Transformation} (due : Due env options path tree doc t) :
      Reached tree (.changed t.content (.ofTransformation path doc t)) tree []
  | written {doc : Text} {t : Transformation} {tree' : FileTree}
      (due : Due env options path tree doc t) (wrote : env.write tree path t.content = .ok tree') :
      Reached tree (.written (.ofTransformation path doc t)) tree' [.write path t.content]
  /-- There was an error before anything was written. -/
  | stopped {e : FileError} (idle : ∀ doc t, ¬ Due env options path tree doc t) :
      Reached tree (.fail (.ofPath path) e) tree []
  /-- The text stays the same, or the run is a dry run. -/
  | settled {doc : Text} {t : Transformation} (idle : ∀ doc t, ¬ Due env options path tree doc t) :
      Reached tree (.finished (.ofTransformation path doc t) none) tree []
  | refused {doc reason : Text} {t : Transformation} (due : Due env options path tree doc t)
      (refused : env.write tree path t.content = .error reason) :
      Reached tree (.fail (.ofTransformation path doc t) (.unwritable path reason)) tree
        [.write path t.content]
  | plain {doc : Text} {t : Transformation} {tree' : FileTree}
      (due : Due env options path tree doc t) (wrote : env.write tree path t.content = .ok tree')
      (unasked : (options.format && env.formatter.isSome) = false) :
      Reached tree (.finished (.ofTransformation path doc t) none) tree' [.write path t.content]
  | formatted {doc : Text} {t : Transformation} {tree' tree'' : FileTree} {formatter : Formatter}
      (due : Due env options path tree doc t) (wrote : env.write tree path t.content = .ok tree')
      (asked : options.format = true) (formatter_eq : env.formatter = some formatter)
      (fine : formatter path tree' = (tree'', none)) :
      Reached tree
        (.finished { FileResult.ofTransformation path doc t with formatted := true } none)
        tree'' [.write path t.content, .format path]
  | warned {doc : Text} {t : Transformation} {tree' tree'' : FileTree} {formatter : Formatter}
      {e : FormatError}
      (due : Due env options path tree doc t) (wrote : env.write tree path t.content = .ok tree')
      (asked : options.format = true) (formatter_eq : env.formatter = some formatter)
      (failed : formatter path tree' = (tree'', some e)) :
      Reached tree
        (.finished { FileResult.ofTransformation path doc t with warning := e.message } none)
        tree'' [.write path t.content, .format path]

variable {env options path}

theorem reached_look {tree : FileTree} :
    Reached env options path tree (.look path tree) tree [] := by
  unfold Stage.look
  split
  · rename_i found
    exact .found found
  · rename_i missing
    refine .stopped fun doc t due => ?_
    obtain ⟨old, found⟩ := due.found
    exact missing old found

theorem reached_load {tree : FileTree} {old : Text} (found : tree.stat path = .ok (.file old)) :
    Reached env options path tree (.load env path tree) tree [] := by
  unfold Stage.load
  split
  · rename_i loaded
    exact .loaded found loaded
  · rename_i unreadable
    refine .stopped fun doc t due => ?_
    rw [due.loaded] at unreadable
    cases unreadable

theorem reached_rework {tree : FileTree} {old doc : Text}
    (found : tree.stat path = .ok (.file old)) (loaded : env.read tree path = .ok doc) :
    Reached env options path tree (Stage.rework env options path doc tree).1 tree [] := by
  unfold Stage.rework
  dsimp only
  split
  · rename_i failed
    refine .stopped fun doc' t due => ?_
    obtain rfl := Except.ok.inj (loaded.symm.trans due.loaded)
    rw [due.ran] at failed
    cases failed
  · rename_i t ran
    dsimp only
    split
    · rename_i changes
      rw [Bool.and_eq_true, Bool.not_eq_true'] at changes
      exact .changed ⟨⟨old, found⟩, loaded, ran, bne_iff_ne.mp changes.1, changes.2⟩
    · rename_i stays
      refine .settled fun doc' t' due => stays ?_
      -- What would be due is about the same document and the same transformation.
      obtain rfl := Except.ok.inj (loaded.symm.trans due.loaded)
      obtain rfl := Except.ok.inj (ran.symm.trans due.ran)
      rw [Bool.and_eq_true, Bool.not_eq_true']
      exact ⟨bne_iff_ne.mpr due.differs, due.live⟩

/-- **One step**: from a stage that a task can have come to, its next one. -/
theorem Reached.step {tree now : FileTree} {stage : Stage} {taken : List Action}
    (reached : Reached env options path tree stage now taken) :
    Reached env options path tree (stage.step env options path now).2.1
      (stage.step env options path now).1
      (taken ++ (stage.action? env options path).toList) := by
  cases reached with
  | waiting => exact reached_look
  | found found => exact reached_load found
  | loaded found loaded => exact reached_rework found loaded
  | changed due =>
      simp only [Stage.step, Stage.save, Stage.action?]
      split
      · rename_i refused
        exact .refused due refused
      · rename_i wrote
        exact .written due wrote
  | written due wrote =>
      simp only [Stage.step, Stage.action?]
      obtain unasked | ⟨formatter, asked, formatter_eq⟩ := formatting_cases env options
      · rw [tidy_of_unasked env options path _ now unasked, unasked]
        exact .plain due wrote unasked
      · rw [tidy_of_asked env options path _ now asked formatter_eq, asked, formatter_eq]
        split
        · rename_i fine
          exact .formatted due wrote asked formatter_eq fine
        · rename_i failed
          exact .warned due wrote asked formatter_eq failed
  -- A finished task stays where it is.
  | stopped idle => exact .stopped idle
  | settled idle => exact .settled idle
  | refused due refused => exact .refused due refused
  | plain due wrote unasked => exact .plain due wrote unasked
  | formatted due wrote asked formatter_eq fine =>
      exact .formatted due wrote asked formatter_eq fine
  | warned due wrote asked formatter_eq failed =>
      exact .warned due wrote asked formatter_eq failed

theorem Reached.steps {tree now : FileTree} {stage : Stage} {taken : List Action}
    (reached : Reached env options path tree stage now taken) (count : Nat) :
    Reached env options path tree (Stage.steps env options path count now stage).2.1
      (Stage.steps env options path count now stage).1
      (taken ++ Stage.actions env options path count now stage) := by
  induction count generalizing now stage taken with
  | zero => rw [Stage.actions, List.append_nil]; exact reached
  | succ count ih =>
      rw [Stage.actions, ← List.append_assoc]
      exact ih reached.step

/-! ## A task ends -/

/-- How many steps a task at a stage has left at most. -/
def Stage.remaining : Stage → Nat
  | .waiting => 5
  | .found => 4
  | .loaded _ => 3
  | .changed _ _ => 2
  | .written _ => 1
  | .finished _ _ => 0

variable (env options path)

theorem remaining_step (tree : FileTree) (stage : Stage) :
    (stage.step env options path tree).2.1.remaining ≤ stage.remaining - 1 := by
  cases stage with
  | waiting =>
      simp only [Stage.step, Stage.look]
      split <;> simp [Stage.remaining, Stage.fail]
  | found =>
      simp only [Stage.step, Stage.load]
      split <;> simp [Stage.remaining, Stage.fail]
  | loaded doc =>
      simp only [Stage.step, Stage.rework]
      split
      · simp [Stage.remaining, Stage.fail]
      · dsimp only
        split <;> simp [Stage.remaining]
  | changed content r =>
      simp only [Stage.step, Stage.save]
      split <;> simp [Stage.remaining, Stage.fail]
  | written r =>
      simp only [Stage.step]
      obtain unasked | ⟨formatter, asked, formatter_eq⟩ := formatting_cases env options
      · simp [tidy_of_unasked env options path r tree unasked, Stage.remaining]
      · rw [tidy_of_asked env options path r tree asked formatter_eq]
        split <;> simp [Stage.remaining]
  | finished r error => simp [Stage.step, Stage.remaining]

theorem remaining_steps (count : Nat) (tree : FileTree) (stage : Stage) :
    (Stage.steps env options path count tree stage).2.1.remaining ≤ stage.remaining - count := by
  induction count generalizing tree stage with
  | zero => exact Nat.le_refl _
  | succ count ih =>
      have first := remaining_step env options path tree stage
      have more := ih (stage.step env options path tree).1 (stage.step env options path tree).2.1
      exact Nat.le_trans more (by omega)

theorem finished_of_remaining {stage : Stage} (spent : stage.remaining = 0) :
    ∃ r error, stage = .finished r error := by
  cases stage with
  | finished r error => exact ⟨r, error, rfl⟩
  | _ => cases spent

theorem migrateFile_tree (tree : FileTree) :
    (migrateFile env options path tree).tree =
      (actionsOf env options path tree).foldl env.perform tree := by
  have performed := steps_tree env options path Stage.stepLimit tree .waiting
  unfold migrateFile actionsOf
  rw [← performed]
  split <;> rename_i last <;> rw [last]

/-- **A migration is a task run to its end**: the outcome is what the last stage says. -/
theorem reached_migrateFile (tree : FileTree) :
    Reached env options path tree
      (.finished (migrateFile env options path tree).result
        (migrateFile env options path tree).error)
      (migrateFile env options path tree).tree (actionsOf env options path tree) := by
  have start : Reached env options path tree .waiting tree [] := .waiting
  have reached := start.steps Stage.stepLimit
  have spent := remaining_steps env options path Stage.stepLimit tree .waiting
  unfold migrateFile actionsOf
  -- No step is left, so that the outcome is read off a finished stage and not made up.
  generalize Stage.steps env options path Stage.stepLimit tree .waiting = last at reached spent ⊢
  obtain ⟨now, stage, log⟩ := last
  obtain ⟨r, error, rfl⟩ := finished_of_remaining (Nat.le_zero.mp spent)
  exact reached

end Task

end ClassUpgrade.Migration
