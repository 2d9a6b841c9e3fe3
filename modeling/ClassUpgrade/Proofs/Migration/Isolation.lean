/-
# Proofs.Migration.Isolation — a task touches its own file and sees no other

What a task does depends on the file at its path, on the template, and on the
formatter, and all that it changes is that file. Both halves are about one step
of a task, whatever happened to the files before it:

* `step_frame`: the files after a step agree with those before it off the file
  that the path names;
* `step_agree`: in two trees that agree off files which are nothing to the task
  (`Detached`), a step comes to the same stage and writes the same.

The shape of the tree never changes, as long as formatters rewrite files in
place. So a path leads to the same location all the time, and a task that found
its file still has it when it writes.

`steps_settle` is what a task comes to when it is left alone: the outcome that
a migration gives.
-/
import ClassUpgrade.Migration.Group
import ClassUpgrade.Proofs.Files.Agreement
import ClassUpgrade.Proofs.Migration.Effects

namespace ClassUpgrade.Migration

set_option autoImplicit false

open Document FileTree

/-! ## Formatters -/

/-- A formatter that rewrites the file it is given in place: nothing else changes, and the file is
still a file afterwards. A formatter that put a directory there would give other paths a way
through it. -/
structure Formatter.InPlace (formatter : Formatter) : Prop where
  confined : formatter.Confined
  stays : ∀ path tree l, tree.Names path l →
    ∃ content, (formatter path tree).1.node? l = some (.file content)

/-- A formatter that touches only the file it is given: it rewrites it in place, and does so
whatever the others of `files` hold. -/
structure Formatter.KeepsTo (formatter : Formatter) (files : Location → Prop) : Prop where
  inPlace : formatter.InPlace
  blind : ∀ path a b l, a.Names path l → AgreeOff (fun l' => files l' ∧ l' ≠ l) a b →
    (formatter path a).2 = (formatter path b).2 ∧
      (formatter path a).1.node? l = (formatter path b).1.node? l

theorem Formatter.InPlace.frame {formatter : Formatter} (inPlace : formatter.InPlace) {path : Text}
    {tree : FileTree} (named : ∃ l, tree.Names path l) :
    AgreeOff (tree.Names path) (formatter path tree).1 tree := by
  obtain ⟨place, names⟩ := named
  refine ⟨fun l => ?_, fun l off => ?_⟩
  · by_cases here : l = place
    · subst here
      obtain ⟨content, standing⟩ := inPlace.stays path tree l names
      obtain ⟨-, old, standing'⟩ := names
      rw [standing, standing']
      rfl
    · have elsewhere : tree.locate path ≠ .ok l := fun located =>
        here (Except.ok.inj (located.symm.trans names.1))
      rw [inPlace.confined path tree l elsewhere]
  · refine inPlace.confined path tree l fun located => off ?_
    obtain rfl := Except.ok.inj (located.symm.trans names.1)
    exact names

/-! ## One step -/

/-- A task at this stage has found its file and not yet come to an end. -/
def Stage.HoldsFile : Stage → Prop
  | .found | .loaded _ | .changed _ _ | .written _ => True
  | .waiting | .finished _ _ => False

section Step

variable {env : Environment} {options : Options} {path : Text} {tree : FileTree} {stage : Stage}

theorem holdsFile_step (holds : stage.HoldsFile → ∃ l, tree.Names path l)
    (holds' : (stage.step env options path tree).2.1.HoldsFile) : ∃ l, tree.Names path l := by
  cases stage with
  | waiting =>
      simp only [Stage.step, Stage.look] at holds'
      split at holds'
      · rename_i found
        exact exists_names_iff.mpr ⟨_, found⟩
      · cases holds'
  | finished r error => cases holds'
  | found | loaded doc | changed content r | written r => exact holds trivial

/-- **A step touches the file that the path names and nothing else.** -/
theorem step_frame (inPlace : ∀ formatter, env.formatter = some formatter → formatter.InPlace)
    (holds : stage.HoldsFile → ∃ l, tree.Names path l) :
    AgreeOff (tree.Names path) (stage.step env options path tree).1 tree := by
  cases stage with
  | waiting | found | loaded doc | finished r error => exact .refl _ _
  | changed content r =>
      simp only [Stage.step, Stage.save]
      split
      · exact .refl _ _
      · rename_i wrote
        exact agreeOff_of_write (holds trivial) (Environment.write_ok wrote)
  | written r =>
      simp only [Stage.step]
      obtain unasked | ⟨formatter, asked, formatter_eq⟩ := formatting_cases env options
      · rw [tidy_of_unasked env options path r tree unasked]
        exact .refl _ _
      · have frame := (inPlace formatter formatter_eq).frame (holds trivial)
        rw [tidy_of_asked env options path r tree asked formatter_eq]
        split
        · rename_i outcome
          rwa [outcome] at frame
        · rename_i outcome
          rwa [outcome] at frame

end Step

/-! ## Two trees -/

/-- The files `others` are nothing to a task: they are not the file at its path and not the
template, and its formatter has no eyes for them. -/
structure Detached (env : Environment) (tree : FileTree) (path : Text) (others : Location → Prop) :
    Prop where
  own : ∀ l, tree.locate path = .ok l → ¬ others l
  template : env.templatePath ≠ [] → ∀ l, tree.locate env.templatePath = .ok l → ¬ others l
  inPlace : ∀ formatter, env.formatter = some formatter → formatter.InPlace
  blind : ∀ formatter, env.formatter = some formatter → ∀ a b l, SameShape a tree →
    a.Names path l → AgreeOff others a b →
      (formatter path a).2 = (formatter path b).2 ∧
        (formatter path a).1.node? l = (formatter path b).1.node? l

section Detached

variable {env : Environment} {options : Options} {path : Text} {others : Location → Prop}
  {a b : FileTree}

theorem Detached.of_agree {ls : Location → Prop} (detached : Detached env a path others)
    (agree : AgreeOff ls a b) : Detached env b path others where
  own := fun l located => detached.own l (agree.locate path ▸ located)
  template := fun given l located =>
    detached.template given l (agree.locate env.templatePath ▸ located)
  inPlace := detached.inPlace
  blind := fun formatter given a' b' l shape => detached.blind formatter given a' b' l fun l' =>
    (shape l').trans (agree.shape l').symm

theorem Detached.template_eq (detached : Detached env a path others) (agree : AgreeOff others a b) :
    env.template a = env.template b := by
  unfold Environment.template Environment.read
  cases given : env.templatePath with
  | nil => rfl
  | cons c rest =>
      have off := detached.template (by rw [given]; exact List.cons_ne_nil c rest)
      rw [given] at off
      rw [agree.read off]

theorem Detached.look_eq (detached : Detached env a path others) (agree : AgreeOff others a b) :
    Stage.look path a = Stage.look path b := by
  unfold Stage.look
  rw [agree.stat detached.own]

theorem Detached.load_eq (detached : Detached env a path others) (agree : AgreeOff others a b) :
    Stage.load env path a = Stage.load env path b := by
  unfold Stage.load Environment.read
  rw [agree.read detached.own]

theorem Detached.save_agree (agree : AgreeOff others a b) (named : ∃ l, a.Names path l)
    (content : Text) (r : FileResult FileError) :
    (Stage.save env path content r a).2 = (Stage.save env path content r b).2 ∧
      AgreeOff others (Stage.save env path content r a).1 (Stage.save env path content r b).1 := by
  unfold Stage.save Environment.write
  cases env.writeFault path with
  | some reason => exact ⟨rfl, agree⟩
  | none =>
      have named' : ∃ l, b.Names path l := named.imp fun l => agree.names_iff.mp
      obtain ⟨a', wrote⟩ := exists_write named content
      obtain ⟨b', wrote'⟩ := exists_write named' content
      simp only [wrote, wrote']
      refine ⟨trivial, agree.through (agreeOff_of_write named wrote)
        ((agreeOff_of_write named' wrote').mono fun l => agree.names_iff.mpr) fun l names => ?_⟩
      rw [node?_written names wrote, node?_written (agree.names_iff.mp names) wrote']

theorem Detached.tidy_agree (detached : Detached env a path others) (agree : AgreeOff others a b)
    (named : ∃ l, a.Names path l) (r : FileResult FileError) :
    (Stage.tidy env options path r a).2 = (Stage.tidy env options path r b).2 ∧
      AgreeOff others (Stage.tidy env options path r a).1
        (Stage.tidy env options path r b).1 := by
  obtain unasked | ⟨formatter, asked, formatter_eq⟩ := formatting_cases env options
  · rw [tidy_of_unasked env options path r a unasked, tidy_of_unasked env options path r b unasked]
    exact ⟨rfl, agree⟩
  · have inPlace := detached.inPlace formatter formatter_eq
    have named' : ∃ l, b.Names path l := named.imp fun l => agree.names_iff.mp
    have errors : (formatter path a).2 = (formatter path b).2 := by
      obtain ⟨l, names⟩ := named
      exact (detached.blind formatter formatter_eq a b l (fun _ => rfl) names agree).1
    have agree' : AgreeOff others (formatter path a).1 (formatter path b).1 :=
      agree.through (inPlace.frame named)
        ((inPlace.frame named').mono fun l => agree.names_iff.mpr) fun l names =>
          (detached.blind formatter formatter_eq a b l (fun _ => rfl) names agree).2
    rw [tidy_of_asked env options path r a asked formatter_eq,
      tidy_of_asked env options path r b asked formatter_eq]
    generalize formatter path a = outcome at errors agree' ⊢
    generalize formatter path b = outcome' at errors agree' ⊢
    obtain ⟨a', error⟩ := outcome
    obtain ⟨b', error'⟩ := outcome'
    obtain rfl : error = error' := errors
    cases error with
    | none => exact ⟨rfl, agree'⟩
    | some e => exact ⟨rfl, agree'⟩

/-- **A step does not see the files that are nothing to the task**: it comes to the same stage
with the same records, and leaves the same files as far as they were the same. -/
theorem step_agree (detached : Detached env a path others) (agree : AgreeOff others a b)
    {stage : Stage} (holds : stage.HoldsFile → ∃ l, a.Names path l) :
    (stage.step env options path a).2 = (stage.step env options path b).2 ∧
      AgreeOff others (stage.step env options path a).1 (stage.step env options path b).1 := by
  cases stage with
  | waiting =>
      simp only [Stage.step, detached.look_eq agree]
      exact ⟨trivial, agree⟩
  | found =>
      simp only [Stage.step, detached.load_eq agree]
      exact ⟨trivial, agree⟩
  | loaded doc =>
      simp only [Stage.step, Stage.rework, detached.template_eq agree]
      exact ⟨trivial, agree⟩
  | changed content r => exact Detached.save_agree agree (holds trivial) content r
  | written r => exact detached.tidy_agree agree (holds trivial) r
  | finished r error => exact ⟨rfl, agree⟩

end Detached

/-! ## A task left alone -/

section Alone

variable (env : Environment) (options : Options) (path : Text)

theorem steps_cons (count : Nat) (tree : FileTree) (stage : Stage) :
    let first := stage.step env options path tree
    let more := Stage.steps env options path count first.1 first.2.1
    Stage.steps env options path (count + 1) tree stage =
      (more.1, more.2.1, first.2.2 ++ more.2.2) :=
  rfl

theorem steps_add (count more : Nat) (tree : FileTree) (stage : Stage) :
    let before := Stage.steps env options path count tree stage
    let after := Stage.steps env options path more before.1 before.2.1
    Stage.steps env options path (count + more) tree stage =
      (after.1, after.2.1, before.2.2 ++ after.2.2) := by
  induction count generalizing tree stage with
  | zero => simp [Stage.steps]
  | succ count ih => simp only [Nat.succ_add, steps_cons, ih, List.append_assoc]

theorem steps_succ (count : Nat) (tree : FileTree) (stage : Stage) :
    let before := Stage.steps env options path count tree stage
    let after := before.2.1.step env options path before.1
    Stage.steps env options path (count + 1) tree stage =
      (after.1, after.2.1, before.2.2 ++ after.2.2) := by
  rw [steps_add env options path count 1 tree stage]
  simp only [Stage.steps, List.append_nil]

theorem steps_of_finished (count : Nat) (tree : FileTree) (r : FileResult FileError)
    (error : Option FileError) :
    Stage.steps env options path count tree (.finished r error) =
      (tree, .finished r error, []) := by
  induction count with
  | zero => rfl
  | succ count ih => simp only [steps_cons, Stage.step, ih, List.append_nil]

variable {env options path}

/-- A migration takes the steps of its task. -/
theorem steps_migrateFile (tree : FileTree) :
    Stage.steps env options path Stage.stepLimit tree .waiting =
      ((migrateFile env options path tree).tree,
        .finished (migrateFile env options path tree).result
          (migrateFile env options path tree).error,
        (migrateFile env options path tree).log) := by
  have spent := remaining_steps env options path Stage.stepLimit tree .waiting
  unfold migrateFile
  generalize Stage.steps env options path Stage.stepLimit tree .waiting = last at spent ⊢
  obtain ⟨now, stage, log⟩ := last
  obtain ⟨r, error, rfl⟩ := finished_of_remaining (Nat.le_zero.mp spent)
  rfl

/-- **A task that has come to its end by itself has come to what a migration gives.** -/
theorem steps_settle {count : Nat} {tree now : FileTree} {r : FileResult FileError}
    {error : Option FileError} {log : List Log.Record}
    (settled : Stage.steps env options path count tree .waiting = (now, .finished r error, log)) :
    migrateFile env options path tree = ⟨now, r, error, log⟩ := by
  -- Both numbers of steps come to an end, so that adding one to the other changes neither.
  have sooner := steps_add env options path count Stage.stepLimit tree .waiting
  have later := steps_add env options path Stage.stepLimit count tree .waiting
  rw [Nat.add_comm, sooner] at later
  simp only [settled, steps_migrateFile, steps_of_finished, List.append_nil, Prod.mk.injEq,
    Stage.finished.injEq] at later
  obtain ⟨rfl, ⟨rfl, rfl⟩, rfl⟩ := later
  rfl

theorem steps_frame (inPlace : ∀ formatter, env.formatter = some formatter → formatter.InPlace)
    (count : Nat) (tree : FileTree) :
    AgreeOff (tree.Names path) (Stage.steps env options path count tree .waiting).1 tree ∧
      ((Stage.steps env options path count tree .waiting).2.1.HoldsFile →
        ∃ l, tree.Names path l) := by
  induction count with
  | zero => exact ⟨.refl _ _, fun holds => by cases holds⟩
  | succ count ih =>
      obtain ⟨agree, holds⟩ := ih
      rw [steps_succ]
      generalize Stage.steps env options path count tree .waiting = before at agree holds ⊢
      obtain ⟨now, stage, log⟩ := before
      have holds_now : stage.HoldsFile → ∃ l, now.Names path l := fun held =>
        (holds held).imp fun l => agree.names_iff.mpr
      have frame : AgreeOff (now.Names path) (stage.step env options path now).1 now :=
        step_frame inPlace holds_now
      refine ⟨(frame.mono fun l => agree.names_iff.mp).trans agree, fun held => ?_⟩
      exact (holdsFile_step holds_now held).imp fun l => agree.names_iff.mp

end Alone

end ClassUpgrade.Migration
