/-
# Proofs.Migration.Account — a group accounts for every file

What a group records is what its files have contributed so far, in some order.
The contribution of a file can be read off where it stands (`Member.begun`,
`Member.wrote`, `Member.display`, `Member.handed`), a step of a file adds what
the step records to it (`Member.Sound.step`), and so the records of the whole
group are the contributions of its files after any number of steps, whatever
their order (`Group.Sound`). At the end a file has a result or was never begun.

* `Stage.Sound`: what is known of a result while a task is under way;
* `Loop.Fits`: the loop has handed over the files in front of it and no others;
* `sound_of_reaches`: the invariant holds whatever happens to a group.
-/
import ClassUpgrade.Proofs.Migration.Isolation

namespace ClassUpgrade.Migration

set_option autoImplicit false

open Document FileTree

/-! ## Results under way -/

namespace FileResult

/-- The result without what the formatter said. -/
def unformatted {ε : Type} (r : FileResult ε) : FileResult ε :=
  { r with formatted := false, warning := [] }

/-- The result tells what became of a document at the path. -/
def Tells (path : Text) (r : FileResult FileError) : Prop :=
  ∃ template doc t, (transform template doc).1 = .ok t ∧
    r.unformatted = .ofTransformation path doc t

/-- Whether a file with this result has been written. -/
def isWritten (options : Options) (r : FileResult FileError) : Bool :=
  !r.failed && r.changed && !options.dryRun

variable {path : Text} {r : FileResult FileError}

theorem Tells.path_eq (tells : r.Tells path) : r.path = path := by
  obtain ⟨template, doc, t, -, same⟩ := tells
  exact congrArg FileResult.path same

theorem Tells.failure_eq (tells : r.Tells path) : r.failure = none := by
  obtain ⟨template, doc, t, -, same⟩ := tells
  exact congrArg FileResult.failure same

end FileResult

/-- What is known of the result of a task at a stage. -/
def Stage.Sound (options : Options) (path : Text) : Stage → Prop
  | .waiting | .found | .loaded _ => True
  | .changed _ r | .written r => r.Tells path ∧ r.changed = true ∧ options.dryRun = false
  | .finished r error => r.path = path ∧ r.failure = error ∧ (error = none → r.Tells path)

/-- The path, if a task at this stage has written it. -/
def Stage.wrote (options : Options) (path : Text) : Stage → List Text
  | .written _ => [path]
  | .finished r _ => if r.isWritten options then [path] else []
  | _ => []

section Stage

variable {env : Environment} {options : Options} {path : Text} {tree : FileTree} {stage : Stage}

theorem Stage.sound_fail {e : FileError} :
    (Stage.fail (.ofPath path) e).Sound options path :=
  ⟨rfl, rfl, fun failed => by cases failed⟩

theorem Stage.wrote_fail {r : FileResult FileError} {e : FileError} :
    (Stage.fail r e).wrote options path = [] := by
  simp [Stage.fail, Stage.wrote, FileResult.isWritten, FileResult.failed, FileResult.failWith]

/-- What is said of a result stays true, and what a step writes is what has been written by the
time of the next one. -/
theorem Stage.Sound.step (sound : stage.Sound options path) :
    (stage.step env options path tree).2.1.Sound options path ∧
      (stage.step env options path tree).2.1.wrote options path =
        stage.wrote options path ++ stage.writes env path tree := by
  cases stage with
  | waiting =>
      simp only [Stage.step, Stage.look]
      split
      · exact ⟨trivial, rfl⟩
      · exact ⟨Stage.sound_fail, Stage.wrote_fail⟩
  | found =>
      simp only [Stage.step, Stage.load]
      split
      · exact ⟨trivial, rfl⟩
      · exact ⟨Stage.sound_fail, Stage.wrote_fail⟩
  | loaded doc =>
      simp only [Stage.step, Stage.rework]
      split
      · exact ⟨Stage.sound_fail, Stage.wrote_fail⟩
      · rename_i t ran
        have tells : (FileResult.ofTransformation path doc t).Tells path :=
          ⟨env.template tree, doc, t, ran, rfl⟩
        dsimp only
        split
        · rename_i changes
          rw [Bool.and_eq_true, Bool.not_eq_true'] at changes
          exact ⟨⟨tells, changes⟩, rfl⟩
        · rename_i stays
          refine ⟨⟨rfl, rfl, fun _ => tells⟩, ?_⟩
          have unwritten : (FileResult.ofTransformation path doc t).isWritten options = false := by
            rw [FileResult.isWritten, Bool.and_assoc, Bool.eq_false_iff.mpr stays, Bool.and_false]
          simp [Stage.wrote, Stage.writes, unwritten]
  | changed content r =>
      simp only [Stage.step, Stage.save, Stage.writes]
      cases env.write tree path content with
      | error reason =>
          exact ⟨⟨sound.1.path_eq, rfl, fun failed => by cases failed⟩, Stage.wrote_fail⟩
      | ok tree' => exact ⟨sound, rfl⟩
  | written r =>
      obtain ⟨tells, changed, live⟩ := sound
      have failure := tells.failure_eq
      have done : ∀ r', r'.unformatted = r.unformatted →
          (Stage.finished r' none).Sound options path ∧
            (Stage.finished r' none).wrote options path = [path] := by
        intro r' same
        have failure' : r'.failure = none := (congrArg FileResult.failure same).trans failure
        have changed' : r'.changed = true := (congrArg FileResult.changed same).trans changed
        refine ⟨⟨(congrArg FileResult.path same).trans tells.path_eq, failure', fun _ => ?_⟩, ?_⟩
        · obtain ⟨template, doc, t, ran, told⟩ := tells
          exact ⟨template, doc, t, ran, same.trans told⟩
        · simp [Stage.wrote, FileResult.isWritten, FileResult.failed, failure', changed', live]
      simp only [Stage.step]
      obtain unasked | ⟨formatter, asked, formatter_eq⟩ := formatting_cases env options
      · rw [tidy_of_unasked env options path r tree unasked]
        exact done r rfl
      · rw [tidy_of_asked env options path r tree asked formatter_eq]
        split
        · exact done _ rfl
        · exact done _ rfl
  | finished r error =>
      refine ⟨sound, ?_⟩
      simp [Stage.step, Stage.writes]

end Stage

/-! ## What a file has contributed -/

namespace Member

/-- The path, if the migration of the file was begun. -/
def begun (m : Member) : List Text :=
  match m.turn with
  | .pending | .launched => []
  | .running _ | .recorded _ _ | .shown _ => [m.path]
  | .ended => m.result.toList.map fun _ => m.path

/-- The path, if the file was written. -/
def wrote (options : Options) (m : Member) : List Text :=
  match m.turn with
  | .pending | .launched => []
  | .running stage => stage.wrote options m.path
  | .recorded _ _ | .shown _ | .ended =>
      m.result.toList.flatMap fun r => if r.isWritten options then [m.path] else []

/-- The result, if it was shown. -/
def display (m : Member) : List (FileResult FileError) :=
  match m.turn with
  | .shown _ | .ended => m.result.toList
  | _ => []

/-- The error, if it was handed in. -/
def handed (m : Member) : List FileError :=
  match m.turn with
  | .ended => m.result.toList.filterMap (·.failure)
  | _ => []

/-- What is known of a file where it stands. -/
inductive Sound (options : Options) (cancelled : Bool) : Member → Prop
  | pending {path : Text} : Sound options cancelled ⟨path, .pending, none⟩
  | launched {path : Text} : Sound options cancelled ⟨path, .launched, none⟩
  | running {path : Text} {stage : Stage} (sound : stage.Sound options path) :
      Sound options cancelled ⟨path, .running stage, none⟩
  | recorded {path : Text} {r : FileResult FileError} {error : Option FileError}
      (sound : (Stage.finished r error).Sound options path) :
      Sound options cancelled ⟨path, .recorded r error, some r⟩
  | shown {path : Text} {r : FileResult FileError} {error : Option FileError}
      (sound : (Stage.finished r error).Sound options path) :
      Sound options cancelled ⟨path, .shown error, some r⟩
  | declined {path : Text} (stopped : cancelled = true) :
      Sound options cancelled ⟨path, .ended, none⟩
  | ended {path : Text} {r : FileResult FileError} {error : Option FileError}
      (sound : (Stage.finished r error).Sound options path) :
      Sound options cancelled ⟨path, .ended, some r⟩

/-- What a file has contributed after a step is what it had before and what the step records. -/
structure Gains (options : Options) (m m' : Member) (gain : Ledger) : Prop where
  begun : m'.begun = m.begun ++ gain.begun
  written : m'.wrote options = m.wrote options ++ gain.written
  shown : m'.display = m.display ++ gain.shown
  errors : m'.handed = m.handed ++ gain.errors

variable {terms : Terms} {cancelled : Bool} {tree tree' : FileTree} {m m' : Member} {gain : Ledger}

theorem Sound.step (sound : m.Sound terms.options cancelled)
    (step : m.Step terms cancelled tree tree' m' gain) :
    m'.Sound terms.options cancelled ∧ m.Gains terms.options m' gain := by
  cases step with
  | decline stopped =>
      cases sound
      exact ⟨.declined stopped, ⟨rfl, rfl, rfl, rfl⟩⟩
  | begin going =>
      cases sound
      exact ⟨.running trivial, ⟨rfl, rfl, rfl, rfl⟩⟩
  | advance provided unfinished =>
      cases sound with
      | running sound => exact ⟨.running sound.step.1, ⟨rfl, sound.step.2, rfl, rfl⟩⟩
  | record =>
      cases sound with
      | running sound =>
          refine ⟨.recorded sound, ⟨rfl, ?_, rfl, rfl⟩⟩
          simp [Member.wrote, Stage.wrote, Ledger.empty]
  | display =>
      cases sound with
      | recorded sound => exact ⟨.shown sound, ⟨rfl, (List.append_nil _).symm, rfl, rfl⟩⟩
  | handIn =>
      cases sound with
      | @shown path r error sound =>
          refine ⟨.ended sound, ⟨rfl, (List.append_nil _).symm, (List.append_nil _).symm, ?_⟩⟩
          obtain ⟨-, rfl, -⟩ := sound
          cases failure : r.failure <;> simp [Member.handed, failure]

theorem Step.path_eq (step : m.Step terms cancelled tree tree' m' gain) : m'.path = m.path := by
  cases step <;> rfl

/-- A file that takes a step has been handed over. -/
theorem Step.not_pending (step : m.Step terms cancelled tree tree' m' gain) :
    m.turn ≠ .pending ∧ m'.turn ≠ .pending := by
  cases step <;> exact ⟨Turn.noConfusion, Turn.noConfusion⟩

theorem Sound.of_cancelled (sound : m.Sound terms.options cancelled) :
    m.Sound terms.options true := by
  cases sound with
  | pending => exact .pending
  | launched => exact .launched
  | running sound => exact .running sound
  | recorded sound => exact .recorded sound
  | shown sound => exact .shown sound
  | declined => exact .declined rfl
  | ended sound => exact .ended sound

end Member

/-! ## What a group has recorded -/

theorem perm_flatMap_set {α β : Type} {f : α → List β} {l : List α} {i : Nat} {a b : α}
    {gain : List β} (there : l[i]? = some a) (gains : f b = f a ++ gain) :
    ((l.set i b).flatMap f).Perm (l.flatMap f ++ gain) := by
  induction l generalizing i with
  | nil => cases there
  | cons first rest ih =>
      cases i with
      | zero =>
          obtain rfl : first = a := Option.some.inj there
          simp only [List.set_cons_zero, List.flatMap_cons, gains, List.append_assoc]
          exact List.perm_append_comm.append_left (f first)
      | succ i =>
          simp only [List.set_cons_succ, List.flatMap_cons, List.append_assoc]
          exact (ih there).append_left (f first)

theorem map_set_of_eq {α β : Type} {f : α → β} {l : List α} {i : Nat} {a b : α}
    (there : l[i]? = some a) (same : f b = f a) : (l.set i b).map f = l.map f := by
  induction l generalizing i with
  | nil => cases there
  | cons first rest ih =>
      cases i with
      | zero =>
          obtain rfl : first = a := Option.some.inj there
          rw [List.set_cons_zero, List.map_cons, List.map_cons, same]
      | succ i => rw [List.set_cons_succ, List.map_cons, List.map_cons, ih there]

theorem eq_or_getElem?_of_set {α : Type} {l : List α} {i j : Nat} {a b : α}
    (at_j : (l.set i b)[j]? = some a) : (j = i ∧ a = b) ∨ (j ≠ i ∧ l[j]? = some a) := by
  rw [List.getElem?_set] at at_j
  split at at_j
  · rename_i here
    split at at_j
    · exact .inl ⟨here.symm, (Option.some.inj at_j).symm⟩
    · cases at_j
  · rename_i elsewhere
    exact .inr ⟨Ne.symm elsewhere, at_j⟩

namespace Ledger

/-- The records are what the files have contributed. -/
structure Accounts (ledger : Ledger) (options : Options) (members : List Member) : Prop where
  begun : ledger.begun.Perm (members.flatMap Member.begun)
  written : ledger.written.Perm (members.flatMap (Member.wrote options))
  shown : ledger.shown.Perm (members.flatMap Member.display)
  errors : ledger.errors.Perm (members.flatMap Member.handed)

variable {ledger gain : Ledger} {options : Options} {members : List Member} {i : Nat}
  {m m' : Member}

theorem Accounts.add (accounts : ledger.Accounts options members) (there : members[i]? = some m)
    (gains : m.Gains options m' gain) :
    (ledger.append gain).Accounts options (members.set i m') where
  begun := (accounts.begun.append_right _).trans (perm_flatMap_set there gains.begun).symm
  written := (accounts.written.append_right _).trans (perm_flatMap_set there gains.written).symm
  shown := (accounts.shown.append_right _).trans (perm_flatMap_set there gains.shown).symm
  errors := (accounts.errors.append_right _).trans (perm_flatMap_set there gains.errors).symm

@[simp] theorem append_empty (ledger : Ledger) : ledger.append .empty = ledger := by
  simp [append, empty]

end Ledger

/-- The loop has handed over the files in front of the next one and no others. -/
def Loop.Fits (cancelled : Bool) (members : List Member) : Loop → Prop
  | .looking next =>
      next ≤ members.length ∧
        ∀ i m, members[i]? = some m → (m.turn = .pending ↔ next ≤ i)
  | .handing next =>
      next < members.length ∧
        ∀ i m, members[i]? = some m → (m.turn = .pending ↔ next ≤ i)
  | .stopped => cancelled = true ∨ ∀ m ∈ members, m.turn ≠ .pending

section Loop

variable {members : List Member} {i : Nat} {m m' : Member}

theorem pending_iff_of_set {next : Nat} (there : members[i]? = some m) (moved : m.turn ≠ .pending)
    (moved' : m'.turn ≠ .pending)
    (fits : ∀ i m, members[i]? = some m → (m.turn = .pending ↔ next ≤ i)) :
    ∀ j n, (members.set i m')[j]? = some n → (n.turn = .pending ↔ next ≤ j) := by
  intro j n at_j
  obtain ⟨rfl, rfl⟩ | ⟨-, at_j⟩ := eq_or_getElem?_of_set at_j
  · exact iff_of_false moved' fun after => moved ((fits j m there).mpr after)
  · exact fits j n at_j

theorem Loop.Fits.work {cancelled : Bool} {loop : Loop} (fits : loop.Fits cancelled members)
    (there : members[i]? = some m) (moved : m.turn ≠ .pending) (moved' : m'.turn ≠ .pending) :
    loop.Fits cancelled (members.set i m') := by
  cases loop with
  | looking next =>
      obtain ⟨le, pending⟩ := fits
      refine ⟨?_, pending_iff_of_set there moved moved' pending⟩
      rwa [List.length_set]
  | handing next =>
      obtain ⟨lt, pending⟩ := fits
      refine ⟨?_, pending_iff_of_set there moved moved' pending⟩
      rwa [List.length_set]
  | stopped =>
      refine fits.imp_right fun none_left n mem => ?_
      obtain rest | rfl := List.mem_or_eq_of_mem_set mem
      · exact none_left n rest
      · exact moved'

end Loop

/-- The invariant of a group of files. -/
structure Group.Sound (options : Options) (paths : List Text) (g : Group) : Prop where
  paths_eq : g.members.map Member.path = paths
  members : ∀ m ∈ g.members, m.Sound options g.cancelled
  loop : g.loop.Fits g.cancelled g.members
  accounts : g.ledger.Accounts options g.members

section Group

variable {terms : Terms} {paths : List Text} {tree : FileTree} {g g' : Group}

theorem sound_start (options : Options) (paths : List Text) (tree : FileTree) :
    (Group.start paths tree).Sound options paths := by
  have pending : ∀ m ∈ (Group.start paths tree).members, ∃ path, m = ⟨path, .pending, none⟩ := by
    intro m mem
    obtain ⟨path, -, rfl⟩ := List.mem_map.mp mem
    exact ⟨path, rfl⟩
  have nothing : ∀ {β : Type} (f : Member → List β), (∀ path, f ⟨path, .pending, none⟩ = []) →
      (Group.start paths tree).members.flatMap f = [] := by
    intro β f none_yet
    refine List.flatMap_eq_nil_iff.mpr fun m mem => ?_
    obtain ⟨path, rfl⟩ := pending m mem
    exact none_yet path
  refine ⟨?_, fun m mem => ?_, ⟨Nat.zero_le _, fun i m there => ?_⟩, ⟨?_, ?_, ?_, ?_⟩⟩
  · simp [Group.start, Function.comp_def]
  · obtain ⟨path, rfl⟩ := pending m mem
    exact .pending
  · obtain ⟨path, rfl⟩ := pending m (List.mem_of_getElem? there)
    exact iff_of_true rfl (Nat.zero_le i)
  all_goals
    rw [nothing _ fun path => rfl]
    exact .nil

/-- A file that the loop is about to hand over has nothing done about it. -/
theorem Group.Sound.next_pending (sound : g.Sound terms.options paths) {next : Nat} {m : Member}
    (handing : g.loop = .handing next) (there : g.members[next]? = some m) :
    ∃ path, m = ⟨path, .pending, none⟩ := by
  have fits := sound.loop
  rw [handing] at fits
  have waiting := (fits.2 next m there).mpr (Nat.le_refl next)
  have known := sound.members m (List.mem_of_getElem? there)
  obtain ⟨path, turn, result⟩ := m
  obtain rfl : turn = .pending := waiting
  cases known
  exact ⟨path, rfl⟩

theorem Group.Sound.step (sound : g.Sound terms.options paths) (step : Group.Step terms g g') :
    g'.Sound terms.options paths := by
  have keeps := sound
  obtain ⟨paths_eq, members, loop, accounts⟩ := sound
  cases step with
  | cancel =>
      refine ⟨paths_eq, fun m mem => (members m mem).of_cancelled, ?_, accounts⟩
      dsimp only
      cases at_loop : g.loop with
      | looking next => rw [at_loop] at loop; exact loop
      | handing next => rw [at_loop] at loop; exact loop
      | stopped => exact .inl rfl
  | turnTo looking more going =>
      rw [looking] at loop
      exact ⟨paths_eq, members, ⟨more, loop.2⟩, accounts⟩
  | stop looking done =>
      rw [looking] at loop
      refine ⟨paths_eq, members, ?_, accounts⟩
      rcases done with all | stopped
      · refine .inr fun m mem pending => ?_
        obtain ⟨i, there⟩ := List.mem_iff_getElem?.mp mem
        have behind := (loop.2 i m there).mp pending
        have before : i < g.members.length := (List.getElem?_eq_some_iff.mp there).choose
        exact absurd (Nat.le_trans all behind) (Nat.not_le_of_gt before)
      · exact .inl stopped
  | @handOver next m handing free there =>
      obtain ⟨path, rfl⟩ := keeps.next_pending handing there
      rw [handing] at loop
      obtain ⟨inside, pending⟩ := loop
      have same : (g.members.set next ⟨path, .launched, none⟩).map Member.path =
          g.members.map Member.path := map_set_of_eq there rfl
      refine ⟨same.trans paths_eq, fun n n_mem => ?_, ⟨?_, fun j n at_j => ?_⟩, ?_⟩
      · obtain rest | rfl := List.mem_or_eq_of_mem_set n_mem
        · exact members n rest
        · exact .launched
      · rw [List.length_set]
        exact inside
      · obtain ⟨rfl, rfl⟩ | ⟨elsewhere, at_j⟩ := eq_or_getElem?_of_set at_j
        · exact iff_of_false Turn.noConfusion (Nat.not_succ_le_self j)
        · rw [pending j n at_j]
          omega
      · have gained : (g.ledger.append .empty).Accounts terms.options
            (g.members.set next ⟨path, .launched, none⟩) :=
          accounts.add there ⟨rfl, rfl, rfl, rfl⟩
        rwa [Ledger.append_empty] at gained
  | work there step =>
      have mem := List.mem_of_getElem? there
      obtain ⟨sound', gains⟩ := (members _ mem).step step
      refine ⟨(map_set_of_eq there step.path_eq).trans paths_eq, fun n n_mem => ?_,
        loop.work there step.not_pending.1 step.not_pending.2, accounts.add there gains⟩
      obtain rest | rfl := List.mem_or_eq_of_mem_set n_mem
      · exact members n rest
      · exact sound'

/-- **The invariant of a group holds whatever happens to it.** -/
theorem sound_of_reaches (reaches : Group.Reaches terms (.start paths tree) g) :
    g.Sound terms.options paths := by
  induction reaches with
  | refl => exact sound_start terms.options paths tree
  | tail _ step ih => exact ih.step step

end Group

end ClassUpgrade.Migration
