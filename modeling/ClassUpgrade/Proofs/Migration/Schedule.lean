/-
# Proofs.Migration.Schedule — a group comes to its end

A group that is not over can go on, and each of its steps but a cancellation
uses up some of what it has left to do (`Group.rank`). So whatever happened to
a group, it can be brought to its end (`exists_completion`): no task waits for
another, and a free place is always found once the tasks in flight are over.

To migrate the files one after the other is one way to bring it there: while
one file is in flight the loop waits, and a cancellation falls between a result
that was shown and the next file. What `run` reports is therefore among the
reports that the steps allow (`runs_run`).
-/
import ClassUpgrade.Proofs.Migration.Account

namespace ClassUpgrade.Migration

set_option autoImplicit false

open Document FileTree

/-! ## What is left to do -/

/-- How many steps a file has left at most. -/
def Turn.rank : Turn → Nat
  | .pending => 10
  | .launched => 9
  | .running stage => stage.remaining + 3
  | .recorded _ _ => 2
  | .shown _ => 1
  | .ended => 0

/-- How many steps the loop of a group of `count` files has left at most. -/
def Loop.rank (count : Nat) : Loop → Nat
  | .looking next => 2 * (count - next) + 1
  | .handing next => 2 * (count - next)
  | .stopped => 0

def ranks (members : List Member) : Nat := members.foldr (fun m left => m.turn.rank + left) 0

/-- How many steps a group has left at most. -/
def Group.rank (g : Group) : Nat := g.loop.rank g.members.length + ranks g.members

theorem ranks_set {members : List Member} {i : Nat} {m : Member} (m' : Member)
    (there : members[i]? = some m) :
    ranks (members.set i m') + m.turn.rank = ranks members + m'.turn.rank := by
  induction members generalizing i with
  | nil => cases there
  | cons first rest ih =>
      cases i with
      | zero =>
          obtain rfl : first = m := Option.some.inj there
          simp only [ranks, List.set_cons_zero, List.foldr_cons]
          omega
      | succ i =>
          have later := ih there
          simp only [ranks, List.set_cons_succ, List.foldr_cons] at later ⊢
          omega

section Rank

variable {terms : Terms} {paths : List Text} {g g' : Group}

theorem Member.Step.rank_lt {cancelled : Bool} {tree tree' : FileTree} {m m' : Member}
    {gain : Ledger} (step : m.Step terms cancelled tree tree' m' gain) :
    m'.turn.rank < m.turn.rank := by
  cases step with
  | decline | begin | record | display | handIn => simp [Turn.rank, Stage.remaining]
  | @advance path result stage env provided unfinished =>
      have spent := remaining_step env terms.options path tree stage
      have left : stage.remaining ≠ 0 := by
        intro none_left
        obtain ⟨r, error, rfl⟩ := finished_of_remaining none_left
        cases unfinished
      simp only [Turn.rank]
      omega

/-- **Every step but a cancellation uses up what a group has left to do.** -/
theorem Group.Sound.rank_lt (sound : g.Sound terms.options paths) (step : Group.Step terms g g')
    (moves : g'.loop ≠ g.loop ∨ g'.members ≠ g.members) :
    g'.rank < g.rank ∧ g'.cancelled = g.cancelled := by
  cases step with
  | cancel => exact absurd moves (by simp)
  | turnTo looking more going =>
      refine ⟨?_, rfl⟩
      simp only [Group.rank, looking, Loop.rank]
      omega
  | stop looking done =>
      refine ⟨?_, rfl⟩
      simp only [Group.rank, looking, Loop.rank]
      omega
  | @handOver next m handing free there =>
      refine ⟨?_, rfl⟩
      obtain ⟨path, rfl⟩ := sound.next_pending handing there
      have inside : next < g.members.length := (List.getElem?_eq_some_iff.mp there).choose
      have less := ranks_set ⟨path, .launched, none⟩ there
      simp only [Group.rank, handing, Loop.rank, List.length_set, Turn.rank] at less ⊢
      omega
  | @work i m m' tree' gain there step =>
      refine ⟨?_, rfl⟩
      have less := ranks_set m' there
      have := step.rank_lt
      simp only [Group.rank, List.length_set]
      omega

theorem Stage.exists_of_isFinished {stage : Stage} (finished : stage.isFinished = true) :
    ∃ r error, stage = .finished r error := by
  cases stage with
  | finished r error => exact ⟨r, error, rfl⟩
  | _ => cases finished

theorem Member.exists_step (terms : Terms) (cancelled : Bool) (tree : FileTree) {m : Member}
    (inFlight : m.turn.inFlight = true) :
    ∃ tree' m' gain, m.Step terms cancelled tree tree' m' gain := by
  obtain ⟨path, turn, result⟩ := m
  cases turn with
  | pending | ended => cases inFlight
  | launched =>
      cases cancelled with
      | true => exact ⟨_, _, _, .decline rfl⟩
      | false => exact ⟨_, _, _, .begin rfl⟩
  | running stage =>
      cases finished : stage.isFinished with
      | false => exact ⟨_, _, _, .advance .whole finished⟩
      | true =>
          obtain ⟨r, error, rfl⟩ := Stage.exists_of_isFinished finished
          exact ⟨_, _, _, .record⟩
  | recorded r error => exact ⟨_, _, _, .display⟩
  | shown error => exact ⟨_, _, _, .handIn⟩

/-- **A group that is not over can go on**: a file in flight can, and otherwise the loop. -/
theorem Group.Sound.exists_step (sound : g.Sound terms.options paths) (room : 0 < terms.limit)
    (going : ¬ g.IsOver) :
    ∃ g', Group.Step terms g g' ∧ (g'.loop ≠ g.loop ∨ g'.members ≠ g.members) := by
  by_cases busy : ∃ m ∈ g.members, m.turn.inFlight = true
  · obtain ⟨m, mem, inFlight⟩ := busy
    obtain ⟨i, there⟩ := List.mem_iff_getElem?.mp mem
    obtain ⟨tree', m', gain, step⟩ := Member.exists_step terms g.cancelled g.tree inFlight
    refine ⟨_, .work there step, .inr fun same => ?_⟩
    have inside : i < g.members.length := (List.getElem?_eq_some_iff.mp there).choose
    have unmoved := List.getElem?_set_self (a := m') inside
    rw [show g.members.set i m' = g.members from same, there] at unmoved
    obtain rfl := Option.some.inj unmoved
    exact Nat.lt_irrefl _ step.rank_lt
  · have idle : ∀ m ∈ g.members, m.turn.inFlight = false := fun m mem =>
      Bool.eq_false_iff.mpr fun inFlight => busy ⟨m, mem, inFlight⟩
    cases at_loop : g.loop with
    | stopped => exact absurd ⟨at_loop, idle⟩ going
    | looking next =>
        by_cases done : g.members.length ≤ next ∨ g.cancelled = true
        · exact ⟨_, .stop at_loop done, .inl Loop.noConfusion⟩
        · obtain ⟨more, live⟩ := not_or.mp done
          exact ⟨_, .turnTo at_loop (Nat.lt_of_not_le more) (Bool.eq_false_iff.mpr live),
            .inl Loop.noConfusion⟩
    | handing next =>
        have free : g.inFlight < terms.limit := by
          rwa [Group.inFlight, List.countP_eq_zero.mpr fun m mem => by simp [idle m mem]]
        have fits := sound.loop
        rw [at_loop] at fits
        exact ⟨_, .handOver at_loop free (List.getElem?_eq_getElem fits.1), .inl Loop.noConfusion⟩

/-- **Whatever happened to a group, it can be brought to its end** without being cancelled on the
way there. -/
theorem Group.Sound.exists_completion (room : 0 < terms.limit) (g : Group)
    (sound : g.Sound terms.options paths) :
    ∃ g', Group.Reaches terms g g' ∧ g'.IsOver ∧ g'.cancelled = g.cancelled := by
  by_cases ended : g.IsOver
  · exact ⟨g, .refl, ended, rfl⟩
  · obtain ⟨next, step, moves⟩ := sound.exists_step room ended
    obtain ⟨less, unchanged⟩ := sound.rank_lt step moves
    obtain ⟨last, reaches, ended, same⟩ := exists_completion room next (sound.step step)
    exact ⟨last, .head step reaches, ended, same.trans unchanged⟩
termination_by g.rank

end Rank

/-! ## One file after the other -/

theorem Ledger.append_assoc (a b c : Ledger) : (a.append b).append c = a.append (b.append c) := by
  simp [Ledger.append]

/-- The group after a file has come to stand somewhere else, with what there is to record. -/
def Group.after (g : Group) (i : Nat) (tree : FileTree) (m : Member) (gain : Ledger) : Group :=
  { g with tree := tree, members := g.members.set i m, ledger := g.ledger.append gain }

section After

variable {terms : Terms} {g : Group} {i : Nat} {tree tree' : FileTree} {m m' : Member}
  {gain gain' : Ledger}

theorem Group.after_step (g : Group) (inside : i < g.members.length)
    (step : m.Step terms g.cancelled tree tree' m' gain') :
    Group.Step terms (g.after i tree m gain) (g.after i tree' m' (gain.append gain')) := by
  have there : (g.after i tree m gain).members[i]? = some m := List.getElem?_set_self inside
  have next := Group.Step.work there step
  unfold Group.after at next ⊢
  rwa [List.set_set, Ledger.append_assoc] at next

/-- A task can be brought to its next stages while nothing else happens. -/
theorem Group.after_steps (terms : Terms) (g : Group) (inside : i < g.members.length)
    (path : Text) (count : Nat) (tree : FileTree) (stage : Stage) (gain : Ledger) :
    ∃ written, Group.Reaches terms (g.after i tree ⟨path, .running stage, none⟩ gain)
      (g.after i (Stage.steps terms.env terms.options path count tree stage).1
        ⟨path, .running (Stage.steps terms.env terms.options path count tree stage).2.1, none⟩
        (gain.append ⟨[], written, [], [],
          (Stage.steps terms.env terms.options path count tree stage).2.2⟩)) := by
  have nothing : gain.append ⟨[], [], [], [], []⟩ = gain := gain.append_empty
  induction count generalizing tree stage gain with
  | zero =>
      refine ⟨[], ?_⟩
      simp only [Stage.steps, nothing]
      exact .refl
  | succ count ih =>
      cases finished : stage.isFinished with
      | true =>
          obtain ⟨r, error, rfl⟩ := Stage.exists_of_isFinished finished
          refine ⟨[], ?_⟩
          simp only [steps_of_finished, nothing]
          exact .refl
      | false =>
          have advance : Member.Step terms g.cancelled tree ⟨path, .running stage, none⟩ _ _ _ :=
            .advance .whole finished
          obtain ⟨written, reaches⟩ := ih _ _ _ (Ledger.append_empty _)
          rw [Ledger.append_assoc] at reaches
          exact ⟨_, .head (g.after_step inside advance) reaches⟩

/-- A file can be migrated from the hand-over to its end while nothing else happens, but for a
cancellation after its result was shown. -/
theorem Group.reaches_next {k : Nat} {path : Text} {outcome : FileOutcome}
    (looking : g.loop = .looking k) (there : g.members[k]? = some ⟨path, .pending, none⟩)
    (idle : g.inFlight = 0) (going : g.cancelled = false) (room : 0 < terms.limit)
    (migrated : migrateFile terms.env terms.options path g.tree = outcome) (cancel : Bool) :
    ∃ written, Group.Reaches terms g
      (Group.after { g with cancelled := cancel, loop := .looking (k + 1) } k outcome.tree
        ⟨path, .ended, some outcome.result⟩
        ⟨[path], written, [outcome.result], outcome.error.toList,
          begunRecord path :: outcome.log ++ outcome.error.toList.map (failureRecord path)⟩) := by
  have inside : k < g.members.length := (List.getElem?_eq_some_iff.mp there).choose
  let h : Group := { g with loop := .looking (k + 1) }
  have turned : Group.Step terms g { g with loop := .handing k } := .turnTo looking inside going
  have handed : Group.Step terms { g with loop := .handing k }
      (h.after k g.tree ⟨path, .launched, none⟩ .empty) := by
    have step := Group.Step.handOver (g := { g with loop := .handing k }) rfl
      (idle ▸ room) there
    unfold Group.after
    rwa [Ledger.append_empty]
  have begun : Group.Step terms (h.after k g.tree ⟨path, .launched, none⟩ .empty)
      (h.after k g.tree ⟨path, .running .waiting, none⟩ ⟨[path], [], [], [], [begunRecord path]⟩) :=
    h.after_step inside (.begin going)
  obtain ⟨written, task⟩ := h.after_steps terms inside path Stage.stepLimit g.tree .waiting
    ⟨[path], [], [], [], [begunRecord path]⟩
  rw [steps_migrateFile, migrated] at task
  have shown := (task.tail (h.after_step inside .record)).tail (h.after_step inside .display)
  simp only [Ledger.append, Ledger.empty, List.append_nil, List.nil_append, List.singleton_append]
    at shown
  -- The run is cancelled, if it is, between the result that was shown and the error.
  have stopped : Group.Reaches terms g (Group.after { h with cancelled := cancel } k outcome.tree
      ⟨path, .shown outcome.error, some outcome.result⟩
      ⟨[path], written, [outcome.result], [], begunRecord path :: outcome.log⟩) := by
    refine .head turned (.head handed (.head begun ?_))
    cases cancel with
    | false => exact going ▸ shown
    | true => exact shown.tail .cancel
  have handedIn := stopped.tail (Group.after_step { h with cancelled := cancel } inside .handIn)
  simp only [Ledger.append, Ledger.empty, List.append_nil, List.nil_append] at handedIn
  exact ⟨written, handedIn⟩

end After

section InOrder

variable {terms : Terms}

theorem isCancelled_zero (limit : Option Nat) : isCancelled limit 0 = (limit == some 0) := by
  cases limit with
  | none => rfl
  | some n => cases n <;> rfl

theorem isCancelled_succ {limit : Option Nat} (more : limit ≠ some 0) (n : Nat) :
    isCancelled (limit.map (· - 1)) n = isCancelled limit (n + 1) := by
  cases limit with
  | none => rfl
  | some k =>
      have : k ≠ 0 := fun zero => more (congrArg some zero)
      simp only [isCancelled, Option.map_some, decide_eq_decide]
      omega

theorem migrateAll_cons {env : Environment} {options : Options} {limit : Option Nat}
    (more : limit ≠ some 0) (path : Text) (rest : List Text) (tree : FileTree) :
    let outcome := migrateFile env options path tree
    let batch := migrateAll env options (limit.map (· - 1)) rest outcome.tree
    migrateAll env options limit (path :: rest) tree =
      ⟨batch.tree, outcome.result :: batch.results, outcome.error.toList ++ batch.errors,
        begunRecord path :: outcome.log ++ outcome.error.toList.map (failureRecord path) ++
          batch.log⟩ :=
  migrateAll.eq_3 env options limit tree path rest more

theorem results_pending {g : Group} {done : List Member} {rest : List Text}
    (members : g.members = done ++ rest.map (⟨·, .pending, none⟩)) :
    g.results = done.filterMap (·.result) := by
  have none_yet : (rest.map fun path => (⟨path, .pending, none⟩ : Member)).filterMap (·.result) =
      [] := by
    simp [List.filterMap_map]
  rw [Group.results, members, List.filterMap_append, none_yet, List.append_nil]

theorem idle_pending {done : List Member} {rest : List Text}
    (idle : ∀ m ∈ done, m.turn.inFlight = false) :
    ∀ m ∈ done ++ rest.map (⟨·, .pending, none⟩), m.turn.inFlight = false := by
  intro m mem
  rw [List.mem_append, List.mem_map] at mem
  obtain in_done | ⟨path, -, rfl⟩ := mem
  · exact idle m in_done
  · rfl

/-- A loop that has no file left, or that finds the run cancelled, stops at once. -/
theorem reaches_stop {limit : Option Nat} {rest : List Text} {g : Group} {done : List Member}
    (members : g.members = done ++ rest.map (⟨·, .pending, none⟩))
    (looking : g.loop = .looking done.length)
    (idle : ∀ m ∈ done, m.turn.inFlight = false) (cancelled : g.cancelled = (limit == some 0))
    (none_left : g.members.length ≤ done.length ∨ g.cancelled = true) :
    ∃ g', Group.Reaches terms g g' ∧ g'.IsOver ∧
      g'.passage = ⟨⟨g.tree, g.results, g.ledger.errors, g.ledger.log⟩, g.ledger.shown,
        isCancelled limit 0⟩ := by
  refine ⟨_, .single (.stop looking none_left), ⟨rfl, members ▸ idle_pending idle⟩, ?_⟩
  rw [isCancelled_zero, ← cancelled]
  rfl

/-- The files that are left can be migrated one after the other, at most `limit` of them. -/
theorem reaches_inOrder (room : 0 < terms.limit) (limit : Option Nat) (rest : List Text)
    (g : Group) (done : List Member)
    (members : g.members = done ++ rest.map (⟨·, .pending, none⟩))
    (looking : g.loop = .looking done.length)
    (idle : ∀ m ∈ done, m.turn.inFlight = false) (cancelled : g.cancelled = (limit == some 0)) :
    let batch := migrateAll terms.env terms.options limit rest g.tree
    ∃ g', Group.Reaches terms g g' ∧ g'.IsOver ∧
      g'.passage =
        ⟨⟨batch.tree, g.results ++ batch.results, g.ledger.errors ++ batch.errors,
            g.ledger.log ++ batch.log⟩,
          g.ledger.shown ++ batch.results, isCancelled limit batch.results.length⟩ := by
  induction rest generalizing limit g done with
  | nil =>
      simp only [migrateAll, List.append_nil]
      exact reaches_stop members looking idle cancelled (.inl (by simp [members]))
  | cons path rest ih =>
      by_cases spent : limit = some 0
      · subst spent
        simp only [migrateAll, List.append_nil]
        exact reaches_stop members looking idle cancelled (.inr cancelled)
      · have there : g.members[done.length]? = some ⟨path, .pending, none⟩ := by
          rw [members, List.getElem?_append_right (Nat.le_refl _), Nat.sub_self]
          rfl
        have nobody : g.inFlight = 0 :=
          List.countP_eq_zero.mpr fun m mem => by simp [idle_pending idle m (members ▸ mem)]
        have going : g.cancelled = false := by
          rw [cancelled, beq_eq_false_iff_ne]
          exact spent
        simp only [migrateAll_cons spent]
        generalize migrated : migrateFile terms.env terms.options path g.tree = outcome
        obtain ⟨written, reaches⟩ := Group.reaches_next looking there nobody going room migrated
          (limit.map (· - 1) == some 0)
        generalize next_eq : Group.after _ done.length outcome.tree _ _ = next at reaches
        have members_next : next.members =
            (done ++ [⟨path, .ended, some outcome.result⟩]) ++ rest.map (⟨·, .pending, none⟩) := by
          rw [← next_eq, Group.after, members]
          simp
        have results_next : next.results = g.results ++ [outcome.result] := by
          rw [results_pending members_next, results_pending members]
          simp
        have idle_next : ∀ m ∈ done ++ [⟨path, .ended, some outcome.result⟩],
            m.turn.inFlight = false :=
          List.forall_mem_append.mpr ⟨idle, List.forall_mem_singleton.mpr rfl⟩
        obtain ⟨last, more, ended, passage⟩ := ih (limit.map (· - 1)) next _ members_next
          (by simp [← next_eq, Group.after]) idle_next (by simp [← next_eq, Group.after])
        refine ⟨last, reaches.trans more, ended, ?_⟩
        rw [passage, results_next, isCancelled_succ spent, ← next_eq]
        simp [Group.after, Ledger.append]

/-- **To migrate the files one after the other is a way for a group to go.** -/
theorem exists_inOrder (terms : Terms) (room : 0 < terms.limit) (cancelAfter : Option Nat)
    (paths : List Text) (tree : FileTree) :
    ∃ g, Group.Reaches terms (.start paths tree) g ∧ g.IsOver ∧
      g.passage = .inOrder terms.env terms.options cancelAfter paths tree := by
  let g : Group := { Group.start paths tree with cancelled := cancelAfter == some 0 }
  have begun : Group.Reaches terms (.start paths tree) g := by
    cases cancelled : cancelAfter == some 0 with
    | false => simp only [g, cancelled]; exact .refl
    | true => simp only [g, cancelled]; exact .single .cancel
  obtain ⟨last, reaches, ended, passage⟩ :=
    reaches_inOrder room cancelAfter paths g [] rfl rfl (by simp) rfl
  refine ⟨last, begun.trans reaches, ended, passage.trans ?_⟩
  have none_yet : g.results = [] :=
    results_pending (show g.members = [] ++ paths.map (⟨·, .pending, none⟩) from rfl)
  rw [none_yet]
  rfl

end InOrder

theorem places_pos (parallel : Int) : 0 < places parallel := by
  unfold places
  omega

/-- **What a run reports is among the reports that a run can come to.** -/
theorem runs_run (env : Environment) (circumstances : Circumstances) (cutOff : Formatter → Prop)
    (request : Request) (tree : FileTree) :
    ∃ ledger, Runs env circumstances cutOff request tree ledger
      (run env circumstances request tree) := by
  unfold run
  cases gathered : gather circumstances request tree with
  | error report => exact ⟨_, .early gathered⟩
  | ok paths =>
      obtain ⟨g, reaches, ended, passage⟩ :=
        exists_inOrder ⟨env, request.options, places request.parallel, cutOff⟩
          (places_pos request.parallel) circumstances.cancelAfter paths tree
      refine ⟨g.ledger, ?_⟩
      dsimp only at passage ⊢
      rw [← passage]
      exact .through gathered reaches ended

end ClassUpgrade.Migration
