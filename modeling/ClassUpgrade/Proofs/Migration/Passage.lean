/-
# Proofs.Migration.Passage — what a group that is over has to show

When a group is over, each of its files has a result in its place, or was never
begun. Then what the files have contributed to the records can be read off the
results alone (`Group.Settled`): one begun migration, one display and at most
one error for each result, and a write for each result that says so.

The files that were never begun are not touched either, by a write or by a
formatter (`framed_of_reaches`).

`passage_accounts` puts this together, for every order of the steps and every
moment of a cancellation.
-/
import Mathlib.Data.List.Basic
import ClassUpgrade.Proofs.Migration.Schedule

namespace ClassUpgrade.Migration

set_option autoImplicit false

open Document FileTree

/-! ## Results and records -/

/-- What a file has contributed is what its result says. -/
structure Member.Settled (options : Options) (m : Member) : Prop where
  begun : m.begun = m.result.toList.map (·.path)
  written : m.wrote options = (m.result.toList.filter (·.isWritten options)).map (·.path)
  shown : m.display = m.result.toList
  errors : m.handed = m.result.toList.filterMap (·.failure)
  sound : ∀ r ∈ m.result, (Stage.finished r r.failure).Sound options m.path

/-- What a group has recorded is what its results say, and the results are those of files in
order. -/
structure Group.Settled (options : Options) (paths : List Text) (g : Group) : Prop where
  begun : g.ledger.begun.Perm (g.results.map (·.path))
  written : g.ledger.written.Perm ((g.results.filter (·.isWritten options)).map (·.path))
  shown : g.ledger.shown.Perm g.results
  errors : g.ledger.errors.Perm (g.results.filterMap (·.failure))
  sound : ∀ r ∈ g.results, (Stage.finished r r.failure).Sound options r.path
  inOrder : (g.results.map (·.path)).Sublist paths
  whole : g.cancelled = false → g.results.map (·.path) = paths

theorem Member.Sound.settled {options : Options} {cancelled : Bool} {m : Member}
    (sound : m.Sound options cancelled) (idle : m.turn.inFlight = false) : m.Settled options := by
  cases sound with
  | launched | running | recorded | shown => cases idle
  | pending | declined => exact ⟨rfl, rfl, rfl, rfl, fun r none_there => by cases none_there⟩
  | @ended path r error sound =>
      obtain ⟨rfl, rfl, tells⟩ := sound
      refine ⟨rfl, ?_, rfl, rfl, fun r' there => ?_⟩
      · cases written : r.isWritten options <;> simp [Member.wrote, written]
      · obtain rfl := Option.some.inj there
        exact ⟨rfl, rfl, tells⟩

section Results

variable {options : Options} {members : List Member}

theorem sublist_paths (settled : ∀ m ∈ members, m.Settled options) :
    ((members.filterMap (·.result)).map (·.path)).Sublist (members.map (·.path)) := by
  induction members with
  | nil => exact .slnil
  | cons m rest ih =>
      have more := ih fun n mem => settled n (List.mem_cons_of_mem m mem)
      cases result : m.result with
      | none =>
          rw [List.filterMap_cons_none result]
          exact more.cons m.path
      | some r =>
          obtain ⟨path_eq, -, -⟩ := (settled m List.mem_cons_self).sound r result
          rw [List.filterMap_cons_some result, List.map_cons, List.map_cons, path_eq]
          exact more.cons_cons m.path

theorem paths_eq_of_all (settled : ∀ m ∈ members, m.Settled options)
    (all : ∀ m ∈ members, m.result ≠ none) :
    (members.filterMap (·.result)).map (·.path) = members.map (·.path) := by
  refine (sublist_paths settled).eq_of_length ?_
  rw [List.length_map, List.length_map]
  exact List.filterMap_length_eq_length.mpr fun m mem => Option.isSome_iff_ne_none.mpr (all m mem)

end Results

/-- A group that is over has handed over all its files, unless it was cancelled. -/
theorem Group.Sound.handed_of_over {options : Options} {paths : List Text} {g : Group}
    (sound : g.Sound options paths) (ended : g.IsOver) (going : g.cancelled = false) :
    ∀ m ∈ g.members, m.turn ≠ .pending := by
  have fits := sound.loop
  rw [ended.1, going] at fits
  exact fits.resolve_left Bool.noConfusion

/-- **The records of a group that is over are what its results say.** -/
theorem Group.Sound.settled {options : Options} {paths : List Text} {g : Group}
    (sound : g.Sound options paths) (ended : g.IsOver) : g.Settled options paths := by
  have handed := sound.handed_of_over ended
  obtain ⟨paths_eq, members, -, accounts⟩ := sound
  obtain ⟨-, idle⟩ := ended
  have settled : ∀ m ∈ g.members, m.Settled options := fun m mem =>
    (members m mem).settled (idle m mem)
  have results : g.results = g.members.flatMap (·.result.toList) :=
    List.filterMap_eq_flatMap_toList _ _
  refine ⟨?_, ?_, ?_, ?_, fun r mem => ?_, paths_eq ▸ sublist_paths settled, fun going => ?_⟩
  · rw [results, List.map_flatMap, ← List.flatMap_congr fun m mem => (settled m mem).begun]
    exact accounts.begun
  · rw [results, List.filter_flatMap, List.map_flatMap,
      ← List.flatMap_congr fun m mem => (settled m mem).written]
    exact accounts.written
  · rw [results, ← List.flatMap_congr fun m mem => (settled m mem).shown]
    exact accounts.shown
  · rw [results, List.filterMap_flatMap, ← List.flatMap_congr fun m mem => (settled m mem).errors]
    exact accounts.errors
  · obtain ⟨m, in_group, result⟩ := List.mem_filterMap.mp mem
    have known := (settled m in_group).sound r result
    rwa [← known.1] at known
  · -- A file without a result is one that the loop or its own task gave up for a cancellation.
    refine paths_eq ▸ paths_eq_of_all settled fun m mem none_there => ?_
    cases members m mem with
    | pending => exact handed going _ mem rfl
    | declined cancelled =>
        rw [going] at cancelled
        cases cancelled
    | launched | running => cases idle _ mem
    | recorded | shown | ended => cases none_there

/-! ## Files that were never begun -/

/-- The formatters rewrite the file they are given in place, those that are cut off included. -/
structure Terms.InPlace (terms : Terms) : Prop where
  whole : ∀ formatter, terms.env.formatter = some formatter → formatter.InPlace
  cut : ∀ formatter, terms.cutOff formatter → formatter.InPlace

theorem Terms.InPlace.provides {terms : Terms} (inPlace : terms.InPlace) {cancelled : Bool}
    {env : Environment} (provided : terms.Provides cancelled env) {formatter : Formatter}
    (given : env.formatter = some formatter) : formatter.InPlace := by
  cases provided with
  | whole => exact inPlace.whole formatter given
  | cut stopped equipped cut =>
      obtain rfl := Option.some.inj given
      exact inPlace.cut _ cut

/-- The file has been found by its task, which has not come to an end yet. -/
def Member.HoldsFile (m : Member) : Prop :=
  ∃ stage, m.turn = .running stage ∧ stage.HoldsFile

/-- Only files that were begun have been touched, and a task that holds its file holds one that was
there from the start. -/
structure Group.Framed (tree : FileTree) (g : Group) : Prop where
  agree : AgreeOff (fun l => ∃ path ∈ g.ledger.begun, tree.Names path l) g.tree tree
  holds : ∀ m ∈ g.members, m.HoldsFile → ∃ l, tree.Names m.path l

theorem Member.Step.frame {terms : Terms} {cancelled : Bool} {tree tree' : FileTree}
    {m m' : Member} {gain : Ledger} (step : m.Step terms cancelled tree tree' m' gain)
    (inPlace : terms.InPlace) (holds : m.HoldsFile → ∃ l, tree.Names m.path l) :
    AgreeOff (fun l => m.path ∈ m'.begun ∧ tree.Names m.path l) tree' tree ∧
      (m'.HoldsFile → ∃ l, tree.Names m'.path l) := by
  have idle : ∀ {n : Member}, (∀ stage, n.turn = .running stage → stage = .waiting) →
      n.HoldsFile → ∃ l, tree.Names n.path l := by
    rintro n unbegun ⟨stage, running, held⟩
    rw [unbegun stage running] at held
    cases held
  cases step with
  | decline | record | display | handIn =>
      exact ⟨.refl _ _, idle fun stage running => by cases running⟩
  | begin => exact ⟨.refl _ _, idle fun stage running => by cases running; rfl⟩
  | @advance path result stage env provided unfinished =>
      have holds_now : stage.HoldsFile → ∃ l, tree.Names path l := fun held =>
        holds ⟨stage, rfl, held⟩
      have frame : AgreeOff (tree.Names path) (stage.step env terms.options path tree).1 tree :=
        step_frame (fun formatter given => inPlace.provides provided given) holds_now
      refine ⟨frame.mono fun l names => ⟨List.mem_singleton_self path, names⟩, ?_⟩
      rintro ⟨stage', running, held⟩
      obtain rfl := Turn.running.inj running
      exact holdsFile_step holds_now held

theorem Group.Framed.step {terms : Terms} {paths : List Text} {tree : FileTree} {g g' : Group}
    (framed : g.Framed tree) (sound : g.Sound terms.options paths) (inPlace : terms.InPlace)
    (step : Group.Step terms g g') : g'.Framed tree := by
  have sound' := sound.step step
  obtain ⟨agree, holds⟩ := framed
  cases step with
  | cancel | turnTo | stop => exact ⟨agree, holds⟩
  | handOver handing free there =>
      refine ⟨agree, fun n mem held => ?_⟩
      obtain rest | rfl := List.mem_or_eq_of_mem_set mem
      · exact holds n rest held
      · obtain ⟨stage, running, -⟩ := held
        cases running
  | @work i m m' tree' gain there step =>
      have holds_now : m.HoldsFile → ∃ l, g.tree.Names m.path l := fun held =>
        (holds m (List.mem_of_getElem? there) held).imp fun l => agree.names_iff.mpr
      obtain ⟨frame, holds'⟩ := step.frame inPlace holds_now
      have inside : i < g.members.length := (List.getElem?_eq_some_iff.mp there).choose
      refine ⟨.trans (frame.mono ?_) (agree.mono ?_), fun n mem held => ?_⟩
      · rintro l ⟨begun, names⟩
        refine ⟨m.path, sound'.accounts.begun.mem_iff.mpr ?_, agree.names_iff.mp names⟩
        exact List.mem_flatMap.mpr ⟨m', List.mem_set inside m', begun⟩
      · rintro l ⟨path, begun, names⟩
        exact ⟨path, List.mem_append_left _ begun, names⟩
      · obtain rest | rfl := List.mem_or_eq_of_mem_set mem
        · exact holds n rest held
        · exact (holds' held).imp fun l => agree.names_iff.mp

/-- **A group touches no file that it has not begun.** -/
theorem framed_of_reaches {terms : Terms} {paths : List Text} {tree : FileTree} {g : Group}
    (inPlace : terms.InPlace) (reaches : Group.Reaches terms (.start paths tree) g) :
    g.Framed tree := by
  induction reaches with
  | refl =>
      refine ⟨.refl _ _, fun m mem held => ?_⟩
      obtain ⟨path, -, rfl⟩ := List.mem_map.mp mem
      obtain ⟨stage, running, -⟩ := held
      cases running
  | tail reaches step ih => exact ih.step (sound_of_reaches reaches) inPlace step

/-! ## The files that a run gets to -/

section Gather

variable {circumstances : Circumstances} {request : Request} {tree : FileTree}

/-- A run that does not get to its files leaves them alone, shows nothing and is not cancelled. -/
theorem early_of_gather {early : RunReport}
    (refused : gather circumstances request tree = .error early) :
    early.tree = tree ∧ early.results = [] ∧ .cancelled ∉ early.errors ∧ early.events = [] := by
  unfold gather at refused
  split at refused
  · obtain rfl := Except.error.inj refused
    exact ⟨rfl, rfl, by simp [RunReport.failedEarly], rfl⟩
  · obtain rfl := Except.error.inj refused
    exact ⟨rfl, rfl, by simp [RunReport.failedEarly], rfl⟩
  · split at refused
    · obtain rfl := Except.error.inj refused
      exact ⟨rfl, rfl, by simp [RunReport.failedEarly], rfl⟩
    · cases refused

theorem select_of_gather {paths : List Text}
    (gathered : gather circumstances request tree = .ok paths) :
    Files.select tree request.patterns request.exclude = .ok paths := by
  unfold gather at gathered
  split at gathered
  · cases gathered
  · cases gathered
  · rename_i selected
    split at gathered
    · cases gathered
    · obtain rfl := Except.ok.inj gathered
      exact selected

end Gather

/-! ## The account -/

theorem Group.Settled.errors_eq_nil_iff {options : Options} {paths : List Text} {g : Group}
    (settled : g.Settled options paths) :
    g.passage.errors = [] ↔ (∀ r ∈ g.results, r.failed = false) ∧ g.cancelled = false := by
  have errors : g.ledger.errors = [] ↔ ∀ r ∈ g.results, r.failed = false := by
    rw [← List.length_eq_zero_iff, settled.errors.length_eq, List.length_eq_zero_iff,
      List.filterMap_eq_nil_iff]
    simp [FileResult.failed]
  cases cancelled : g.cancelled <;> simp [Passage.errors, Group.passage, cancelled, errors]

/-- **A group accounts for every file**, whatever the order of the steps, and whenever the run is
cancelled. It can always be brought to its end, and once it is over:

* the results are those of files in the order of the paths, one for each migration that was begun,
  and without a cancellation there is one for every path;
* a path without a result has not been written, and as long as formatters rewrite the file they are
  given in place, no file has changed that is not at the path of a result;
* every result was shown once;
* the error of every failed result is among the errors;
* there is no error exactly if no result failed and the run was not cancelled. -/
theorem passage_accounts (env : Environment) (options : Options) (parallel : Int)
    (cutOff : Formatter → Prop) (paths : List Text) (tree : FileTree) (g : Group)
    (reaches : Group.Reaches ⟨env, options, places parallel, cutOff⟩ (.start paths tree) g) :
    (∃ last, Group.Reaches ⟨env, options, places parallel, cutOff⟩ g last ∧ last.IsOver ∧
      last.cancelled = g.cancelled) ∧
    (g.IsOver →
      (g.passage.batch.results.map (·.path)).Sublist paths ∧
      g.ledger.begun.Perm (g.passage.batch.results.map (·.path)) ∧
      (g.passage.cancelled = false → g.passage.batch.results.map (·.path) = paths) ∧
      (∀ path ∈ g.ledger.written, path ∈ g.passage.batch.results.map (·.path)) ∧
      ((∀ formatter, env.formatter = some formatter ∨ cutOff formatter → formatter.InPlace) →
        ∀ l, (∀ r ∈ g.passage.batch.results, ¬ tree.Names r.path l) →
          g.passage.batch.tree.node? l = tree.node? l) ∧
      g.passage.shown.Perm g.passage.batch.results ∧
      (∀ r ∈ g.passage.batch.results, ∀ e, r.failure = some e → .file e ∈ g.passage.errors) ∧
      (g.passage.errors = [] ↔
        (∀ r ∈ g.passage.batch.results, r.failed = false) ∧ g.passage.cancelled = false)) := by
  have sound := sound_of_reaches reaches
  refine ⟨sound.exists_completion (places_pos parallel) g, fun ended => ?_⟩
  have settled := sound.settled ended
  refine ⟨settled.inOrder, settled.begun, settled.whole, fun path written => ?_,
    fun inPlace l off => ?_, settled.shown, fun r mem e failed => ?_, settled.errors_eq_nil_iff⟩
  · exact List.map_subset _ List.filter_sublist.subset (settled.written.mem_iff.mp written)
  · have framed := framed_of_reaches ⟨fun f given => inPlace f (.inl given),
      fun f cut => inPlace f (.inr cut)⟩ reaches
    refine framed.agree.same l ?_
    rintro ⟨path, begun, names⟩
    obtain ⟨r, mem, rfl⟩ := List.mem_map.mp (settled.begun.mem_iff.mp begun)
    exact off r mem names
  · refine List.mem_append_left _ (List.mem_map_of_mem ?_)
    exact settled.errors.mem_iff.mpr (List.mem_filterMap.mpr ⟨r, mem, failed⟩)

theorem inPlace_ofCommand_false : (Formatter.ofCommand (utf8 "false")).InPlace := by
  refine ⟨fun path tree l _ => ?_, fun path tree l names => ?_⟩
  · rw [ofCommand_false]
  · rw [ofCommand_false]
    exact names.2

/-- A run over the entrypoint `i` and the template `t` that is cancelled once the first result is
shown: the entrypoint is replaced and its formatter fails, and the template is left alone. -/
theorem passage_accounts_staleTree :
    ∃ g, Group.Reaches ⟨failingFormat, ⟨false, true⟩, places 0, (· = .ofCommand (utf8 "false"))⟩
        (.start [utf8 "i", utf8 "t"] staleTree) g ∧ g.IsOver ∧
      g.passage.batch.results.map (·.path) = [utf8 "i"] ∧ g.ledger.begun = [utf8 "i"] ∧
      utf8 "t" ∉ g.ledger.written ∧
      g.passage.batch.tree.node? [utf8 "t"] = staleTree.node? [utf8 "t"] ∧
      g.passage.errors ≠ [] := by
  obtain ⟨g, reaches, ended, passage⟩ := exists_inOrder
    ⟨failingFormat, ⟨false, true⟩, places 0, (· = .ofCommand (utf8 "false"))⟩ (places_pos 0)
    (some 1) [utf8 "i", utf8 "t"] staleTree
  have results : g.passage.batch.results.map (·.path) = [utf8 "i"] := by
    rw [passage]
    rfl
  have cancelled : g.passage.cancelled = true := by
    rw [passage]
    rfl
  have inPlace : ∀ formatter, failingFormat.formatter = some formatter ∨
      formatter = .ofCommand (utf8 "false") → formatter.InPlace := by
    rintro formatter (given | rfl)
    · obtain rfl := Option.some.inj given
      exact inPlace_ofCommand_false
    · exact inPlace_ofCommand_false
  obtain ⟨-, accounts⟩ := passage_accounts failingFormat ⟨false, true⟩ 0
    (· = .ofCommand (utf8 "false")) [utf8 "i", utf8 "t"] staleTree g reaches
  obtain ⟨-, begun, -, written, frame, -, -, errors⟩ := accounts ended
  rw [results] at begun written
  refine ⟨g, reaches, ended, results, List.perm_singleton.mp begun, fun mem => ?_,
    frame inPlace _ fun r mem names => ?_, fun none_left => ?_⟩
  · exact absurd (written _ mem) (by decide)
  · have path_eq : r.path = utf8 "i" := by
      have := List.mem_map_of_mem (f := (·.path)) mem
      rwa [results, List.mem_singleton] at this
    rw [path_eq] at names
    exact absurd (Except.ok.inj (names.1.symm.trans (by rfl))) (by decide : [utf8 "t"] ≠ [utf8 "i"])
  · rw [(errors.mp none_left).2] at cancelled
    cases cancelled

end ClassUpgrade.Migration
