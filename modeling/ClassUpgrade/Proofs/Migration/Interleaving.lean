/-
# Proofs.Migration.Interleaving — the order of the steps makes no difference

Where the paths of a run name distinct files, none of them the template, and
the formatter keeps to the file it is given (`Apart`), a task in a group does
what it would do if it were left alone with the files as they were at the
start. For every member of a group that is not cancelled there is a number of
steps after which the task alone stands at the same stage, and the files of the
group hold at its path what the task alone has left there (`Member.Follows`). A
step of the task keeps this by `step_agree`, a step of another one by
`step_frame`.

So a group that is over has the results of the tasks alone, in the order of the
paths, and each file is as its own task leaves it (`Group.Parted`). That does
not mention the order of the steps: it holds of the files that are migrated one
after the other as well (`interleavings_agree`).
-/
import ClassUpgrade.Proofs.Migration.Passage

namespace ClassUpgrade.Migration

set_option autoImplicit false

open Document FileTree

def filesOf (tree : FileTree) (paths : List Text) (l : Location) : Prop :=
  ∃ path ∈ paths, tree.Names path l

/-- The paths name distinct files, none of which is the template, and the formatter keeps to the
one that it is given. -/
structure Apart (env : Environment) (paths : List Text) (tree : FileTree) : Prop where
  distinct : paths.Pairwise fun p q => ∀ l, tree.Names p l → ¬ tree.Names q l
  template : env.templatePath = [] ∨ ∀ l, filesOf tree paths l → ¬ tree.Names env.templatePath l
  formatter : ∀ formatter, env.formatter = some formatter → formatter.KeepsTo (filesOf tree paths)

namespace Apart

variable {env : Environment} {paths : List Text} {tree : FileTree} {path : Text}

theorem inPlace (apart : Apart env paths tree) (formatter : Formatter)
    (given : env.formatter = some formatter) : formatter.InPlace :=
  (apart.formatter formatter given).inPlace

theorem names_ne (apart : Apart env paths tree) {i j : Nat} {p q : Text} (differ : i ≠ j)
    (at_i : paths[i]? = some p) (at_j : paths[j]? = some q) {l : Location}
    (names : tree.Names p l) : ¬ tree.Names q l := by
  obtain ⟨below_i, rfl⟩ := List.getElem?_eq_some_iff.mp at_i
  obtain ⟨below_j, rfl⟩ := List.getElem?_eq_some_iff.mp at_j
  have distinct := List.pairwise_iff_getElem.mp apart.distinct
  obtain before | after := Nat.lt_or_gt_of_ne differ
  · exact distinct i j below_i below_j before l names
  · exact fun names' => distinct j i below_j below_i after l names' names

/-- The files of the other paths are nothing to a task. -/
theorem detached (apart : Apart env paths tree) (path : Text) :
    Detached env tree path fun l => filesOf tree paths l ∧ ¬ tree.Names path l where
  own := by
    rintro l located ⟨⟨other, -, -, standing⟩, elsewhere⟩
    exact elsewhere ⟨located, standing⟩
  template := by
    rintro given l located ⟨named, -⟩
    obtain bundled | off := apart.template
    · exact given bundled
    · obtain ⟨other, -, -, standing⟩ := id named
      exact off l named ⟨located, standing⟩
  inPlace := apart.inPlace
  blind := by
    intro formatter given a b l shape names agree
    refine (apart.formatter formatter given).blind path a b l names (agree.mono ?_)
    rintro l' ⟨named, elsewhere⟩
    refine ⟨named, ?_⟩
    rintro rfl
    have same : AgreeOff (fun _ => True) a tree := ⟨shape, fun _ off => absurd trivial off⟩
    exact elsewhere (same.names_iff.mp names)

end Apart

/-! ## A task in a group and the task alone -/

/-- The stage that the task of a file has come to. -/
def Member.stage (m : Member) : Stage :=
  match m.turn, m.result with
  | .running stage, _ => stage
  | _, some r => .finished r r.failure
  | _, none => .waiting

/-- The task of a file stands where it would stand alone, and has left the same at its path. -/
def Member.Follows (env : Environment) (options : Options) (tree now : FileTree) (m : Member) :
    Prop :=
  ∃ count alone log, Stage.steps env options m.path count tree .waiting = (alone, m.stage, log) ∧
    ∀ l, tree.Names m.path l → now.node? l = alone.node? l

section Follows

variable {terms : Terms} {paths : List Text} {tree now now' : FileTree} {m m' : Member}
  {gain : Ledger}

/-- Steps that are none of the task itself keep its stage and the files. -/
theorem Member.Step.cases_stage (step : m.Step terms false now now' m' gain)
    (sound : m.Sound terms.options false) :
    (now' = now ∧ m'.stage = m.stage) ∨
      (now' = (m.stage.step terms.env terms.options m.path now).1 ∧
        m'.stage = (m.stage.step terms.env terms.options m.path now).2.1) := by
  cases step with
  | decline stopped => cases stopped
  | advance provided unfinished =>
      cases provided with
      | whole => exact .inr ⟨rfl, rfl⟩
      | cut stopped => cases stopped
  | begin | display | handIn => cases sound; exact .inl ⟨rfl, rfl⟩
  | record =>
      cases sound with
      | running sound =>
          obtain ⟨-, rfl, -⟩ := sound
          exact .inl ⟨rfl, rfl⟩

/-- **A task in a group keeps up with the task alone**, and touches its own file only. -/
theorem Member.Follows.step (apart : Apart terms.env paths tree)
    (agree : AgreeOff (filesOf tree paths) now tree)
    (follows : m.Follows terms.env terms.options tree now) (sound : m.Sound terms.options false)
    (step : m.Step terms false now now' m' gain) :
    m'.Follows terms.env terms.options tree now' ∧ AgreeOff (tree.Names m.path) now' now := by
  obtain ⟨count, alone, log, steps_eq, same⟩ := follows
  obtain ⟨rfl, stage_eq⟩ | ⟨rfl, stage_eq⟩ := step.cases_stage sound
  · refine ⟨⟨count, alone, log, ?_, ?_⟩, .refl _ _⟩
    · rw [step.path_eq, stage_eq, steps_eq]
    · rwa [step.path_eq]
  · obtain ⟨frame_alone, holds⟩ : AgreeOff (tree.Names m.path) alone tree ∧
        (m.stage.HoldsFile → ∃ l, tree.Names m.path l) := by
      have frame : AgreeOff (tree.Names m.path)
          (Stage.steps terms.env terms.options m.path count tree .waiting).1 tree ∧ _ :=
        steps_frame apart.inPlace count tree
      rwa [steps_eq] at frame
    -- Now and alone differ at the other files only: the task's own is the same by the invariant.
    have agree_alone :
        AgreeOff (fun l => filesOf tree paths l ∧ ¬ tree.Names m.path l) now alone := by
      refine ⟨fun l => (agree.shape l).trans (frame_alone.shape l).symm, fun l off => ?_⟩
      by_cases own : tree.Names m.path l
      · exact same l own
      · rw [agree.same l fun named => off ⟨named, own⟩, frame_alone.same l own]
    have holds_now : m.stage.HoldsFile → ∃ l, now.Names m.path l := fun held =>
      (holds held).imp fun l => agree.names_iff.mpr
    obtain ⟨stage_agree, tree_agree⟩ :
        (m.stage.step terms.env terms.options m.path now).2 = _ ∧ _ :=
      step_agree ((apart.detached m.path).of_agree agree.symm) agree_alone holds_now
    refine ⟨⟨count + 1, (m.stage.step terms.env terms.options m.path alone).1,
      log ++ (m.stage.step terms.env terms.options m.path alone).2.2, ?_, ?_⟩, ?_⟩
    · rw [step.path_eq, stage_eq, stage_agree, steps_succ, steps_eq]
    · intro l names
      rw [step.path_eq] at names
      exact tree_agree.same l fun other => other.2 names
    · exact (step_frame apart.inPlace holds_now).mono fun l => agree.names_iff.mp

end Follows

/-! ## The whole group -/

/-- Every task of a group stands where it would stand alone, and the files that no path names are
as they were. -/
structure Group.Follows (env : Environment) (options : Options) (paths : List Text)
    (tree : FileTree) (g : Group) : Prop where
  members : ∀ (i : Nat) (m : Member), g.members[i]? = some m → m.Follows env options tree g.tree
  agree : AgreeOff (filesOf tree paths) g.tree tree

section Group

variable {terms : Terms} {paths : List Text} {tree : FileTree} {g g' : Group}

theorem follows_start (env : Environment) (options : Options) (paths : List Text)
    (tree : FileTree) : (Group.start paths tree).Follows env options paths tree := by
  refine ⟨fun i m there => ?_, .refl _ _⟩
  obtain ⟨path, -, rfl⟩ := List.mem_map.mp (List.mem_of_getElem? there)
  exact ⟨0, tree, [], rfl, fun l _ => rfl⟩

theorem Group.Step.going (step : Group.Step terms g g') (going : g'.cancelled = false) :
    g.cancelled = false := by
  cases step with
  | cancel => cases going
  | turnTo | stop | handOver | work => exact going

theorem Group.Follows.step (follows : g.Follows terms.env terms.options paths tree)
    (apart : Apart terms.env paths tree) (sound : g.Sound terms.options paths)
    (going : g'.cancelled = false) (step : Group.Step terms g g') :
    g'.Follows terms.env terms.options paths tree := by
  have going_before := step.going going
  obtain ⟨members, agree⟩ := follows
  cases step with
  | cancel => cases going
  | turnTo | stop => exact ⟨members, agree⟩
  | @handOver next m handing free there =>
      obtain ⟨path, rfl⟩ := sound.next_pending handing there
      refine ⟨fun j n at_j => ?_, agree⟩
      obtain ⟨rfl, rfl⟩ | ⟨-, at_j⟩ := eq_or_getElem?_of_set at_j
      · have waits := members j _ there
        exact waits
      · exact members j n at_j
  | @work i m m' tree' gain there step =>
      rw [going_before] at step
      have path_at : ∀ {j : Nat} {n : Member},
          g.members[j]? = some n → paths[j]? = some n.path := by
        intro j n at_j
        rw [← sound.paths_eq, List.getElem?_map, at_j]
        rfl
      have known := going_before ▸ sound.members m (List.mem_of_getElem? there)
      obtain ⟨follows', frame⟩ := (members i m there).step apart agree known step
      refine ⟨fun j n at_j => ?_, (frame.mono fun l names => ?_).trans agree⟩
      · obtain ⟨rfl, rfl⟩ | ⟨elsewhere, at_j⟩ := eq_or_getElem?_of_set at_j
        · exact follows'
        · -- Another task's file is not the one that was touched.
          obtain ⟨count, alone, log, steps_eq, same⟩ := members j n at_j
          refine ⟨count, alone, log, steps_eq, fun l names => ?_⟩
          rw [← same l names]
          exact frame.same l (apart.names_ne elsewhere (path_at at_j) (path_at there) names)
      · exact ⟨m.path, List.mem_of_getElem? (path_at there), names⟩

/-- **A task of a group that is not cancelled does what it would do alone**, whatever the order
of the steps. -/
theorem follows_of_reaches (apart : Apart terms.env paths tree)
    (reaches : Group.Reaches terms (.start paths tree) g) (going : g.cancelled = false) :
    g.Follows terms.env terms.options paths tree := by
  induction reaches with
  | refl => exact follows_start terms.env terms.options paths tree
  | tail reaches step ih =>
      exact (ih (step.going going)).step apart (sound_of_reaches reaches) going step

end Group

/-! ## What a group comes to -/

/-- Every file has come to what its migration alone comes to, and there is nothing else to it. -/
structure Passage.Parted (env : Environment) (options : Options) (paths : List Text)
    (tree : FileTree) (p : Passage) : Prop where
  results : p.batch.results = paths.map fun path => (migrateFile env options path tree).result
  files : ∀ path ∈ paths, ∀ l, tree.Names path l →
    p.batch.tree.node? l = (migrateFile env options path tree).tree.node? l
  others : ∀ l, ¬ filesOf tree paths l → p.batch.tree.node? l = tree.node? l
  errors : p.errors.Perm ((p.batch.results.filterMap (·.failure)).map .file)

section Parted

variable {env : Environment} {options : Options} {paths : List Text} {tree : FileTree}

theorem Passage.Parted.node?_eq {p q : Passage} (parted : p.Parted env options paths tree)
    (parted' : q.Parted env options paths tree) (l : Location) :
    p.batch.tree.node? l = q.batch.tree.node? l := by
  by_cases named : filesOf tree paths l
  · obtain ⟨path, mem, names⟩ := named
    rw [parted.files path mem l names, parted'.files path mem l names]
  · rw [parted.others l named, parted'.others l named]

theorem Passage.Parted.errors_perm {p q : Passage} (parted : p.Parted env options paths tree)
    (parted' : q.Parted env options paths tree) : p.errors.Perm q.errors := by
  have results : p.batch.results = q.batch.results := parted.results.trans parted'.results.symm
  exact parted.errors.trans (results ▸ parted'.errors.symm)

/-- A task that is over has its result in its place. -/
theorem Member.Follows.settled {now : FileTree} {m : Member}
    (follows : m.Follows env options tree now) (sound : m.Sound options false)
    (idle : m.turn.inFlight = false) (handed : m.turn ≠ .pending) :
    m.result = some (migrateFile env options m.path tree).result ∧
      ∀ l, tree.Names m.path l →
        now.node? l = (migrateFile env options m.path tree).tree.node? l := by
  obtain ⟨count, alone, log, steps_eq, same⟩ := follows
  cases sound with
  | launched | running | recorded | shown => cases idle
  | pending => exact absurd rfl handed
  | declined stopped => cases stopped
  | ended sound =>
      rw [steps_settle steps_eq]
      exact ⟨rfl, same⟩

/-- **A group that is over and not cancelled has come to what its tasks come to alone.** -/
theorem parted_of_over {terms : Terms} {g : Group} (apart : Apart terms.env paths tree)
    (reaches : Group.Reaches terms (.start paths tree) g) (going : g.cancelled = false)
    (ended : g.IsOver) : g.passage.Parted terms.env terms.options paths tree := by
  have sound := sound_of_reaches reaches
  obtain ⟨members, agree⟩ := follows_of_reaches apart reaches going
  have handed := sound.handed_of_over ended going
  have settled : ∀ m ∈ g.members,
      m.result = some (migrateFile terms.env terms.options m.path tree).result ∧
        ∀ l, tree.Names m.path l →
          g.tree.node? l = (migrateFile terms.env terms.options m.path tree).tree.node? l := by
    intro m mem
    obtain ⟨i, there⟩ := List.mem_iff_getElem?.mp mem
    exact (members i m there).settled (going ▸ sound.members m mem) (ended.2 m mem) (handed m mem)
  refine ⟨?_, fun path mem l names => ?_, agree.same, ?_⟩
  · rw [← sound.paths_eq, List.map_map, ← List.filterMap_eq_map]
    exact List.filterMap_congr fun m mem => (settled m mem).1
  · rw [← sound.paths_eq] at mem
    obtain ⟨m, in_group, rfl⟩ := List.mem_map.mp mem
    exact (settled m in_group).2 l names
  · simp only [Passage.errors, Group.passage, going, Bool.false_eq_true, ↓reduceIte,
      List.append_nil]
    exact (sound.settled ended).errors.map _

theorem parted_inOrder (apart : Apart env paths tree) :
    (Passage.inOrder env options none paths tree).Parted env options paths tree := by
  obtain ⟨g, reaches, ended, passage⟩ :=
    exists_inOrder ⟨env, options, 1, fun _ => False⟩ Nat.one_pos none paths tree
  have going : g.cancelled = false := congrArg Passage.cancelled passage
  exact passage ▸ parted_of_over apart reaches going ended

end Parted

/-- **Files that are migrated at once come to what they come to one after the other.** Where the
paths name distinct files, none of which is the template, and the formatter keeps to the file it is
given: as long as the run is not cancelled, its group can be brought to its end, and however many
files are in flight and whatever the order of their steps, once it is over the files are the same
as if they had been migrated in order, so are the results, and the errors are the same up to their
order. -/
theorem interleavings_agree (env : Environment) (options : Options) (parallel : Int)
    (cutOff : Formatter → Prop) (paths : List Text) (tree : FileTree)
    (apart : Apart env paths tree) (g : Group)
    (reaches : Group.Reaches ⟨env, options, places parallel, cutOff⟩ (.start paths tree) g)
    (going : g.cancelled = false) :
    (∃ last, Group.Reaches ⟨env, options, places parallel, cutOff⟩ g last ∧ last.IsOver ∧
      last.cancelled = false) ∧
    (g.IsOver →
      (∀ l, g.passage.batch.tree.node? l =
        (Passage.inOrder env options none paths tree).batch.tree.node? l) ∧
      g.passage.batch.results = (Passage.inOrder env options none paths tree).batch.results ∧
      g.passage.errors.Perm (Passage.inOrder env options none paths tree).errors) := by
  have sound := sound_of_reaches reaches
  refine ⟨going ▸ sound.exists_completion (places_pos parallel) g, fun ended => ?_⟩
  have parted := parted_of_over apart reaches going ended
  have parted' : (Passage.inOrder env options none paths tree).Parted env options paths tree :=
    parted_inOrder apart
  exact ⟨parted.node?_eq parted', parted.results.trans parted'.results.symm,
    parted.errors_perm parted'⟩

/-- A formatter that ends a file with a line feed. -/
def endLine : Formatter := fun path tree =>
  match tree.read path with
  | .error _ => (tree, some .noCommand)
  | .ok content =>
      match tree.write path (content ++ [Byte.lineFeed]) with
      | .error _ => (tree, some .noCommand)
      | .ok tree' => (tree', none)

theorem endLine_of_names {tree : FileTree} {path : Text} (named : ∃ l, tree.Names path l) :
    ∃ content tree', tree.read path = .ok content ∧
      tree.write path (content ++ [Byte.lineFeed]) = .ok tree' ∧
      endLine path tree = (tree', none) := by
  obtain ⟨content, found⟩ := exists_names_iff.mp named
  have loaded : tree.read path = .ok content := by
    rw [FileTree.read, found]
  obtain ⟨tree', wrote⟩ := exists_write named (content ++ [Byte.lineFeed])
  exact ⟨content, tree', loaded, wrote, by simp only [endLine, loaded, wrote]⟩

theorem endLine_of_unnamed {tree : FileTree} {path : Text} (unnamed : ¬ ∃ l, tree.Names path l) :
    (endLine path tree).1 = tree := by
  rw [exists_names_iff] at unnamed
  unfold endLine FileTree.read
  cases stat : tree.stat path with
  | error fault => rfl
  | ok node =>
      cases node with
      | directory => rfl
      | file content => exact absurd ⟨content, stat⟩ unnamed

/-- Ending a file with a line feed touches that file only. -/
theorem keepsTo_endLine (files : Location → Prop) : endLine.KeepsTo files where
  inPlace := by
    refine ⟨fun path tree l elsewhere => ?_, fun path tree l names => ?_⟩
    · by_cases named : ∃ l, tree.Names path l
      · obtain ⟨content, tree', -, wrote, ends⟩ := endLine_of_names named
        rw [ends]
        exact (agreeOff_of_write named wrote).same l fun names => elsewhere names.1
      · rw [endLine_of_unnamed named]
    · obtain ⟨content, tree', -, wrote, ends⟩ := endLine_of_names ⟨l, names⟩
      rw [ends]
      exact ⟨_, node?_written names wrote⟩
  blind := by
    intro path a b l names agree
    have names' := agree.names_iff.mp names
    obtain ⟨content, a', loaded, wrote, ends⟩ := endLine_of_names ⟨l, names⟩
    obtain ⟨content', b', loaded', wrote', ends'⟩ := endLine_of_names ⟨l, names'⟩
    have same : a.read path = b.read path :=
      agree.read fun l' located other => other.2 (Except.ok.inj (located.symm.trans names.1))
    rw [loaded, loaded'] at same
    obtain rfl := Except.ok.inj same
    rw [ends, ends', node?_written names wrote, node?_written names' wrote']
    exact ⟨rfl, rfl⟩

/-- Two stale entrypoints `a` and `b` beside a template `t`. -/
def pairTree : FileTree :=
  ⟨.ofList [([utf8 "a"], .file legacyLoad), ([utf8 "b"], .file legacyLoad),
    ([utf8 "t"], .file (utf8 "x"))]⟩

/-- A template that is read from the files, and a formatter that ends them with a line feed. -/
def endingLines : Environment where
  templatePath := utf8 "t"
  readFault := fun _ => none
  writeFault := fun _ => none
  formatter := some endLine

theorem names_pairTree {path : Text} {l : Location} (listed : path ∈ [utf8 "a", utf8 "b", utf8 "t"])
    (names : pairTree.Names path l) : l = [path] := by
  simp only [List.mem_cons, List.not_mem_nil, or_false] at listed
  obtain rfl | rfl | rfl := listed
  all_goals exact Except.ok.inj (names.1.symm.trans (by rfl))

theorem apart_pairTree : Apart endingLines [utf8 "a", utf8 "b"] pairTree where
  distinct := by
    refine List.pairwise_pair.mpr fun l names names' => ?_
    have same := (names_pairTree (by simp) names).symm.trans (names_pairTree (by simp) names')
    exact absurd same (by decide)
  template := by
    refine .inr fun l named names => ?_
    obtain ⟨path, mem, names'⟩ := named
    have same := (names_pairTree (by decide) names).symm.trans
      (names_pairTree (List.mem_append_left [utf8 "t"] mem) names')
    obtain rfl : utf8 "t" = path := (List.cons.inj same).1
    exact absurd mem (by decide)
  formatter := by
    rintro formatter given
    obtain rfl := Option.some.inj given
    exact keepsTo_endLine _

/-- Two files at once, with a formatter that is never cut off. -/
def twoAtOnce : Terms := ⟨endingLines, ⟨false, true⟩, places 2, fun _ => False⟩

/-- The two entrypoints in flight at once. -/
def bothLaunched : Group where
  tree := pairTree
  cancelled := false
  loop := .looking 2
  members := [⟨utf8 "a", .launched, none⟩, ⟨utf8 "b", .launched, none⟩]
  ledger := .empty

/-- However two entrypoints that are in flight at once go on, the template takes the place of both
and each is ended with a line feed. -/
theorem interleavings_agree_pairTree :
    Group.Reaches twoAtOnce (.start [utf8 "a", utf8 "b"] pairTree) bothLaunched ∧
    bothLaunched.inFlight = 2 ∧
    (∃ last, Group.Reaches twoAtOnce bothLaunched last ∧ last.IsOver ∧ last.cancelled = false) ∧
    ∀ last, Group.Reaches twoAtOnce bothLaunched last → last.IsOver → last.cancelled = false →
        last.passage.batch.results.map (·.path) = [utf8 "a", utf8 "b"] ∧
        (∀ path ∈ [utf8 "a", utf8 "b"],
          last.passage.batch.tree.node? [path] = some (.file (utf8 "x\n"))) ∧
        last.passage.errors = [] := by
  have launched :
      Group.Reaches twoAtOnce (.start [utf8 "a", utf8 "b"] pairTree) bothLaunched := by
    refine .head (.turnTo rfl ?_ rfl) (.head (.handOver rfl ?_ rfl) (.head (.turnTo rfl ?_ rfl)
      (.single (@Group.Step.handOver _ _ 1 ⟨utf8 "b", .pending, none⟩ rfl ?_ rfl))))
    all_goals decide
  refine ⟨launched, rfl, ?_, fun last reaches ended going => ?_⟩
  · exact (interleavings_agree endingLines ⟨false, true⟩ 2 _ _ pairTree apart_pairTree bothLaunched
      launched rfl).1
  · obtain ⟨-, agree⟩ := interleavings_agree endingLines ⟨false, true⟩ 2 _ _ pairTree apart_pairTree
      last (launched.trans reaches) going
    obtain ⟨files, results, errors⟩ := agree ended
    refine ⟨?_, fun path mem => ?_, ?_⟩
    · rw [results]
      rfl
    · rw [files]
      simp only [List.mem_cons, List.not_mem_nil, or_false] at mem
      obtain rfl | rfl := mem
      · rfl
      · rfl
    · exact List.perm_nil.mp errors

end ClassUpgrade.Migration
