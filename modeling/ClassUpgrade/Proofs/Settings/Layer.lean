/-
# Proofs.Settings.Layer — the highest source decides

A setting may be given on the command line, in the environment, in the file or
not at all. `Settings.load` reads all of them at once; here each setting has a
rule of its own (`Sources.Decodes`): its value is what the highest source that
sets it decodes to, and no source below is looked at.

Two consequences are about changes. What sources below say of the setting may
become anything, also what cannot be decoded, and the load comes to the same
(`value?_of_overrides`). What sources say of one setting may become anything,
and every other one keeps its value (`value?_of_sameBut`). The second rests on
the names: no two settings share a flag, a variable or a name in the file.

A flag that is given has a value because the arguments were parsed: each
assignment passed the check of its flag (`assigned_of_parseArguments`).
-/
import Mathlib.Data.List.Nodup
import ClassUpgrade.Settings.Load

namespace ClassUpgrade

set_option autoImplicit false

namespace Settings

/-! ## Settings one by one -/

namespace Key

/-- What values a setting has. -/
def Carrier : Key → Type
  | .parallel => Int
  | .format => Bool
  | .formatter => Text
  | .template => Text
  | .exclude => List Text
  | .dryRun => Bool
  | .verbose => Bool

/-- The value of a setting, if a value of a source can be one. -/
def decode : (key : Key) → Value → Option key.Carrier
  | .parallel => Value.toInt?
  | .format => Value.toBool?
  | .formatter => Value.toText?
  | .template => Value.toText?
  | .exclude => Value.toTexts?
  | .dryRun => Value.toBool?
  | .verbose => Value.toBool?

/-- The name of a setting is in lower case. -/
theorem lower_name (key : Key) : Text.lower key.name = key.name := by
  cases key <;> decide

theorem mem_all (key : Key) : key ∈ all := by
  cases key <;> decide

/-- Names that differ from setting to setting tell the settings apart. -/
theorem eq_of_nodup {α : Type} {name : Key → α} (nodup : (all.map name).Nodup) {key key' : Key}
    (same : name key = name key') : key = key' :=
  List.inj_on_of_nodup_map nodup (mem_all key) (mem_all key') same

theorem flag_inj {key key' : Key} (same : key.flag = key'.flag) : key = key' :=
  eq_of_nodup (by decide) same

theorem variableName_inj {key key' : Key} (same : key.variableName = key'.variableName) :
    key = key' :=
  eq_of_nodup (by decide) same

theorem name_inj {key key' : Key} (same : key.name = key'.name) : key = key' :=
  eq_of_nodup (by decide) same

end Key

def get (s : Settings) : (key : Key) → key.Carrier
  | .parallel => s.parallel
  | .format => s.format
  | .formatter => s.formatter
  | .template => s.template
  | .exclude => s.exclude
  | .dryRun => s.dryRun
  | .verbose => s.verbose

namespace Sources

/-- The value of a setting, or its default; none when what is taken cannot be decoded. -/
def get? (s : Sources) (key : Key) : Option key.Carrier :=
  s.decode? key key.decode (default.get key)

/-- The settings that the sources give are those whose values they give one by one. -/
theorem settings?_eq_some_iff {s : Sources} {settings : Settings} :
    s.settings? = some settings ↔ ∀ key, s.get? key = some (settings.get key) := by
  simp only [settings?, Option.bind_eq_bind, Option.bind_eq_some_iff, Option.some.injEq]
  constructor
  · rintro ⟨_, parallel, _, format, _, formatter, _, template, _, exclude, _, dryRun, _, verbose,
      rfl⟩ key
    cases key <;> assumption
  · exact fun given => ⟨_, given .parallel, _, given .format, _, given .formatter, _,
      given .template, _, given .exclude, _, given .dryRun, _, given .verbose, rfl⟩

theorem settings?_congr {s s' : Sources} (same : ∀ key, s'.value? key = s.value? key) :
    s'.settings? = s.settings? := by
  refine Option.ext fun settings => ?_
  rw [settings?_eq_some_iff, settings?_eq_some_iff]
  refine forall_congr' fun key => ?_
  simp only [get?, decode?, same key]

end Sources

/-! ## Flags that are given -/

theorem of_map_eq_ok {ε α β : Type} {f : α → β} {x : Except ε α} {b : β}
    (mapped : x.map f = .ok b) : ∃ a, x = .ok a ∧ f a = b := by
  cases x with
  | error e => cases mapped
  | ok a => exact ⟨a, rfl, Except.ok.inj mapped⟩

theorem of_bind_eq_ok {ε α β : Type} {f : α → Except ε β} {x : Except ε α} {b : β}
    (bound : x >>= f = .ok b) : ∃ a, x = .ok a ∧ f a = .ok b := by
  cases x with
  | error e => cases bound
  | ok a => exact ⟨a, rfl, bound⟩

/-- Each option that is given has a value of its kind. -/
def Assigned (as : List Assignment) : Prop := ∀ a ∈ as, assign a.flag a.value = .ok a

theorem assigned_nil : Assigned [] := List.forall_mem_nil _

theorem Assigned.append {as as' : List Assignment} (first : Assigned as) (second : Assigned as') :
    Assigned (as ++ as') :=
  List.forall_mem_append.mpr ⟨first, second⟩

theorem assign_eq_ok {flag : Flag} {value : Text} {a : Assignment}
    (assigned : assign flag value = .ok a) : a = ⟨flag, value⟩ := by
  unfold assign at assigned
  grind

theorem Assigned.cons {flag : Flag} {value : Text} {a : Assignment} {as : List Assignment}
    (assigned : assign flag value = .ok a) (rest : Assigned as) : Assigned (a :: as) := by
  refine List.forall_mem_cons.mpr ⟨?_, rest⟩
  obtain rfl := assign_eq_ok assigned
  exact assigned

theorem assigned_of_lettersOf {flags : List Flag} {letters : Text} {as : List Assignment}
    {last : Option (Flag × Text)} (read : lettersOf flags letters = .ok (as, last)) :
    Assigned as := by
  induction letters generalizing as last with
  | nil =>
      cases read
      exact assigned_nil
  | cons letter rest ih =>
      unfold lettersOf at read
      split at read
      · cases read
        exact assigned_nil
      · split at read
        · split at read <;> cases read
        · rename_i flag _
          split at read
          · obtain ⟨a, assigned, same⟩ := of_map_eq_ok read
            cases same
            exact assigned_nil.cons assigned
          · split at read
            · obtain ⟨a, assigned, read⟩ := of_bind_eq_ok read
              obtain ⟨⟨more, last'⟩, others, same⟩ := of_bind_eq_ok read
              cases same
              exact (ih others).cons assigned
            · split at read
              · cases read
                exact assigned_nil
              · obtain ⟨a, assigned, same⟩ := of_map_eq_ok read
                cases same
                exact assigned_nil.cons assigned

/-- **What is read from arguments has values of the right kind.** -/
theorem assigned_of_parseArguments {flags : List Flag} {args : List Text} {arguments : Arguments}
    (parsed : parseArguments flags args = .ok arguments) : Assigned arguments.assignments := by
  fun_induction parseArguments flags args generalizing arguments with
  | case1 | case2 =>
      cases parsed
      exact assigned_nil
  | case3 | case4 | case5 | case8 => cases parsed
  -- An option with a name takes one value, from wherever.
  | case6 _ _ _ _ _ _ _ _ _ ih | case7 _ _ _ _ _ _ _ _ _ ih | case9 _ _ _ _ _ _ _ _ _ _ ih =>
      obtain ⟨a, assigned, parsed⟩ := of_bind_eq_ok parsed
      obtain ⟨others, read, rfl⟩ := of_map_eq_ok parsed
      exact (ih read).cons assigned
  | case10 rest letter letters _ _ ih ih' =>
      obtain ⟨⟨grouped, last⟩, group, parsed⟩ := of_bind_eq_ok parsed
      have grouped := assigned_of_lettersOf group
      cases last with
      | none =>
          obtain ⟨others, read, rfl⟩ := of_map_eq_ok parsed
          exact grouped.append (ih read)
      | some pending =>
          cases rest with
          | nil => cases parsed
          | cons value rest =>
              obtain ⟨a, assigned, parsed⟩ := of_bind_eq_ok parsed
              obtain ⟨others, read, rfl⟩ := of_map_eq_ok parsed
              exact grouped.append ((ih' read).cons assigned)
  | case11 _ _ _ _ _ ih =>
      obtain ⟨others, read, rfl⟩ := of_map_eq_ok parsed
      have rest := ih read
      exact rest

def Arguments.Gives (args : Arguments) (flag : Flag) : Prop :=
  ∃ a ∈ args.assignments, a.flag = flag

theorem valuesOf_eq_nil_iff {args : Arguments} {flag : Flag} :
    args.valuesOf flag = [] ↔ ¬ args.Gives flag := by
  simp [Arguments.valuesOf, Arguments.Gives]

theorem setting?_eq_none {args : Arguments} {key : Key} (absent : ¬ args.Gives key.flag) :
    args.setting? key = none := by
  rw [Arguments.setting?, valuesOf_eq_nil_iff.mpr absent]
  rfl

/-- An option that is given sets its setting. -/
theorem exists_setting? {args : Arguments} (assigned : Assigned args.assignments) {key : Key}
    (given : args.Gives key.flag) : ∃ v, args.setting? key = some v := by
  cases last_eq : (args.valuesOf key.flag).getLast? with
  | none =>
      rw [List.getLast?_eq_none_iff, valuesOf_eq_nil_iff] at last_eq
      exact absurd given last_eq
  | some last =>
      obtain ⟨a, mem, rfl⟩ := List.mem_map.mp (List.mem_of_getLast? last_eq)
      obtain ⟨mem, flag_eq⟩ := List.mem_filter.mp mem
      have valid := assigned a mem
      rw [of_decide_eq_true flag_eq] at valid
      simp only [Arguments.setting?, last_eq]
      -- What the check of the option's kind accepts can be read.
      unfold assign at valid
      cases kind : key.kind <;> simp only [Key.flag, kind] at valid ⊢
      · split at valid
        · rename_i parsed
          exact ⟨_, by rw [parsed]; rfl⟩
        · cases valid
      · split at valid
        · rename_i parsed
          exact ⟨_, by rw [parsed]; rfl⟩
        · cases valid
      · exact ⟨_, rfl⟩
      · split <;> exact ⟨_, rfl⟩

/-! ## What each source sets -/

namespace Sources

/-- The environment sets the variable of a setting, and not to the empty text. -/
def SetsVariable (s : Sources) (key : Key) (t : Text) : Prop :=
  s.environment.lookup key.variableName = some t ∧ t ≠ []

/-- The entry of a file that counts for a setting: the last one that spells the name otherwise, or
else the last one that spells it as it is. -/
inductive Counts (key : Key) : List (Text × Value) → Value → Prop
  | respelled {front back : List (Text × Value)} {name : Text} {v : Value}
      (named : Text.lower name = key.name) (other : name ≠ key.name)
      (last : ∀ e ∈ back, Text.lower e.1 = key.name → e.1 = key.name) :
      Counts key (front ++ (name, v) :: back) v
  | spelled {front back : List (Text × Value)} {v : Value}
      (only : ∀ e ∈ front ++ back, Text.lower e.1 = key.name → e.1 = key.name)
      (last : ∀ e ∈ back, e.1 ≠ key.name) :
      Counts key (front ++ (key.name, v) :: back) v

/-- The file sets a setting, and not to nothing at all. -/
def SetsEntry (s : Sources) (key : Key) (v : Value) : Prop := Counts key s.file v ∧ v ≠ .null

theorem lookup_eq_find? (environment : List (Text × Text)) (name : Text) :
    environment.lookup name = (environment.find? (·.1 = name)).map Prod.snd := by
  induction environment with
  | nil => rfl
  | cons e rest ih =>
      obtain ⟨other, t⟩ := e
      by_cases same : other = name
      · simp [same]
      · simp [List.lookup_cons, same, ih, beq_false_of_ne (Ne.symm same)]

theorem environment?_eq_some_iff {s : Sources} {key : Key} {v : Value} :
    s.environment? key = some v ↔ ∃ t, s.SetsVariable key t ∧ v = .text t := by
  simp only [environment?, SetsVariable, lookup_eq_find?]
  cases s.environment.find? (·.1 = key.variableName) with
  | none => simp
  | some e =>
      obtain ⟨name, t⟩ := e
      cases t with
      | nil => simp
      | cons b rest => simp [eq_comm]

theorem getLast?_filter_eq_some_iff {α : Type} {p : α → Bool} {l : List α} {a : α} :
    (l.filter p).getLast? = some a ↔
      ∃ front back, l = front ++ a :: back ∧ p a = true ∧ ∀ b ∈ back, p b = false := by
  rw [List.getLast?_eq_some_iff]
  constructor
  · rintro ⟨ys, filtered⟩
    obtain ⟨front, rest, rfl, -, last⟩ := List.filter_eq_append_iff.mp filtered
    obtain ⟨between, back, rfl, -, kept, none_left⟩ := List.filter_eq_cons_iff.mp last
    rw [List.filter_eq_nil_iff] at none_left
    exact ⟨front ++ between, back, by simp, kept, by simpa using none_left⟩
  · rintro ⟨front, back, rfl, kept, none_left⟩
    refine ⟨front.filter p, ?_⟩
    have emptied : back.filter p = [] := List.filter_eq_nil_iff.mpr (by simpa using none_left)
    rw [List.filter_append, List.filter_cons_of_pos kept, emptied]

/-- Nothing spells the name of a setting otherwise. -/
theorem respelled_eq_nil_iff {key : Key} {file : List (Text × Value)} :
    (file.filter fun e => decide (e.1 ≠ key.name) && decide (Text.lower e.1 = key.name)) = [] ↔
      ∀ e ∈ file, Text.lower e.1 = key.name → e.1 = key.name := by
  rw [List.filter_eq_nil_iff]
  refine forall₂_congr fun e _ => ?_
  rw [Bool.and_eq_true, decide_eq_true_iff, decide_eq_true_iff]
  tauto

theorem counts_iff {key : Key} {file : List (Text × Value)} {v : Value} :
    Counts key file v ↔
      let named := file.filter fun e => Text.lower e.1 = key.name
      let respelled := named.filter fun e => e.1 ≠ key.name
      ∃ name, (respelled.getLast?.orElse fun _ => named.getLast?) = some (name, v) := by
  dsimp only
  rw [List.filter_filter]
  constructor
  · rintro (⟨named, other, last⟩ | ⟨only, last⟩)
    · rename_i front back name
      refine ⟨name, ?_⟩
      have plain := List.filter_eq_nil_iff.mp (respelled_eq_nil_iff.mpr last)
      rw [getLast?_filter_eq_some_iff.mpr
        ⟨front, back, rfl, by simp [named, other], by simpa using plain⟩]
      rfl
    · rename_i front back
      have plain : ∀ e ∈ front ++ (key.name, v) :: back,
          Text.lower e.1 = key.name → e.1 = key.name := by
        rw [List.forall_mem_append, List.forall_mem_cons]
        rw [List.forall_mem_append] at only
        exact ⟨only.1, fun _ => rfl, only.2⟩
      refine ⟨key.name, ?_⟩
      rw [respelled_eq_nil_iff.mpr plain, List.getLast?_nil, Option.orElse_none]
      refine getLast?_filter_eq_some_iff.mpr ⟨front, back, rfl, decide_eq_true key.lower_name,
        fun e mem => decide_eq_false fun named => ?_⟩
      exact last e mem (only e (List.mem_append_right _ mem) named)
  · rintro ⟨name, counted⟩
    cases respelled : (file.filter fun e =>
        decide (e.1 ≠ key.name) && decide (Text.lower e.1 = key.name)).getLast? with
    | some e =>
        rw [respelled] at counted
        obtain rfl := Option.some.inj counted
        obtain ⟨front, back, rfl, counts, last⟩ := getLast?_filter_eq_some_iff.mp respelled
        rw [Bool.and_eq_true, decide_eq_true_iff, decide_eq_true_iff] at counts
        refine .respelled counts.2 counts.1 (respelled_eq_nil_iff.mp ?_)
        exact List.filter_eq_nil_iff.mpr (by simpa using last)
    | none =>
        rw [respelled, Option.orElse_none] at counted
        have plain := respelled_eq_nil_iff.mp (List.getLast?_eq_none_iff.mp respelled)
        obtain ⟨front, back, rfl, named, last⟩ := getLast?_filter_eq_some_iff.mp counted
        rw [List.forall_mem_append, List.forall_mem_cons] at plain
        obtain ⟨before, here, behind⟩ := plain
        obtain rfl := here (of_decide_eq_true named)
        refine .spelled (List.forall_mem_append.mpr ⟨before, behind⟩) fun e mem same => ?_
        exact of_decide_eq_false (last e mem) (same ▸ key.lower_name)

theorem file?_eq_some_iff {s : Sources} {key : Key} {v : Value} :
    s.file? key = some v ↔ s.SetsEntry key v := by
  rw [SetsEntry, counts_iff, file?]
  dsimp only
  generalize (Option.orElse _ _ : Option (Text × Value)) = counted
  cases counted with
  | none => simp
  | some e =>
      obtain ⟨name, w⟩ := e
      cases w <;> simp <;> grind

/-- **The value of a setting**: what the highest source that sets it decodes to, and the default
where none does. -/
inductive Decodes (s : Sources) (key : Key) (x : key.Carrier) : Prop
  | option {v : Value} (given : s.arguments.Gives key.flag)
      (taken : s.arguments.setting? key = some v) (decoded : key.decode v = some x)
  | variable {t : Text} (noOption : ¬ s.arguments.Gives key.flag) (set : s.SetsVariable key t)
      (decoded : key.decode (.text t) = some x)
  | entry {v : Value} (noOption : ¬ s.arguments.Gives key.flag)
      (noVariable : ∀ t, ¬ s.SetsVariable key t) (set : s.SetsEntry key v)
      (decoded : key.decode v = some x)
  | unset (noOption : ¬ s.arguments.Gives key.flag) (noVariable : ∀ t, ¬ s.SetsVariable key t)
      (noEntry : ∀ v, ¬ s.SetsEntry key v) (same : x = default.get key)

/-- What the sources set a setting to, the highest first. -/
theorem value?_eq (s : Sources) (key : Key) :
    s.value? key = (s.arguments.setting? key).or ((s.environment? key).or (s.file? key)) := by
  rw [value?]
  cases s.arguments.setting? key with
  | some v => rfl
  | none => cases s.environment? key <;> rfl

theorem environment?_eq_none {s : Sources} {key : Key} (unset : ∀ t, ¬ s.SetsVariable key t) :
    s.environment? key = none := by
  refine Option.eq_none_iff_forall_ne_some.mpr fun v set => ?_
  obtain ⟨t, set, -⟩ := environment?_eq_some_iff.mp set
  exact unset t set

theorem file?_eq_none {s : Sources} {key : Key} (unset : ∀ v, ¬ s.SetsEntry key v) :
    s.file? key = none :=
  Option.eq_none_iff_forall_ne_some.mpr fun v set => unset v (file?_eq_some_iff.mp set)

/-- A setting has the value that its rule gives it. -/
theorem decodes_iff {s : Sources} (assigned : Assigned s.arguments.assignments) {key : Key}
    {x : key.Carrier} : s.Decodes key x ↔ s.get? key = some x := by
  rw [get?, decode?, value?_eq]
  constructor
  · rintro (⟨-, taken, decoded⟩ | ⟨noOption, set, decoded⟩ | ⟨noOption, noVariable, set, decoded⟩ |
      ⟨noOption, noVariable, noEntry, rfl⟩)
    · rw [taken]
      exact decoded
    · rw [setting?_eq_none noOption, environment?_eq_some_iff.mpr ⟨_, set, rfl⟩]
      exact decoded
    · rw [setting?_eq_none noOption, environment?_eq_none noVariable, file?_eq_some_iff.mpr set]
      exact decoded
    · rw [setting?_eq_none noOption, environment?_eq_none noVariable, file?_eq_none noEntry]
      rfl
  · intro decoded
    by_cases given : s.arguments.Gives key.flag
    · obtain ⟨v, taken⟩ := exists_setting? assigned given
      rw [taken] at decoded
      exact .option given taken decoded
    · rw [setting?_eq_none given] at decoded
      by_cases set : ∃ t, s.SetsVariable key t
      · obtain ⟨t, set⟩ := set
        rw [environment?_eq_some_iff.mpr ⟨t, set, rfl⟩] at decoded
        exact .variable given set decoded
      · rw [not_exists] at set
        rw [environment?_eq_none set] at decoded
        by_cases listed : ∃ v, s.SetsEntry key v
        · obtain ⟨v, listed⟩ := listed
          rw [file?_eq_some_iff.mpr listed] at decoded
          exact .entry given set listed decoded
        · rw [not_exists] at listed
          rw [file?_eq_none listed] at decoded
          exact .unset given set listed (Option.some.inj decoded).symm

/-! ## Sources that change -/

/-- Sources that say the same of every setting but one. -/
structure SameBut (key : Key) (s s' : Sources) : Prop where
  arguments : s'.arguments.assignments.filter (·.flag ≠ key.flag) =
    s.arguments.assignments.filter (·.flag ≠ key.flag)
  environment : s'.environment.filter (·.1 ≠ key.variableName) =
    s.environment.filter (·.1 ≠ key.variableName)
  file : s'.file.filter (Text.lower ·.1 ≠ key.name) = s.file.filter (Text.lower ·.1 ≠ key.name)

/-- Sources that differ in what they say of one setting below a source that sets it. -/
structure Overrides (key : Key) (s s' : Sources) : Prop where
  sameBut : SameBut key s s'
  arguments : s'.arguments = s.arguments
  above : s.arguments.Gives key.flag ∨
    (∃ t, s.SetsVariable key t) ∧ s'.environment = s.environment

/-- What lists have under one name is the same if they differ under another one only. -/
theorem filter_named_congr {α β : Type} [DecidableEq β] {name : α → β} {b b' : β}
    (other : b' ≠ b) {l l' : List α}
    (same : l'.filter (name · ≠ b) = l.filter (name · ≠ b)) :
    l'.filter (name · = b') = l.filter (name · = b') := by
  have left_out : ∀ m : List α, (m.filter (name · ≠ b)).filter (name · = b') =
      m.filter (name · = b') := by
    intro m
    rw [List.filter_filter]
    refine List.filter_congr fun a _ => ?_
    by_cases named : name a = b' <;> simp [named, other]
  rw [← left_out, same, left_out]

/-- **Another setting** is set to the same. -/
theorem value?_of_sameBut {key key' : Key} {s s' : Sources} (same : SameBut key s s')
    (other : key' ≠ key) : s'.value? key' = s.value? key' := by
  have arguments : s'.arguments.setting? key' = s.arguments.setting? key' := by
    have named := filter_named_congr (other ∘ Key.flag_inj) same.arguments
    rw [Arguments.setting?, Arguments.valuesOf, named]
    rfl
  have environment : s'.environment? key' = s.environment? key' := by
    have named := filter_named_congr (other ∘ Key.variableName_inj) same.environment
    rw [environment?, ← List.head?_filter, named, List.head?_filter]
    rfl
  have file : s'.file? key' = s.file? key' := by
    have named := filter_named_congr (other ∘ Key.name_inj) same.file
    rw [file?, named]
    rfl
  rw [value?, value?, arguments, environment, file]

/-- **What stands below a source that sets a setting** does not count, for this and for any other. -/
theorem value?_of_overrides {key : Key} {s s' : Sources}
    (assigned : Assigned s.arguments.assignments) (overrides : Overrides key s s') (key' : Key) :
    s'.value? key' = s.value? key' := by
  by_cases same : key' = key
  · subst same
    rw [value?_eq, value?_eq, overrides.arguments]
    obtain given | ⟨⟨t, set⟩, kept⟩ := overrides.above
    · obtain ⟨v, taken⟩ := exists_setting? assigned given
      rw [taken]
      rfl
    · have taken := environment?_eq_some_iff.mpr ⟨t, set, rfl⟩
      have taken' : s'.environment? key' = some (.text t) := by
        rw [environment?, kept]
        exact taken
      rw [taken, taken']
      rfl
  · exact value?_of_sameBut overrides.sameBut same

end Sources

/-! ## The load -/

def fileOf (tree : FileTree) (path : Text) : Except LoadError (List (Text × Value)) :=
  if path.isEmpty then findFile tree fileNames else readFile tree path

theorem load_of_fileOf {tree : FileTree} {path : Text} {s : Sources}
    (read : fileOf tree path = .ok s.file) :
    load tree path s.environment s.arguments =
      match s.settings? with
      | none => .error .undecodable
      | some settings =>
        if settings.problems.isEmpty then .ok settings else .error (.invalid settings.problems) := by
  rw [fileOf] at read
  rewrite [load, read]
  rfl

theorem load_eq_ok_iff {tree : FileTree} {path : Text} {s : Sources}
    (read : fileOf tree path = .ok s.file) {settings : Settings} :
    load tree path s.environment s.arguments = .ok settings ↔
      (∀ key, s.get? key = some (settings.get key)) ∧ settings.problems = [] := by
  rw [load_of_fileOf read, ← Sources.settings?_eq_some_iff]
  cases s.settings? with
  | none => simp
  | some given =>
      by_cases valid : given.problems = []
      · simp only [List.isEmpty_iff, if_pos valid, Except.ok.injEq, Option.some.injEq]
        exact ⟨fun same => ⟨same, same ▸ valid⟩, And.left⟩
      · simp only [List.isEmpty_iff, if_neg valid, Option.some.injEq, reduceCtorEq, false_iff]
        rintro ⟨rfl, none_left⟩
        exact valid none_left

/-- **The highest source decides.** The arguments are parsed and the file can be read. Then the load
succeeds exactly with valid settings whose values decode, each from the highest source that sets
it. What sources below say of a setting may change: the load comes to the same, a failure included.
What any source says of a setting may change: every other setting keeps its value. -/
theorem highest_source_decides {flags : List Flag} {args : List Text} {s : Sources}
    (parsed : parseArguments flags args = .ok s.arguments) {tree : FileTree} {path : Text}
    (read : fileOf tree path = .ok s.file) :
    (∀ settings, load tree path s.environment s.arguments = .ok settings ↔
      (∀ key, s.Decodes key (settings.get key)) ∧ settings.problems = []) ∧
    ∀ (args' : List Text) (s' : Sources) (tree' : FileTree) (path' : Text),
      parseArguments flags args' = .ok s'.arguments → fileOf tree' path' = .ok s'.file →
      (∀ key, s.Overrides key s' → load tree' path' s'.environment s'.arguments =
        load tree path s.environment s.arguments) ∧
      ∀ key, s.SameBut key s' → ∀ key', key' ≠ key →
        (∀ x, s'.Decodes key' x ↔ s.Decodes key' x) ∧
        ∀ settings settings', load tree path s.environment s.arguments = .ok settings →
          load tree' path' s'.environment s'.arguments = .ok settings' →
            settings'.get key' = settings.get key' := by
  have assigned := assigned_of_parseArguments parsed
  refine ⟨fun settings => ?_, fun args' s' tree' path' parsed' read' => ⟨fun key overrides => ?_,
    fun key same key' other => ⟨fun x => ?_, fun settings settings' loaded loaded' => ?_⟩⟩⟩
  · rw [load_eq_ok_iff read]
    exact and_congr_left fun _ => forall_congr' fun key => (Sources.decodes_iff assigned).symm
  · rw [load_of_fileOf read', load_of_fileOf read,
      Sources.settings?_congr (Sources.value?_of_overrides assigned overrides)]
  · rw [Sources.decodes_iff (assigned_of_parseArguments parsed'), Sources.decodes_iff assigned,
      Sources.get?, Sources.decode?, Sources.value?_of_sameBut same other]
    rfl
  · have value := ((load_eq_ok_iff read).mp loaded).1 key'
    have value' := ((load_eq_ok_iff read').mp loaded').1 key'
    rw [Sources.get?, Sources.decode?, Sources.value?_of_sameBut same other] at value'
    exact Option.some.inj (value'.symm.trans value)

/-- A dry run over four files at once, without formatting, with two patterns left out and every step
logged. The command line sets the dry run, of which the environment and the file say something else.
The environment sets the formatting, the file everything else but the formatter and the template,
which are unset. -/
def dryByFlag : Sources where
  arguments := ⟨[⟨Key.dryRun.flag, switchedOn⟩], []⟩
  environment := [(Key.dryRun.variableName, utf8 "maybe"), (Key.format.variableName, utf8 "false")]
  file := [(utf8 "parallel", .text (utf8 "4")), (utf8 "dry_run", .text (utf8 "no")),
    (utf8 "exclude", .list [.text (utf8 "dist/**"), .text (utf8 "*.min.js")]),
    (utf8 "verbose", .bool true)]

/-- The same, where the environment does not say it and the file has a list. -/
def dryByFlagStill : Sources where
  arguments := dryByFlag.arguments
  environment := [(Key.format.variableName, utf8 "false")]
  file := [(utf8 "parallel", .text (utf8 "4")),
    (utf8 "exclude", .list [.text (utf8 "dist/**"), .text (utf8 "*.min.js")]),
    (utf8 "verbose", .bool true), (utf8 "Dry_Run", .list [.text (utf8 "no")])]

/-- The settings that both give. -/
def dryRunOfFour : Settings :=
  { default with
    parallel := 4
    format := false
    exclude := [utf8 "dist/**", utf8 "*.min.js"]
    dryRun := true
    verbose := true }

/-- The file of `dryByFlag`. -/
def textInFile : FileTree :=
  ⟨.ofList [([utf8 "c.json"], .file (utf8 "\x7b\"parallel\": \"4\", \"dry_run\": \"no\", " ++
    utf8 "\"exclude\": [\"dist/**\", \"*.min.js\"], \"verbose\": true\x7d"))]⟩

/-- The file of `dryByFlagStill`. -/
def listInFile : FileTree :=
  ⟨.ofList [([utf8 "c.json"], .file (utf8 "\x7b\"parallel\": \"4\", " ++
    utf8 "\"exclude\": [\"dist/**\", \"*.min.js\"], \"verbose\": true, \"Dry_Run\": [\"no\"]\x7d"))]⟩

set_option maxRecDepth 10000 in
theorem highest_source_decides_dryByFlag :
    parseArguments settingFlags [utf8 "--dry-run"] = .ok dryByFlag.arguments ∧
    fileOf textInFile (utf8 "c.json") = .ok dryByFlag.file ∧
    load textInFile (utf8 "c.json") dryByFlag.environment dryByFlag.arguments = .ok dryRunOfFour ∧
    load listInFile (utf8 "c.json") dryByFlagStill.environment dryByFlagStill.arguments =
      .ok dryRunOfFour ∧
    (∀ key, dryByFlag.Decodes key (dryRunOfFour.get key)) ∧
    ∀ key ≠ .dryRun, dryByFlagStill.Decodes key (dryRunOfFour.get key) := by
  have parsed : parseArguments settingFlags [utf8 "--dry-run"] = .ok dryByFlag.arguments := by rfl
  have read : fileOf textInFile (utf8 "c.json") = .ok dryByFlag.file := by rfl
  have read' : fileOf listInFile (utf8 "c.json") = .ok dryByFlagStill.file := by rfl
  have sameBut : dryByFlag.SameBut .dryRun dryByFlagStill := ⟨rfl, rfl, rfl⟩
  have overrides : dryByFlag.Overrides .dryRun dryByFlagStill :=
    ⟨sameBut, rfl, .inl ⟨_, List.mem_cons_self, rfl⟩⟩
  obtain ⟨loads, changes⟩ := highest_source_decides parsed read
  obtain ⟨below, aside⟩ := changes _ dryByFlagStill _ _ parsed read'
  have loaded : load textInFile (utf8 "c.json") dryByFlag.environment dryByFlag.arguments =
      .ok dryRunOfFour := by
    rewrite [load_of_fileOf read]
    rfl
  have decoded := ((loads _).mp loaded).1
  refine ⟨parsed, read, loaded, (below _ overrides).trans loaded, decoded, fun key other => ?_⟩
  exact ((aside .dryRun sameBut key other).1 _).mpr (decoded key)

end Settings

end ClassUpgrade
