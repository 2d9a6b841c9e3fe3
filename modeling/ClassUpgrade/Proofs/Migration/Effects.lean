/-
# Proofs.Migration.Effects — errors leave the files alone

The laws of a migrated file, each read off the ways in which a task can be
finished: what is written and when (`Reached.write_mem_iff`), when a formatter
runs (`Reached.format_mem_iff`), that an error leaves the files as they were
(`Reached.unchanged_of_error`), that a formatter which fails causes none
(`Reached.warning_of_failure`), and that nothing but the file at the path is
touched as long as the formatter keeps to it (`Reached.node?_elsewhere`).
`migrateFile_effects` puts them together for a migration.
-/
import ClassUpgrade.Proofs.Migration.Task

namespace ClassUpgrade.Migration

set_option autoImplicit false

open Document

theorem Environment.write_ok {env : Environment} {tree tree' : FileTree} {path content : Text}
    (wrote : env.write tree path content = .ok tree') : tree.write path content = .ok tree' := by
  unfold Environment.write at wrote
  split at wrote
  · cases wrote
  · exact wrote

/-- A formatter that keeps to the file it is given. -/
def Formatter.Confined (formatter : Formatter) : Prop :=
  ∀ (path : Text) (tree : FileTree) (l : Location), tree.locate path ≠ .ok l →
    (formatter path tree).1.node? l = tree.node? l

variable {env : Environment} {options : Options} {path : Text} {tree : FileTree}

namespace Due

variable {doc : Text} {t : Transformation} {tree' : FileTree}

/-- There is one text that a task can write. -/
theorem unique {doc' : Text} {t' : Transformation} (due : Due env options path tree doc t)
    (due' : Due env options path tree doc' t') : t = t' := by
  obtain rfl := Except.ok.inj (due.loaded.symm.trans due'.loaded)
  exact Except.ok.inj (due.ran.symm.trans due'.ran)

theorem written_unique {doc' : Text} {t' : Transformation} {tree'' : FileTree}
    (due : Due env options path tree doc t) (due' : Due env options path tree doc' t')
    (wrote : env.write tree path t.content = .ok tree')
    (wrote' : env.write tree path t'.content = .ok tree'') : tree' = tree'' := by
  rw [due.unique due'] at wrote
  exact Except.ok.inj (wrote.symm.trans wrote')

theorem read_written (due : Due env options path tree doc t)
    (wrote : env.write tree path t.content = .ok tree') : tree'.read path = .ok t.content := by
  obtain ⟨old, found⟩ := due.found
  exact FileTree.read_of_write found (Environment.write_ok wrote)

theorem locate_written (due : Due env options path tree doc t)
    (wrote : env.write tree path t.content = .ok tree') (other : Text) :
    tree'.locate other = tree.locate other := by
  obtain ⟨old, found⟩ := due.found
  exact FileTree.locate_of_write found (Environment.write_ok wrote) other

theorem node?_written (due : Due env options path tree doc t)
    (wrote : env.write tree path t.content = .ok tree') {l : Location}
    (elsewhere : tree.locate path ≠ .ok l) : tree'.node? l = tree.node? l := by
  obtain ⟨old, found⟩ := due.found
  exact FileTree.node?_of_write found (Environment.write_ok wrote) elsewhere

end Due

namespace Reached

variable {now : FileTree} {r : FileResult FileError} {error : Option FileError}
  {taken : List Action}

/-- The error that a task ends with is the failure that its result names. -/
theorem failure_eq (reached : Reached env options path tree (.finished r error) now taken) :
    r.failure = error := by
  cases reached <;> rfl

/-- At most one write and one run of the formatter, in this order and both at the path. -/
theorem actions_shape (reached : Reached env options path tree (.finished r error) now taken) :
    ∃ content, taken <+: [.write path content, .format path] := by
  cases reached with
  | stopped | settled => exact ⟨[], List.nil_prefix⟩
  | @refused _ _ t | @plain _ t => exact ⟨t.content, [.format path], rfl⟩
  | @formatted _ t | @warned _ t => exact ⟨t.content, [], rfl⟩

theorem write_mem_iff (reached : Reached env options path tree (.finished r error) now taken)
    (content : Text) :
    .write path content ∈ taken ↔
      ∃ doc t, Due env options path tree doc t ∧ content = t.content := by
  -- Where a write is due it is taken, with the one text that can be due.
  have of_due : ∀ {doc t}, Due env options path tree doc t →
      (content = t.content ↔ ∃ doc t, Due env options path tree doc t ∧ content = t.content) := by
    intro doc t due
    constructor
    · exact fun same => ⟨doc, t, due, same⟩
    · rintro ⟨doc', t', due', same⟩
      rw [same, due.unique due']
  cases reached with
  | stopped idle | settled idle =>
      exact iff_of_false List.not_mem_nil fun ⟨doc, t, due, _⟩ => idle doc t due
  | refused due | plain due | formatted due | warned due =>
      rw [← of_due due]
      simp

theorem format_mem_iff (reached : Reached env options path tree (.finished r error) now taken) :
    .format path ∈ taken ↔
      (options.format && env.formatter.isSome) = true ∧
        ∃ doc t tree', Due env options path tree doc t ∧
          env.write tree path t.content = .ok tree' := by
  cases reached with
  | stopped idle | settled idle =>
      exact iff_of_false List.not_mem_nil fun ⟨_, doc, t, _, due, _⟩ => idle doc t due
  | refused due refused =>
      refine iff_of_false (by simp) fun ⟨_, doc', t', tree', due', wrote⟩ => ?_
      rw [← due.unique due', refused] at wrote
      cases wrote
  | plain due wrote unasked => simp [unasked]
  | formatted due wrote asked formatter_eq | warned due wrote asked formatter_eq =>
      exact iff_of_true (by simp) ⟨by simp [asked, formatter_eq], _, _, _, due, wrote⟩

/-- A task that ends with an error has left the files alone and run no formatter. -/
theorem unchanged_of_error {e : FileError}
    (reached : Reached env options path tree (.finished r (some e)) now taken) :
    now = tree ∧ .format path ∉ taken := by
  cases reached with
  | stopped | refused => exact ⟨rfl, by simp⟩

/-- What a formatter says that fails is a warning and no error. -/
theorem warning_of_failure {doc : Text} {t : Transformation} {tree' : FileTree}
    {formatter : Formatter} {e : FormatError}
    (reached : Reached env options path tree (.finished r error) now taken)
    (due : Due env options path tree doc t) (wrote : env.write tree path t.content = .ok tree')
    (asked : options.format = true) (formatter_eq : env.formatter = some formatter)
    (failed : (formatter path tree').2 = some e) :
    error = none ∧ r.warning = e.message := by
  cases reached with
  | stopped idle | settled idle => exact absurd due (idle doc t)
  | refused due' refused =>
      rw [← due.unique due', wrote] at refused
      cases refused
  | plain _ _ unasked =>
      rw [asked, formatter_eq] at unasked
      cases unasked
  | formatted due' wrote' _ formatter_eq' fine =>
      obtain rfl := due.written_unique due' wrote wrote'
      obtain rfl := Option.some.inj (formatter_eq.symm.trans formatter_eq')
      rw [fine] at failed
      cases failed
  | warned due' wrote' _ formatter_eq' failed' =>
      obtain rfl := due.written_unique due' wrote wrote'
      obtain rfl := Option.some.inj (formatter_eq.symm.trans formatter_eq')
      rw [failed'] at failed
      obtain rfl := Option.some.inj failed
      exact ⟨rfl, rfl⟩

/-- Only the file at the path is touched, if the formatter keeps to it. -/
theorem node?_elsewhere (reached : Reached env options path tree (.finished r error) now taken)
    (confined : ∀ formatter, env.formatter = some formatter → formatter.Confined) {l : Location}
    (elsewhere : tree.locate path ≠ .ok l) : now.node? l = tree.node? l := by
  -- The path leads to the same place after the write, so what the formatter keeps to is the file.
  have of_formatted : ∀ {doc t tree' formatter}, Due env options path tree doc t →
      env.write tree path t.content = .ok tree' → env.formatter = some formatter →
        (formatter path tree').1.node? l = tree.node? l := by
    intro doc t tree' formatter due wrote formatter_eq
    have elsewhere' : tree'.locate path ≠ .ok l := by
      rwa [due.locate_written wrote]
    rw [confined formatter formatter_eq path tree' l elsewhere', due.node?_written wrote elsewhere]
  cases reached with
  | stopped | settled | refused => rfl
  | plain due wrote => exact due.node?_written wrote elsewhere
  | formatted due wrote _ formatter_eq fine =>
      have := of_formatted due wrote formatter_eq
      rwa [fine] at this
  | warned due wrote _ formatter_eq failed =>
      have := of_formatted due wrote formatter_eq
      rwa [failed] at this

end Reached

/-- **A migration writes at most once, the transformed text over the file it was made from, and
an error leaves the files alone.** What it does to the files are its actions, performed in order:
at most a write and then a run of the formatter, both at the path. The write is taken exactly when
it is due, and when it succeeds the transformed text is what is read there. The formatter runs
exactly when it is asked for and a write has succeeded. The error is the one that the result
names; with one the files are unchanged and no formatter has run, and a formatter that fails
leaves a warning and no error. Under a formatter that keeps to the file it is given, nothing but
the file at the path changes. -/
theorem migrateFile_effects (env : Environment) (options : Options) (path : Text)
    (tree : FileTree) :
    (∃ content, actionsOf env options path tree <+: [.write path content, .format path]) ∧
    (migrateFile env options path tree).tree =
      (actionsOf env options path tree).foldl env.perform tree ∧
    (∀ content, .write path content ∈ actionsOf env options path tree ↔
      ∃ doc t, Due env options path tree doc t ∧ content = t.content) ∧
    (∀ doc t tree', Due env options path tree doc t → env.write tree path t.content = .ok tree' →
      tree'.read path = .ok t.content) ∧
    (.format path ∈ actionsOf env options path tree ↔
      (options.format && env.formatter.isSome) = true ∧
        ∃ doc t tree', Due env options path tree doc t ∧
          env.write tree path t.content = .ok tree') ∧
    (migrateFile env options path tree).error =
      (migrateFile env options path tree).result.failure ∧
    (∀ e, (migrateFile env options path tree).error = some e →
      (migrateFile env options path tree).tree = tree ∧
        .format path ∉ actionsOf env options path tree) ∧
    (∀ doc t tree' formatter e, Due env options path tree doc t →
      env.write tree path t.content = .ok tree' → options.format = true →
      env.formatter = some formatter → (formatter path tree').2 = some e →
        (migrateFile env options path tree).error = none ∧
          (migrateFile env options path tree).result.warning = e.message) ∧
    ((∀ formatter, env.formatter = some formatter → formatter.Confined) →
      ∀ l, tree.locate path ≠ .ok l →
        (migrateFile env options path tree).tree.node? l = tree.node? l) := by
  have reached := reached_migrateFile env options path tree
  refine ⟨reached.actions_shape, migrateFile_tree env options path tree, reached.write_mem_iff,
    fun doc t tree' due wrote => due.read_written wrote, reached.format_mem_iff,
    reached.failure_eq.symm, fun e failed => ?_, ?_, ?_⟩
  · rw [failed] at reached
    exact reached.unchanged_of_error
  · intro doc t tree' formatter e due wrote asked formatter_eq failed
    exact reached.warning_of_failure due wrote asked formatter_eq failed
  · exact fun confined l elsewhere => reached.node?_elsewhere confined elsewhere

/-- A stale entrypoint `i` beside a template `t`. -/
def staleTree : FileTree :=
  ⟨.ofList [([utf8 "i"], .file legacyLoad), ([utf8 "t"], .file (utf8 "x"))]⟩

/-- A template that is read from the files, and a formatter that fails. -/
def failingFormat : Environment where
  templatePath := utf8 "t"
  readFault := fun _ => none
  writeFault := fun _ => none
  formatter := some (.ofCommand (utf8 "false"))

theorem ofCommand_false (path : Text) (tree : FileTree) :
    Formatter.ofCommand (utf8 "false") path tree =
      (tree, some (.failed (utf8 "false") (.status 1) [])) := by
  rfl

/-- The template takes the place of the entrypoint, the formatter fails, and that is no error. -/
theorem migrateFile_staleTree :
    Due failingFormat ⟨false, true⟩ (utf8 "i") staleTree legacyLoad
      { unchanged (utf8 "x") false with entrypointReplaced := true } ∧
    .write (utf8 "i") (utf8 "x") ∈ actionsOf failingFormat ⟨false, true⟩ (utf8 "i") staleTree ∧
    .format (utf8 "i") ∈ actionsOf failingFormat ⟨false, true⟩ (utf8 "i") staleTree ∧
    (migrateFile failingFormat ⟨false, true⟩ (utf8 "i") staleTree).error = none ∧
    (migrateFile failingFormat ⟨false, true⟩ (utf8 "i") staleTree).result.warning =
      utf8 "formatter unavailable: false: exit status 1" ∧
    (migrateFile failingFormat ⟨false, true⟩ (utf8 "i") staleTree).tree.node? [utf8 "t"] =
      staleTree.node? [utf8 "t"] := by
  have due : Due failingFormat ⟨false, true⟩ (utf8 "i") staleTree legacyLoad
      { unchanged (utf8 "x") false with entrypointReplaced := true } :=
    ⟨⟨legacyLoad, by rfl⟩, by rfl, by rfl, by decide, rfl⟩
  obtain ⟨-, -, write_iff, -, format_iff, -, -, warns, frame⟩ :=
    migrateFile_effects failingFormat ⟨false, true⟩ (utf8 "i") staleTree
  have confined : ∀ formatter, failingFormat.formatter = some formatter → formatter.Confined := by
    rintro _ ⟨⟩ path tree l -
    rw [ofCommand_false]
  have elsewhere : staleTree.locate (utf8 "i") ≠ .ok [utf8 "t"] := by
    have located : staleTree.locate (utf8 "i") = .ok [utf8 "i"] := by rfl
    intro same
    exact absurd (Except.ok.inj (located.symm.trans same)) (by decide)
  obtain ⟨fine, warning⟩ := warns _ _ _ _ _ due rfl rfl rfl rfl
  exact ⟨due, (write_iff _).mpr ⟨_, _, due, rfl⟩, format_iff.mpr ⟨rfl, _, _, _, due, rfl⟩, fine,
    warning, frame confined _ elsewhere⟩

end ClassUpgrade.Migration
