/-
# Proofs.Files.WellFormed — trees as file systems have them

A tree is a table from locations to nodes, and the table alone allows a file
below a file or a name with a slash. A well-formed tree has neither: whatever
stands in it stands in a directory, under a name that a path can spell. The
program changes a tree by writing files only, and a write keeps it well-formed.

* `WellFormed.directory`: the way to what stands in a tree leads through directories;
* `follow_directories`: a path through directories leads where it says;
* `WellFormed.write`: a tree that is written to stays well-formed.
-/
import ClassUpgrade.Proofs.Files.Path
import ClassUpgrade.Proofs.Files.Tree
import Mathlib.Data.List.Induction

namespace ClassUpgrade

set_option autoImplicit false

open Byte

namespace FileTree

/-- A name that a path can spell. -/
abbrev Spellable (s : Text) : Prop := s ≠ [] ∧ s ≠ Path.here ∧ s ≠ Path.above ∧ slash ∉ s

/-- Every file and every directory stands in a directory, under a name that a path can spell. -/
def WellFormed (tree : FileTree) : Prop :=
  ∀ l ∈ tree.nodes.keys, l ≠ [] ∧ (∀ s ∈ l, Spellable s) ∧
    tree.node? l.dropLast = some .directory

instance (tree : FileTree) : Decidable tree.WellFormed :=
  inferInstanceAs (Decidable (∀ l ∈ tree.nodes.keys, _))

/-! ## What stands in a tree -/

theorem mem_keys_of_node? {tree : FileTree} {l : Location} (ne_nil : l ≠ [])
    (standing : (tree.node? l).isSome = true) : l ∈ tree.nodes.keys := by
  rw [node?, if_neg (by simpa using ne_nil), Table.get?, Option.isSome_map] at standing
  obtain ⟨e, found⟩ := Option.isSome_iff_exists.mp standing
  have same := List.find?_some found
  exact List.mem_map.mpr ⟨e, List.mem_of_find?_eq_some found, by simpa using same⟩

theorem mem_keys_of_mem_files {tree : FileTree} {l : Location} {content : Text}
    (mem : (l, content) ∈ tree.files) : l ∈ tree.nodes.keys := by
  obtain ⟨⟨l', node⟩, entry, found⟩ := List.mem_filterMap.mp mem
  cases node with
  | directory => cases found
  | file content' =>
      obtain ⟨rfl, -⟩ := Prod.mk.inj (Option.some.inj found)
      exact List.mem_map_of_mem entry

/-- On the way to what stands in a tree there are only directories. -/
theorem WellFormed.directory {tree : FileTree} (wellFormed : tree.WellFormed) {l m : Location}
    (mem : l ++ m ∈ tree.nodes.keys) (below : m ≠ []) : tree.node? l = some .directory := by
  induction m using List.reverseRecOn with
  | nil => exact absurd rfl below
  | append_singleton m s ih =>
      have parent := (wellFormed _ mem).2.2
      rw [← List.append_assoc, List.dropLast_concat] at parent
      by_cases last : m = []
      · rwa [last, List.append_nil] at parent
      · refine ih (mem_keys_of_node? ?_ (by rw [parent]; rfl)) last
        exact List.append_ne_nil_of_right_ne_nil l last

/-! ## Paths -/

/-- A path is followed through directories, unless one of its names is too long. -/
theorem follow_directories {tree : FileTree} : ∀ {names : List Text} {l : Location},
    (∀ s ∈ names, s ≠ [] ∧ s ≠ Path.here ∧ s ≠ Path.above) →
    (∀ m, m <+: names → m ≠ names → tree.node? (l ++ m) = some .directory) →
    tree.follow l names = .ok (l ++ names) ∨ tree.follow l names = .error .tooLong
  | [], l, _, _ => .inl (by rw [follow, List.append_nil])
  | s :: rest, l, named, directories => by
      have directory : tree.node? l = some .directory := by
        have := directories [] List.nil_prefix (List.cons_ne_nil s rest).symm
        rwa [List.append_nil] at this
      obtain ⟨nonempty, elsewhere, down⟩ := named s List.mem_cons_self
      rw [follow, directory]
      simp only [nonempty, elsewhere, down, or_self, if_false]
      split
      · exact .inr rfl
      · have onward : tree.follow (l ++ [s]) rest = .ok (l ++ [s] ++ rest) ∨
            tree.follow (l ++ [s]) rest = .error .tooLong := by
          refine follow_directories (fun t mem => named t (List.mem_cons_of_mem s mem))
            fun m front other => ?_
          rw [List.append_assoc]
          refine directories _ ((List.prefix_cons_inj s).mpr front) fun same => ?_
          exact other (List.cons.inj same).2
        rwa [List.append_assoc] at onward

/-- Following a path goes up and down between locations of spellable names. -/
theorem spellable_of_follow {tree : FileTree} : ∀ {names : List Text} {l l' : Location},
    (∀ s ∈ l, Spellable s) → (∀ s ∈ names, slash ∉ s) → tree.follow l names = .ok l' →
    ∀ s ∈ l', Spellable s
  | [], l, l', spellable, _, followed => by
      obtain rfl := Except.ok.inj followed
      exact spellable
  | t :: rest, l, l', spellable, free, followed => by
      have free' : ∀ s ∈ rest, slash ∉ s := fun s mem => free s (List.mem_cons_of_mem t mem)
      rw [follow] at followed
      split at followed
      · cases followed
      · cases followed
      · split at followed
        · exact spellable_of_follow spellable free' followed
        · rename_i named
          split at followed
          · split at followed
            · cases followed
            · refine spellable_of_follow (fun s mem => ?_) free' followed
              exact spellable s (List.dropLast_subset l mem)
          · rename_i down
            split at followed
            · cases followed
            · refine spellable_of_follow (fun s mem => ?_) free' followed
              rcases List.mem_append.mp mem with mem | mem
              · exact spellable s mem
              · obtain rfl := List.mem_singleton.mp mem
                obtain ⟨nonempty, elsewhere⟩ := not_or.mp named
                exact ⟨nonempty, elsewhere, down, free s List.mem_cons_self⟩

theorem spellable_of_locate {tree : FileTree} {path : Text} {l : Location}
    (located : tree.locate path = .ok l) : ∀ s ∈ l, Spellable s := by
  unfold locate at located
  split at located
  · cases located
  · split at located
    · cases located
    · split at located
      · cases located
      · exact spellable_of_follow (fun s mem => absurd mem List.not_mem_nil)
          (fun s mem => Path.free_of_mem_segments mem) located

/-! ## Writing -/

/-- A file can be put where no directory is, in a directory. -/
theorem WellFormed.putFile {tree : FileTree} (wellFormed : tree.WellFormed) {l : Location}
    (content : Text) (spellable : ∀ s ∈ l, Spellable s)
    (parent : tree.node? l.dropLast = some .directory) (free : tree.node? l ≠ some .directory) :
    (tree.putFile l content).WellFormed := by
  have below : l ≠ [] := by
    rintro rfl
    exact free rfl
  -- A location that was a directory is another one than that of the file.
  have kept : ∀ {m : Location}, tree.node? m = some .directory →
      (tree.putFile l content).node? m = some .directory := by
    intro m directory
    rw [node?_putFile tree content below, if_neg, directory]
    rintro rfl
    exact free directory
  intro m mem
  obtain ⟨e, entry, rfl⟩ := List.mem_map.mp mem
  rcases Table.fst_of_mem_insertEntry entry with place | old
  · rw [place]
    exact ⟨below, spellable, kept parent⟩
  · obtain ⟨ne_nil, named, directory⟩ := wellFormed e.1 (List.mem_map_of_mem old)
    exact ⟨ne_nil, named, kept directory⟩

/-- **A tree that is written to stays well-formed.** -/
theorem WellFormed.write {tree tree' : FileTree} (wellFormed : tree.WellFormed)
    {path content : Text} (wrote : tree.write path content = .ok tree') : tree'.WellFormed := by
  unfold FileTree.write at wrote
  split at wrote
  · cases wrote
  · rename_i l located
    have spellable := spellable_of_locate located
    split at wrote
    · cases wrote
    · rename_i old standing
      obtain rfl := Except.ok.inj wrote
      have parent := (wellFormed l (mem_keys_of_node? (ne_nil_of_node?_file standing)
        (by rw [standing]; rfl))).2.2
      exact wellFormed.putFile content spellable parent (by simp [standing])
    · rename_i missing
      split at wrote
      · rename_i parent
        obtain rfl := Except.ok.inj wrote
        exact wellFormed.putFile content spellable parent (by simp [missing])
      · cases wrote
      · cases wrote

end FileTree

end ClassUpgrade
