/-
# Proofs.Files.Tree — writing over a file

A write over a file that exists changes what stands at one location and
nothing else. In particular it keeps the shape of the tree, which files and
which directories there are, and a path is followed by the shape alone: every
path names after the write what it named before.

* `Table.get?_insert`: what a table answers after an insertion;
* `locate_congr`: trees of one shape give every path the same location;
* `write_of_stat`: a write over a file succeeds, and is an insertion;
* `node?_of_write`, `read_of_write`: what stands where after it.
-/
import ClassUpgrade.Files.Tree

namespace ClassUpgrade

set_option autoImplicit false

namespace Table

variable {κ α : Type} [LT κ] [DecidableLT κ] [DecidableEq κ]

theorem find?_insertEntry (key k : κ) (value : α) (entries : List (κ × α)) :
    ((insertEntry key value entries).find? fun e => e.1 = k).map Prod.snd =
      if k = key then some value else (entries.find? fun e => e.1 = k).map Prod.snd := by
  induction entries with
  | nil => grind [insertEntry]
  | cons e rest ih =>
      -- In front of the first entry, in its place, or behind it.
      unfold insertEntry
      split
      · grind
      · split
        · grind
        · grind

theorem get?_insert [LE κ] [Std.IsLinearOrder κ] [Std.LawfulOrderLT κ] (t : Table κ α)
    (key k : κ) (value : α) :
    (t.insert key value).get? k = if k = key then some value else t.get? k :=
  find?_insertEntry key k value t.entries

end Table

namespace FileTree

/-! ## The shape of a tree -/

def isDirectoryNode : Node → Bool
  | .directory => true
  | .file _ => false

/-- Two trees with files and directories at the same locations, whatever the files hold. -/
def SameShape (a b : FileTree) : Prop :=
  ∀ l, (a.node? l).map isDirectoryNode = (b.node? l).map isDirectoryNode

theorem follow_congr {a b : FileTree} (same : SameShape a b) :
    ∀ (segments : List Text) (l : Location), a.follow l segments = b.follow l segments
  | [], l => rfl
  | s :: rest, l => by
      have here := same l
      unfold follow
      cases atA : a.node? l with
      | none =>
          cases atB : b.node? l with
          | none => rfl
          | some node => rw [atA, atB] at here; cases here
      | some node =>
          cases atB : b.node? l with
          | none => rw [atA, atB] at here; cases here
          | some node' =>
              rw [atA, atB] at here
              cases node <;> cases node' <;> simp [isDirectoryNode] at here ⊢
              simp only [follow_congr same rest]

theorem locate_congr {a b : FileTree} (same : SameShape a b) (path : Text) :
    a.locate path = b.locate path := by
  unfold locate
  rw [follow_congr same]

/-! ## Writing over a file -/

/-- Where a path that names a file leads. -/
theorem locate_of_stat {tree : FileTree} {path old : Text}
    (found : tree.stat path = .ok (.file old)) :
    ∃ l, tree.locate path = .ok l ∧ tree.node? l = some (.file old) := by
  unfold stat at found
  split at found
  · split at found <;> cases found
  · rename_i l located
    split at found
    · rename_i node standing
      obtain rfl := Except.ok.inj found
      exact ⟨l, located, standing⟩
    · cases found

theorem stat_of_locate {tree : FileTree} {path : Text} {l : Location} {node : Node}
    (located : tree.locate path = .ok l) (standing : tree.node? l = some node) :
    tree.stat path = .ok node := by
  simp only [stat, located, standing]

theorem ne_nil_of_node?_file {tree : FileTree} {l : Location} {content : Text}
    (standing : tree.node? l = some (.file content)) : l ≠ [] := by
  rintro rfl
  cases standing

theorem node?_putFile (tree : FileTree) {l : Location} (content : Text) (below : l ≠ [])
    (l' : Location) :
    (tree.putFile l content).node? l' = if l' = l then some (.file content) else tree.node? l' := by
  unfold node? putFile
  cases l' with
  | nil => simp [below.symm]
  | cons s rest => exact Table.get?_insert tree.nodes l (s :: rest) (.file content)

theorem sameShape_putFile {tree : FileTree} {l : Location} {old : Text} (content : Text)
    (standing : tree.node? l = some (.file old)) : SameShape (tree.putFile l content) tree := by
  intro l'
  rw [node?_putFile tree content (ne_nil_of_node?_file standing)]
  split
  · rename_i same
    rw [same, standing]
    rfl
  · rfl

/-- A write over a file succeeds and puts the content in the file's place. -/
theorem write_of_stat {tree : FileTree} {path old : Text} (content : Text)
    (found : tree.stat path = .ok (.file old)) :
    ∃ l, tree.locate path = .ok l ∧ tree.node? l = some (.file old) ∧
      tree.write path content = .ok (tree.putFile l content) := by
  obtain ⟨l, located, standing⟩ := locate_of_stat found
  refine ⟨l, located, standing, ?_⟩
  simp only [write, located, standing]

/-- Every path names the same location after a write over a file as before it. -/
theorem locate_of_write {tree tree' : FileTree} {path content old : Text}
    (found : tree.stat path = .ok (.file old)) (wrote : tree.write path content = .ok tree')
    (other : Text) : tree'.locate other = tree.locate other := by
  obtain ⟨l, -, standing, write_eq⟩ := write_of_stat content found
  rw [write_eq] at wrote
  obtain rfl := Except.ok.inj wrote
  exact locate_congr (sameShape_putFile content standing) other

/-- A write over a file leaves everything else where it is. -/
theorem node?_of_write {tree tree' : FileTree} {path content old : Text}
    (found : tree.stat path = .ok (.file old)) (wrote : tree.write path content = .ok tree')
    {l : Location} (elsewhere : tree.locate path ≠ .ok l) : tree'.node? l = tree.node? l := by
  obtain ⟨place, located, standing, write_eq⟩ := write_of_stat content found
  rw [write_eq] at wrote
  obtain rfl := Except.ok.inj wrote
  have other : l ≠ place := by
    rintro rfl
    exact elsewhere located
  rw [node?_putFile tree content (ne_nil_of_node?_file standing), if_neg other]

/-- What was written over a file is what is read there. -/
theorem read_of_write {tree tree' : FileTree} {path content old : Text}
    (found : tree.stat path = .ok (.file old)) (wrote : tree.write path content = .ok tree') :
    tree'.read path = .ok content := by
  have located' := locate_of_write found wrote path
  obtain ⟨l, located, standing, write_eq⟩ := write_of_stat content found
  rw [write_eq] at wrote
  obtain rfl := Except.ok.inj wrote
  have standing' : (tree.putFile l content).node? l = some (.file content) := by
    rw [node?_putFile tree content (ne_nil_of_node?_file standing), if_pos rfl]
  unfold read
  rw [stat_of_locate (located'.trans located) standing']

end FileTree

end ClassUpgrade
