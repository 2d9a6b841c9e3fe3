/-
# Proofs.Files.Agreement — trees that agree away from some locations

`AgreeOff ls a b` says that two trees have one shape and hold the same
everywhere but at the locations `ls`. It is used in two ways. As a frame it
says what something touches: the files after it agree with those before it off
the file it was given. And it says what two runs share: their files agree off
those that only one of them has come to.

* `AgreeOff.stat`, `AgreeOff.read`: a path that leads to none of the locations
  names the same thing in both trees;
* `agreeOff_of_write`: a write over a file touches that file only;
* `AgreeOff.through`: agreement is kept by two changes that touch one place and
  leave the same there.
-/
import ClassUpgrade.Proofs.Files.Tree

namespace ClassUpgrade.FileTree

set_option autoImplicit false

/-- The path names the file at the location. -/
def Names (tree : FileTree) (path : Text) (l : Location) : Prop :=
  tree.locate path = .ok l ∧ ∃ content, tree.node? l = some (.file content)

theorem exists_names_iff {tree : FileTree} {path : Text} :
    (∃ l, tree.Names path l) ↔ ∃ old, tree.stat path = .ok (.file old) := by
  constructor
  · rintro ⟨l, located, old, standing⟩
    exact ⟨old, stat_of_locate located standing⟩
  · rintro ⟨old, found⟩
    obtain ⟨l, located, standing⟩ := locate_of_stat found
    exact ⟨l, located, old, standing⟩

/-- Two trees of one shape that hold the same everywhere but at some locations. -/
structure AgreeOff (ls : Location → Prop) (a b : FileTree) : Prop where
  shape : SameShape a b
  same : ∀ l, ¬ ls l → a.node? l = b.node? l

namespace AgreeOff

variable {ls ls' : Location → Prop} {a b c : FileTree} {path : Text} {l : Location}

theorem refl (ls : Location → Prop) (a : FileTree) : AgreeOff ls a a :=
  ⟨fun _ => rfl, fun _ _ => rfl⟩

theorem symm (agree : AgreeOff ls a b) : AgreeOff ls b a :=
  ⟨fun l => (agree.shape l).symm, fun l off => (agree.same l off).symm⟩

theorem trans (agree : AgreeOff ls a b) (agree' : AgreeOff ls b c) : AgreeOff ls a c :=
  ⟨fun l => (agree.shape l).trans (agree'.shape l),
    fun l off => (agree.same l off).trans (agree'.same l off)⟩

theorem mono (agree : AgreeOff ls a b) (within : ∀ l, ls l → ls' l) : AgreeOff ls' a b :=
  ⟨agree.shape, fun l off => agree.same l fun at_l => off (within l at_l)⟩

theorem locate (agree : AgreeOff ls a b) (path : Text) : a.locate path = b.locate path :=
  locate_congr agree.shape path

theorem isFile (agree : AgreeOff ls a b) (standing : ∃ content, a.node? l = some (.file content)) :
    ∃ content, b.node? l = some (.file content) := by
  obtain ⟨content, standing⟩ := standing
  have shape := agree.shape l
  rw [standing] at shape
  cases there : b.node? l with
  | none => rw [there] at shape; cases shape
  | some node =>
      cases node with
      | file content' => exact ⟨content', rfl⟩
      | directory => rw [there] at shape; cases shape

theorem names_iff (agree : AgreeOff ls a b) : a.Names path l ↔ b.Names path l := by
  constructor
  · rintro ⟨located, standing⟩
    exact ⟨agree.locate path ▸ located, agree.isFile standing⟩
  · rintro ⟨located, standing⟩
    exact ⟨agree.symm.locate path ▸ located, agree.symm.isFile standing⟩

theorem stat (agree : AgreeOff ls a b) (off : ∀ l, a.locate path = .ok l → ¬ ls l) :
    a.stat path = b.stat path := by
  unfold FileTree.stat
  rw [← agree.locate path]
  cases located : a.locate path with
  | error fault => rfl
  | ok l => simp only [agree.same l (off l located)]

theorem read (agree : AgreeOff ls a b) (off : ∀ l, a.locate path = .ok l → ¬ ls l) :
    a.read path = b.read path := by
  unfold FileTree.read
  rw [agree.stat off]

/-- Two changes that touch the locations `own` only and leave the same there keep the agreement
of what they change. -/
theorem through {own : Location → Prop} {a' b' : FileTree} (agree : AgreeOff ls a b)
    (changed : AgreeOff own a' a) (changed' : AgreeOff own b' b)
    (there : ∀ l, own l → a'.node? l = b'.node? l) : AgreeOff ls a' b' := by
  refine ⟨fun l => ?_, fun l off => ?_⟩
  · rw [changed.shape l, agree.shape l, changed'.shape l]
  · by_cases at_own : own l
    · exact there l at_own
    · rw [changed.same l at_own, agree.same l off, changed'.same l at_own]

end AgreeOff

theorem agreeOff_of_write {tree tree' : FileTree} {path content : Text}
    (named : ∃ l, tree.Names path l) (wrote : tree.write path content = .ok tree') :
    AgreeOff (tree.Names path) tree' tree := by
  obtain ⟨old, found⟩ := exists_names_iff.mp named
  obtain ⟨l, located, standing, write_eq⟩ := write_of_stat content found
  rw [write_eq] at wrote
  obtain rfl := Except.ok.inj wrote
  refine ⟨sameShape_putFile content standing, fun l' off => ?_⟩
  have elsewhere : l' ≠ l := by
    rintro rfl
    exact off ⟨located, old, standing⟩
  rw [node?_putFile tree content (ne_nil_of_node?_file standing), if_neg elsewhere]

/-- What stands at a file that was written over. -/
theorem node?_written {tree tree' : FileTree} {path content : Text} {l : Location}
    (names : tree.Names path l) (wrote : tree.write path content = .ok tree') :
    tree'.node? l = some (.file content) := by
  obtain ⟨old, found⟩ := exists_names_iff.mp ⟨l, names⟩
  obtain ⟨place, located, standing, write_eq⟩ := write_of_stat content found
  obtain rfl := Except.ok.inj (names.1.symm.trans located)
  rw [write_eq] at wrote
  obtain rfl := Except.ok.inj wrote
  rw [node?_putFile tree content (ne_nil_of_node?_file standing), if_pos rfl]

/-- A write over a file succeeds. -/
theorem exists_write {tree : FileTree} {path : Text} (named : ∃ l, tree.Names path l)
    (content : Text) : ∃ tree', tree.write path content = .ok tree' := by
  obtain ⟨old, found⟩ := exists_names_iff.mp named
  obtain ⟨l, -, -, write_eq⟩ := write_of_stat content found
  exact ⟨_, write_eq⟩

end ClassUpgrade.FileTree
