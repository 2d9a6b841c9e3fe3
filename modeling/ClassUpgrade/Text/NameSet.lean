/-
# Text.NameSet — sets of names in byte order

A name is a text that is not empty. A set keeps its names in strict byte
order, so that two sets with the same names are the same list, whatever the
order in which the names came in.
-/
import ClassUpgrade.Text.Basic

namespace ClassUpgrade

set_option autoImplicit false

/-- Inserts a name at its place in byte order, unless it is there already. -/
def insertName (name : Text) : List Text → List Text
  | [] => [name]
  | n :: rest =>
    if name < n then name :: n :: rest
    else if name = n then n :: rest
    else n :: insertName name rest

theorem mem_insertName {name x : Text} {names : List Text} :
    x ∈ insertName name names ↔ x = name ∨ x ∈ names := by
  induction names with
  | nil => simp [insertName]
  | cons n rest ih =>
    unfold insertName
    split
    · simp
    · split
      · next h => subst h; simp
      · simp only [List.mem_cons, ih]
        constructor
        · rintro (h | h | h) <;> simp [h]
        · rintro (h | h | h) <;> simp [h]

theorem pairwise_insertName {name : Text} {names : List Text}
    (sorted : names.Pairwise (· < ·)) : (insertName name names).Pairwise (· < ·) := by
  induction names with
  | nil => simp [insertName]
  | cons n rest ih =>
    obtain ⟨least, rest_sorted⟩ := List.pairwise_cons.1 sorted
    unfold insertName
    split
    · next below =>
      refine List.pairwise_cons.2 ⟨fun x mem => ?_, sorted⟩
      rcases List.mem_cons.1 mem with rfl | mem
      · exact below
      · exact List.lt_trans below (least x mem)
    · split
      · exact sorted
      · next not_below ne =>
        refine List.pairwise_cons.2 ⟨fun x mem => ?_, ih rest_sorted⟩
        rcases mem_insertName.1 mem with rfl | mem
        · exact Std.lt_of_le_of_ne (List.not_lt.1 not_below) (Ne.symm ne)
        · exact least x mem

/-- A set of names: in strict byte order, none of them empty. -/
structure NameSet where
  names : List Text
  sorted : names.Pairwise (· < ·)
  nonempty : ∀ n ∈ names, n ≠ []
  deriving DecidableEq, Repr

namespace NameSet

def empty : NameSet := ⟨[], .nil, by simp⟩

def size (s : NameSet) : Nat := s.names.length

def contains (s : NameSet) (name : Text) : Bool := s.names.contains name

/-- Adds a name; the empty text is no name. -/
def insert (s : NameSet) (name : Text) : NameSet :=
  if named : name = [] then s
  else
    { names := insertName name s.names
      sorted := pairwise_insertName s.sorted
      nonempty := fun x mem => by
        rcases mem_insertName.1 mem with rfl | mem
        · exact named
        · exact s.nonempty x mem }

def insertAll (s : NameSet) (names : List Text) : NameSet := names.foldl insert s

def ofList (names : List Text) : NameSet := empty.insertAll names

def union (s t : NameSet) : NameSet := s.insertAll t.names

end NameSet

end ClassUpgrade
