/-
# Table — finite maps with their keys in order

A table holds one value per key and keeps its entries in strict order of the
keys, so that a table is determined by what its look-ups answer.
-/

namespace ClassUpgrade

set_option autoImplicit false

/-- A finite map; `entries` are in strict order of the keys. -/
structure Table (κ α : Type) [LT κ] where
  entries : List (κ × α)
  sorted : entries.Pairwise fun a b => a.1 < b.1

namespace Table

variable {κ α : Type} [LT κ] [DecidableLT κ] [DecidableEq κ]

def empty : Table κ α := ⟨[], .nil⟩

def get? (t : Table κ α) (key : κ) : Option α :=
  (t.entries.find? fun e => e.1 = key).map Prod.snd

/-- The keys in order. -/
def keys (t : Table κ α) : List κ := t.entries.map Prod.fst

/-- Puts a value at the place of its key, for any value that was there. -/
def insertEntry (key : κ) (value : α) : List (κ × α) → List (κ × α)
  | [] => [(key, value)]
  | e :: rest =>
    if key < e.1 then (key, value) :: e :: rest
    else if key = e.1 then (key, value) :: rest
    else e :: insertEntry key value rest

omit [LT κ] [DecidableLT κ] in
theorem fst_of_mem_insertEntry [LT κ] [DecidableLT κ] {key : κ} {value : α} {e : κ × α}
    {entries : List (κ × α)} (mem : e ∈ insertEntry key value entries) :
    e.1 = key ∨ e ∈ entries := by
  induction entries with
  | nil => simp [insertEntry] at mem; simp [mem]
  | cons d rest ih =>
    unfold insertEntry at mem
    split at mem
    · rcases List.mem_cons.1 mem with rfl | mem
      · exact .inl rfl
      · exact .inr mem
    · split at mem
      · rcases List.mem_cons.1 mem with rfl | mem
        · exact .inl rfl
        · exact .inr (List.mem_cons_of_mem _ mem)
      · rcases List.mem_cons.1 mem with rfl | mem
        · exact .inr List.mem_cons_self
        · exact (ih mem).imp_right (List.mem_cons_of_mem _)

theorem pairwise_insertEntry [LE κ] [Std.IsLinearOrder κ] [Std.LawfulOrderLT κ]
    {key : κ} {value : α} {entries : List (κ × α)}
    (sorted : entries.Pairwise fun a b => a.1 < b.1) :
    (insertEntry key value entries).Pairwise fun a b => a.1 < b.1 := by
  induction entries with
  | nil => simp [insertEntry]
  | cons d rest ih =>
    obtain ⟨least, rest_sorted⟩ := List.pairwise_cons.1 sorted
    unfold insertEntry
    split
    · next below =>
      refine List.pairwise_cons.2 ⟨fun e mem => ?_, sorted⟩
      rcases List.mem_cons.1 mem with rfl | mem
      · exact below
      · exact Std.lt_trans below (least e mem)
    · split
      · next same =>
        exact List.pairwise_cons.2 ⟨fun e mem => same ▸ least e mem, rest_sorted⟩
      · next not_below ne =>
        refine List.pairwise_cons.2 ⟨fun e mem => ?_, ih rest_sorted⟩
        rcases fst_of_mem_insertEntry mem with same | mem
        · exact same ▸ Std.lt_of_le_of_ne (Std.not_lt.1 not_below) (Ne.symm ne)
        · exact least e mem

/-- Gives a key a value, for any value it had. -/
def insert [LE κ] [Std.IsLinearOrder κ] [Std.LawfulOrderLT κ]
    (t : Table κ α) (key : κ) (value : α) : Table κ α :=
  ⟨insertEntry key value t.entries, pairwise_insertEntry t.sorted⟩

/-- The table of a list of entries; of two with the same key the later one counts. -/
def ofList [LE κ] [Std.IsLinearOrder κ] [Std.LawfulOrderLT κ]
    (entries : List (κ × α)) : Table κ α :=
  entries.foldl (fun t e => t.insert e.1 e.2) empty

end Table

end ClassUpgrade
