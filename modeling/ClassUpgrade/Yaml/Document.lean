/-
# Yaml.Document — the value of a YAML text

A mapping needs scalar keys and no key twice; a plain key `<<` adds the
entries of other mappings that are not there yet. An alias stands for a copy
of its node, so a node may not hold itself, and the copies may not outnumber
by far what is written.

The outermost mapping, and any other whose keys are all texts, is keyed by
texts: a key that is nothing is left out of it.
-/
import ClassUpgrade.Yaml.Node

namespace ClassUpgrade.Yaml

set_option autoImplicit false

open Settings

/-! ## Values of nodes -/

/-- How many nodes have been evaluated, and how many of these inside aliases. -/
structure Effort where
  total : Nat
  copied : Nat

/-- Whether too much of the effort goes into copies. A small document may consist of copies nearly
all, and the larger it is the fewer are allowed. -/
def Effort.isExcessive (e : Effort) : Bool :=
  let low := 400000
  let range := 3600000
  let hundredths :=
    if e.total ≤ low then 99 * range
    else if e.total ≥ low + range then 10 * range
    else 99 * range - 89 * (e.total - low)
  e.copied > 100 && e.total > 1000 && e.copied * 100 * range > e.total * hundredths

/-- A step of evaluation, which may fail. -/
abbrev Evaluate := StateT Effort Option

def countNode (inAlias : Bool) : Evaluate Unit := do
  let e ← get
  let e := { total := e.total + 1, copied := if inAlias then e.copied + 1 else e.copied : Effort }
  set e
  if e.isExcessive then failure

/-- The entries of a mapping in the making. `settled` are the keys that a merged mapping cannot
give any more; none while no mapping is merged. -/
structure Entries where
  list : List (Text × Value)
  settled : Option (List Text)

/-- Gives a key a value, in place of the one that it has. -/
def setEntry (entries : List (Text × Value)) (key : Text) (v : Value) : List (Text × Value) :=
  if entries.any (·.1 = key) then entries.map fun e => if e.1 = key then (key, v) else e
  else entries ++ [(key, v)]

def areKeysDistinct (pairs : List (Node × Node)) : Bool :=
  match pairs with
  | [] => true
  | (k, _) :: rest => !(rest.any fun (other, _) => k.isSameKey other) && areKeysDistinct rest

/-- Follows aliases to a node that is none. -/
def Tree.resolve (t : Tree) : (fuel : Nat) → Node → Node
  | 0, n => n
  | fuel + 1, .alias name target =>
    match t.get? target with
    | some n => t.resolve fuel n
    | none => .alias name target
  | _, n => n

/-- Whether the keys of a mapping are all texts, merge keys apart. -/
def Tree.hasTextKeys (t : Tree) (pairs : List (Node × Node)) : Bool :=
  pairs.all fun (k, _) =>
    match t.resolve (t.anchored.length + 1) k with
    | .scalar tag _ => tag == .text || tag == .merge
    | _ => false

/-- Whether a node, or the one that it is an alias of, is a mapping. -/
def Tree.isMapping (t : Tree) : Node → Bool
  | .mapping _ => true
  | .alias _ target =>
    match t.get? target with
    | some (.mapping _) => true
    | _ => false
  | _ => false

mutual

/-- The value of a node. `active` are the nodes whose copies it lies in. -/
def evaluate (t : Tree) : (fuel : Nat) → (active : List Nat) → Node → Evaluate Value
  | 0, _, _ => failure
  | fuel + 1, active, n => do
    countNode (!active.isEmpty)
    match n with
    | .scalar tag text =>
      match scalarValue? tag text with
      | some v => pure v
      | none => failure
    | .sequence items => pure (.list (← evaluateAll t fuel active items))
    | .mapping pairs =>
      let entries ← fill t fuel active (t.hasTextKeys pairs) pairs ⟨[], none⟩
      pure (.map entries.list)
    | .alias _ target =>
      match active.contains target, t.get? target with
      | false, some n => evaluate t fuel (target :: active) n
      | _, _ => failure

def evaluateAll (t : Tree) : (fuel : Nat) → (active : List Nat) → List Node → Evaluate (List Value)
  | 0, _, _ => failure
  | _ + 1, _, [] => pure []
  | fuel + 1, active, n :: rest => do
    let v ← evaluate t fuel active n
    let vs ← evaluateAll t fuel active rest
    pure (v :: vs)

/-- The text of a key, none for a key that is nothing in a mapping keyed by texts. -/
def evaluateKey (t : Tree) : (fuel : Nat) → (active : List Nat) → (textual : Bool) → Node →
    Evaluate (Option Text)
  | 0, _, _, _ => failure
  | fuel + 1, active, textual, n => do
    countNode (!active.isEmpty)
    match n with
    | .scalar tag text =>
      match scalarValue? tag text with
      | some (.text key) => pure (some key)
      | some .null => pure (if textual then none else some text)
      | some _ => pure (some text)
      | none => failure
    | .alias _ target =>
      match active.contains target, t.get? target with
      | false, some n => evaluateKey t fuel (target :: active) textual n
      | _, _ => failure
    | _ => failure

/-- Adds the pairs of a mapping to entries, and then those of the mapping that it merges. Of
several merge keys the last one counts. -/
def fill (t : Tree) : (fuel : Nat) → (active : List Nat) → (textual : Bool) →
    List (Node × Node) → Entries → Evaluate Entries
  | 0, _, _, _, _ => failure
  | fuel + 1, active, textual, pairs, entries => do
    if areKeysDistinct pairs then
      let entries ← addPairs t fuel active textual pairs entries
      match (pairs.filter (·.1.isMerge)).getLast? with
      | none => pure entries
      | some (_, merged) =>
        let settled ←
          match entries.settled with
          | some settled => pure settled
          | none => settledKeys t fuel active pairs
        let filled ← merge t fuel active textual merged ⟨entries.list, some settled⟩
        pure (if entries.settled.isSome then filled else ⟨filled.list, none⟩)
    else failure

/-- The keys of a mapping into which others are merged. -/
def settledKeys (t : Tree) : (fuel : Nat) → (active : List Nat) → List (Node × Node) →
    Evaluate (List Text)
  | 0, _, _ => failure
  | _ + 1, _, [] => pure []
  | fuel + 1, active, (k, _) :: rest => do
    let key ← evaluateKey t fuel active false k
    let keys ← settledKeys t fuel active rest
    pure (key.toList ++ keys)

/-- Adds pairs to entries, merge keys apart. -/
def addPairs (t : Tree) : (fuel : Nat) → (active : List Nat) → (textual : Bool) →
    List (Node × Node) → Entries → Evaluate Entries
  | 0, _, _, _, _ => failure
  | _ + 1, _, _, [], entries => pure entries
  | fuel + 1, active, textual, (k, v) :: rest, entries => do
    if k.isMerge then addPairs t fuel active textual rest entries
    else
      match ← evaluateKey t fuel active textual k with
      | none => addPairs t fuel active textual rest entries
      | some key =>
        if entries.settled.any (·.contains key) then addPairs t fuel active textual rest entries
        else
          let v ← evaluate t fuel active v
          addPairs t fuel active textual rest
            ⟨setEntry entries.list key v, entries.settled.map (key :: ·)⟩

/-- Adds the entries of a mapping, or of a list of mappings. -/
def merge (t : Tree) : (fuel : Nat) → (active : List Nat) → (textual : Bool) → Node → Entries →
    Evaluate Entries
  | 0, _, _, _, _ => failure
  | fuel + 1, active, textual, n, entries =>
    match n with
    | .sequence items => mergeAll t fuel active textual items entries
    | n => if t.isMapping n then mergeOne t fuel active textual n entries else failure

def mergeAll (t : Tree) : (fuel : Nat) → (active : List Nat) → (textual : Bool) → List Node →
    Entries → Evaluate Entries
  | 0, _, _, _, _ => failure
  | _ + 1, _, _, [], entries => pure entries
  | fuel + 1, active, textual, n :: rest, entries => do
    if t.isMapping n then
      let entries ← mergeOne t fuel active textual n entries
      mergeAll t fuel active textual rest entries
    else failure

def mergeOne (t : Tree) : (fuel : Nat) → (active : List Nat) → (textual : Bool) → Node →
    Entries → Evaluate Entries
  | 0, _, _, _, _ => failure
  | fuel + 1, active, textual, n, entries => do
    countNode (!active.isEmpty)
    match n with
    | .mapping pairs => fill t fuel active textual pairs entries
    | .alias _ target =>
      match active.contains target, t.get? target with
      | false, some n => mergeOne t fuel (target :: active) textual n entries
      | _, _ => failure
    | _ => failure

end

/-- The value of a document, which is a mapping keyed by texts or nothing. -/
def Tree.value? (t : Tree) (fuel : Nat) : Option Value :=
  match t.root with
  | .mapping pairs => do
    let (entries, _) ← (fill t fuel [] true pairs ⟨[], none⟩).run ⟨2, 0⟩
    some (.map entries.list)
  | .scalar tag text => do
    let v ← scalarValue? tag text
    guard (v matches .null)
    some .null
  | _ => none

/-! ## Reading a text -/

def isAllowed (c : Char) : Bool :=
  let n := c.toNat
  n == 0x09 || n == 0x0A || n == 0x0D || (0x20 ≤ n && n ≤ 0x7E) || n == 0x85 ||
    (0xA0 ≤ n && n ≤ 0xFFFD) || 0x10000 ≤ n

/-- The units of 16 bits that bytes stand for, the high byte first or last. -/
def units16? (highFirst : Bool) : List UInt8 → Option (List Nat)
  | [] => some []
  | [_] => none
  | a :: b :: rest => do
    let (high, low) := if highFirst then (a, b) else (b, a)
    let units ← units16? highFirst rest
    some ((high.toNat * 256 + low.toNat) :: units)

/-- The characters that units of 16 bits stand for. -/
def chars16? : List Nat → Option (List Char)
  | [] => some []
  | [u] => if u < 0xD800 ∨ 0xE000 ≤ u then some [Char.ofNat u] else none
  | u :: v :: rest =>
    if u < 0xD800 ∨ 0xE000 ≤ u then (chars16? (v :: rest)).map (Char.ofNat u :: ·)
    else if u < 0xDC00 ∧ 0xDC00 ≤ v ∧ v < 0xE000 then
      (chars16? rest).map (Char.ofNat (0x10000 + (u - 0xD800) * 0x400 + (v - 0xDC00)) :: ·)
    else none

def chars8? (t : Text) : Option (List Char) :=
  (Text.glyphs t).mapM fun
    | .char c => some c
    | .stray _ => none

/-- The characters of a text, when it can be read at all. A byte order mark in front says how it is
written and is left out. -/
def readable? (t : Text) : Option (List Char) := do
  let cs ←
    match t with
    | 0xFF :: 0xFE :: rest => (units16? false rest).bind chars16?
    | 0xFE :: 0xFF :: rest => (units16? true rest).bind chars16?
    | 0xEF :: 0xBB :: 0xBF :: rest => chars8? rest
    | _ => chars8? t
  guard (cs.all isAllowed)
  some cs

/-- The value of the first document of a YAML text. -/
def parse? (t : Text) : Option Value := do
  let cs ← readable? t
  let tree ← Tree.ofChars? cs
  tree.value? (64 * (cs.length + 1) * (tree.anchored.length + 1))

end ClassUpgrade.Yaml
