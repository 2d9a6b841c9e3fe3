/-
# Yaml.Node — the nodes of a YAML text

The tokens of the first document give a tree of nodes. A node with an anchor
gets a number when it starts, and an alias holds the number of the node that
its name stands for at that place; so a node can hold an alias of itself.
-/
import ClassUpgrade.Yaml.Scalar
import ClassUpgrade.Yaml.Token

namespace ClassUpgrade.Yaml

set_option autoImplicit false

/-- A part of a document. -/
inductive Node where
  | scalar (tag : Tag) (text : Text)
  | sequence (items : List Node)
  | mapping (pairs : List (Node × Node))
  /-- Another node, by its number. -/
  | alias (name : Text) (target : Nat)

namespace Node

/-- A value that is left out. -/
def absent : Node := .scalar .nothing []

/-- Whether two nodes may not both be keys of one mapping. -/
def isSameKey : Node → Node → Bool
  | .scalar _ t, .scalar _ u => t == u
  | .sequence _, .sequence _ => true
  | .mapping _, .mapping _ => true
  | .alias t _, .alias u _ => t == u
  | _, _ => false

/-- Whether a key has the entries of other mappings as its value. -/
def isMerge : Node → Bool
  | .scalar tag t => tag == .merge && t == utf8 "<<"
  | _ => false

end Node

/-- A document: its outermost node, and those with an anchor by their numbers. -/
structure Tree where
  root : Node
  anchored : List (Nat × Node)

namespace Tree

def get? (t : Tree) (number : Nat) : Option Node := t.anchored.lookup number

end Tree

/-- What reading a document depends on. -/
structure Reading where
  scan : Scan
  /-- What the tags with a handle start with. -/
  shorthands : List (Text × Text)
  /-- The numbers that the names of anchors stand for, the last one first. -/
  anchors : List (Text × Nat)
  anchored : List (Nat × Node)

/-- A step of reading, which may fail. -/
abbrev Read := StateT Reading Option

def peek : Read Token := do
  let r ← get
  match r.scan.peek? with
  | some (t, scan) =>
    set { r with scan }
    pure t
  | none => failure

def advance : Read Unit := modify fun r => { r with scan := r.scan.take }

def accept (t : Token) : Read Bool := do
  if (← peek) = t then
    advance
    pure true
  else pure false

/-- The tag that a handle and the rest of a tag stand for. -/
def fullTag (handle rest : Text) : Read Text := do
  if handle.isEmpty then pure rest
  else
    match (← get).shorthands.lookup handle with
    | some meaning => pure (meaning ++ rest)
    | none => failure

/-- An anchor and a tag, in either order. The handle of the tag is not looked at yet. -/
def properties : Read (Option Text × Option (Text × Text)) := do
  match ← peek with
  | .anchor name =>
    advance
    match ← peek with
    | .tag handle rest =>
      advance
      let _ ← peek
      pure (some name, some (handle, rest))
    | _ => pure (some name, none)
  | .tag handle rest =>
    advance
    match ← peek with
    | .anchor name =>
      advance
      let _ ← peek
      pure (some name, some (handle, rest))
    | _ => pure (none, some (handle, rest))
  | _ => pure (none, none)

/-- Gives the node that starts here a name, and says what its number is. -/
def register : Option Text → Read (Option Nat)
  | none => pure none
  | some name => do
    let r ← get
    let number := r.anchors.length
    set { r with anchors := (name, number) :: r.anchors }
    pure (some number)

def keep (number : Option Nat) (n : Node) : Read Node := do
  match number with
  | some number => modify fun r => { r with anchored := (number, n) :: r.anchored }
  | none => pure ()
  pure n

/-- A scalar with an optional tag; an exclamation mark alone is no tag. -/
def scalarNode (tag : Option Text) (plain : Bool) (t : Text) : Node :=
  match tag with
  | some tag => .scalar (if tag = utf8 "!" then .implied plain t else .ofText tag) t
  | none => .scalar (.implied plain t) t

mutual

/-- A node. `block` allows block collections and `indentless` a sequence at the indentation of
the mapping it belongs to. -/
def node : (fuel : Nat) → (block indentless : Bool) → Read Node
  | 0, _, _ => failure
  | fuel + 1, block, indentless => do
    match ← peek with
    | .alias name =>
      advance
      match (← get).anchors.lookup name with
      | some target => pure (.alias name target)
      | none => failure
    | _ =>
      let (anchor, tagParts) ← properties
      let tag ← tagParts.mapM fun (handle, rest) => fullTag handle rest
      content fuel block indentless anchor tag

/-- What a node consists of after its anchor and tag. -/
def content : (fuel : Nat) → (block indentless : Bool) → (anchor tag : Option Text) → Read Node
  | 0, _, _, _, _ => failure
  | fuel + 1, block, indentless, anchor, tag => do
    match ← peek with
    | .scalar plain text =>
      advance
      keep (← register anchor) (scalarNode tag plain text)
    | .flowSequenceStart =>
      let number ← register anchor
      advance
      keep number (.sequence (← flowItems fuel true))
    | .flowMappingStart =>
      let number ← register anchor
      advance
      keep number (.mapping (← flowPairs fuel true))
    | .sequenceStart =>
      if block then
        let number ← register anchor
        advance
        keep number (.sequence (← blockItems fuel true))
      else leftOut anchor tag
    | .mappingStart =>
      if block then
        let number ← register anchor
        advance
        keep number (.mapping (← blockPairs fuel))
      else leftOut anchor tag
    | .entry =>
      if indentless then
        let number ← register anchor
        keep number (.sequence (← blockItems fuel false))
      else leftOut anchor tag
    | _ => leftOut anchor tag
where
  /-- A node that is left out, which only an anchor or a tag can stand for. -/
  leftOut (anchor tag : Option Text) : Read Node := do
    if anchor.isSome || tag.isSome then keep (← register anchor) (scalarNode tag true [])
    else failure

/-- A node unless one of the tokens in `stops` is in front. -/
def optionalNode : (fuel : Nat) → (block indentless : Bool) → (stops : List Token) → Read Node
  | 0, _, _, _ => failure
  | fuel + 1, block, indentless, stops => do
    if stops.contains (← peek) then pure .absent else node fuel block indentless

/-- The items of a block sequence, through its end when it has one of its own. -/
def blockItems : (fuel : Nat) → (closed : Bool) → Read (List Node)
  | 0, _ => failure
  | fuel + 1, closed => do
    if ← accept .entry then
      let item ← optionalNode fuel true false
        (if closed then [.entry, .blockEnd] else [.entry, .key, .value, .blockEnd])
      let rest ← blockItems fuel closed
      pure (item :: rest)
    else if closed then
      if ← accept .blockEnd then pure [] else failure
    else pure []

/-- The pairs of a block mapping, through its end. -/
def blockPairs : (fuel : Nat) → Read (List (Node × Node))
  | 0 => failure
  | fuel + 1 => do
    if ← accept .key then
      let stops : List Token := [.key, .value, .blockEnd]
      let k ← optionalNode fuel true true stops
      let v ← (if ← accept .value then optionalNode fuel true true stops else pure .absent)
      let rest ← blockPairs fuel
      pure ((k, v) :: rest)
    else if ← accept .blockEnd then pure []
    else failure

/-- A pair that is an item of a flow sequence, after the mark of its key. A key that is left out
takes the token after it along. -/
def flowPairItem : (fuel : Nat) → Read Node
  | 0 => failure
  | fuel + 1 => do
    let k ←
      if [Token.value, .flowEntry, .flowSequenceEnd].contains (← peek) then do
        advance
        pure .absent
      else node fuel false false
    let v ← (if ← accept .value then
      optionalNode fuel false false [.flowEntry, .flowSequenceEnd] else pure .absent)
    pure (.mapping [(k, v)])

/-- The items of a flow sequence, through its close. -/
def flowItems : (fuel : Nat) → (first : Bool) → Read (List Node)
  | 0, _ => failure
  | fuel + 1, first => do
    if ← accept .flowSequenceEnd then pure []
    else do
      if !first then
        if !(← accept .flowEntry) then failure
      if ← accept .flowSequenceEnd then pure []
      else do
        let item ← (if ← accept .key then flowPairItem fuel else node fuel false false)
        let rest ← flowItems fuel false
        pure (item :: rest)

/-- The pairs of a flow mapping, through its close. -/
def flowPairs : (fuel : Nat) → (first : Bool) → Read (List (Node × Node))
  | 0, _ => failure
  | fuel + 1, first => do
    if ← accept .flowMappingEnd then pure []
    else do
      if !first then
        if !(← accept .flowEntry) then failure
      if ← accept .flowMappingEnd then pure []
      else do
        let pair ← (if ← accept .key then do
            let k ← optionalNode fuel false false [.value, .flowEntry, .flowMappingEnd]
            let v ← (if ← accept .value then
              optionalNode fuel false false [.flowEntry, .flowMappingEnd] else pure .absent)
            pure (k, v)
          else do
            let k ← node fuel false false
            let _ ← peek
            pure (k, .absent))
        let rest ← flowPairs fuel false
        pure (pair :: rest)

end

/-- What the tags with a handle start with when no directive says so. -/
def commonShorthands : List (Text × Text) := [(utf8 "!", utf8 "!"), (utf8 "!!", Tag.standard)]

/-- The handles that directives give, up to the document start after them. One directive may give
the version, which has to be 1.1, and each handle is given once. -/
def directives : (fuel : Nat) → (versioned : Bool) → (given : List (Text × Text)) →
    Read (List (Text × Text))
  | 0, _, _ => failure
  | fuel + 1, versioned, given => do
    match ← peek with
    | .version major minor =>
      if !versioned && major == 1 && minor == 1 then
        advance
        directives fuel true given
      else failure
    | .shorthand handle meaning =>
      if (given.lookup handle).isNone then
        advance
        directives fuel versioned ((handle, meaning) :: given)
      else failure
    | .documentStart =>
      advance
      pure given
    | _ => failure

/-- Whether a token shows that an announced document is empty. -/
def endsDocument : Token → Bool
  | .streamEnd | .documentEnd | .documentStart | .version _ _ | .shorthand _ _ => true
  | _ => false

/-- The first document: one that is announced may be empty, any other is either there or the text
is. The token after the document is looked at too. -/
def document (fuel : Nat) : Read Node := do
  match ← peek with
  | .streamEnd => pure .absent
  | .version _ _ | .shorthand _ _ | .documentStart =>
    let given ← directives fuel false []
    modify fun r => { r with shorthands := given ++ commonShorthands }
    let n ← (if endsDocument (← peek) then pure .absent else node fuel true false)
    let _ ← peek
    pure n
  | _ =>
    let n ← node fuel true false
    let _ ← peek
    pure n

namespace Tree

/-- The first document of a text. -/
def ofChars? (cs : List Char) : Option Tree := do
  let (root, r) ← (document (64 * cs.length + 64)).run ⟨.start cs, commonShorthands, [], []⟩
  some ⟨root, r.anchored⟩

end Tree

end ClassUpgrade.Yaml
