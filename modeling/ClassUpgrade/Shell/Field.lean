/-
# Shell.Field — from words to fields

When everything in a word has been replaced it is split into fields: at the
separators in what was put in, never in what is written in the script or
quoted. Then a field that is a pattern gives way to the paths that it matches.
-/
import ClassUpgrade.Files.Tree
import ClassUpgrade.Shell.Pattern

namespace ClassUpgrade.Shell

set_option autoImplicit false

open Byte

/-- A part of a word in which everything has been replaced. -/
inductive Part where
  /-- Text that is not split. -/
  | fixed (quoted : Bool) (t : Text)
  /-- Text that is split at separators. -/
  | loose (t : Text)
  /-- The border between two arguments; a `hard` one is always the end of a field. -/
  | border (hard : Bool)
  deriving DecidableEq, Repr

namespace Part

/-- The marks of parts that are not split; a border becomes a text. -/
def marks (joint : Text) (parts : List Part) : List Mark :=
  parts.flatMap fun
    | .fixed quoted t => t.map fun b => (quoted, b)
    | .loose t => t.map fun b => (false, b)
    | .border _ => joint.map fun b => (true, b)

/-- The text of parts that are not split. -/
def text (joint : Text) (parts : List Part) : Text := (marks joint parts).map Prod.snd

end Part

/-- How a byte separates fields: one that is white space makes no empty fields. -/
inductive Separation where
  | none
  | blank
  | visible
  deriving DecidableEq, Repr

def separationOf (separators : Text) (b : UInt8) : Separation :=
  if !separators.contains b then .none
  else if b == space || b == tab || b == lineFeed then .blank
  else .visible

/-- Fields being made: those that are done, and the one in the making, each in reverse. Whether
there is one in the making is kept apart, because it may be empty. `after` says that a blank ended
the last one, so that a visible separator is not a second end. -/
structure Splitting where
  fields : List (List Mark)
  present : Bool
  marks : List Mark
  after : Bool

namespace Splitting

def start : Splitting := ⟨[], false, [], false⟩

def add (s : Splitting) (m : Mark) : Splitting :=
  { s with present := true, marks := m :: s.marks, after := false }

def finish (s : Splitting) (after : Bool) : Splitting :=
  ⟨s.marks.reverse :: s.fields, false, [], after⟩

/-- A separator or another byte of text that is split. -/
def step (s : Splitting) (separation : Separation) (b : UInt8) : Splitting :=
  match separation with
  | .none => s.add (false, b)
  | .blank => if s.present then s.finish true else s
  | .visible => if !s.present && s.after then { s with after := false } else s.finish false

def part (separators : Text) (s : Splitting) : Part → Splitting
  | .fixed quoted t =>
    let s := t.foldl (fun s b => s.add (quoted, b)) s
    if quoted then { s with present := true, after := false } else s
  | .loose t => t.foldl (fun s b => s.step (separationOf separators b) b) s
  | .border hard => if hard || s.present then s.finish (!hard) else s

end Splitting

def fieldsOf (separators : Text) (parts : List Part) : List (List Mark) :=
  let s := parts.foldl (Splitting.part separators) .start
  ((if s.present then s.finish false else s).fields).reverse

/-- The fields of a line that is read into variables, of which there are at most `most`. The last
one is the rest of the line, without the blanks at its end and without a single separator there. A
quoted mark separates nothing. -/
def lineFields (separators : Text) (most : Nat) (line : List Mark) : List Text :=
  go most (line.dropWhile fun m => separation m == .blank)
where
  /-- How a mark separates fields. -/
  separation (m : Mark) : Separation := if m.1 then .none else separationOf separators m.2
  /-- The line from a separator on: what follows it and the blanks around it. -/
  afterSeparator (line : List Mark) : List Mark :=
    let rest := line.dropWhile fun m => separation m == .blank
    match rest with
    | m :: more =>
      if separation m == .visible then more.dropWhile fun m => separation m == .blank else rest
    | [] => []
  /-- The fields from a place on. -/
  go : Nat → List Mark → List Text
    | 0, _ => []
    | _, [] => []
    | 1, line =>
      let field := line.takeWhile fun m => separation m == .none
      let whole :=
        if (afterSeparator (line.drop field.length)).isEmpty then field
        else (line.reverse.dropWhile fun m => separation m == .blank).reverse
      [whole.map Prod.snd]
    | most + 1, line =>
      let field := line.takeWhile fun m => separation m == .none
      field.map Prod.snd :: go most (afterSeparator (line.drop field.length))

def patternSegments : List Mark → List (List Mark)
  | [] => [[]]
  | m :: rest =>
    match patternSegments rest with
    | [] => [[m]]
    | s :: more => if m.2 == slash then [] :: s :: more else (m :: s) :: more

/-- The names in a directory that a pattern matches. A name with a point in front needs a pattern
with one. -/
def matchingNames (tree : FileTree) (l : Location) (pattern : List Mark) : List Text :=
  let shown := pattern.head?.any (·.2 == dot)
  let names := if shown then [Path.here, Path.above] ++ tree.names l else tree.names l
  names.filter fun name =>
    (shown || name.head? != some dot) && matchesPattern pattern name

/-- The paths that a pattern matches: `lead` is the part of the path that is settled, and `resolve`
gives the path by which the tree knows a path. -/
def matchingPaths (tree : FileTree) (resolve : Text → Text) :
    (lead : Text) → List (List Mark) → List Text
  | lead, [] => [lead]
  | lead, segment :: rest =>
    let slashed (path : Text) : Text := if rest.isEmpty then path else path ++ [slash]
    if !isMagic segment then
      let path := lead ++ segment.map Prod.snd
      if rest.isEmpty then
        let isThere := if path.isEmpty then false else (tree.stat (resolve path)).toOption.isSome
        if isThere then [path] else []
      else matchingPaths tree resolve (slashed path) rest
    else
      let directory := if lead.isEmpty then Path.here else lead
      match tree.locate (resolve directory) with
      | .error _ => []
      | .ok l =>
        if tree.node? l != some .directory then []
        else
          (matchingNames tree l segment).flatMap fun name =>
            matchingPaths tree resolve (slashed (lead ++ name)) rest

/-- The texts that a field becomes: the paths that it matches in order, or itself. -/
def pathsOf (tree : FileTree) (resolve : Text → Text) (field : List Mark) : List Text :=
  let plain := field.map Prod.snd
  if isMagic field then
    match (matchingPaths tree resolve [] (patternSegments field)).mergeSort
        (fun s t => !Text.before t s) with
    | [] => [plain]
    | paths => paths
  else [plain]

end ClassUpgrade.Shell
