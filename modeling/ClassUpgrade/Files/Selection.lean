/-
# Files.Selection — the files that patterns name

A pattern names the files it matches, a plain path that is a directory names
the script files below it, and any other plain path names itself, whether or
not it exists. Installed packages and version control directories are never
entered, unless the pattern spells them out.
-/
import ClassUpgrade.Files.Tree
import ClassUpgrade.Glob.Matcher

namespace ClassUpgrade.Files

set_option autoImplicit false

open Byte Glob

def skippedDirectories : List Text := [utf8 "node_modules", utf8 ".git"]

def scriptExtensions : List Text := [utf8 ".js", utf8 ".mjs"]

/-- Why patterns name no files. -/
inductive SelectionError where
  | invalidPattern (e : InvalidPattern)
  /-- The directory that a pattern starts from cannot be used. -/
  | unusableBase (base : Text) (fault : PathFault)
  deriving DecidableEq, Repr

def SelectionError.message : SelectionError → Text
  | .invalidPattern e => e.message
  | .unusableBase base fault => utf8 "root path error: " ++ fault.message (utf8 "stat") base

/-- The names below `base` on the way to a location, last name included. -/
def below? (base l : Location) : Option (List Text) :=
  if base.isPrefixOf l then some (l.drop base.length) else none

/-- Whether a walk from `base` reaches the file at a location: it lies at or below the base and
no directory on the way below the base is skipped. -/
def reaches (base l : Location) : Bool :=
  match below? base l with
  | none => false
  | some names => !names.dropLast.any skippedDirectories.contains

/-- The paths of the files that a walk from `base` reaches, in walk order. -/
def walk (tree : FileTree) (base : Location) : List Text :=
  (tree.files.filter fun (l, _) => reaches base l).map fun (l, _) => Path.ofSegments l

/-- The paths that a pattern names, in walk order. -/
def resolve (tree : FileTree) (pattern : Text) : Except SelectionError (List Text) :=
  let pattern := Path.clean pattern
  if hasMeta pattern then
    match compile pattern with
    | .error e => .error (.invalidPattern e)
    | .ok matchers =>
      let base := staticBase pattern
      match tree.stat base with
      | .error .missing => .ok []
      | .error fault => .error (.unusableBase base fault)
      | .ok _ =>
        let l := Path.reduce false [] (Path.segments base)
        .ok ((walk tree l).filter (anyAccepts matchers))
  else if tree.isDirectory pattern then
    let l := Path.reduce false [] (Path.segments pattern)
    .ok ((walk tree l).filter fun p => scriptExtensions.contains (Path.extension p))
  else .ok [pattern]

/-- The paths that patterns name, one pattern after the other. -/
def resolveAll (tree : FileTree) : List Text → Except SelectionError (List Text)
  | [] => .ok []
  | pattern :: rest => do
    let paths ← resolve tree pattern
    let more ← resolveAll tree rest
    .ok (paths ++ more)

/-- The paths that patterns name, each once, at its first place, and none that an exclude
pattern matches. -/
def select (tree : FileTree) (patterns exclude : List Text) : Except SelectionError (List Text) :=
  match compileAll exclude with
  | .error e => .error (.invalidPattern e)
  | .ok excluded =>
    (resolveAll tree patterns).map fun paths =>
      ((paths.map Path.clean).filter fun p => !anyAccepts excluded p).eraseDups

end ClassUpgrade.Files
