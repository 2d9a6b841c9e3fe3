/-
# Files.Tree — a directory of files

The files below the working directory, as a table from locations to nodes. A
location is the list of names on the way, and the order of locations is the
order of a walk that visits the entries of each directory by name and a
directory's content at its name's place. Whatever lies outside the working
directory is missing.
-/
import ClassUpgrade.Files.Path
import ClassUpgrade.Table

namespace ClassUpgrade

set_option autoImplicit false

open Byte

/-- The names on the way from the working directory. -/
abbrev Location := List Text

instance : Std.IsLinearOrder Location := inferInstance

instance : Std.LawfulOrderLT Location := inferInstance

/-- What stands at a location. -/
inductive Node where
  | file (content : Text)
  | directory
  deriving DecidableEq, Repr

/-- Why a path cannot be used. -/
inductive PathFault where
  | missing
  | notDirectory
  | isDirectory
  /-- A name, or the whole path, is longer than a file system takes. -/
  | tooLong
  /-- The path holds a zero byte. -/
  | invalid
  deriving DecidableEq, Repr

def PathFault.reason : PathFault → Text
  | .missing => utf8 "no such file or directory"
  | .notDirectory => utf8 "not a directory"
  | .isDirectory => utf8 "is a directory"
  | .tooLong => utf8 "file name too long"
  | .invalid => utf8 "invalid argument"

def PathFault.message (fault : PathFault) (action path : Text) : Text :=
  action ++ space :: path ++ utf8 ": " ++ fault.reason

def longestName : Nat := 255

def longestPath : Nat := 4095

/-- The files and directories below the working directory. -/
structure FileTree where
  nodes : Table Location Node

namespace FileTree

def empty : FileTree := ⟨.empty⟩

/-- What stands at a location; the working directory itself is always there. -/
def node? (tree : FileTree) (l : Location) : Option Node :=
  if l.isEmpty then some .directory else tree.nodes.get? l

/-- Follows segments from a location, through directories only. -/
def follow (tree : FileTree) : Location → List Text → Except PathFault Location
  | l, [] => .ok l
  | l, s :: rest =>
    match tree.node? l with
    | none => .error .missing
    | some (.file _) => .error .notDirectory
    | some .directory =>
      if s = [] ∨ s = Path.here then follow tree l rest
      else if s = Path.above then
        if l.isEmpty then .error .missing else follow tree l.dropLast rest
      else if s.length > longestName then .error .tooLong
      else follow tree (l ++ [s]) rest

/-- The location that a path names, whether or not something stands there. -/
def locate (tree : FileTree) (path : Text) : Except PathFault Location :=
  if path.contains 0 then .error .invalid
  else if path.length > longestPath then .error .tooLong
  else if path.isEmpty || Path.isRooted path then .error .missing
  else tree.follow [] (Path.segments path)

/-- Whether a path names the root or a directory that the working directory lies in. -/
def isOutside (path : Text) : Bool :=
  let kept := Path.reduce (Path.isRooted path) [] (Path.segments path)
  (Path.isRooted path || !kept.isEmpty) && kept.all (· = Path.above)

def stat (tree : FileTree) (path : Text) : Except PathFault Node :=
  match tree.locate path with
  | .error fault => if fault = .missing && isOutside path then .ok .directory else .error fault
  | .ok l =>
    match tree.node? l with
    | some node => .ok node
    | none => .error .missing

def isDirectory (tree : FileTree) (path : Text) : Bool :=
  match tree.stat path with
  | .ok .directory => true
  | _ => false

/-- The content of a file, or the wording of the fault. -/
def read (tree : FileTree) (path : Text) : Except Text Text :=
  match tree.stat path with
  | .ok (.file content) => .ok content
  | .ok .directory => .error (PathFault.isDirectory.message (utf8 "read") path)
  | .error fault => .error (fault.message (utf8 "open") path)

/-- Puts a file at a location, in place of any that was there. -/
def putFile (tree : FileTree) (l : Location) (content : Text) : FileTree :=
  ⟨tree.nodes.insert l (.file content)⟩

/-- Makes a location a directory unless something stands there. -/
def putDirectory (tree : FileTree) (l : Location) : FileTree :=
  if (tree.node? l).isSome then tree else ⟨tree.nodes.insert l .directory⟩

/-- Writes a file: one that exists, or a new one in a directory that exists. -/
def write (tree : FileTree) (path content : Text) : Except Text FileTree :=
  match tree.locate path with
  | .error fault => .error (fault.message (utf8 "open") path)
  | .ok l =>
    match tree.node? l with
    | some .directory => .error (PathFault.isDirectory.message (utf8 "open") path)
    | some (.file _) => .ok (tree.putFile l content)
    | none =>
      match tree.node? l.dropLast with
      | some .directory => .ok (tree.putFile l content)
      | some (.file _) => .error (PathFault.notDirectory.message (utf8 "open") path)
      | none => .error (PathFault.missing.message (utf8 "open") path)

def makeParents (tree : FileTree) (l : Location) : FileTree :=
  (List.range (l.length - 1)).foldl (fun t i => t.putDirectory (l.take (i + 1))) tree

/-- Creates a file with the directories on the way to it. -/
def create (tree : FileTree) (path content : Text) : FileTree :=
  let l := Path.reduce false [] (Path.segments path)
  (tree.makeParents l).putFile l content

/-- Creates a directory with those on the way to it. -/
def createDirectory (tree : FileTree) (path : Text) : FileTree :=
  let l := Path.reduce false [] (Path.segments path)
  (tree.makeParents l).putDirectory l

/-- Takes away what stands at a path and below it. -/
def remove (tree : FileTree) (path : Text) : FileTree :=
  let l := Path.reduce false [] (Path.segments path)
  ⟨⟨tree.nodes.entries.filter fun e => !l.isPrefixOf e.1, tree.nodes.sorted.filter _⟩⟩

def names (tree : FileTree) (l : Location) : List Text :=
  tree.nodes.keys.filterMap fun k =>
    if k.length = l.length + 1 ∧ l.isPrefixOf k then k.getLast? else none

/-- The files with their locations, in walk order. -/
def files (tree : FileTree) : List (Location × Text) :=
  tree.nodes.entries.filterMap fun (l, node) =>
    match node with
    | .file content => some (l, content)
    | .directory => none

end FileTree

end ClassUpgrade
