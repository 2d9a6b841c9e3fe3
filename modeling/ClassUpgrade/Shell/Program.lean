/-
# Shell.Program — programs that can be run by name

The interpreter of the command language runs scripts on a file tree; beside
it there are a program that succeeds and one that fails.
-/
import ClassUpgrade.Shell.Run

namespace ClassUpgrade.Shell

set_option autoImplicit false

open Byte

/-- How a program ended. -/
inductive Ending where
  | status (n : Nat)
  | signal (n : Nat)
  deriving DecidableEq, Repr

/-- What a program left behind. -/
structure Outcome where
  tree : FileTree
  ending : Ending
  written : Text

/-- How often a loop goes round, and how deep functions call, before a script is given up. -/
def patience : Nat := 100000

def interpret (tree : FileTree) (arguments : List Text) : Outcome :=
  let name := utf8 "sh"
  let s : Session := ⟨⟨tree, #[.discarded, .collected], []⟩, .start name []⟩
  let (result, s) := (finishing patience (runInterpreter patience arguments)).run.run s
  let ending :=
    match result with
    | .error (.killed n) => .signal n
    | _ => .status (s.process.status % 256)
  ⟨s.world.tree, ending, s.world.written⟩

/-- The programs that can be run by name. -/
inductive Program where
  | interpreter
  | success
  | failure
  deriving DecidableEq, Repr

/-- The program with a name. A name with a slash stands for a file, and no file of the tree is a
program. -/
def findProgram (tree : FileTree) (name : Text) : Except Text Program :=
  if name.contains slash then
    .error (match tree.stat name with
      | .error fault => fault.message (utf8 "stat") name
      | .ok .directory => PathFault.isDirectory.reason
      | .ok (.file _) => utf8 "permission denied")
  else if name = utf8 "sh" then .ok .interpreter
  else if name = utf8 "true" then .ok .success
  else if name = utf8 "false" then .ok .failure
  else .error (utf8 "executable file not found in $PATH")

def Program.run (p : Program) (tree : FileTree) (arguments : List Text) : Outcome :=
  match p with
  | .interpreter => interpret tree arguments
  | .success => ⟨tree, .status 0, []⟩
  | .failure => ⟨tree, .status 1, []⟩

end ClassUpgrade.Shell
