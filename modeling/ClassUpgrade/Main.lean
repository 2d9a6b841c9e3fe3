/-
# Main — the command line

Reads the files below the working directory, carries out the command on
them, writes back the files it changed, and prints what it has to say.
-/
import ClassUpgrade.Command.Outcome

namespace ClassUpgrade.Main

set_option autoImplicit false

def depthLimit : Nat := 64

def pathOf (l : Location) : String :=
  (String.fromUTF8? ⟨(Path.ofSegments l).toArray⟩).getD ""

/-- Adds what stands in a directory to a tree; what cannot be read is left out. -/
def readDirectory : (depth : Nat) → Location → FileTree → IO FileTree
  | 0, _, tree => pure tree
  | depth + 1, l, tree => do
    let base ← IO.currentDir
    let folder := if l.isEmpty then base else base / pathOf l
    let entries ← (try folder.readDir catch _ => pure #[])
    let mut tree := tree
    for entry in entries do
      let place := l ++ [utf8 entry.fileName]
      if ← entry.path.isDir then
        tree ← readDirectory depth place (tree.putDirectory place)
      else
        try
          let content ← IO.FS.readBinFile entry.path
          tree := tree.putFile place content.data.toList
        catch _ => pure ()
    return tree

/-- Writes the files of `after` that differ from those of `before`. -/
def writeChanges (before after : FileTree) : IO Unit := do
  for (l, content) in after.files do
    unless before.node? l = some (.file content) do
      IO.FS.writeBinFile ((← IO.currentDir) / pathOf l) ⟨content.toArray⟩

def settingVariables : IO (List (Text × Text)) :=
  Settings.Key.all.filterMapM fun key => do
    let name := key.variableName
    let value ← IO.getEnv ((String.fromUTF8? ⟨name.toArray⟩).getD "")
    return value.map fun value => (name, utf8 value)

def command (arguments : List String) : IO UInt32 := do
  let tree ← readDirectory depthLimit [] .empty
  let outcome := Command.execute (← settingVariables) (arguments.map utf8) tree
  writeChanges tree outcome.tree
  (← IO.getStdout).write ⟨outcome.printed.toArray⟩
  (← IO.getStderr).write ⟨outcome.diagnostics.toArray⟩
  return outcome.exitCode.toUInt32

end ClassUpgrade.Main

def main (arguments : List String) : IO UInt32 := ClassUpgrade.Main.command arguments
