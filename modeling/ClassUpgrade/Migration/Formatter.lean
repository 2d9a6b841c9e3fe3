/-
# Migration.Formatter — commands that format a file

A formatter is a command line to which the path of the file is added. That it
fails is no failure of the migration: the file stays as it was written.
-/
import ClassUpgrade.Shell.Program
import ClassUpgrade.Text.Quoted
import ClassUpgrade.Text.Trim

namespace ClassUpgrade.Migration

set_option autoImplicit false

inductive FormatError where
  | noCommand
  /-- There is no such program, for this reason. -/
  | noProgram (name reason : Text)
  | failed (name : Text) (ending : Shell.Ending) (written : Text)
  deriving DecidableEq, Repr

def FormatError.message (e : FormatError) : Text :=
  utf8 "formatter unavailable: " ++
    match e with
    | .noCommand => utf8 "no formatter command configured"
    | .noProgram name reason => utf8 "exec: " ++ Text.quoted name ++ utf8 ": " ++ reason
    | .failed name ending written =>
      name ++ utf8 ": " ++
        (match ending with
          | .status n => utf8 "exit status " ++ Text.ofNat n
          | .signal n => utf8 "signal: " ++ Shell.Signal.description n) ++
        (if written.isEmpty then [] else utf8 ": " ++ written)

/-- What formatting the file at a path does to the files, and what went wrong. -/
abbrev Formatter := (path : Text) → FileTree → FileTree × Option FormatError

/-- The formatter that runs a command line with the path added to it. -/
def Formatter.ofCommand (command : Text) : Formatter := fun path tree =>
  match Text.fields command with
  | [] => (tree, some .noCommand)
  | name :: arguments =>
    match Shell.findProgram tree name with
    | .error reason => (tree, some (.noProgram name reason))
    | .ok program =>
      let outcome := program.run tree (arguments ++ [path])
      if outcome.ending = .status 0 then (outcome.tree, none)
      else (outcome.tree, some (.failed name outcome.ending (Text.trim outcome.written)))

end ClassUpgrade.Migration
