/-
# Command.Invocation — what a command line asks for

The first positional argument may name an action; it then is no pattern. To
find it, the arguments are passed over option by option: an option that is
neither on nor off and has no equals sign takes the next argument with it.
-/
import ClassUpgrade.Settings.Flag

namespace ClassUpgrade.Command

set_option autoImplicit false

open Byte Settings

/-- What the tool can do. -/
inductive Action where
  | migrate
  | list
  | preview
  deriving DecidableEq, Repr

def Action.ofName? (name : Text) : Option Action :=
  if name = utf8 "list" then some .list
  else if name = utf8 "preview" then some .preview
  else none

def configFlag : Flag := ⟨utf8 "config", none, .text⟩

def commandFlags : List Flag := configFlag :: settingFlags

/-- An option that may stand without a value. -/
def standsAlone (flag : Flag) : Bool := flag.kind = .truth

/-- Whether an argument takes the next one with it. -/
def takesNext (argument : Text) : Bool :=
  if argument.contains equals then false
  else
    match argument with
    | 0x2D :: 0x2D :: name => !(commandFlags.any fun f => f.name = name && standsAlone f)
    | [0x2D, letter] => !(commandFlags.any fun f => f.letter = some letter && standsAlone f)
    | _ => false

/-- The argument after which everything is positional. -/
def endOfOptions : Text := utf8 "--"

/-- Whether an argument is positional by its looks. -/
def looksPositional (argument : Text) : Bool := argument.head? != some hyphen

/-- The first positional argument. An option whose value is the last argument hides it. -/
def firstPositional? : List Text → Option Text
  | [] => none
  | argument :: rest =>
    if argument = endOfOptions then none
    else if takesNext argument then
      match rest with
      | _ :: next :: more => firstPositional? (next :: more)
      | _ => none
    else if argument ≠ [] ∧ looksPositional argument then some argument
    else firstPositional? rest

/-- The arguments without the first positional one that has a name. -/
def withoutFirst (name : Text) : List Text → List Text
  | [] => []
  | argument :: rest =>
    if argument = endOfOptions then argument :: rest
    else if takesNext argument then
      match rest with
      | [] => [argument]
      | value :: more => argument :: value :: withoutFirst name more
    else if looksPositional argument ∧ argument = name then rest
    else argument :: withoutFirst name rest

/-- The action that arguments ask for, and the arguments for it. -/
def chooseAction (arguments : List Text) : Action × List Text :=
  match firstPositional? arguments with
  | none => (.migrate, arguments)
  | some name =>
    match Action.ofName? name with
    | none => (.migrate, arguments)
    | some action => (action, withoutFirst name arguments)

structure Invocation where
  action : Action
  arguments : Arguments
  deriving DecidableEq, Repr

namespace Invocation

/-- Why a command line cannot be followed. -/
inductive Fault where
  | flag (e : FlagError)
  | tooFewArguments (received : Nat)
  | wrongArgumentCount (received : Nat)
  deriving DecidableEq, Repr

def Fault.message : Fault → Text
  | .flag e => e.message
  | .tooFewArguments received =>
    utf8 "requires at least 1 arg(s), only received " ++ Text.ofNat received
  | .wrongArgumentCount received => utf8 "accepts 1 arg(s), received " ++ Text.ofNat received

/-- Checks the number of positional arguments: a preview takes one, anything else at least one. -/
def checkCount (i : Invocation) : Except Fault Invocation :=
  let received := i.arguments.positional.length
  match i.action with
  | .preview => if received = 1 then .ok i else .error (.wrongArgumentCount received)
  | _ => if received = 0 then .error (.tooFewArguments received) else .ok i

def parse (arguments : List Text) : Except Fault Invocation :=
  let (action, rest) := chooseAction arguments
  match parseArguments commandFlags rest with
  | .error e => .error (.flag e)
  | .ok parsed => checkCount ⟨action, parsed⟩

/-- The configuration file that was asked for, or nothing. -/
def configPath (i : Invocation) : Text := ((i.arguments.valuesOf configFlag).getLast?).getD []

end Invocation

end ClassUpgrade.Command
