/-
# Settings.Flag — options on the command line

An option is given by its name after two hyphens or its letter after one. A
value follows in the same argument after an equals sign, right after the
letter, or in the next argument; an option that is only on or off takes a
value after an equals sign alone. Letters of such options may be grouped. Two
hyphens alone end the options; everything else is positional.
-/
import ClassUpgrade.Number.Integer
import ClassUpgrade.Settings.Key
import ClassUpgrade.Settings.Value
import ClassUpgrade.Text.Quoted

namespace ClassUpgrade.Settings

set_option autoImplicit false

open Byte Number

/-- What values an option takes. -/
inductive FlagKind where
  | integer
  | truth
  | text
  /-- A text each time the option is given. -/
  | texts
  deriving DecidableEq, Repr

structure Flag where
  name : Text
  letter : Option UInt8
  kind : FlagKind
  deriving DecidableEq, Repr

def Key.letter : Key → Option UInt8
  | .parallel => some 0x70
  | .exclude => some 0x78
  | .dryRun => some 0x6E
  | .verbose => some 0x76
  | _ => none

def Key.kind : Key → FlagKind
  | .parallel => .integer
  | .format => .truth
  | .formatter => .text
  | .template => .text
  | .exclude => .texts
  | .dryRun => .truth
  | .verbose => .truth

def Key.flag (key : Key) : Flag := ⟨key.flagName, key.letter, key.kind⟩

def settingFlags : List Flag := Key.all.map Key.flag

/-- An option with the value it was given. -/
structure Assignment where
  flag : Flag
  value : Text
  deriving DecidableEq, Repr

inductive FlagError where
  | unknown (name : Text)
  | unknownLetter (letter : UInt8) (group : Text)
  | needsValue (name : Text)
  | letterNeedsValue (letter : UInt8) (group : Text)
  | invalidValue (flag : Flag) (value reason : Text)
  | badForm (argument : Text)
  | helpRequested
  deriving DecidableEq, Repr

def quotedLetter (b : UInt8) : Text :=
  let c := Char.ofNat b.toNat
  let inner :=
    if b = singleQuote || b = backslash then [backslash, b]
    else if Text.isShown c then String.utf8EncodeChar c
    else Text.codeEscape c
  singleQuote :: inner ++ [singleQuote]

/-- The first byte of the UTF-8 form of the character with the code `b`. -/
def leadByte (b : UInt8) : UInt8 := (String.utf8EncodeChar (Char.ofNat b.toNat)).headD b

def Flag.label (f : Flag) : Text :=
  match f.letter with
  | some letter => hyphen :: letter :: utf8 ", --" ++ f.name
  | none => utf8 "--" ++ f.name

def FlagError.message : FlagError → Text
  | .unknown name => utf8 "unknown flag: --" ++ name
  | .unknownLetter letter group =>
    utf8 "unknown shorthand flag: " ++ quotedLetter (leadByte letter) ++ utf8 " in -" ++ group
  | .needsValue name => utf8 "flag needs an argument: --" ++ name
  | .letterNeedsValue letter group =>
    utf8 "flag needs an argument: " ++ quotedLetter letter ++ utf8 " in -" ++ group
  | .invalidValue flag value reason =>
    utf8 "invalid argument " ++ Text.quoted value ++ utf8 " for " ++ Text.quoted flag.label ++
      utf8 " flag: " ++ reason
  | .badForm argument => utf8 "bad flag syntax: " ++ argument
  | .helpRequested => utf8 "pflag: help requested"

/-- Gives an option a value, which has to be of its kind. -/
def assign (flag : Flag) (value : Text) : Except FlagError Assignment :=
  match flag.kind with
  | .integer =>
    match parseInteger value with
    | .ok _ => .ok ⟨flag, value⟩
    | .error fault =>
      .error (.invalidValue flag value
        (utf8 "strconv.ParseInt: parsing " ++ Text.quoted value ++ utf8 ": " ++ fault.reason))
  | .truth =>
    match parseTruth? value with
    | some _ => .ok ⟨flag, value⟩
    | none =>
      .error (.invalidValue flag value
        (utf8 "strconv.ParseBool: parsing " ++ Text.quoted value ++ utf8 ": " ++
          Fault.malformed.reason))
  | .text => .ok ⟨flag, value⟩
  | .texts => .ok ⟨flag, value⟩

/-- The value of an option that is given without one. -/
def switchedOn : Text := utf8 "true"

/-- The options of a group of letters, and the one at its end that takes the next argument, with
what is left of the group. A group that starts with `test.` holds no options. -/
def lettersOf (flags : List Flag) :
    Text → Except FlagError (List Assignment × Option (Flag × Text))
  | [] => .ok ([], none)
  | letter :: rest =>
    if Text.startsWith (letter :: rest) (utf8 "test.") then .ok ([], none)
    else
      match flags.find? (·.letter = some letter) with
      | none =>
        if letter = 0x68 then .error .helpRequested else .error (.unknownLetter letter (letter :: rest))
      | some flag =>
        if rest.head? = some equals ∧ rest.length > 1 then
          (assign flag (rest.drop 1)).map fun a => ([a], none)
        else if flag.kind = .truth then do
          let a ← assign flag switchedOn
          let (more, last) ← lettersOf flags rest
          .ok (a :: more, last)
        else if rest.isEmpty then .ok ([], some (flag, letter :: rest))
        else (assign flag rest).map fun a => ([a], none)

/-- What the arguments of a command hold. -/
structure Arguments where
  assignments : List Assignment
  positional : List Text
  deriving DecidableEq, Repr

namespace Arguments

def withAssignment (a : Assignment) (args : Arguments) : Arguments :=
  { args with assignments := a :: args.assignments }

def withPositional (t : Text) (args : Arguments) : Arguments :=
  { args with positional := t :: args.positional }

end Arguments

/-- The name and the value of an option with a name, without its hyphens. -/
def splitNamed (t : Text) : Text × Option Text :=
  let name := t.takeWhile (· != equals)
  if name.length = t.length then (t, none) else (name, some (t.drop (name.length + 1)))

def parseArguments (flags : List Flag) : List Text → Except FlagError Arguments
  | [] => .ok ⟨[], []⟩
  | argument :: rest =>
    match argument with
    | 0x2D :: 0x2D :: [] => .ok ⟨[], rest⟩
    | 0x2D :: 0x2D :: named =>
      if named.head? = some hyphen ∨ named.head? = some equals then .error (.badForm argument)
      else
        let (name, value) := splitNamed named
        match flags.find? (·.name = name) with
        | none =>
          if name = utf8 "help" then .error .helpRequested else .error (.unknown name)
        | some flag =>
          match value with
          | some value => do
            let a ← assign flag value
            (parseArguments flags rest).map (·.withAssignment a)
          | none =>
            if flag.kind = .truth then do
              let a ← assign flag switchedOn
              (parseArguments flags rest).map (·.withAssignment a)
            else
              match rest with
              | [] => .error (.needsValue name)
              | value :: rest => do
                let a ← assign flag value
                (parseArguments flags rest).map (·.withAssignment a)
    | 0x2D :: letter :: letters => do
      let (assignments, last) ← lettersOf flags (letter :: letters)
      match last with
      | none =>
        (parseArguments flags rest).map fun args =>
          { args with assignments := assignments ++ args.assignments }
      | some (flag, group) =>
        match rest with
        | [] => .error (.letterNeedsValue (group.headD 0) group)
        | value :: rest => do
          let a ← assign flag value
          (parseArguments flags rest).map fun args =>
            { args with assignments := assignments ++ a :: args.assignments }
    | _ => (parseArguments flags rest).map (·.withPositional argument)

/-- The values that an option was given, in order. -/
def Arguments.valuesOf (args : Arguments) (flag : Flag) : List Text :=
  (args.assignments.filter (·.flag = flag)).map Assignment.value

/-- A text with each line break written as a line feed. -/
def unifyLineBreaks (t : Text) : Text := Text.replace [carriageReturn, lineFeed] [lineFeed] t

/-- What the command line sets a setting to. Of several values the last one counts, except that
texts add up; a single empty text is none. -/
def Arguments.setting? (args : Arguments) (key : Key) : Option Value :=
  let values := args.valuesOf key.flag
  match values.getLast? with
  | none => none
  | some last =>
    match key.kind with
    | .integer => ((parseInteger last).toOption.map .int)
    | .truth => (parseTruth? last).map .bool
    | .text => some (.text last)
    | .texts =>
      if values = [[]] then some (.list [])
      else some (.list (values.map fun v => .text (unifyLineBreaks v)))

end ClassUpgrade.Settings
