/-
# Shell.Builtin — the commands of the language itself

Each command takes its arguments and gives a status. The commands that run
other commands are in `Shell.Run`.
-/
import ClassUpgrade.Shell.Condition
import ClassUpgrade.Shell.Field
import ClassUpgrade.Shell.Format
import ClassUpgrade.Shell.Session

namespace ClassUpgrade.Shell

set_option autoImplicit false

open Byte Exec

def processNumber : Nat := 4242

/-- The number of the last process in the background. -/
def backgroundNumber : Nat := 4243

namespace Builtin

/-! ## Arguments and output -/

def output (t : Text) : Exec Nat := do
  if ← write 1 t then return 0
  else
    warn ((← process).command.getD [] ++ utf8 ": I/O error")
    return 1

/-- The options of one word, after its hyphen. `known` lists the letters, each with a colon after it
if it takes an argument, which is the rest of the word or the next one. -/
def wordOptions (known : Text) (next : List Text) :
    Text → Exec (List (UInt8 × Text) × List Text)
  | [] => return ([], next)
  | letter :: rest => do
    let after := (known.dropWhile (· != letter)).drop 1
    if letter == colon || !known.contains letter then fail (utf8 "Illegal option -" ++ [letter])
    else if after.head? == some colon then
      if !rest.isEmpty then return ([(letter, rest)], next)
      else
        match next with
        | a :: others => return ([(letter, a)], others)
        | [] => fail (utf8 "No arg for -" ++ [letter] ++ utf8 " option")
    else
      let (options, others) ← wordOptions known next rest
      return ((letter, []) :: options, others)

/-- The options in front of arguments, and the arguments after them. -/
def options (known : Text) : (fuel : Nat) → List Text → Exec (List (UInt8 × Text) × List Text)
  | 0, arguments => return ([], arguments)
  | _, [] => return ([], [])
  | fuel + 1, first :: rest => do
    match first with
    | 0x2D :: letter :: letters =>
      if letter == hyphen && letters.isEmpty then return ([], rest)
      else
        let (found, others) ← wordOptions known rest (letter :: letters)
        let (more, others) ← options known fuel others
        return (found ++ more, others)
    | _ => return ([], first :: rest)

def takeOptions (known : String) (arguments : List Text) :
    Exec (List (UInt8 × Text) × List Text) :=
  options (utf8 known) (arguments.length + 1) arguments

/-- A text in quotes that the language reads back. -/
def quotedFrom : (fuel : Nat) → Text → Text
  | 0, _ => []
  | fuel + 1, t =>
    let plain := t.takeWhile (· != singleQuote)
    let rest := t.drop plain.length
    let quotes := rest.takeWhile (· == singleQuote)
    let after := rest.drop quotes.length
    singleQuote :: plain ++ [singleQuote] ++
      (if quotes.isEmpty then [] else doubleQuote :: quotes ++ [doubleQuote]) ++
      (if after.isEmpty then [] else quotedFrom fuel after)

def quoted (t : Text) : Text := quotedFrom (t.length + 1) t

def sorted (ts : List Text) : List Text := ts.mergeSort fun s t => !Text.before t s

def requireName (t : Text) : Exec Unit :=
  if isName t then pure () else fail (t ++ utf8 ": bad variable name")

/-! ## Output -/

def echo (arguments : List Text) : Exec Nat := output (echoed arguments)

/-- Writes arguments as a format says. Complaints come before what is written. -/
def printf (arguments : List Text) : Exec Nat := do
  let (_, arguments) ← takeOptions "" arguments
  match arguments with
  | [] => fail (utf8 "usage: printf format [arg ...]")
  | format :: rest =>
    let (p, fault) := printed format rest
    for w in p.warnings do warn w
    match fault with
    | some what =>
      warn what
      let _ ← output p.text
      return 2
    | none =>
      let status ← output p.text
      return if p.warnings.isEmpty then status else 1

/-! ## Conditions -/

def test (bracketed : Bool) (arguments : List Text) : Exec Nat := do
  if bracketed && !(arguments.getLast?.any fun t => t.head? == some 0x5D) then
    fail (utf8 "missing ]")
  else
    let words := if bracketed then arguments.dropLast else arguments
    let p ← process
    let tree := (← world).tree
    let stat (path : Text) : Except PathFault Node :=
      if path == utf8 "/dev/null" then .ok (.file []) else tree.stat (p.resolve path)
    match conditionHolds stat (words.length + 1) words with
    | .ok holds => return if holds then 0 else 1
    | .error what => fail what

/-! ## Variables -/

/-- What a line means when backslashes take the meaning from what follows them: its marks, and
whether the next line belongs to it. -/
def unescapedLine : Text → List Mark × Bool
  | [] => ([], false)
  | [b] => if b == backslash || b == lineFeed then ([], false) else ([(false, b)], false)
  | b :: c :: rest =>
    if b == backslash then
      if c == lineFeed then ([], true)
      else
        let (marks, more) := unescapedLine rest
        ((true, c) :: marks, more)
    else
      let (marks, more) := unescapedLine (c :: rest)
      ((false, b) :: marks, more)

/-- The marks of the next line, and whether it ended with a line break. -/
def nextLine (raw : Bool) : (fuel : Nat) → Exec (List Mark × Bool)
  | 0 => return ([], false)
  | fuel + 1 => do
    let line := (← readLine 0).filter (· != 0)
    let ended := line.getLast? == some lineFeed
    if raw then return (((if ended then line.dropLast else line)).map fun b => (false, b), ended)
    else
      let (marks, more) := unescapedLine line
      if more then
        let (rest, ended) ← nextLine raw fuel
        return (marks ++ rest, ended)
      else return (marks, ended)

/-- Gives variables the fields of a line; those that are left over become empty. -/
def assignFields : List Text → List Text → Exec Unit
  | [], _ => pure ()
  | t :: names, fields => do
    let name := t.takeWhile (· != equals)
    requireName name
    assign name (fields.headD [])
    assignFields names (fields.drop 1)

/-- Reads a line into variables. -/
def read (arguments : List Text) : Exec Nat := do
  let (found, names) ← takeOptions "p:r" arguments
  if names.isEmpty then fail (utf8 "arg count")
  else
    let (marks, ended) ← nextLine (found.any (·.1 == 0x72)) 10000
    assignFields names (lineFields (← process).separators names.length marks)
    return if ended then 0 else 1

/-- The variables with a property as commands that set them. -/
def listVariables (lead : Text) (p : Process) (isWanted : Variable → Bool) : Text :=
  (sorted (p.bindings.map Prod.fst)).flatMap fun name =>
    match p.bindings.lookup name with
    | some v =>
      if !isWanted v then []
      else
        lead ++ name ++ (match v.value with
          | some t => equals :: quoted t
          | none => []) ++ [lineFeed]
    | none => []

def nameAndValue (t : Text) : Exec (Text × Option Text) := do
  let name := t.takeWhile (· != equals)
  requireName name
  return (name, if name.length < t.length then some (t.drop (name.length + 1)) else none)

/-- Marks variables, and gives them values. -/
def declare (property : Variable → Bool) (set : Variable → Variable) (lead : String)
    (arguments : List Text) : Exec Nat := do
  let (found, names) ← takeOptions "p" arguments
  if names.isEmpty || !found.isEmpty then
    output (listVariables (utf8 lead) (← process) property)
  else
    for t in names do
      let (name, value) ← nameAndValue t
      match value with
      | some v => assign name v
      | none => pure ()
      mark name set
    return 0

def localVariables (arguments : List Text) : Exec Nat := do
  if (← process).hidden.isEmpty then fail (utf8 "not in a function")
  else
    for t in arguments do
      let (name, value) ← nameAndValue t
      modifyProcess fun p =>
        match p.hidden with
        | top :: others =>
          if (top.lookup name).isSome then p
          else { p with hidden := ((name, p.bindings.lookup name) :: top) :: others }
        | [] => p
      match value with
      | some v => assign name v
      | none => pure ()
    return 0

def unsetNames (arguments : List Text) : Exec Nat := do
  let (found, names) ← takeOptions "vf" arguments
  let functions := (found.getLast?.map Prod.fst) == some 0x66
  for name in names do
    if functions then
      modifyProcess fun p => { p with functions := p.functions.filter (·.1 != name) }
    else
      requireName name
      unset name
  return 0

/-! ## Arguments and options of the script -/

/-- Takes arguments away from the front. -/
def shift (arguments : List Text) : Exec Nat := do
  let n ←
    match arguments with
    | [] => pure 1
    | t :: _ => number t
  if n > (← process).arguments.length then fail (utf8 "can't shift that many")
  else
    modifyProcess fun p => { p with
      arguments := p.arguments.drop n, optionIndex := 1, optionOffset := none }
    return 0

/-- Sets or clears an option. There is no terminal from which jobs could be controlled. -/
def setOption (on : Bool) (letter : UInt8) : Exec Unit :=
  if on && letter == 0x6D then warn (utf8 "can't access tty; job control turned off")
  else modifyProcess fun p => { p with
    options := if on then letter :: p.options.filter (· != letter)
      else p.options.filter (· != letter) }

def listOptions (p : Process) (asCommands : Bool) : Text :=
  let line (option : UInt8 × Text) : Text :=
    let on := p.options.contains option.1
    if asCommands then
      utf8 (if on then "set -o " else "set +o ") ++ option.2 ++ [lineFeed]
    else
      option.2 ++ List.replicate (16 - option.2.length) space ++
        utf8 (if on then "on\n" else "off\n")
  (if asCommands then [] else utf8 "Current option settings\n") ++ optionNames.flatMap line

def setNamedOption (on : Bool) (name : Text) : Exec Unit :=
  match optionNames.find? fun option => option.2 == name with
  | some (letter, _) => setOption on letter
  | none => fail (utf8 "Illegal option -o " ++ name)

/-- Sets the options of one word after its sign; an option by name takes the next word. -/
def setLetters (on : Bool) (next : List Text) : Text → Exec (List Text)
  | [] => return next
  | letter :: rest => do
    if letter == 0x6F then
      match next with
      | name :: others =>
        setNamedOption on name
        setLetters on others rest
      | [] =>
        let _ ← output (listOptions (← process) (!on))
        setLetters on [] rest
    else if letter != 0 && letter != 1 && optionNames.any (·.1 == letter) then
      setOption on letter
      setLetters on next rest
    else fail (utf8 "Illegal option -" ++ [letter])

/-- Sets the options in front of arguments: the arguments after them, none when nothing says that
there are any. -/
def setOptions : (fuel : Nat) → List Text → Exec (Option (List Text))
  | 0, arguments => return some arguments
  | _, [] => return none
  | fuel + 1, first :: rest => do
    if first == utf8 "--" then return some rest
    else if first == utf8 "-" then
      setOption false 0x78
      setOption false 0x76
      return if rest.isEmpty then none else some rest
    else
      match first with
      | 0x2D :: letters => setOptions fuel (← setLetters true rest letters)
      | 0x2B :: letters => setOptions fuel (← setLetters false rest letters)
      | _ => return some (first :: rest)

/-- Sets options and arguments, or lists the variables. -/
def set (arguments : List Text) : Exec Nat := do
  if arguments.isEmpty then output (listVariables [] (← process) fun v => v.value.isSome)
  else
    match ← setOptions (arguments.length + 1) arguments with
    | some arguments =>
      modifyProcess fun p => { p with arguments, optionIndex := 1, optionOffset := none }
    | none => pure ()
    return 0

/-- How a word of options lists a letter: not at all, alone, or with an argument. -/
def optionShape (letter : UInt8) : (known : Text) → Option Bool
  | [] => none
  | b :: 0x3A :: rest => if b == letter then some true else optionShape letter rest
  | b :: rest => if b == letter then some false else optionShape letter rest

/-- Where the next option of the arguments stands: the word that holds it and the offset in it, and
the number of the word after it; only the latter when there are no more options. -/
def nextOption? (words : List Text) (index : Nat) (offset : Option Nat) :
    Except Nat (Text × Nat × Nat) :=
  let current := words.getD (index - 2) []
  match offset.filter fun n => index ≥ 2 && n < current.length with
  | some n => .ok (current, n, index)
  | none =>
    match words[index - 1]? with
    | some word =>
      if word == utf8 "--" then .error (index + 1)
      else if word.head? == some hyphen && word.length > 1 then .ok (word, 1, index + 1)
      else .error index
    | none => .error index

def getopts (arguments : List Text) : Exec Nat := do
  match arguments with
  | known :: name :: rest =>
    let p ← process
    let words := if rest.isEmpty then p.arguments else rest
    let (index, offset) :=
      if p.optionIndex == 0 || p.optionIndex > words.length + 1 then (1, none)
      else (p.optionIndex, p.optionOffset)
    let silent := known.head? == some colon
    modifyProcess fun p => { p with optionIndex := 0 }
    let finish (letter : UInt8) (index : Nat) (offset : Option Nat) (status : Nat) : Exec Nat := do
      store optionIndexName (Text.ofNat index)
      requireName name
      assign name [letter]
      modifyProcess fun p => { p with optionIndex := index, optionOffset := offset }
      return status
    match nextOption? words index offset with
    | .error index => finish question index none 1
    | .ok (word, offset, index) =>
      let letter := word.getD offset 0
      let following := offset + 1
      match optionShape letter known with
      | none =>
        if silent then assign (utf8 "OPTARG") [letter]
        else
          let _ ← write 2 (utf8 "Illegal option -" ++ [letter, lineFeed])
          unset (utf8 "OPTARG")
        finish question index following 0
      | some false =>
        assign (utf8 "OPTARG") []
        finish letter index following 0
      | some true =>
        if following < word.length then
          assign (utf8 "OPTARG") (word.drop following)
          finish letter index none 0
        else
          match words[index - 1]? with
          | some value =>
            assign (utf8 "OPTARG") value
            finish letter (index + 1) none 0
          | none =>
            if silent then
              assign (utf8 "OPTARG") [letter]
              finish colon index none 0
            else
              let _ ← write 2 (utf8 "No arg for -" ++ [letter] ++ utf8 " option\n")
              unset (utf8 "OPTARG")
              finish question index none 0
  | _ => fail (utf8 "Usage: getopts optstring var [arg...]")

/-! ## Ends and loops -/

def exit (arguments : List Text) : Exec Nat := do
  match arguments with
  | t :: _ => setStatus (← number t)
  | [] => pure ()
  throw .exit

/-- Ends the function or script that runs. -/
def leave (arguments : List Text) : Exec Nat := do
  match arguments with
  | t :: _ => setStatus (← number t)
  | [] => pure ()
  throw .leave

/-- Ends loops, or goes on with one. -/
def endLoops (jump : Nat → Jump) (arguments : List Text) : Exec Nat := do
  let n ←
    match arguments with
    | [] => pure 1
    | t :: _ => do
      let n ← number t
      if n == 0 then fail (utf8 "Illegal number: " ++ t) else pure n
  let loops := (← process).loops
  if loops == 0 then return 0
  else
    setStatus 0
    throw (jump (min n loops))

/-! ## Signals -/

/-- Sends a signal to the process: it is kept for later, ignored, or ends the program. -/
def signal (n : Nat) : Exec Unit := do
  match (← process).traps.lookup n with
  | some [] => pure ()
  | some _ =>
    if n == 0 then pure () else modifyProcess fun p => { p with pending := p.pending ++ [n] }
  | none => if Signal.isIgnoredByDefault n then pure () else throw (.killed n)

/-- Lists signals, or names those that statuses stand for. -/
def listSignals (arguments : List Text) : Exec Nat := do
  match arguments with
  | [] => output ((utf8 "0" :: Signal.names).flatMap fun t => t ++ [lineFeed])
  | t :: _ =>
    let n ← number t
    match Signal.name? (if n > 128 then n - 128 else n) with
    | some name => output (name ++ [lineFeed])
    | none => fail (utf8 "invalid signal number or exit status: " ++ t)

def killUsage : Text :=
  utf8 "Usage: kill [-s sigspec | -signum | -sigspec] [pid | job]... or\nkill -l [exitstatus]"

/-- Sends a signal to processes, of which only the script itself is there. -/
def kill (arguments : List Text) : Exec Nat := do
  let (n, listed, targets) ←
    match arguments with
    | (0x2D :: word) :: rest =>
      match Signal.ofText? word with
      | some n => pure (n, false, rest)
      | none => do
        let (found, rest) ← takeOptions "ls:" arguments
        match (found.filter (·.1 == 0x73)).getLast? with
        | some (_, name) =>
          match Signal.ofText? name with
          | some n => pure (n, false, rest)
          | none => fail (utf8 "invalid signal number or name: " ++ name)
        | none => pure (15, found.any (·.1 == 0x6C), rest)
    | arguments => pure (15, false, arguments)
  if listed then listSignals targets
  else if targets.isEmpty then fail killUsage
  else
    let mut status := 0
    for target in targets do
      if target.head? == some 0x25 then fail (utf8 "No such job: " ++ target)
      let pid ← number (if target.head? == some hyphen then target.drop 1 else target)
      if pid == processNumber then signal n
      else
        warn (utf8 "No such process\n")
        status := 1
    return status

def trapName (n : Nat) : Text :=
  if n == 0 then utf8 "EXIT" else (Signal.name? n).getD (Text.ofNat n)

/-- Says what is to be done on signals. -/
def trap (arguments : List Text) : Exec Nat := do
  let (_, arguments) ← takeOptions "" arguments
  match arguments with
  | [] =>
    let traps := (← process).traps.mergeSort fun s t => s.1 ≤ t.1
    output (traps.flatMap fun (n, action) =>
      utf8 "trap -- " ++ quoted action ++ space :: trapName n ++ [lineFeed])
  | first :: rest =>
    let resets := rest.isEmpty || (Text.digits? 10 first).any (· ≤ Signal.names.length)
    let signals := if resets then first :: rest else rest
    for t in signals do
      match Signal.ofText? t with
      | none =>
        let _ ← write 2 (utf8 "trap: " ++ t ++ utf8 ": bad trap\n")
        return 1
      | some n =>
        modifyProcess fun p =>
          let others := p.traps.filter (·.1 != n)
          { p with traps := if resets || first == [hyphen] then others else (n, first) :: others }
    return 0

/-! ## Directories and files -/

def cd (arguments : List Text) : Exec Nat := do
  let (_, arguments) ← takeOptions "LP" arguments
  match arguments with
  | [] => return 0
  | path :: _ =>
    if path == [hyphen] then return 0
    else
      let p ← process
      let resolved := p.resolve path
      if (← world).tree.isDirectory resolved then
        let cleaned := Path.clean resolved
        modifyProcess fun p => { p with
          directory := if cleaned == Path.here then [] else cleaned }
        return 0
      else fail (utf8 "can't cd to " ++ path)

/-- The letters of the three permissions of a mode. -/
def permissions (mode : Nat) : Text :=
  (if mode / 4 % 2 == 1 then utf8 "r" else []) ++ (if mode / 2 % 2 == 1 then utf8 "w" else []) ++
    (if mode % 2 == 1 then utf8 "x" else [])

/-- Shows or sets the mode that new files do not get. -/
def umask (arguments : List Text) : Exec Nat := do
  let (found, rest) ← takeOptions "S" arguments
  match rest with
  | [] =>
    let mask := (← process).mask
    if found.isEmpty then
      let digits := (Nat.toDigits 8 mask).map Char.toUInt8
      output (List.replicate (4 - digits.length) 0x30 ++ digits ++ [lineFeed])
    else
      let kept := 511 - mask % 512
      output (utf8 "u=" ++ permissions (kept / 64) ++ utf8 ",g=" ++ permissions (kept / 8 % 8) ++
        utf8 ",o=" ++ permissions (kept % 8) ++ [lineFeed])
  | t :: _ =>
    match Text.digits? 8 t with
    | some n =>
      modifyProcess fun p => { p with mask := n % 4096 }
      return 0
    | none =>
      fail ((if t.head?.any isDigit then utf8 "Illegal number: " else utf8 "Illegal mode: ") ++ t)

/-! ## Names of commands -/

/-- What a name stands for as a command. -/
inductive Meaning where
  | keyword
  | alias (value : Text)
  | function
  | special
  | regular
  | program (path : Text)
  | missing
  deriving DecidableEq, Repr

def interpreterPath : Text := utf8 "/bin/sh"

def meaning (name : Text) : Exec Meaning := do
  let p ← process
  if keywords.contains name then return .keyword
  else
    match p.aliases.lookup name with
    | some value => return .alias value
    | none =>
      if (p.functions.lookup name).isSome then return .function
      else if specialBuiltins.contains name then return .special
      else if regularBuiltins.contains name then return .regular
      else if name == utf8 "sh" then return .program interpreterPath
      else if name.contains slash && ((← world).tree.stat (p.resolve name)).toOption.isSome then
        return .program name
      else return .missing

/-- Says at length what a name stands for. -/
def describe (name : Text) : Exec Nat := do
  let say (what : Text) : Exec Nat := output (name ++ what ++ [lineFeed])
  match ← meaning name with
  | .keyword => say (utf8 " is a shell keyword")
  | .alias value => say (utf8 " is an alias for " ++ value)
  | .function => say (utf8 " is a shell function")
  | .special => say (utf8 " is a special shell builtin")
  | .regular => say (utf8 " is a shell builtin")
  | .program path => say (utf8 " is " ++ path)
  | .missing =>
    let _ ← say (utf8 ": not found")
    return 127

/-- Says in short what a name stands for. -/
def locate (name : Text) : Exec Nat := do
  match ← meaning name with
  | .alias value => output (utf8 "alias " ++ name ++ equals :: quoted value ++ [lineFeed])
  | .program path => output (path ++ [lineFeed])
  | .missing => return 127
  | _ => output (name ++ [lineFeed])

def types : List Text → Exec Nat
  | [] => return 0
  | name :: rest => do
    let first ← describe name
    let others ← types rest
    return if first == 0 then others else first

/-- Looks for programs. -/
def hash (arguments : List Text) : Exec Nat := do
  let (_, names) ← takeOptions "rv" arguments
  let mut status := 0
  for name in names do
    if (← meaning name) == .missing then
      warn (name ++ utf8 ": not found")
      status := 1
  return status

def aliases (arguments : List Text) : Exec Nat := do
  let shown (entry : Text × Text) : Text := entry.1 ++ equals :: quoted entry.2 ++ [lineFeed]
  let p ← process
  if arguments.isEmpty then
    output ((sorted (p.aliases.map Prod.fst)).flatMap fun name =>
      shown (name, (p.aliases.lookup name).getD []))
  else
    let mut status := 0
    let mut listing := []
    for t in arguments do
      let name := t.takeWhile (· != equals)
      if name.length < t.length && !name.isEmpty then
        let value := t.drop (name.length + 1)
        modifyProcess fun p => { p with
          aliases := (name, value) :: p.aliases.filter (·.1 != name) }
      else
        match (← process).aliases.lookup t with
        | some value => listing := listing ++ shown (t, value)
        | none =>
          let _ ← write 2 (utf8 "alias: " ++ t ++ utf8 " not found\n")
          status := 1
    let _ ← output listing
    return status

def unalias (arguments : List Text) : Exec Nat := do
  let (found, names) ← takeOptions "a" arguments
  if !found.isEmpty then
    modifyProcess fun p => { p with aliases := [] }
    return 0
  else
    let mut status := 0
    for name in names do
      if ((← process).aliases.lookup name).isSome then
        modifyProcess fun p => { p with aliases := p.aliases.filter (·.1 != name) }
      else
        let _ ← write 2 (utf8 "unalias: " ++ name ++ utf8 " not found\n")
        status := 1
    return status

/-! ## Processes -/

/-- Gives the status of a process in the background that has ended. -/
def wait (arguments : List Text) : Exec Nat := do
  match arguments.getLast? with
  | none => return 0
  | some t =>
    let n ← number t
    match (← process).background with
    | some status => return if n == backgroundNumber then status else 127
    | none => return 127

/-- Runs a command that runs no others. -/
def run (name : Text) (arguments : List Text) : Exec Nat := do
  let isOneOf (names : List String) : Bool := names.any fun n => name == utf8 n
  if isOneOf [":", "true"] then return 0
  else if isOneOf ["false"] then return 1
  else if isOneOf ["echo"] then echo arguments
  else if isOneOf ["printf"] then printf arguments
  else if isOneOf ["test", "["] then test (name == [openBracket]) arguments
  else if isOneOf ["read"] then read arguments
  else if isOneOf ["export"] then
    declare Variable.exported (fun v => { v with exported := true }) "export " arguments
  else if isOneOf ["readonly"] then
    declare Variable.constant (fun v => { v with constant := true }) "readonly " arguments
  else if isOneOf ["local"] then localVariables arguments
  else if isOneOf ["unset"] then unsetNames arguments
  else if isOneOf ["shift"] then shift arguments
  else if isOneOf ["set"] then set arguments
  else if isOneOf ["getopts"] then getopts arguments
  else if isOneOf ["exit"] then exit arguments
  else if isOneOf ["return"] then leave arguments
  else if isOneOf ["break"] then endLoops .break arguments
  else if isOneOf ["continue"] then endLoops .continue arguments
  else if isOneOf ["kill"] then kill arguments
  else if isOneOf ["trap"] then trap arguments
  else if isOneOf ["cd", "chdir"] then cd arguments
  else if isOneOf ["pwd"] then output (slash :: (← process).directory ++ [lineFeed])
  else if isOneOf ["umask"] then umask arguments
  else if isOneOf ["ulimit"] then output (utf8 "unlimited\n")
  else if isOneOf ["type"] then types arguments
  else if isOneOf ["hash"] then hash arguments
  else if isOneOf ["alias"] then aliases arguments
  else if isOneOf ["unalias"] then unalias arguments
  else if isOneOf ["wait"] then wait arguments
  else if isOneOf ["bg", "fg"] then fail (utf8 "No current job")
  else if isOneOf ["times"] then output (utf8 "0m0.000000s 0m0.000000s\n0m0.000000s 0m0.000000s\n")
  else return 0

end Builtin

end ClassUpgrade.Shell
