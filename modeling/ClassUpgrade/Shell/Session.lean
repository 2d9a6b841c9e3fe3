/-
# Shell.Session — the state of a script that runs

A session has a part that all its processes share, the files and what is
written to channels, and a part that each process has for itself: arguments,
variables, functions, options and descriptors. A subshell starts with a copy
of its parent's own part and leaves nothing of it behind.

A descriptor leads to a channel, and several may lead to the same one. What
goes to no file is collected in one text, in the order in which it was
written.
-/
import ClassUpgrade.Files.Tree
import ClassUpgrade.Shell.Arithmetic
import ClassUpgrade.Shell.Reader
import ClassUpgrade.Shell.Signal

namespace ClassUpgrade.Shell

set_option autoImplicit false

open Byte

/-- What descriptors lead to. -/
inductive Channel where
  /-- The output of the program. -/
  | collected
  /-- Nothing: it holds no text and takes any. -/
  | discarded
  | file (path : Text) (position : Nat) (appending : Bool)
  /-- Text that is written at its end and read from its front. -/
  | buffer (content : Text)
  deriving DecidableEq, Repr

/-- What all processes share. -/
structure World where
  tree : FileTree
  channels : Array Channel
  written : Text

/-- A variable; one without a value is only known by what it is to be. -/
structure Variable where
  value : Option Text
  exported : Bool
  constant : Bool
  deriving DecidableEq, Repr

/-- What a process has for itself. -/
structure Process where
  /-- What the script is called. -/
  name : Text
  arguments : List Text
  bindings : List (Text × Variable)
  functions : List (Text × Script)
  aliases : List (Text × Text)
  /-- The letters of the options that are set. -/
  options : List UInt8
  status : Nat
  /-- The status of the last command whose output was used. -/
  outputStatus : Nat
  /-- The way from the directory in which the script was started. -/
  directory : Text
  descriptors : List (Nat × Nat)
  /-- What is done on signals, zero standing for the end of the script. -/
  traps : List (Nat × Text)
  /-- The signals that have come and wait for what is to be done. -/
  pending : List Nat
  /-- The line of the command that runs, and the line up to which the script has been read. -/
  line : Nat
  readLine : Nat
  /-- The command that complaints name. -/
  command : Option Text
  loops : Nat
  /-- For each function that runs, the variables that it hides. -/
  hidden : List (List (Text × Option Variable))
  /-- The texts of here-documents. -/
  documents : List (Nat × Word)
  nextDocument : Nat
  /-- The argument that `getopts` takes an option from next, counted from one. At zero nothing is
  known of it. -/
  optionIndex : Nat
  /-- How far `getopts` has come in the argument before that. -/
  optionOffset : Option Nat
  /-- The mode that new files do not get. -/
  mask : Nat
  /-- The status of the last process in the background. -/
  background : Option Nat
  /-- The commands that run in the background, each with the descriptors and the other state that it
  starts with. They run when they are waited for, and at the latest when the process ends. -/
  jobs : List (Process × Script)

/-- The state of a script that runs. -/
structure Session where
  world : World
  process : Process

/-- Why the commands that follow do not run. -/
inductive Jump where
  /-- The process ends. -/
  | exit
  /-- A command of the language has failed. -/
  | fault
  /-- A function or a script ends. -/
  | leave
  /-- Loops end, this many. -/
  | break (loops : Nat)
  /-- Loops end up to this one, which goes on. -/
  | continue (loops : Nat)
  /-- A signal ends the whole program. -/
  | killed (signal : Nat)
  deriving DecidableEq, Repr

/-- A step of a script. -/
abbrev Exec := ExceptT Jump (StateM Session)

/-- The letters of the options, with their names. -/
def optionNames : List (UInt8 × Text) :=
  [(0x65, utf8 "errexit"), (0x66, utf8 "noglob"), (0x49, utf8 "ignoreeof"),
    (0x69, utf8 "interactive"), (0x6D, utf8 "monitor"), (0x6E, utf8 "noexec"),
    (0x73, utf8 "stdin"), (0x78, utf8 "xtrace"), (0x76, utf8 "verbose"), (0x56, utf8 "vi"),
    (0x45, utf8 "emacs"), (0x43, utf8 "noclobber"), (0x61, utf8 "allexport"),
    (0x62, utf8 "notify"), (0x75, utf8 "nounset"), (0x70, utf8 "privileged"), (0, utf8 "nolog"),
    (1, utf8 "debug")]

/-- The characters that separate fields when nothing else is said. -/
def usualSeparators : Text := [space, tab, lineFeed]

def initialBindings : List (Text × Variable) :=
  [(utf8 "IFS", ⟨some usualSeparators, false, false⟩),
    (utf8 "OPTIND", ⟨some (utf8 "1"), false, false⟩),
    (utf8 "PS1", ⟨some (utf8 "# "), false, false⟩), (utf8 "PS2", ⟨some (utf8 "> "), false, false⟩),
    (utf8 "PS4", ⟨some (utf8 "+ "), false, false⟩)]

namespace Process

def start (name : Text) (arguments : List Text) : Process where
  name := name
  arguments := arguments
  bindings := initialBindings
  functions := []
  aliases := []
  options := []
  status := 0
  outputStatus := 0
  directory := []
  descriptors := [(0, 0), (1, 1), (2, 1)]
  traps := []
  pending := []
  line := 0
  readLine := 1
  command := none
  loops := 0
  hidden := []
  documents := []
  nextDocument := 0
  optionIndex := 1
  optionOffset := none
  mask := 0x12
  background := none
  jobs := []

def value? (p : Process) (name : Text) : Option Text :=
  (p.bindings.lookup name).bind Variable.value

def has (p : Process) (letter : Char) : Bool := p.options.contains letter.toUInt8

def separators (p : Process) : Text := (p.value? (utf8 "IFS")).getD usualSeparators

/-- What stands between arguments that are joined. -/
def joint (p : Process) : Text :=
  match p.value? (utf8 "IFS") with
  | some t => t.take 1
  | none => [space]

/-- A path from the directory in which the script was started. -/
def resolve (p : Process) (path : Text) : Text :=
  if path.isEmpty || Path.isRooted path || p.directory.isEmpty then path
  else p.directory ++ slash :: path

end Process

namespace Exec

def process : Exec Process := do return (← get).process

def modifyProcess (f : Process → Process) : Exec Unit :=
  modify fun s => { s with process := f s.process }

def world : Exec World := do return (← get).world

def modifyWorld (f : World → World) : Exec Unit := modify fun s => { s with world := f s.world }

def setStatus (status : Nat) : Exec Unit := modifyProcess fun p => { p with status }

/-- Runs a step, and says what made it end early. -/
def observe (step : Exec Unit) : Exec (Option Jump) :=
  tryCatch (do step; return none) fun jump => return some jump

/-! ## Channels -/

def channel? (descriptor : Nat) : Exec (Option Nat) := do
  return (← process).descriptors.lookup descriptor

def openChannel (c : Channel) : Exec Nat := do
  let n := (← world).channels.size
  modifyWorld fun w => { w with channels := w.channels.push c }
  return n

/-- Lets a descriptor lead to a channel. -/
def connect (descriptor channel : Nat) : Exec Unit :=
  modifyProcess fun p => { p with
    descriptors := (descriptor, channel) :: p.descriptors.filter (·.1 != descriptor) }

def close (descriptor : Nat) : Exec Unit :=
  modifyProcess fun p => { p with descriptors := p.descriptors.filter (·.1 != descriptor) }

/-- A text with another put in at a place, over what stands there. -/
def overwrite (content : Text) (position : Nat) (t : Text) : Text :=
  content.take position ++ List.replicate (position - content.length) 0 ++ t ++
    content.drop (position + t.length)

def writeTo (channel : Nat) (t : Text) : Exec Unit :=
  modifyWorld fun w =>
    match w.channels[channel]? with
    | some .collected => { w with written := w.written ++ t }
    | some (.buffer content) =>
      { w with channels := w.channels.setIfInBounds channel (.buffer (content ++ t)) }
    | some (.file path position appending) =>
      let content := (w.tree.read path).toOption.getD []
      let place := if appending then content.length else position
      match w.tree.write path (overwrite content place t) with
      | .ok tree =>
        { w with
          tree
          channels := w.channels.setIfInBounds channel (.file path (place + t.length) appending) }
      | .error _ => w
    | _ => w

/-- Writes a text to a descriptor, and says whether it is open. -/
def write (descriptor : Nat) (t : Text) : Exec Bool := do
  match ← channel? descriptor with
  | some channel =>
    writeTo channel t
    return true
  | none => return t.isEmpty

def unread (w : World) (channel : Nat) : Text :=
  match w.channels[channel]? with
  | some (.buffer content) => content
  | some (.file path position _) => ((w.tree.read path).toOption.getD []).drop position
  | _ => []

/-- Takes bytes from the front of what is left to read. -/
def skipRead (channel count : Nat) : Exec Unit :=
  modifyWorld fun w =>
    match w.channels[channel]? with
    | some (.buffer content) =>
      { w with channels := w.channels.setIfInBounds channel (.buffer (content.drop count)) }
    | some (.file path position appending) =>
      { w with
        channels := w.channels.setIfInBounds channel (.file path (position + count) appending) }
    | _ => w

/-- Takes the next line from a descriptor, its line break included; empty at the end. -/
def readLine (descriptor : Nat) : Exec Text := do
  match ← channel? descriptor with
  | none => return []
  | some channel =>
    let content := unread (← world) channel
    let line := Text.line content
    let line := if line.length < content.length then line ++ [lineFeed] else line
    skipRead channel line.length
    return line

/-! ## Complaints -/

def complaint (what : Text) : Exec Text := do
  let p ← process
  let about := match p.command with
    | some c => c ++ utf8 ": "
    | none => []
  return p.name ++ utf8 ": " ++ Text.ofNat p.line ++ utf8 ": " ++ about ++ what ++ [lineFeed]

/-- Complains and goes on. -/
def warn (what : Text) : Exec Unit := do
  let _ ← write 2 (← complaint what)

/-- Complains and gives up. -/
def fail {α : Type} (what : Text) : Exec α := do
  warn what
  setStatus 2
  throw .fault

/-! ## Variables -/

/-- A number that is not negative. -/
def number (t : Text) : Exec Nat :=
  match (integerOf? (some 10) t).filter fun n => 0 ≤ n && n < 0x80000000 with
  | some n => return n.toNat
  | none => fail (utf8 "Illegal number: " ++ t)

/-- The variable that says which argument `getopts` takes an option from next. -/
def optionIndexName : Text := utf8 "OPTIND"

/-- Lets `getopts` go on with the argument of an index that a variable gets. -/
def restartOptions (name value : Text) : Exec Unit := do
  if name == optionIndexName then
    let n ← number value
    modifyProcess fun p => { p with optionIndex := Nat.max n 1, optionOffset := none }

/-- Gives a variable a value, and does nothing else. -/
def store (name value : Text) : Exec Unit := do
  let p ← process
  let known := p.bindings.lookup name
  if known.any Variable.constant then fail (name ++ utf8 ": is read only")
  else
    let v : Variable := ⟨some value, known.any Variable.exported || p.has 'a', false⟩
    modifyProcess fun p => { p with bindings := (name, v) :: p.bindings.filter (·.1 != name) }

def assign (name value : Text) : Exec Unit := do
  if !((← process).bindings.lookup name).any Variable.constant then restartOptions name value
  store name value

def unset (name : Text) : Exec Unit := do
  if ((← process).bindings.lookup name).any Variable.constant then
    fail (name ++ utf8 ": is read only")
  else
    restartOptions name []
    modifyProcess fun p => { p with bindings := p.bindings.filter (·.1 != name) }

/-- Puts variables back. -/
def restore (saved : List (Text × Option Variable)) : Exec Unit := do
  for (name, v) in saved do
    restartOptions name ((v.bind Variable.value).getD [])
    modifyProcess fun p =>
      let others := p.bindings.filter (·.1 != name)
      { p with
        bindings := match v with
          | some v => (name, v) :: others
          | none => others }

/-- Marks a variable, which may have no value yet. -/
def mark (name : Text) (f : Variable → Variable) : Exec Unit :=
  modifyProcess fun p =>
    let v := (p.bindings.lookup name).getD ⟨none, false, false⟩
    { p with bindings := (name, f v) :: p.bindings.filter (·.1 != name) }

/-! ## Files -/

def openFault (creating : Bool) : PathFault → Text
  | .missing | .notDirectory => if creating then utf8 "Directory nonexistent" else utf8 "No such file"
  | .isDirectory => utf8 "Is a directory"
  | .tooLong => utf8 "File name too long"
  | .invalid => utf8 "Invalid argument"

def deviceDescriptor? (path : Text) : Option Nat :=
  if path == utf8 "/dev/stdin" then some 0
  else if path == utf8 "/dev/stdout" then some 1
  else if path == utf8 "/dev/stderr" then some 2
  else (Text.after? (utf8 "/dev/fd/") path).bind (Text.digits? 10)

def openToRead (path : Text) : Exec Nat := do
  if path == utf8 "/dev/null" then openChannel .discarded
  else
    match (← (deviceDescriptor? path).mapM channel?).join with
    | some channel => return channel
    | none =>
      let resolved := (← process).resolve path
      match (← world).tree.stat resolved with
      | .ok (.file _) => openChannel (.file resolved 0 false)
      | .ok .directory => openChannel .discarded
      | .error fault => fail (utf8 "cannot open " ++ path ++ utf8 ": " ++ openFault false fault)

/-- Why a file cannot be created or written. A path with a slash at its end names a directory if
there is a place for one. -/
def writeFault (tree : FileTree) (path : Text) : PathFault :=
  let bare := (path.reverse.dropWhile (· == slash)).reverse
  let endsInSlash := bare.length < path.length
  if FileTree.isOutside path then .isDirectory
  else
    match tree.locate bare with
    | .error fault => fault
    | .ok l =>
      let isPlace := endsInSlash && tree.node? l.dropLast == some .directory
      if isPlace || tree.node? l == some .directory then .isDirectory else .missing

/-- A channel for writing a file: from its front, with what was in it taken away or kept, or at its
end. -/
def openToWrite (path : Text) (emptied appending guarded : Bool) : Exec Nat := do
  if path == utf8 "/dev/null" then openChannel .discarded
  else
    match (← (deviceDescriptor? path).mapM channel?).join with
    | some channel => return channel
    | none =>
      let resolved := (← process).resolve path
      let w ← world
      let present := (w.tree.read resolved).toOption
      if guarded && present.isSome then fail (utf8 "cannot create " ++ path ++ utf8 ": File exists")
      else
        match w.tree.write resolved (if emptied then [] else present.getD []) with
        | .ok tree =>
          modifyWorld fun w => { w with tree }
          openChannel (.file resolved 0 appending)
        | .error _ =>
          let fault := writeFault w.tree resolved
          fail (utf8 "cannot create " ++ path ++ utf8 ": " ++ openFault true fault)

end Exec

end ClassUpgrade.Shell
