/-
# Shell.Run — running scripts

Running a script and replacing what stands in its words depend on each other,
because a word may hold a command whose output it stands for. Both take fuel,
which bounds how often a loop goes round and how deep functions call.
-/
import ClassUpgrade.Shell.Builtin

namespace ClassUpgrade.Shell

set_option autoImplicit false

open Byte Exec

/-- The name of a parameter in complaints. -/
def Parameter.label : Parameter → Text
  | .position n => Text.ofNat n
  | .count => utf8 "#"
  | .status => utf8 "?"
  | .each => utf8 "@"
  | .joined => utf8 "*"
  | .options => utf8 "-"
  | .process => utf8 "$"
  | .background => utf8 "!"
  | .named name => name

/-- The value of a parameter that is one text. -/
def Process.parameter? (p : Process) : Parameter → Option Text
  | .position 0 => some p.name
  | .position (n + 1) => p.arguments[n]?
  | .count => some (Text.ofNat p.arguments.length)
  | .status => some (Text.ofNat p.status)
  | .each | .joined => if p.arguments.isEmpty then none else some (Text.join p.joint p.arguments)
  | .options =>
    some ((optionNames.reverse.map Prod.fst).filter fun l => l > 1 && p.options.contains l)
  | .process => some (Text.ofNat processNumber)
  | .background => p.background.map fun _ => Text.ofNat backgroundNumber
  | .named name => p.value? name

def putIn (quoted : Bool) (t : Text) : List Part := if quoted then [.fixed true t] else [.loose t]

def argumentParts (quoted : Bool) (arguments : List Text) : List Part :=
  List.intercalate [.border quoted] (arguments.map (putIn quoted))

/-- The parts of a word that an operation puts in: what is not quoted in it is split. -/
def loosened (quoted : Bool) (parts : List Part) : List Part :=
  parts.map fun
    | .fixed false t => if quoted then .fixed true t else .loose t
    | part => part

/-- The text that a path holds for a script to be read from. -/
def scriptAt (path : Text) : Exec (Except PathFault Text) := do
  let resolved := (← process).resolve path
  match (← world).tree.stat resolved with
  | .ok (.file content) => return .ok content
  | .ok .directory => return .ok []
  | .error fault => return .error fault

/-- How deep functions may call. -/
def deepest : Nat := 1000

def firstLines : Nat → Text → Text
  | 0, _ => []
  | _, [] => []
  | n + 1, b :: rest => b :: (if b == lineFeed then firstLines n rest else firstLines (n + 1) rest)

/-- The words of a command that make assignments of their own. -/
def declarationNames : List Text := [utf8 "export", utf8 "readonly", utf8 "local"]

/-- Whether words up to now are a command whose further words may be assignments. -/
def isDeclaration (words : List Text) : Bool :=
  match words with
  | name :: rest =>
    declarationNames.contains name ||
      (name == utf8 "command" &&
        (rest.find? fun w => w.head? != some hyphen).any declarationNames.contains)
  | [] => false

/-- What is to be run by the name of a command. -/
inductive Target where
  | nothing
  | function (body : Script)
  | builtin (special : Bool)
  | external

/-- What the name of a command stands for; a function may be left out of account. -/
def targetOf (p : Process) (functions : Bool) (words : List Text) : Target :=
  match words with
  | [] => .nothing
  | name :: _ =>
    if specialBuiltins.contains name then .builtin true
    else
      match if functions then p.functions.lookup name else none with
      | some body => .function body
      | none => if regularBuiltins.contains name then .builtin false else .external

/-- How an interpreter was started: a text to run, a file, or what is read from descriptor zero. -/
inductive Start where
  | text (t : Text)
  | file (path : Text)
  | input

/-- Reads the letters of one word of options: whether a text is to be run, and the words left. -/
def startLetters (on : Bool) (next : List Text) : Text → Exec (Bool × Bool × List Text)
  | [] => return (false, false, next)
  | letter :: rest => do
    if letter == 0x63 then
      let (_, fromInput, next) ← startLetters on next rest
      return (true, fromInput, next)
    else if letter == 0x73 then
      let (asText, _, next) ← startLetters on next rest
      return (asText, true, next)
    else
      let next ← Builtin.setLetters on next [letter]
      startLetters on next rest

def startOptions : (fuel : Nat) → List Text → Exec (Bool × Bool × List Text)
  | 0, words => return (false, false, words)
  | _, [] => return (false, false, [])
  | fuel + 1, first :: rest => do
    if first == utf8 "--" || first == utf8 "-" then return (false, false, rest)
    else
      match first with
      | 0x2D :: letters =>
        let (asText, fromInput, rest) ← startLetters true rest letters
        let (asText', fromInput', rest) ← startOptions fuel rest
        return (asText || asText', fromInput || fromInput', rest)
      | 0x2B :: letters =>
        let (_, _, rest) ← startLetters false rest letters
        startOptions fuel rest
      | _ => return (false, false, first :: rest)

/-- What an interpreter is started with: what it runs, and its name and arguments are set. -/
def startWith (words : List Text) : Exec Start := do
  let (asText, fromInput, rest) ← startOptions (words.length + 1) words
  if asText then
    match rest with
    | [] => fail (utf8 "-c requires an argument")
    | t :: rest =>
      match rest with
      | name :: arguments => modifyProcess fun p => { p with name, arguments }
      | [] => pure ()
      return .text t
  else
    match fromInput, rest with
    | false, path :: arguments =>
      modifyProcess fun p => { p with arguments }
      return .file path
    | _, arguments =>
      modifyProcess fun p => { p with arguments }
      return .input

mutual

/-- The parts of a word in which everything is replaced. -/
def expand : (fuel : Nat) → Word → Exec (List Part)
  | 0, _ => fail (utf8 "too deep")
  | _, [] => return []
  | fuel + 1, piece :: rest => do
    let parts ← expandPiece fuel piece
    let more ← expand fuel rest
    return parts ++ more

def expandPiece : (fuel : Nat) → Piece → Exec (List Part)
  | 0, _ => fail (utf8 "too deep")
  | fuel + 1, piece => do
    match piece with
    | .text quoted t => return [.fixed quoted t]
    | .parameter quoted p op word => expandParameter fuel quoted p op word
    | .output quoted body => return putIn quoted (← outputOf fuel body)
    | .arithmetic quoted word =>
      let t ← textOf fuel word
      let lookup := (← process).value?
      match calculate lookup t with
      | .ok (n, assigned) =>
        for (name, value) in assigned.reverse do assign name (Text.ofInt value)
        return putIn quoted (Text.ofInt n)
      | .error fault => fail (fault.message t)

/-- The parts of a parameter and what is done with it. -/
def expandParameter : (fuel : Nat) → (quoted : Bool) → Parameter → Operation → Word →
    Exec (List Part)
  | 0, _, _, _, _ => fail (utf8 "too deep")
  | fuel + 1, quoted, p, op, word => do
    let process ← Exec.process
    let value := process.parameter? p
    let shown : List Part :=
      match p, quoted with
      | .each, _ | .joined, false => argumentParts quoted process.arguments
      | _, _ => putIn quoted (value.getD [])
    let missing (nonEmpty : Bool) : Bool :=
      match value with
      | none => true
      | some t => nonEmpty && t.isEmpty
    let complete (parts : Exec (List Part)) : Exec (List Part) := do
      match p, value with
      | .each, _ | .joined, _ => parts
      | _, none =>
        if process.has 'u' then fail (p.label ++ utf8 ": parameter not set") else parts
      | _, some _ => parts
    match op with
    | .value => complete (return shown ++ (← expand fuel word))
    | .length => complete (return putIn quoted (Text.ofNat (value.getD []).length))
    | .orElse nonEmpty =>
      if missing nonEmpty then return loosened quoted (← expand fuel word) else return shown
    | .instead nonEmpty =>
      if missing nonEmpty then return [] else return loosened quoted (← expand fuel word)
    | .orFail nonEmpty =>
      if missing nonEmpty then
        let usual := utf8 "parameter not set" ++ (if nonEmpty then utf8 " or null" else [])
        let message ← textOf fuel word
        fail (p.label ++ utf8 ": " ++ if word.isEmpty then usual else message)
      else return shown
    | .orAssign nonEmpty =>
      if missing nonEmpty then
        let t ← textOf fuel word
        match p with
        | .named name =>
          assign name t
          return putIn quoted t
        | _ => fail (p.label ++ utf8 ": bad variable name")
      else return shown
    | .trim front longest =>
      complete (do
        let pattern := Part.marks process.joint (← expand fuel word)
        return putIn quoted (trimmed front longest pattern (value.getD [])))
    | .unknown => fail (utf8 "Bad substitution")

/-- The text of a word that is not split. -/
def textOf : (fuel : Nat) → Word → Exec Text
  | 0, _ => fail (utf8 "too deep")
  | fuel + 1, w => do
    let parts ← expand fuel w
    return Part.text (← process).joint parts

def wordFields : (fuel : Nat) → Word → Exec (List Text)
  | 0, _ => fail (utf8 "too deep")
  | fuel + 1, w => do
    let parts ← expand fuel w
    let p ← process
    let fields := fieldsOf p.separators parts
    if p.has 'f' then return fields.map fun f => f.map Prod.snd
    else return fields.flatMap (pathsOf (← world).tree p.resolve)

/-- The fields of words, after those in `before`. -/
def argumentFields : (fuel : Nat) → (before : List Text) → List Word → Exec (List Text)
  | 0, _, _ => fail (utf8 "too deep")
  | _, before, [] => return before
  | fuel + 1, before, w :: rest => do
    match isDeclaration before, Word.assignment? w with
    | true, some (name, value) =>
      let t ← textOf fuel value
      argumentFields fuel (before ++ [name ++ equals :: t]) rest
    | _, _ =>
      let fields ← wordFields fuel w
      argumentFields fuel (before ++ fields) rest

/-- The output of a script, without the line breaks at its end. -/
def outputOf : (fuel : Nat) → Script → Exec Text
  | 0, _ => fail (utf8 "too deep")
  | fuel + 1, body => do
    let channel ← openChannel (.buffer [])
    let status ← isolated fuel (do
      connect 1 channel
      setStatus 0
      run fuel false body)
    modifyProcess fun p => { p with outputStatus := status }
    let content := (unread (← world) channel).filter (· != 0)
    return (content.reverse.dropWhile (· == lineFeed)).reverse

/-- Runs a step as a process of its own, and gives its status. -/
def isolated : (fuel : Nat) → Exec Unit → Exec Nat
  | 0, _ => fail (utf8 "too deep")
  | fuel + 1, body => do
    let saved ← process
    modifyProcess fun p => { p with traps := p.traps.filter (·.2.isEmpty), jobs := [] }
    let jump ← observe (finishing fuel body)
    let ended ← process
    modifyProcess fun _ => { saved with
      documents := ended.documents, nextDocument := ended.nextDocument
      pending := saved.pending }
    match jump with
    | some (.killed n) =>
      Builtin.signal n
      return ended.status
    | _ => return ended.status

/-- Runs the step of a process up to its end, and then what is to be done at the end. -/
def finishing : (fuel : Nat) → Exec Unit → Exec Unit
  | 0, _ => fail (utf8 "too deep")
  | fuel + 1, body => do
    match ← observe body with
    | some (.killed n) => throw (.killed n)
    | _ => pure ()
    match (← process).traps.lookup 0 with
    | some action =>
      let status := (← process).status
      modifyProcess fun p => { p with traps := p.traps.filter (·.1 != 0), command := none }
      match ← observe (do let _ ← runText fuel false false action) with
      | some (.killed n) => throw (.killed n)
      | some .exit | some .fault => pure ()
      | _ => setStatus status
    | none => pure ()
    runJobs fuel

def runJobs : (fuel : Nat) → Exec Unit
  | 0 => fail (utf8 "too deep")
  | fuel + 1 => do
    match (← process).jobs with
    | [] => pure ()
    | (start, body) :: rest =>
      modifyProcess fun p => { p with jobs := rest }
      let status ← isolated fuel (do
        modifyProcess fun p => { start with
          documents := p.documents, nextDocument := p.nextDocument
          traps := start.traps.filter (·.2.isEmpty), jobs := [] }
        run fuel false body)
      modifyProcess fun p => { p with background := some status }
      runJobs fuel

/-- Does what is to be done on the signals that have come. -/
def runTraps : (fuel : Nat) → Exec Unit
  | 0 => fail (utf8 "too deep")
  | fuel + 1 => do
    let p ← process
    match p.pending with
    | [] => pure ()
    | n :: others =>
      modifyProcess fun p => { p with pending := others }
      let _ ← runText fuel false false ((p.traps.lookup n).getD [])
      setStatus p.status
      runTraps fuel

/-- Runs a text as a script, and gives its status. -/
def runText : (fuel : Nat) → (tested isShown : Bool) → Text → Exec Nat
  | 0, _, _, _ => fail (utf8 "too deep")
  | fuel + 1, tested, isShown, t => do
    let p ← process
    let source := { Source.start t p.nextDocument p.aliases with isShown }
    let status ← runSource fuel tested source 0
    modifyProcess fun p' => { p' with readLine := p.readLine }
    return status

/-- Runs a script that is being read; `status` is that of the commands so far. -/
def runSource : (fuel : Nat) → (tested : Bool) → Source → (status : Nat) → Exec Nat
  | 0, _, _, _ => fail (utf8 "too deep")
  | fuel + 1, tested, source, status => do
    match readNext.run source with
    | .error fault =>
      if source.isShown && (← process).has 'v' then
        let _ ← write 2 (firstLines (fault.line + 1 - source.line) source.rest)
      modifyProcess fun p => { p with line := fault.line }
      fail (utf8 "Syntax error: " ++ fault.message)
    | .ok (next, after) =>
      modifyProcess fun p => { p with
        documents := after.documents ++ p.documents, nextDocument := after.nextDocument
        readLine := after.line }
      if source.isShown && (← process).has 'v' then
        let _ ← write 2 (source.rest.take (source.rest.length - after.rest.length))
      match next with
      | .ended => return status
      | .commands none => runSource fuel tested { after with documents := [] } status
      | .commands (some s) =>
        run fuel tested s
        let p ← process
        runSource fuel tested
          { after with documents := [], aliases := p.aliases, nextDocument := p.nextDocument }
          p.status

def targetTexts : (fuel : Nat) → List Redirection → Exec (List (Nat × Redirect × Text))
  | 0, _ => fail (utf8 "too deep")
  | _, [] => return []
  | fuel + 1, .mk fd kind target :: rest => do
    let t ← textOf fuel target
    match kind, t with
    | .copy, [b] => if isDigit b || b == hyphen then pure () else badDescriptor
    | .copy, _ => badDescriptor
    | _, _ => pure ()
    let more ← targetTexts fuel rest
    return (fd, kind, t) :: more
where
  /-- Refuses a descriptor that is no digit. -/
  badDescriptor : Exec Unit := do
    modifyProcess fun p => { p with line := p.readLine }
    fail (utf8 "Syntax error: Bad fd number")

def redirect : (fuel : Nat) → List (Nat × Redirect × Text) → Exec Unit
  | 0, _ => fail (utf8 "too deep")
  | _, [] => pure ()
  | fuel + 1, (fd, kind, t) :: rest => do
    match kind with
    | .document number =>
      let word := ((← process).documents.lookup number).getD []
      connect fd (← openChannel (.buffer (← textOf fuel word)))
    | .copy =>
      match Text.digits? 10 t with
      | none => close fd
      | some source =>
        match ← channel? source with
        | some channel => connect fd channel
        | none => fail (t ++ utf8 ": Bad file descriptor")
    | .read => connect fd (← openToRead t)
    | .write => connect fd (← openToWrite t true false ((← process).has 'C'))
    | .overwrite => connect fd (← openToWrite t true false false)
    | .append => connect fd (← openToWrite t false true false)
    | .readWrite => connect fd (← openToWrite t false false false)
    redirect fuel rest

/-- Runs a step with redirections, which are undone after it unless they are to stay. A redirection
that fails gives status two, and ends the script where the step would. -/
def redirected : (fuel : Nat) → List Redirection → (stays ends : Bool) → Exec Unit → Exec Unit
  | 0, _, _, _, _ => fail (utf8 "too deep")
  | fuel + 1, redirections, stays, ends, body => do
    let saved := (← process).descriptors
    let targets ← targetTexts fuel redirections
    match ← observe (redirect fuel targets) with
    | some .fault =>
      modifyProcess fun p => { p with descriptors := saved, status := 2 }
      if ends then throw .fault
    | some jump => throw jump
    | none =>
      let jump ← observe body
      if !stays then modifyProcess fun p => { p with descriptors := saved }
      match jump with
      | some jump => throw jump
      | none => pure ()

/-- Runs a command. `tested` is set where its failure does not end the script. -/
def run : (fuel : Nat) → (tested : Bool) → Script → Exec Unit
  | 0, _, _ => fail (utf8 "too deep")
  | fuel + 1, tested, s => do
    if (← process).has 'n' then return
    match s with
    | .nothing => pure ()
    | .simple line assignments words redirections =>
      modifyProcess fun p => { p with line, outputStatus := 0 }
      runSimple fuel tested assignments words redirections
      runTraps fuel
      checked tested
    | .sequence first second =>
      run fuel tested first
      run fuel tested second
    | .both first second =>
      run fuel true first
      if (← process).status == 0 then run fuel tested second
    | .either first second =>
      run fuel true first
      if (← process).status != 0 then run fuel tested second
    | .negated s =>
      run fuel true s
      setStatus (if (← process).status == 0 then 1 else 0)
    | .pipeline stages =>
      setStatus (← runStages fuel tested none stages)
      runTraps fuel
      checked tested
    | .conditional test yes no =>
      run fuel true test
      if (← process).status == 0 then run fuel tested yes
      else
        match no with
        | some no => run fuel tested no
        | none => setStatus 0
    | .loop untilTrue test body =>
      modifyProcess fun p => { p with loops := p.loops + 1 }
      runLoop fuel tested untilTrue test body 0
      modifyProcess fun p => { p with loops := p.loops - 1 }
    | .forEach line name words body =>
      modifyProcess fun p => { p with line }
      let values ← argumentFields fuel [] words
      modifyProcess fun p => { p with loops := p.loops + 1 }
      setStatus 0
      runFor fuel tested name body values
      modifyProcess fun p => { p with loops := p.loops - 1 }
    | .choice line subject cases =>
      modifyProcess fun p => { p with line }
      let t ← textOf fuel subject
      runCases fuel tested t cases
    | .subshell line body redirections =>
      modifyProcess fun p => { p with line }
      let targets ← targetTexts fuel redirections
      let status ← isolated fuel (do
        redirect fuel targets
        run fuel tested body)
      setStatus status
      runTraps fuel
      checked tested
    | .redirected line body redirections =>
      modifyProcess fun p => { p with line }
      redirected fuel redirections false false (run fuel tested body)
    | .function name body =>
      modifyProcess fun p => { p with
        functions := (name, body) :: p.functions.filter (·.1 != name), status := 0 }
    | .background body =>
      let input ← openChannel .discarded
      let p ← process
      let start := { p with descriptors := (0, input) :: p.descriptors.filter (·.1 != 0) }
      modifyProcess fun p => { p with
        status := 0, background := some 0, jobs := p.jobs ++ [(start, body)] }
where
  /-- Ends the script after a failure where the options ask for it. -/
  checked (tested : Bool) : Exec Unit := do
    let p ← process
    if !tested && p.status != 0 && p.has 'e' then throw .exit

/-- Runs a loop with a condition; `last` is the status of its body. -/
def runLoop : (fuel : Nat) → (tested untilTrue : Bool) → (test body : Script) → (last : Nat) →
    Exec Unit
  | 0, _, _, _, _, _ => fail (utf8 "too deep")
  | fuel + 1, tested, untilTrue, test, body, last => do
    let goesOn ← round (run fuel true test)
    match goesOn with
    | none => pure ()
    | some false => runLoop fuel tested untilTrue test body last
    | some true =>
      if ((← process).status == 0) == untilTrue then setStatus last
      else
        match ← round (run fuel tested body) with
        | none => pure ()
        | some _ => runLoop fuel tested untilTrue test body (← process).status
where
  /-- Runs a part of a loop: none where the loop ends, false where it starts over. -/
  round (step : Exec Unit) : Exec (Option Bool) := do
    match ← observe step with
    | none => return some true
    | some (.continue 1) => return some false
    | some (.break 1) => return none
    | some (.continue (n + 1)) => throw (.continue n)
    | some (.break (n + 1)) => throw (.break n)
    | some jump => throw jump

/-- Runs a loop over values. -/
def runFor : (fuel : Nat) → (tested : Bool) → (name : Text) → (body : Script) → List Text →
    Exec Unit
  | 0, _, _, _, _ => fail (utf8 "too deep")
  | _, _, _, _, [] => pure ()
  | fuel + 1, tested, name, body, value :: rest => do
    assign name value
    match ← observe (run fuel tested body) with
    | none | some (.continue 1) => runFor fuel tested name body rest
    | some (.break 1) => pure ()
    | some (.continue (n + 1)) =>
      modifyProcess fun p => { p with loops := p.loops - 1 }
      throw (.continue n)
    | some (.break (n + 1)) =>
      modifyProcess fun p => { p with loops := p.loops - 1 }
      throw (.break n)
    | some jump => throw jump

/-- Runs the first case whose patterns match a text. -/
def runCases : (fuel : Nat) → (tested : Bool) → Text → List (List Word × Option Script) →
    Exec Unit
  | 0, _, _, _ => fail (utf8 "too deep")
  | _, _, _, [] => setStatus 0
  | fuel + 1, tested, t, (patterns, body) :: rest => do
    if ← matchesAny fuel t patterns then
      match body with
      | some body => run fuel tested body
      | none => setStatus 0
    else runCases fuel tested t rest

def matchesAny : (fuel : Nat) → Text → List Word → Exec Bool
  | 0, _, _ => fail (utf8 "too deep")
  | _, _, [] => return false
  | fuel + 1, t, pattern :: rest => do
    let marks := Part.marks (← process).joint (← expand fuel pattern)
    if matchesPattern marks t then return true else matchesAny fuel t rest

/-- Runs the stages of a pipeline, each on the output of the one before it, and gives the status of
the last one. -/
def runStages : (fuel : Nat) → (tested : Bool) → (input : Option Nat) → List Script → Exec Nat
  | 0, _, _, _ => fail (utf8 "too deep")
  | _, _, _, [] => return 0
  | fuel + 1, tested, input, stage :: rest => do
    let output ← if rest.isEmpty then pure none else some <$> openChannel (.buffer [])
    let status ← isolated fuel (do
      match input with
      | some channel => connect 0 channel
      | none => pure ()
      match output with
      | some channel => connect 1 channel
      | none => pure ()
      run fuel tested stage)
    if rest.isEmpty then return status else runStages fuel tested output rest

def runSimple : (fuel : Nat) → (tested : Bool) → List (Text × Word) → List Word →
    List Redirection → Exec Unit
  | 0, _, _, _, _ => fail (utf8 "too deep")
  | fuel + 1, tested, assignments, words, redirections => do
    let arguments ← argumentFields fuel [] words
    let p ← process
    let target := targetOf p true arguments
    let errors := p.descriptors.lookup 2
    let special :=
      match target with
      | .builtin special => special
      | _ => false
    let stays := arguments.head? == some (utf8 "exec") ||
      (arguments.head? == some (utf8 "command") && arguments[1]? == some (utf8 "exec"))
    redirected fuel redirections stays special (do
      let before := (← process).bindings
      let shown ← assignAll fuel (!arguments.isEmpty && !special) assignments
      trace errors (shown ++ arguments)
      match target with
      | .nothing => setStatus (← process).outputStatus
      | .function body => runFunction fuel tested body (arguments.drop 1)
      | .builtin special => setStatus (← runBuiltin fuel tested special arguments)
      | .external => setStatus (← runExternal fuel arguments)
      if !arguments.isEmpty && !special then
        restore (assignments.map fun (name, _) => (name, before.lookup name)))
where
  /-- Writes a command that is about to run, where the options ask for it. -/
  trace (errors : Option Nat) (shown : List Text) : Exec Unit := do
    let p ← process
    match errors with
    | some channel =>
      if p.has 'x' then
        writeTo channel
          ((p.value? (utf8 "PS4")).getD [] ++ Text.join [space] shown ++ [lineFeed])
    | none => pure ()

/-- Makes assignments, and gives them as texts. -/
def assignAll : (fuel : Nat) → (exported : Bool) → List (Text × Word) → Exec (List Text)
  | 0, _, _ => fail (utf8 "too deep")
  | _, _, [] => return []
  | fuel + 1, exported, (name, w) :: rest => do
    let t ← textOf fuel w
    assign name t
    if exported then mark name fun v => { v with exported := true }
    let more ← assignAll fuel exported rest
    return (name ++ equals :: t) :: more

def runFunction : (fuel : Nat) → (tested : Bool) → Script → (arguments : List Text) → Exec Unit
  | 0, _, _, _ => fail (utf8 "too deep")
  | fuel + 1, tested, body, arguments => do
    let p ← process
    if p.hidden.length ≥ deepest then
      fail (utf8 "Maximum function recursion depth (" ++ Text.ofNat deepest ++ utf8 ") reached")
    modifyProcess fun p => { p with
      arguments, loops := 0, hidden := [] :: p.hidden, optionIndex := 1, optionOffset := none }
    let jump ← observe (run fuel tested body)
    let hidden := (← process).hidden.headD []
    modifyProcess fun q => { q with
      arguments := p.arguments, loops := p.loops, hidden := p.hidden
      optionIndex := p.optionIndex, optionOffset := p.optionOffset }
    restore hidden
    match jump with
    | none | some .leave => pure ()
    | some jump => throw jump

/-- Runs a command of the language, and gives its status. -/
def runBuiltin : (fuel : Nat) → (tested special : Bool) → List Text → Exec Nat
  | 0, _, _, _ => fail (utf8 "too deep")
  | _, _, _, [] => return 0
  | fuel + 1, tested, special, name :: arguments => do
    let command := (← process).command
    modifyProcess fun p => { p with command := some name }
    let jump ← observe (do
      if name == utf8 "wait" then runJobs fuel
      if name == utf8 "eval" then
        setStatus (← runText fuel tested false (Text.join [space] arguments))
      else if name == utf8 "." then setStatus (← runFile fuel arguments)
      else if name == utf8 "exec" then
        match arguments with
        | [] => setStatus 0
        | _ =>
          let status ← runExternal fuel arguments
          setStatus (if arguments.head?.any isDirectoryName then 126 else status)
          modifyProcess fun p => { p with traps := [] }
          throw .exit
      else if name == utf8 "command" then
        let (found, rest) ← Builtin.takeOptions "pvV" arguments
        modifyProcess fun p => { p with command }
        match found.any (·.1 == 0x76), found.any (·.1 == 0x56), rest with
        | _, _, [] => setStatus 0
        | true, _, name :: _ => setStatus (← Builtin.locate name)
        | _, true, name :: _ => setStatus (← Builtin.describe name)
        | _, _, rest =>
          match targetOf (← process) false rest with
          | .builtin _ => setStatus (← runBuiltin fuel tested false rest)
          | _ => setStatus (← runExternal fuel rest)
      else setStatus (← Builtin.run name arguments))
    modifyProcess fun p => { p with command }
    match jump with
    | none => return (← process).status
    | some .fault => if special then throw .fault else return 2
    | some jump => throw jump

/-- Runs the script in a file as part of this one, and gives its status. -/
def runFile : (fuel : Nat) → List Text → Exec Nat
  | 0, _ => fail (utf8 "too deep")
  | _, [] => return 0
  | fuel + 1, path :: _ => do
    if !path.contains slash then fail (path ++ utf8 ": not found")
    else
      match ← scriptAt path with
      | .error fault => fail (utf8 "cannot open " ++ path ++ utf8 ": " ++ openFault false fault)
      | .ok text =>
        modifyProcess fun p => { p with command := some path }
        setStatus 0
        match ← observe (do setStatus (← runText fuel false true text)) with
        | none | some .leave => return (← process).status
        | some jump => throw jump

/-- Runs a program, and gives its status. There are none but the interpreter itself. -/
def runExternal : (fuel : Nat) → List Text → Exec Nat
  | 0, _ => fail (utf8 "too deep")
  | _, [] => return 0
  | fuel + 1, name :: arguments => do
    if name == utf8 "sh" then
      let saved ← process
      let exported := saved.bindings.filter fun b => b.2.exported && b.2.value.isSome
      let names := exported.map Prod.fst
      modifyProcess fun p => { Process.start name [] with
        bindings := exported ++ initialBindings.filter fun b => !names.contains b.1
        descriptors := p.descriptors, directory := p.directory, mask := p.mask
        traps := p.traps.filter (·.2.isEmpty) }
      let jump ← observe (finishing fuel (runInterpreter fuel arguments))
      let status := (← process).status
      modifyProcess fun _ => saved
      match jump with
      | some (.killed n) =>
        let report := Signal.report n
        if !report.isEmpty then
          let _ ← write 2 (report ++ [lineFeed])
        return 128 + n
      | _ => return status % 256
    else if name.contains slash then
      match (← world).tree.stat ((← process).resolve name) with
      | .ok _ =>
        warn (name ++ utf8 ": Permission denied")
        return 126
      | .error _ =>
        warn (name ++ utf8 ": not found")
        return 127
    else
      warn (name ++ utf8 (if isDirectoryName name then ": Permission denied" else ": not found"))
      return 127

/-- Runs the interpreter with arguments: a file, a text after `-c`, or what descriptor zero
gives. -/
def runInterpreter : (fuel : Nat) → List Text → Exec Unit
  | 0, _ => fail (utf8 "too deep")
  | fuel + 1, words => do
    let (isShown, text) ←
      match ← startWith words with
      | .text t => pure (false, t)
      | .input =>
        match ← channel? 0 with
        | none => pure (true, [])
        | some channel =>
          let content := unread (← world) channel
          skipRead channel content.length
          pure (true, content)
      | .file path =>
        match ← scriptAt path with
        | .error fault => fail (utf8 "cannot open " ++ path ++ utf8 ": " ++ openFault false fault)
        | .ok t =>
          modifyProcess fun p => { p with name := path }
          pure (true, t)
    let status ← runText fuel false isShown text
    setStatus status

end

end ClassUpgrade.Shell
