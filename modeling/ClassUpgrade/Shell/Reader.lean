/-
# Shell.Reader — reading a script

A script is read line by line: what stands on a line, with the lines below
that belong to its commands, is read before any of it runs, and a fault in a
later line shows only when that line is reached.
-/
import ClassUpgrade.Shell.Source

namespace ClassUpgrade.Shell

set_option autoImplicit false

open Byte Parse

mutual

/-- What a dollar sign in front stands for, added to a draft. -/
def readDollar : (fuel : Nat) → (quoted : Bool) → Draft → Parse Draft
  | 0, _, _ => exhausted
  | fuel + 1, quoted, d => do
    drop 1
    match ← frontJoined with
    | none => pure (d.add quoted dollar)
    | some c =>
      if c == openParen then
        drop 1
        if ← accept openParen then
          let expression ← readInside fuel (.parens 0) .empty
          pure (d.push (.arithmetic quoted expression))
        else
          let s ← get
          set { s with pushed := none, awaited := [], current := none }
          let body ← readList fuel false true none
          match ← readToken fuel anyToken with
          | .closeParen => pure ()
          | t => unexpected t (some .closeParen)
          modify fun s' => { s' with
            pushed := s.pushed, awaited := s.awaited, current := s.current }
          pure (d.push (.output quoted (body.getD .nothing)))
      else if c == openBrace then
        drop 1
        let (p, operation) ← readBraced
        match operation with
        | none => pure (d.push (.parameter quoted p .value []))
        | some op =>
          let word ←
            match op, quoted with
            | .trim _ _, _ => readBare fuel true false .empty
            | _, true => readInside fuel (.braces false) .empty
            | _, false => readBare fuel true false .empty
          pure (d.push (.parameter quoted p op word))
      else if isNameStart c then
        let name ← takeJoined isNameByte (← enough)
        pure (d.push (.parameter quoted (.named name) .value []))
      else
        match specialParameter? c with
        | some p =>
          drop 1
          pure (d.push (.parameter quoted p .value []))
        | none => pure (d.add quoted dollar)

/-- The output of the command between backquotes, the first one in front, added to a draft. What
follows the command there is left out. -/
def readOutput : (fuel : Nat) → (quoted : Bool) → Draft → Parse Draft
  | 0, _, _ => exhausted
  | fuel + 1, quoted, d => do
    drop 1
    let current := (← get).current
    modify fun s => { s with current := none }
    let text ← readBackquoted quoted (← enough) []
    let s ← get
    set { Source.start text s.nextDocument s.aliases with documents := s.documents }
    let body ← readList fuel false true none
    modify fun s' => { s with
      documents := s'.documents, nextDocument := s'.nextDocument, current }
    pure (d.push (.output quoted (body.getD .nothing)))

/-- A word outside quotes. `nested` is set between braces, where only the closing one ends it, and
`literal` where a dollar sign means nothing. -/
def readBare : (fuel : Nat) → (nested literal : Bool) → Draft → Parse Word
  | 0, _, _, _ => exhausted
  | fuel + 1, nested, literal, d => do
    match ← frontJoined with
    | none => if nested then refuse (utf8 "Missing '\x7d'") else pure d.done
    | some b =>
      if b == backslash then
        drop 1
        match ← front with
        | none => readBare fuel nested literal (d.add true b)
        | some c =>
          drop 1
          readBare fuel nested literal (d.add true c)
      else if b == singleQuote then
        drop 1
        let text ← readSingleQuoted (← enough) []
        readBare fuel nested literal (d.push (.text true text))
      else if b == doubleQuote then
        drop 1
        let pieces ← readInside fuel .quotes .empty
        match pieces with
        | [.parameter true .each .value []] => readBare fuel nested literal (d.pushAll pieces)
        | _ => readBare fuel nested literal ((d.push (.text true [])).pushAll pieces)
      else if b == dollar && !literal then do
        let d ← readDollar fuel false d
        readBare fuel nested literal d
      else if b == backtick && !literal then do
        let d ← readOutput fuel false d
        readBare fuel nested literal d
      else if nested then
        if b == closeBrace then
          drop 1
          pure d.done
        else if b == lineFeed then
          dropLine
          readBare fuel nested literal (d.add false b)
        else
          drop 1
          readBare fuel nested literal (d.add false b)
      else if endsWord b then pure d.done
      else
        drop 1
        readBare fuel nested literal (d.add false b)

def readInside : (fuel : Nat) → Enclosure → Draft → Parse Word
  | 0, _, _ => exhausted
  | fuel + 1, e, d => do
    match ← frontJoined with
    | none =>
      e.atEnd
      pure d.done
    | some b =>
      if b == backslash then
        drop 1
        match ← front with
        | none => readInside fuel e (d.add true b)
        | some c =>
          drop 1
          readInside fuel e (if e.isEscapable c then d.add true c else (d.add true b).add true c)
      else if b == dollar then
        let d ← readDollar fuel true d
        readInside fuel e d
      else if b == backtick then
        let d ← readOutput fuel true d
        readInside fuel e d
      else
        match ← e.pass b with
        | .ended => pure d.done
        | .left e => readInside fuel e d
        | .shown e => readInside fuel e (d.add true b)

/-- Reads the texts of the here-documents that are awaited. -/
def readDocuments : (fuel : Nat) → Parse Unit
  | 0 => exhausted
  | fuel + 1 => do
    let s ← get
    match s.awaited with
    | [] => pure ()
    | a :: others =>
      if a.literal then
        let (text, rest, lines) := documentLines a (s.rest.length + 1) s.rest
        set { s with
          rest, line := s.line + lines, awaited := others
          documents := (a.number, [.text true text]) :: s.documents }
      else
        set { s with awaited := others, pushed := none, current := some a }
        startLine
        let word ← readInside fuel .document .empty
        modify fun s' => { s' with
          rest := s'.afterMark.getD s'.rest, pushed := s.pushed
          current := s.current, afterMark := none
          documents := (a.number, word) :: s'.documents }
      readDocuments fuel

/-- The next token without regard to keywords. -/
def readRaw : (fuel : Nat) → Parse Token
  | 0 => exhausted
  | fuel + 1 => do
    match (← get).pushed with
    | some t =>
      modify fun s => { s with pushed := none }
      pure t
    | none =>
      match ← frontJoined with
      | none => pure .fileEnd
      | some b =>
        if b == space || b == tab then
          drop 1
          readRaw fuel
        else if b == Byte.hash then
          modify fun s => { s with rest := s.rest.dropWhile (· != lineFeed) }
          readRaw fuel
        else if b == lineFeed then
          dropLine
          pure .lineEnd
        else if b == 0x26 then
          drop 1
          pure (if ← accept b then .andAlso else .ampersand)
        else if b == 0x7C then
          drop 1
          pure (if ← accept b then .orElse else .bar)
        else if b == semicolon then
          drop 1
          pure (if ← accept b then .caseEnd else .semicolon)
        else if b == openParen then
          drop 1
          pure .openParen
        else if b == closeParen then
          drop 1
          pure .closeParen
        else if b == 0x3C || b == 0x3E then readRedirect none
        else
          let word ← readBare fuel false false .empty
          let next ← front
          match word with
          | [.text false [digit]] =>
            if isDigit digit && (next == some 0x3C || next == some 0x3E) then
              readRedirect (some (digit.toNat - 48))
            else pure (.word word)
          | _ => pure (.word word)

def readToken : (fuel : Nat) → Expectation → Parse Token
  | 0, _ => exhausted
  | fuel + 1, e => do
    let before := (← get).rest.length
    match ← readRaw fuel with
    | .lineEnd =>
      if e.skipsLines then
        readDocuments fuel
        readToken fuel e
      else pure .lineEnd
    | .word w =>
      modify fun s => { s with lastWord := w }
      match Word.plain? w with
      | none => pure (.word w)
      | some t =>
        if e.keywords && keywords.contains t then pure (.keyword t)
        else
          let s ← get
          let isChained := s.chained.any fun after => s.rest.length < after && after < before
          match e.aliases || isChained, s.aliases.lookup t with
          | true, some value =>
            if s.expanding.any fun (name, after) => name == t && after ≤ s.rest.length then
              pure (.word w)
            else
              let others := s.expanding.filter fun (_, after) => after ≤ s.rest.length
              let endsBlank := value.getLast?.any fun b => b == space || b == tab
              set { s with
                rest := value ++ s.rest
                expanding := (t, s.rest.length) :: others
                chained := if endsBlank then some s.rest.length else s.chained }
              readToken fuel e
          | _, _ => pure (.word w)
    | t => pure t

def expectKeyword : (fuel : Nat) → (keyword : String) → Parse Unit
  | 0, _ => exhausted
  | fuel + 1, keyword => do
    let t ← readToken fuel ⟨false, true, false⟩
    if t.isKeyword keyword then pure () else unexpected t (some (.keyword (utf8 keyword)))

/-- A list of commands. At the top it ends with its line, elsewhere in front of what ends a list;
`mayBeEmpty` is set where it may hold no command. -/
def readList : (fuel : Nat) → (top mayBeEmpty : Bool) → Option Script → Parse (Option Script)
  | 0, _, _, _ => exhausted
  | fuel + 1, top, mayBeEmpty, before => do
    match ← readToken fuel ⟨!top, true, true⟩ with
    | .lineEnd =>
      readDocuments fuel
      pure before
    | .fileEnd =>
      readDocuments fuel
      pushBack .fileEnd
      pure before
    | t =>
      pushBack t
      if !top && mayBeEmpty && t.endsList then pure before
      else
        let command ← readChain fuel
        let after ← readToken fuel anyToken
        let command :=
          match after with
          | .ampersand => .background command
          | _ => command
        let whole :=
          match before with
          | some first => .sequence first command
          | none => command
        match after with
        | .fileEnd =>
          readDocuments fuel
          pushBack .fileEnd
          pure (some whole)
        | .lineEnd =>
          pushBack .lineEnd
          readList fuel top true (some whole)
        | .ampersand | .semicolon => readList fuel top true (some whole)
        | t =>
          if top then unexpected t none
          else
            pushBack t
            pure (some whole)

/-- Commands joined by two ampersands or two bars. -/
def readChain : (fuel : Nat) → Parse Script
  | 0 => exhausted
  | fuel + 1 => do
    let first ← readPipeline fuel commandHere
    readLinks fuel first

/-- What is joined to a command. -/
def readLinks : (fuel : Nat) → Script → Parse Script
  | 0, _ => exhausted
  | fuel + 1, first => do
    match ← readToken fuel anyToken with
    | .andAlso =>
      let second ← readPipeline fuel commandBelow
      readLinks fuel (.both first second)
    | .orElse =>
      let second ← readPipeline fuel commandBelow
      readLinks fuel (.either first second)
    | t =>
      pushBack t
      pure first

/-- Commands joined by bars. -/
def readPipeline : (fuel : Nat) → Expectation → Parse Script
  | 0, _ => exhausted
  | fuel + 1, e => do
    let t ← readToken fuel e
    if t.isKeyword "!" then
      let s ← readStages fuel commandHere
      pure (.negated s)
    else
      pushBack t
      readStages fuel anyToken

def readStages : (fuel : Nat) → Expectation → Parse Script
  | 0, _ => exhausted
  | fuel + 1, e => do
    let first ← readCommand fuel e
    match ← readToken fuel anyToken with
    | .bar =>
      match ← readStages fuel commandBelow with
      | .pipeline stages => pure (.pipeline (first :: stages))
      | second => pure (.pipeline [first, second])
    | t =>
      pushBack t
      pure first

def readCommand : (fuel : Nat) → Expectation → Parse Script
  | 0, _ => exhausted
  | fuel + 1, e => do
    let line := (← get).line
    match ← readToken fuel e with
    | .keyword t =>
      if t == utf8 "if" then
        let s ← readConditional fuel
        readRedirections fuel line ⟨false, true, true⟩ s
      else if t == utf8 "while" || t == utf8 "until" then
        let test ← readBody fuel
        expectKeyword fuel "do"
        let body ← readBody fuel
        expectKeyword fuel "done"
        readRedirections fuel line ⟨false, true, true⟩ (.loop (t == utf8 "until") test body)
      else if t == utf8 "for" then
        let s ← readFor fuel line
        readRedirections fuel line ⟨false, true, true⟩ s
      else if t == utf8 "case" then
        let s ← readCase fuel line
        readRedirections fuel line ⟨false, true, true⟩ s
      else if t == [openBrace] then
        let body ← readBody fuel
        expectKeyword fuel "\x7d"
        readRedirections fuel line ⟨false, true, true⟩ body
      else unexpected (.keyword t) none
    | .openParen =>
      let body ← readBody fuel
      match ← readToken fuel anyToken with
      | .closeParen => pure ()
      | t => unexpected t (some .closeParen)
      readRedirections fuel line ⟨false, true, true⟩ (.subshell line body [])
    | .word w =>
      pushBack (.word w)
      readSimple fuel (← get).line [] [] []
    | .redirect fd kind stripped =>
      pushBack (.redirect fd kind stripped)
      readSimple fuel (← get).line [] [] []
    | t => unexpected t none

/-- A list of commands that is not empty. -/
def readBody : (fuel : Nat) → Parse Script
  | 0 => exhausted
  | fuel + 1 => do return (← readList fuel false false none).getD .nothing

def readConditional : (fuel : Nat) → Parse Script
  | 0 => exhausted
  | fuel + 1 => do
    let test ← readBody fuel
    expectKeyword fuel "then"
    let yes ← readBody fuel
    let t ← readToken fuel ⟨false, true, false⟩
    if t.isKeyword "elif" then
      let no ← readConditional fuel
      pure (.conditional test yes (some no))
    else if t.isKeyword "else" then
      let no ← readBody fuel
      expectKeyword fuel "fi"
      pure (.conditional test yes (some no))
    else
      pushBack t
      expectKeyword fuel "fi"
      pure (.conditional test yes none)

/-- The words up to the end of a line or a semicolon. -/
def readWords : (fuel : Nat) → Parse (List Word)
  | 0 => exhausted
  | fuel + 1 => do
    match ← readToken fuel anyToken with
    | .word w =>
      let rest ← readWords fuel
      pure (w :: rest)
    | .lineEnd | .semicolon => pure []
    | t => unexpected t none

/-- The rest of a loop over words. Without words it goes over the arguments. -/
def readFor : (fuel : Nat) → (line : Nat) → Parse Script
  | 0, _ => exhausted
  | fuel + 1, line => do
    let name ←
      match ← readToken fuel anyToken with
      | .word w =>
        match Word.plain? w with
        | some t => if isName t then pure t else refuse (utf8 "Bad for loop variable")
        | none => refuse (utf8 "Bad for loop variable")
      | _ => refuse (utf8 "Bad for loop variable")
    let t ← readToken fuel ⟨true, true, true⟩
    let words ←
      if t.isKeyword "in" then readWords fuel
      else do
        match t with
        | .semicolon => pure ()
        | t => pushBack t
        pure [[.parameter true .each .value []]]
    let t ← readToken fuel ⟨true, true, true⟩
    if !t.isKeyword "do" then unexpected t (some (.keyword (utf8 "do")))
    let body ← readBody fuel
    expectKeyword fuel "done"
    pure (.forEach line name words body)

def readCase : (fuel : Nat) → (line : Nat) → Parse Script
  | 0, _ => exhausted
  | fuel + 1, line => do
    let subject ←
      match ← readToken fuel anyToken with
      | .word w => pure w
      | t => unexpected t (some (.word []))
    let t ← readToken fuel ⟨true, true, true⟩
    if !t.isKeyword "in" then unexpected t (some (.keyword (utf8 "in")))
    let cases ← readCases fuel
    pure (.choice line subject cases)

def readCases : (fuel : Nat) → Parse (List (List Word × Option Script))
  | 0 => exhausted
  | fuel + 1 => do
    let t ← readToken fuel ⟨true, true, false⟩
    if t.isKeyword "esac" then pure []
    else
      let t ←
        match t with
        | .openParen => readToken fuel anyToken
        | t => pure t
      let patterns ← readPatterns fuel t
      let body ← readList fuel false true none
      let t ← readToken fuel ⟨true, true, false⟩
      if t.isKeyword "esac" then pure [(patterns, body)]
      else
        match t with
        | .caseEnd =>
          let rest ← readCases fuel
          pure ((patterns, body) :: rest)
        | t => unexpected t (some .caseEnd)

/-- The patterns of a case, through the closing parenthesis. A token that is no word stands for the
word in front of it. -/
def readPatterns : (fuel : Nat) → Token → Parse (List Word)
  | 0, _ => exhausted
  | fuel + 1, t => do
    let w ←
      match t with
      | .word w => pure w
      | .keyword t => pure [.text false t]
      | _ => do pure (← get).lastWord
    match ← readToken fuel anyToken with
    | .bar =>
      let next ← readToken fuel anyToken
      let rest ← readPatterns fuel next
      pure (w :: rest)
    | .closeParen => pure [w]
    | t => unexpected t (some .closeParen)

/-- The redirections after a command that is not simple. Keywords and aliases are known in front of
the first one only. -/
def readRedirections : (fuel : Nat) → (line : Nat) → Expectation → Script → Parse Script
  | 0, _, _, _ => exhausted
  | fuel + 1, line, e, s => do
    match ← readToken fuel e with
    | .redirect fd kind stripped =>
      let r ← readTarget fuel fd kind stripped
      match ← readRedirections fuel line anyToken .nothing with
      | .redirected _ _ rs => pure (attach line s (r :: rs))
      | _ => pure (attach line s [r])
    | t =>
      pushBack t
      pure s
where
  /-- A command with redirections. -/
  attach (line : Nat) (s : Script) (rs : List Redirection) : Script :=
    match s with
    | .subshell l body _ => .subshell l body rs
    | s => .redirected line s rs

def readTarget : (fuel : Nat) → (descriptor : Nat) → Redirect → (stripped : Bool) →
    Parse Redirection
  | 0, _, _, _ => exhausted
  | fuel + 1, fd, kind, stripped => do
    match kind with
    | .document _ =>
      match ← frontWord fuel with
      | some w =>
        let s ← get
        let mark := w.flatMap fun
          | .text _ t => t
          | _ => []
        let literal := w.any fun
          | .text quoted _ => quoted
          | _ => false
        set { s with
          awaited := s.awaited ++ [(⟨s.nextDocument, mark, stripped, literal⟩ : Awaited)]
          nextDocument := s.nextDocument + 1 }
        pure (.mk fd (.document s.nextDocument) [])
      | none => unexpected (← readToken fuel anyToken) none
    | kind =>
      match ← readToken fuel anyToken with
      | .word w => pure (.mk fd kind w)
      | t => unexpected t none

/-- The word in front, in which a dollar sign means nothing. -/
def frontWord : (fuel : Nat) → Parse (Option Word)
  | 0 => exhausted
  | fuel + 1 => do
    match ← frontJoined with
    | none => pure none
    | some b =>
      if b == space || b == tab then
        drop 1
        frontWord fuel
      else if endsWord b || b == Byte.hash then pure none
      else
        let w ← readBare fuel false true .empty
        pure (some w)

/-- The rest of a simple command, of which assignments, words and redirections have been read,
each in reverse order. -/
def readSimple : (fuel : Nat) → (line : Nat) → List (Text × Word) → List Word →
    List Redirection → Parse Script
  | 0, _, _, _, _ => exhausted
  | fuel + 1, line, assignments, words, redirections => do
    match ← readToken fuel ⟨false, false, words.isEmpty⟩ with
    | .word w =>
      match words.isEmpty, Word.assignment? w with
      | true, some a => readSimple fuel line (a :: assignments) words redirections
      | _, _ => readSimple fuel line assignments (w :: words) redirections
    | .redirect fd kind stripped =>
      let r ← readTarget fuel fd kind stripped
      readSimple fuel line assignments words (r :: redirections)
    | .openParen =>
      match words, assignments.isEmpty && redirections.isEmpty with
      | [w], true =>
        match ← readToken fuel anyToken with
        | .closeParen => pure ()
        | t => unexpected t (some .closeParen)
        match Word.plain? w with
        | some name =>
          if isName name && !specialBuiltins.contains name then
            let body ← readCommand fuel commandBelow
            pure (.function name body)
          else refuse (utf8 "Bad function name")
        | none => refuse (utf8 "Bad function name")
      | _, _ =>
        pushBack .openParen
        pure (.simple line assignments.reverse words.reverse redirections.reverse)
    | t =>
      pushBack t
      pure (.simple line assignments.reverse words.reverse redirections.reverse)

end

/-- What stands at the front of a script: its end, or commands, none on an empty line. -/
inductive Next where
  | ended
  | commands (s : Option Script)

/-- Reads the commands that start on the line in front. -/
def readNext : Parse Next := do
  modify fun s => { s with pushed := none, awaited := [] }
  let fuel := 16 * (← enough) + 64
  let body ← readList fuel true false none
  match body, (← get).pushed with
  | none, some .fileEnd => pure .ended
  | body, _ => pure (.commands body)

end ClassUpgrade.Shell
