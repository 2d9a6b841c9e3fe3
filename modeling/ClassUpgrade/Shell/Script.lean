/-
# Shell.Script — scripts of the command language

A script is made of commands: simple ones, which are assignments, words and
redirections, and those that put commands together. A word is made of plain
and quoted text and of what is replaced when it is used: parameters, the
output of commands and arithmetic.

The text of a here-document stands below the line that asks for it, so a
redirection holds the number under which the text is kept.
-/
import ClassUpgrade.Text.Numeral

namespace ClassUpgrade.Shell

set_option autoImplicit false

open Byte

/-- What a dollar sign stands before. -/
inductive Parameter where
  | position (n : Nat)
  | count
  | status
  /-- Every argument, each a word of its own between quotes. -/
  | each
  /-- Every argument, one word between quotes. -/
  | joined
  /-- The letters of the options that are set. -/
  | options
  /-- The number of the process. -/
  | process
  /-- The number of the last process in the background. -/
  | background
  | named (name : Text)
  deriving DecidableEq, Repr

/-- What is done with a parameter. Where `nonEmpty` is set an empty value counts as none. -/
inductive Operation where
  /-- The value, and a word after it. -/
  | value
  | length
  /-- A word in place of a missing value. -/
  | orElse (nonEmpty : Bool)
  /-- A word in place of a missing value, which the parameter gets. -/
  | orAssign (nonEmpty : Bool)
  /-- A complaint about a missing value. -/
  | orFail (nonEmpty : Bool)
  /-- A word in place of a value. -/
  | instead (nonEmpty : Bool)
  /-- Cuts off what a pattern matches, at the front or at the end. -/
  | trim (front longest : Bool)
  | unknown
  deriving DecidableEq, Repr

/-- How a descriptor is redirected. -/
inductive Redirect where
  | read
  | write
  | append
  /-- Writes to a file even where it may not be overwritten. -/
  | overwrite
  | readWrite
  | copy
  | document (number : Nat)
  deriving DecidableEq, Repr

mutual

/-- A part of a word. Between quotes it is not split and matches only itself. -/
inductive Piece where
  | text (quoted : Bool) (t : Text)
  | parameter (quoted : Bool) (p : Parameter) (op : Operation) (word : List Piece)
  | output (quoted : Bool) (body : Script)
  | arithmetic (quoted : Bool) (expression : List Piece)

/-- A redirection of a descriptor and the word it goes to. -/
inductive Redirection where
  | mk (descriptor : Nat) (kind : Redirect) (target : List Piece)

/-- A command, or several. -/
inductive Script where
  | nothing
  | simple (line : Nat) (assignments : List (Text × List Piece)) (words : List (List Piece))
      (redirections : List Redirection)
  | sequence (first second : Script)
  | both (first second : Script)
  | either (first second : Script)
  | negated (s : Script)
  | pipeline (stages : List Script)
  | conditional (test yes : Script) (no : Option Script)
  | loop (untilTrue : Bool) (test body : Script)
  | forEach (line : Nat) (name : Text) (words : List (List Piece)) (body : Script)
  | choice (line : Nat) (subject : List Piece) (cases : List (List (List Piece) × Option Script))
  | subshell (line : Nat) (body : Script) (redirections : List Redirection)
  | redirected (line : Nat) (body : Script) (redirections : List Redirection)
  | function (name : Text) (body : Script)
  | background (body : Script)

end

/-- A word before anything in it is replaced. -/
abbrev Word := List Piece

def isNameStart (b : UInt8) : Bool := isAlpha b || b == underscore

def isNameByte (b : UInt8) : Bool := isNameStart b || isDigit b

def isName (t : Text) : Bool := t.head?.any isNameStart && t.all isNameByte

/-- The name in front of an equals sign at the front of a text, and what stands after the sign. -/
def splitAssignment? (t : Text) : Option (Text × Text) :=
  let name := t.takeWhile isNameByte
  let rest := t.drop name.length
  if isName name && rest.head? == some equals then some (name, rest.drop 1) else none

namespace Word

/-- The text of a word that is not quoted and holds nothing to be replaced. -/
def plain? : Word → Option Text
  | [.text false t] => some t
  | _ => none

def assignment? : Word → Option (Text × Word)
  | .text false t :: rest =>
    (splitAssignment? t).map fun (name, value) =>
      (name, if value.isEmpty then rest else .text false value :: rest)
  | _ => none

end Word

/-- The commands of the language that always end a script when they fail. -/
def specialBuiltins : List Text :=
  [utf8 ".", utf8 ":", utf8 "break", utf8 "continue", utf8 "eval", utf8 "exec", utf8 "exit",
    utf8 "export", utf8 "local", utf8 "readonly", utf8 "return", utf8 "set", utf8 "shift",
    utf8 "times", utf8 "trap", utf8 "unset"]

/-- The other commands of the language. -/
def regularBuiltins : List Text :=
  [utf8 "[", utf8 "alias", utf8 "bg", utf8 "cd", utf8 "chdir", utf8 "command", utf8 "echo",
    utf8 "false", utf8 "fg", utf8 "getopts", utf8 "hash", utf8 "jobs", utf8 "kill", utf8 "printf",
    utf8 "pwd", utf8 "read", utf8 "test", utf8 "true", utf8 "type", utf8 "ulimit", utf8 "umask",
    utf8 "unalias", utf8 "wait"]

def keywords : List Text :=
  [utf8 "!", utf8 "case", utf8 "do", utf8 "done", utf8 "elif", utf8 "else", utf8 "esac", utf8 "fi",
    utf8 "for", utf8 "if", utf8 "in", utf8 "then", utf8 "until", utf8 "while", [openBrace],
    [closeBrace]]

/-- Whether a name leads from the directory of the programs to a directory, so that it cannot be
run. -/
def isDirectoryName (name : Text) : Bool := [[], utf8 ".", utf8 ".."].contains name

end ClassUpgrade.Shell
