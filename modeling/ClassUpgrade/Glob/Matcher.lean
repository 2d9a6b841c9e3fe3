/-
# Glob.Matcher — patterns with directory wildcards

A segment `**` stands for any number of directories, none included. The plain
meaning of `**` already covers one directory or more; a matcher adds the
forms of the pattern in which such segments stand for none.
-/
import ClassUpgrade.Files.Path
import ClassUpgrade.Glob.Parser
import ClassUpgrade.Text.Quoted

namespace ClassUpgrade.Glob

set_option autoImplicit false

open Byte

def metaCharacters : Text := utf8 "*?[\x7b"

/-- Whether a text is a pattern and not a plain path. -/
def hasMeta (t : Text) : Bool := t.any metaCharacters.contains

/-- A text that is no pattern, and why. -/
structure InvalidPattern where
  pattern : Text
  cause : PatternError
  deriving DecidableEq, Repr

def InvalidPattern.message (e : InvalidPattern) : Text :=
  utf8 "invalid pattern " ++ Text.quoted e.pattern ++ utf8 ": " ++ e.cause.message

def innerWildcard : Text := utf8 "/**/"

/-- A directory wildcard at the front of a pattern. -/
def leadingWildcard : Text := utf8 "**/"

/-- A pattern and its forms with the leading wildcard, or all inner ones, standing for nothing. -/
def variants (pattern : Text) : List Text :=
  pattern :: (Text.after? leadingWildcard pattern).toList ++
    if Text.includes innerWildcard pattern then [Text.replace innerWildcard [slash] pattern] else []

/-- Parses texts in order; the first fault counts. -/
def parseAll (pattern : Text) : List Text → Except InvalidPattern (List Pattern)
  | [] => .ok []
  | t :: rest =>
    match parse t with
    | .error cause => .error ⟨pattern, cause⟩
    | .ok p => (parseAll pattern rest).map (p :: ·)

def compile (pattern : Text) : Except InvalidPattern (List Pattern) :=
  parseAll pattern (variants pattern)

/-- The matchers of patterns, each cleaned as a path first. -/
def compileAll : List Text → Except InvalidPattern (List Pattern)
  | [] => .ok []
  | t :: rest =>
    match compile (Path.clean t) with
    | .error e => .error e
    | .ok ps => (compileAll rest).map (ps ++ ·)

def anyAccepts (matchers : List Pattern) (path : Text) : Bool :=
  matchers.any (·.accepts (Text.chars path))

/-- The leading segments without pattern characters, the last segment never among them. -/
def plainSegments : List Text → List Text
  | s :: next :: rest => if hasMeta s then [] else s :: plainSegments (next :: rest)
  | _ => []

/-- The directory that holds everything a pattern can match, read off its leading segments. -/
def staticBase (pattern : Text) : Text :=
  let base := Path.ofSegments (plainSegments (Path.segments pattern))
  if base ≠ [] then base
  else if Path.isRooted pattern then [slash]
  else Path.here

end ClassUpgrade.Glob
