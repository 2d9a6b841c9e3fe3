/-
# Document.Ignore — documents that opt out

A directive in a comment before the first statement opts a document out of
the upgrade, as a whole or of the stages it names. A directive without names
opts out of everything, and several directives add up.
-/
import ClassUpgrade.Source.Literal
import ClassUpgrade.Text.NameSet
import ClassUpgrade.Text.Trim

namespace ClassUpgrade.Document

set_option autoImplicit false

open Byte Source

def directive : Text := utf8 "wle-js-upgrade:ignore"

def entrypointStage : Text := utf8 "entrypoint"

def componentStage : Text := utf8 "components"

/-- What a document opts out of. -/
inductive IgnoreRule where
  | everything
  | stages (names : NameSet)
  deriving DecidableEq, Repr

namespace IgnoreRule

def nothing : IgnoreRule := .stages .empty

def all : IgnoreRule → Bool
  | .everything => true
  | .stages _ => false

def names : IgnoreRule → NameSet
  | .everything => .empty
  | .stages names => names

def ignores (stage : Text) : IgnoreRule → Bool
  | .everything => true
  | .stages names => names.contains stage

/-- What either rule ignores. -/
def merge : IgnoreRule → IgnoreRule → IgnoreRule
  | .stages a, .stages b => .stages (a.union b)
  | _, _ => .everything

end IgnoreRule

/-- A comment without its marks and the white space around its words. -/
def commentBody (comment : Text) : Text :=
  let t := Text.trim comment
  if Text.startsWith t (utf8 "//") then Text.trim (t.drop 2)
  else if Text.startsWith t (utf8 "/*") then
    Text.trim (Text.withoutTail (utf8 "*/") (Text.trim (t.drop 2)))
  else t

/-- The stages named after a directive, separated by commas, in lower case. -/
def stageNames (t : Text) : NameSet :=
  NameSet.ofList ((Text.splitOn comma t).map fun part => Text.lower (Text.trim part))

def parseDirective? (comment : Text) : Option IgnoreRule := do
  let rest ← Text.after? directive (commentBody comment)
  let names := stageNames (Text.trim rest)
  some (if names.size = 0 then .everything else .stages names)

/-- The comments that open a text, once `skip` bytes of a comment have been passed over. -/
def commentsFrom : (skip : Nat) → Text → List Text
  | _, [] => []
  | skip + 1, _ :: rest => commentsFrom skip rest
  | 0, b :: rest =>
    if isSpace b then commentsFrom 0 rest
    else
      match commentLength (b :: rest) with
      | 0 => []
      | n + 1 => (b :: rest).take (n + 1) :: commentsFrom n rest

/-- The document without a line at its front that names an interpreter. -/
def afterShebang (doc : Text) : Text :=
  if Text.startsWith doc (utf8 "#!") then doc.drop (Text.line doc).length else doc

/-- The comments before the first token of a document. -/
def leadingComments (doc : Text) : List Text := commentsFrom 0 (afterShebang doc)

/-- What the leading comments of a document opt out of. -/
def ignoreRule (doc : Text) : IgnoreRule :=
  (leadingComments doc).foldl
    (fun rule comment =>
      match parseDirective? comment with
      | some r => rule.merge r
      | none => rule)
    .nothing

end ClassUpgrade.Document
