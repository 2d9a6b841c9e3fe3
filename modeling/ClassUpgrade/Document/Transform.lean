/-
# Document.Transform — one document, upgraded

A document that opts out stays as it is, a stale entrypoint gives way to the
template, and any other document has its registrations replaced by classes,
with the import lines they need in front. Nothing here reads or writes a
file: the template is passed in as the outcome of reading it.
-/
import ClassUpgrade.Component.Class
import ClassUpgrade.Document.Entrypoint
import ClassUpgrade.Document.Ignore
import ClassUpgrade.Table

namespace ClassUpgrade.Document

set_option autoImplicit false

open Byte Source Component

/-- The method entries of each registration, by type name. -/
abbrev MethodTable := Table Text (List MethodEntry)

/-- What became of a document. -/
structure Transformation where
  content : Text
  entrypointReplaced : Bool
  skipped : Bool
  findings : Findings
  methods : Option MethodTable

inductive TransformError where
  | upgrade (e : UpgradeError)
  /-- The template could not be read, for this reason. -/
  | template (reason : Text)
  deriving DecidableEq, Repr

def TransformError.message : TransformError → Text
  | .upgrade e => e.message
  | .template reason => utf8 "failed to read entrypoint template: " ++ reason

/-- Adds entries to those of a type name. -/
def addMethods (table : MethodTable) (typeName : Text) (entries : List MethodEntry) : MethodTable :=
  table.insert typeName ((table.get? typeName).getD [] ++ entries)

/-- The method entries of registrations, in order of appearance. -/
def methodTableOf (doc : Text) (table : MethodTable) :
    List Registration → Except UnmatchedScope MethodTable
  | [] => .ok table
  | r :: rest =>
    match methodEntries (r.definition doc).methods with
    | .error e => .error e
    | .ok entries => methodTableOf doc (addMethods table r.typeName entries) rest

def componentMethods (doc : Text) : Except UnmatchedScope MethodTable :=
  match registrations doc with
  | .error e => .error e
  | .ok found => methodTableOf doc .empty found

def withImports (findings : Findings) (body : Text) : Text :=
  let imports := findings.renderImports
  if imports = [] then body else imports ++ lineFeed :: body

/-- Replaces the registrations of a document, with the records of what was found. -/
def transformComponents (doc : Text) : Except TransformError Transformation × List Log.Record :=
  match componentMethods doc with
  | .error e => (.error (.upgrade (.unmatchedScope e)), [])
  | .ok methods =>
    let u := upgrade doc .empty
    match u.outcome with
    | .error e => (.error (.upgrade e), u.log)
    | .ok body =>
      (.ok { content := withImports u.findings body
             entrypointReplaced := false
             skipped := false
             findings := u.findings
             methods := some methods }, u.log)

def unchanged (doc : Text) (skipped : Bool) : Transformation where
  content := doc
  entrypointReplaced := false
  skipped := skipped
  findings := .empty
  methods := none

/-- Transforms a document; `template` is what reading the template gives. -/
def transform (template : Except Text Text) (doc : Text) :
    Except TransformError Transformation × List Log.Record :=
  let rule := ignoreRule doc
  if rule.all then (.ok (unchanged doc true), [])
  else if !rule.ignores entrypointStage && isStaleEntrypoint doc then
    match template with
    | .error reason => (.error (.template reason), [])
    | .ok content => (.ok { unchanged content false with entrypointReplaced := true }, [])
  else if rule.ignores componentStage then (.ok (unchanged doc false), [])
  else transformComponents doc

end ClassUpgrade.Document
