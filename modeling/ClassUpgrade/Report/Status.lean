/-
# Report.Status — what a report calls a result

A failure hides everything else, an opt-out hides a change, and a replaced
entrypoint hides any other change. A plan says what would happen, a migration
what did.
-/
import ClassUpgrade.Migration.Result

namespace ClassUpgrade.Report

set_option autoImplicit false

open Source Component Migration

/-- What a run is for. -/
inductive Mode where
  | migrate
  | plan
  deriving DecidableEq, Repr

/-- What a result is called. -/
inductive Status where
  | failed
  | skipped
  | replaced
  | migrated
  | wouldReplace
  | wouldMigrate
  | unchanged
  deriving DecidableEq, Repr

def Status.label : Status → Text
  | .failed => utf8 "failed"
  | .skipped => utf8 "skipped"
  | .replaced => utf8 "replaced"
  | .migrated => utf8 "migrated"
  | .wouldReplace => utf8 "would replace"
  | .wouldMigrate => utf8 "would migrate"
  | .unchanged => utf8 "unchanged"

def labelWidth : Nat := 14

def Status.paddedLabel (s : Status) : Text :=
  s.label ++ List.replicate (labelWidth - s.label.length) Byte.space

variable {ε : Type}

def statusOf (mode : Mode) (r : FileResult ε) : Status :=
  if r.failed then .failed
  else if r.skipped then .skipped
  else if r.entrypointReplaced then
    match mode with
    | .plan => .wouldReplace
    | .migrate => .replaced
  else if r.changed then
    match mode with
    | .plan => .wouldMigrate
    | .migrate => .migrated
  else .unchanged

def componentList (r : FileResult ε) : Text := Text.join (utf8 ", ") r.components

def importsFrom (r : FileResult ε) (library : Library) : List Text :=
  ((r.imports.find? fun (l, _) => l = library).map Prod.snd).getD []

/-- The imports of a result: symbols between commas, libraries between semicolons. -/
def importList (r : FileResult ε) : Text :=
  Text.join (utf8 "; ")
    (((Library.all.map (importsFrom r)).filter fun symbols => !symbols.isEmpty).map
      (Text.join (utf8 ", ")))

def methodText (m : MethodEntry) : Text :=
  (if m.isAsync then utf8 "async " else []) ++ m.name ++ utf8 "(" ++ m.params ++ utf8 ")"

def methodList (entries : List MethodEntry) : Text :=
  Text.join (utf8 ", ") (entries.map methodText)

def methodsOf (r : FileResult ε) (typeName : Text) : List MethodEntry :=
  (r.methods.bind (·.get? typeName)).getD []

/-- How many results changed a file, failed, or were skipped. -/
structure Tally where
  changed : Nat
  failed : Nat
  skipped : Nat
  deriving DecidableEq, Repr

namespace Tally

def zero : Tally := ⟨0, 0, 0⟩

def add (t : Tally) (r : FileResult ε) : Tally :=
  if r.failed then { t with failed := t.failed + 1 }
  else if r.skipped then { t with skipped := t.skipped + 1 }
  else if r.changed then { t with changed := t.changed + 1 }
  else t

def ofResults (rs : List (FileResult ε)) : Tally := rs.foldl add zero

end Tally

end ClassUpgrade.Report
