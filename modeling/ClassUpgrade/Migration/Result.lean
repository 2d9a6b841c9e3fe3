/-
# Migration.Result — what became of one file

A result says what the migration of a file found and did. Its failure is a
cause (`FileError`) while a run is under way, and a text once it is shown, so
the type of failures is a parameter.
-/
import ClassUpgrade.Document.Transform

namespace ClassUpgrade.Migration

set_option autoImplicit false

open Component Document

inductive FileError where
  | notFound (path : Text)
  | unreadable (path reason : Text)
  | untransformed (path : Text) (cause : TransformError)
  | unwritable (path reason : Text)
  deriving DecidableEq, Repr

def FileError.message : FileError → Text
  | .notFound path => utf8 "file not found: " ++ path
  | .unreadable path reason => utf8 "failed to read " ++ path ++ utf8 ": " ++ reason
  | .untransformed path cause => utf8 "failed to migrate " ++ path ++ utf8 ": " ++ cause.message
  | .unwritable path reason => utf8 "failed to write " ++ path ++ utf8 ": " ++ reason

/-- What the migration of a file found and did, with failures of type `ε`. -/
structure FileResult (ε : Type) where
  path : Text
  /-- The type names of the registrations that were upgraded. -/
  components : List Text
  /-- The methods of each component, when the document got as far as that. -/
  methods : Option MethodTable
  /-- The symbols imported from each library. -/
  imports : List (Library × List Text)
  /-- Whether the template took the document's place. -/
  entrypointReplaced : Bool
  /-- Whether the document opted out. -/
  skipped : Bool
  /-- Whether the document's text is not the one that was read. -/
  changed : Bool
  formatted : Bool
  /-- Why the file was not formatted, or nothing. -/
  warning : Text
  failure : Option ε

namespace FileResult

variable {ε δ : Type}

/-- The result of a file that nothing has been done about. -/
def ofPath (path : Text) : FileResult ε where
  path := path
  components := []
  methods := none
  imports := []
  entrypointReplaced := false
  skipped := false
  changed := false
  formatted := false
  warning := []
  failure := none

def failed (r : FileResult ε) : Bool := r.failure.isSome

/-- The result with its failure put differently. -/
def map (f : ε → δ) (r : FileResult ε) : FileResult δ :=
  { r with failure := r.failure.map f }

/-- The result of a file whose document was transformed. -/
def ofTransformation (path doc : Text) (t : Transformation) : FileResult ε :=
  { ofPath path with
    components := t.findings.components
    methods := t.methods
    imports := t.findings.importTable
    entrypointReplaced := t.entrypointReplaced
    skipped := t.skipped
    changed := t.content != doc }

def failWith (r : FileResult ε) (e : ε) : FileResult ε := { r with failure := some e }

end FileResult

end ClassUpgrade.Migration
