/-
# Component.Class — registrations as class declarations

Each registration of a document becomes a class declaration; the text between
registrations is kept byte for byte. The upgrade stops at the first
registration that has no class name or an unmatched scope. What was found up
to there is kept beside the error.
-/
import ClassUpgrade.Component.ClassName
import ClassUpgrade.Component.Method
import ClassUpgrade.Component.Registration
import ClassUpgrade.Log

namespace ClassUpgrade.Component

set_option autoImplicit false

open Byte Source

inductive UpgradeError where
  | unmatchedScope (e : UnmatchedScope)
  | invalidTypeName (typeName : Text)
  deriving DecidableEq, Repr

def UpgradeError.message : UpgradeError → Text
  | .unmatchedScope e => e.message
  | .invalidTypeName name => utf8 "type name yields no class identifier: " ++ Text.quoted name

def baseClass : Text := utf8 "Component"

def classText (name typeName properties methods : Text) : Text :=
  utf8 "export class " ++ name ++ utf8 " extends " ++ baseClass ++ utf8 " \x7b\n" ++
    utf8 "    static TypeName = '" ++ typeName ++ utf8 "';\n" ++
    utf8 "    static Properties = \x7b" ++ properties ++ utf8 "\x7d;\n" ++
    methods ++ [closeBrace]

/-- The class declaration of a definition, and the imports that it asks for. The base class is
imported only when the declaration succeeds. -/
def upgradeDefinition (d : Definition) : Except UpgradeError Text × List Import :=
  let name := className d.typeName
  if name = [] then (.error (.invalidTypeName d.typeName), [])
  else
    let (properties, propertyImports) := propertyTypeRule.apply d.properties
    match upgradeMethods d.methods with
    | (.error e, methodImports) => (.error (.unmatchedScope e), propertyImports ++ methodImports)
    | (.ok methods, methodImports) =>
      (.ok (classText name d.typeName properties methods),
        propertyImports ++ methodImports ++ [⟨.engine, baseClass⟩])

def foundRecord (typeName : Text) : Log.Record where
  level := .info
  message := utf8 "component found"
  values := [(utf8 "type", .text typeName), (utf8 "class", .text (className typeName))]

/-- The outcome of upgrading the registrations of a document. -/
structure Upgrade where
  outcome : Except UpgradeError Text
  findings : Findings
  log : List Log.Record

/-- Upgrades registrations in order. The text before offset `position` is done; `failure` is
what ended the survey. -/
def upgradeFrom (doc : Text) (failure : Option UnmatchedScope) :
    (position : Nat) → Findings → List Registration → Upgrade
  | position, findings, [] =>
    match failure with
    | some e => ⟨.error (.unmatchedScope e), findings, []⟩
    | none => ⟨.ok (doc.drop position), findings, []⟩
  | position, findings, r :: rest =>
    match upgradeDefinition (r.definition doc) with
    | (.error e, imports) => ⟨.error e, findings.recordAll imports, []⟩
    | (.ok text, imports) =>
      let more := upgradeFrom doc failure r.stop
        ((findings.recordAll imports).addComponent r.typeName) rest
      { more with
        outcome := more.outcome.map fun tail => doc.slice position r.start ++ text ++ tail
        log := foundRecord r.typeName :: more.log }

/-- Replaces every registration of a document by a class declaration, adding to `findings`. -/
def upgrade (doc : Text) (findings : Findings) : Upgrade :=
  let s := survey doc
  upgradeFrom doc s.failure 0 findings s.found

end ClassUpgrade.Component
