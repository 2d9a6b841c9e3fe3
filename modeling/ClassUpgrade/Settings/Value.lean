/-
# Settings.Value — values as configuration sources give them

A file holds typed values, the environment and the command line hold texts.
Decoding is lenient: a number may be written as a text, a truth value as a
number, a list as a text with commas.
-/
import ClassUpgrade.Number.Floating

namespace ClassUpgrade.Settings

set_option autoImplicit false

open Number

/-- A value of a configuration source. -/
inductive Value where
  | null
  | bool (b : Bool)
  | int (n : Int)
  | real (r : Floating)
  /-- A calendar date, which no setting takes. -/
  | date
  | text (t : Text)
  | list (vs : List Value)
  | map (entries : List (Text × Value))
  deriving Repr

namespace Value

def toInt? : Value → Option Int
  | .int n => some (wrap n)
  | .real r => some r.truncate
  | .bool b => some (if b then 1 else 0)
  | .text t => if t.isEmpty then some 0 else (parseInteger t).toOption
  | _ => none

def toBool? : Value → Option Bool
  | .bool b => some b
  | .int n => some (n != 0)
  | .real r => some !r.isZero
  | .text t => if t.isEmpty then some false else parseTruth? t
  | _ => none

def toText? : Value → Option Text
  | .text t => some t
  | .bool b => some (utf8 (if b then "1" else "0"))
  | .int n => some (Text.ofInt n)
  | .real r => some r.render
  | _ => none

/-- The value as an element of a list of texts; nothing at all is the empty text. -/
def toElement? : Value → Option Text
  | .null => some []
  | v => v.toText?

def toTexts? : Value → Option (List Text)
  | .list vs => vs.mapM toElement?
  | .text t => some (if t.isEmpty then [] else Text.splitOn Byte.comma t)
  | .map [] => some []
  | v => v.toText?.map fun t => [t]

end Value

end ClassUpgrade.Settings
