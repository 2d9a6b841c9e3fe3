/-
# Log — records of what the tool did

A record has a level, a message and named values, and is written on one line
as `level=… msg=… key=value …`. A text is written bare when that cannot be
misread, and quoted otherwise.
-/
import ClassUpgrade.Text.Blank
import ClassUpgrade.Text.Quoted

namespace ClassUpgrade.Log

set_option autoImplicit false

/-- How much a record matters. -/
inductive Level where
  | debug
  | info
  | warn
  | error
  deriving DecidableEq, Repr

namespace Level

/-- Every level, the least first. -/
def all : List Level := [.debug, .info, .warn, .error]

def rank : Level → Nat
  | .debug => 0
  | .info => 1
  | .warn => 2
  | .error => 3

def name : Level → Text
  | .debug => utf8 "DEBUG"
  | .info => utf8 "INFO"
  | .warn => utf8 "WARN"
  | .error => utf8 "ERROR"

def atLeast (level least : Level) : Bool := least.rank ≤ level.rank

/-- The least level that a run logs. Next to a screen only warnings are logged, unless every
step is asked for. -/
def threshold (verbose screen : Bool) : Level :=
  if verbose then .debug else if screen then .warn else .info

end Level

/-- A value named in a record. -/
inductive Value where
  | text (t : Text)
  | count (n : Nat)
  deriving DecidableEq, Repr

/-- One thing that happened. -/
structure Record where
  level : Level
  message : Text
  values : List (Text × Value)
  deriving DecidableEq, Repr

/-- A glyph that would make a bare text ambiguous or unreadable. -/
def isUnsafe : Glyph → Bool
  | .stray _ => true
  | .char c =>
    if c.toNat < 0x80 then c.toNat < 0x20 || c == ' ' || c == '=' || c.toNat == 0x22
    else c == Glyph.replacement || Blank.isBlank c || !Text.isShown c

/-- A text as it stands in a record. -/
def field (t : Text) : Text :=
  if t.isEmpty || (Text.glyphs t).any isUnsafe then Text.quoted t else t

def Value.render : Value → Text
  | .text t => field t
  | .count n => Text.ofNat n

def Record.render (r : Record) : Text :=
  utf8 "level=" ++ r.level.name ++ utf8 " msg=" ++ field r.message ++
    r.values.flatMap (fun (key, value) => Byte.space :: key ++ Byte.equals :: value.render) ++
    [Byte.lineFeed]

/-- The records of at least the given level, each on its line. -/
def render (least : Level) (records : List Record) : Text :=
  (records.filter fun r => r.level.atLeast least).flatMap Record.render

end ClassUpgrade.Log
