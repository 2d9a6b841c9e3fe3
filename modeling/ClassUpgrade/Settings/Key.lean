/-
# Settings.Key — what can be set, and under which names
-/
import ClassUpgrade.Text.Basic

namespace ClassUpgrade.Settings

set_option autoImplicit false

inductive Key where
  | parallel
  | format
  | formatter
  | template
  | exclude
  | dryRun
  | verbose
  deriving DecidableEq, Repr

namespace Key

def all : List Key := [.parallel, .format, .formatter, .template, .exclude, .dryRun, .verbose]

/-- The name of a setting in a file. -/
def name : Key → Text
  | .parallel => utf8 "parallel"
  | .format => utf8 "format"
  | .formatter => utf8 "formatter"
  | .template => utf8 "template"
  | .exclude => utf8 "exclude"
  | .dryRun => utf8 "dry_run"
  | .verbose => utf8 "verbose"

/-- The name of a setting on the command line. -/
def flagName : Key → Text
  | .dryRun => utf8 "dry-run"
  | key => key.name

/-- What the environment variables of all settings start with. -/
def variableStart : Text := utf8 "WLE_JS_UPGRADE_"

def variableName (key : Key) : Text := variableStart ++ key.name.map Byte.toUpper

end Key

end ClassUpgrade.Settings
