/-
# Shell.Signal — signals

A signal has a number and most have a name. One that a process does not
handle ends it, unless it is of those that are ignored by default.
-/
import ClassUpgrade.Text.Numeral

namespace ClassUpgrade.Shell.Signal

set_option autoImplicit false

/-- The names of the signals from number one on; some numbers have none. -/
def names : List Text :=
  ["HUP", "INT", "QUIT", "ILL", "TRAP", "ABRT", "BUS", "FPE", "KILL", "USR1", "SEGV", "USR2", "PIPE",
    "ALRM", "TERM", "16", "CHLD", "CONT", "STOP", "TSTP", "TTIN", "TTOU", "URG", "XCPU", "XFSZ",
    "VTALRM", "PROF", "WINCH", "IO", "PWR", "SYS", "32", "33"].map utf8 ++
    [utf8 "RTMIN"] ++ (List.range 15).map (fun i => utf8 "RTMIN+" ++ Text.ofNat (i + 1)) ++
    (List.range 14).map (fun i => utf8 "RTMAX-" ++ Text.ofNat (14 - i)) ++ [utf8 "RTMAX"]

def name? (n : Nat) : Option Text := if n = 0 then none else names[n - 1]?

/-- The number that a text gives, by name in either case or in decimal. Zero stands for the end of
the script. -/
def ofText? (t : Text) : Option Nat :=
  match Text.digits? 10 t with
  | some n => if n ≤ names.length then some n else none
  | none =>
    let upper := t.map Byte.toUpper
    if upper = utf8 "EXIT" then some 0 else (names.findIdx? (· = upper)).map (· + 1)

def isIgnoredByDefault (n : Nat) : Bool := [0, 17, 18, 23, 28].contains n

/-- What a signal that ends a process is called. -/
def description (n : Nat) : Text :=
  let known :=
    ["hangup", "interrupt", "quit", "illegal instruction", "trace/breakpoint trap", "aborted",
      "bus error", "floating point exception", "killed", "user defined signal 1",
      "segmentation fault", "user defined signal 2", "broken pipe", "alarm clock", "terminated"]
  match known[n - 1]? with
  | some t => utf8 t
  | none => utf8 "signal " ++ Text.ofNat n

/-- What a shell reports about a process that a signal ended; it says nothing of some. -/
def report (n : Nat) : Text :=
  let known :=
    ["Hangup", "", "Quit", "Illegal instruction", "Trace/breakpoint trap", "Aborted", "Bus error",
      "Floating point exception", "Killed", "User defined signal 1", "Segmentation fault",
      "User defined signal 2", "", "Alarm clock", "Terminated"]
  match known[n - 1]? with
  | some t => utf8 t
  | none => utf8 "Signal " ++ Text.ofNat n

end ClassUpgrade.Shell.Signal
