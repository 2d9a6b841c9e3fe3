/-
# Shell.Format — what `echo` and `printf` write

Both know escapes that start with a backslash. A format of `printf` holds
directives, each of which takes an argument: a missing one counts as empty or
as zero, and the format is used again as long as arguments are left.
-/
import ClassUpgrade.Number.Floating
import ClassUpgrade.Shell.Arithmetic

namespace ClassUpgrade.Shell

set_option autoImplicit false

open Byte Number

/-! ## Escapes -/

def isOctal (b : UInt8) : Bool := 0x30 ≤ b && b ≤ 0x37

/-- What a backslash and the text after it stand for, and how many bytes after the backslash it
takes. A backslash that starts no escape stands for itself. -/
def escapeAt (t : Text) : UInt8 × Nat :=
  match t with
  | [] => (backslash, 0)
  | b :: _ =>
    if isOctal b then
      let digits := (t.take 3).takeWhile isOctal
      (UInt8.ofNat ((Text.digits? 8 digits).getD 0), digits.length)
    else if b == backslash then (backslash, 1)
    else if b == 0x61 then (0x07, 1)
    else if b == 0x62 then (0x08, 1)
    else if b == 0x65 then (0x1B, 1)
    else if b == 0x66 then (formFeed, 1)
    else if b == 0x6E then (lineFeed, 1)
    else if b == 0x72 then (carriageReturn, 1)
    else if b == 0x74 then (tab, 1)
    else if b == 0x76 then (0x0B, 1)
    else (backslash, 0)

/-- A text with its escapes replaced, and whether it asks for everything after it to be left out;
`skip` counts the bytes of an escape that are still to come. An octal number may have a zero in
front of its three digits. -/
def unescape : (skip : Nat) → Text → Text × Bool
  | _, [] => ([], false)
  | skip + 1, _ :: rest => unescape skip rest
  | 0, b :: rest =>
    if b == backslash then
      if rest.head? == some 0x63 then ([], true)
      else
        let lead := if rest.head? == some 0x30 && (rest.drop 1).head?.any isOctal then 1 else 0
        let (c, n) := escapeAt (rest.drop lead)
        let (t, stopped) := unescape (lead + n) rest
        (c :: t, stopped)
    else
      let (t, stopped) := unescape 0 rest
      (b :: t, stopped)

/-- What `echo` writes for arguments after its option; `ended` says that a line break follows. -/
def echoedFrom (ended : Bool) : List Text → Text
  | [] => if ended then [lineFeed] else []
  | [a] =>
    let (t, stopped) := unescape 0 a
    if stopped || !ended then t else t ++ [lineFeed]
  | a :: rest =>
    let (t, stopped) := unescape 0 a
    if stopped then t else t ++ space :: echoedFrom ended rest

def echoed (arguments : List Text) : Text :=
  if arguments.head? == some (utf8 "-n") then echoedFrom false (arguments.drop 1)
  else echoedFrom true arguments

/-! ## Directives -/

/-- How a directive writes its argument. -/
structure Directive where
  alternate : Bool
  left : Bool
  plus : Bool
  blank : Bool
  zero : Bool
  width : Nat
  precision : Option Nat
  conversion : UInt8
  deriving DecidableEq, Repr

namespace Directive

def pad (d : Directive) (t : Text) : Text :=
  let fill := List.replicate (d.width - t.length) space
  if d.left then t ++ fill else fill ++ t

/-- Fills a number up to the width, with zeros after its sign where `zeros` allows them. -/
def padNumber (d : Directive) (zeros : Bool) (sign digits : Text) : Text :=
  if d.zero && !d.left && zeros then
    sign ++ List.replicate (d.width - (sign.length + digits.length)) 0x30 ++ digits
  else d.pad (sign ++ digits)

/-- A text, cut to the precision. -/
def text (d : Directive) (t : Text) : Text :=
  d.pad (match d.precision with
    | some n => t.take n
    | none => t)

def sign (d : Directive) (negative : Bool) : Text :=
  if negative then [hyphen] else if d.plus then [0x2B] else if d.blank then [space] else []

/-- The digits of a number in a base, at least as many as the precision asks for. -/
def digits (d : Directive) (base n : Nat) : Text :=
  let shown := if n == 0 && d.precision == some 0 then [] else (Nat.toDigits base n).map Char.toUInt8
  List.replicate (d.precision.getD 1 - shown.length) 0x30 ++ shown

def signed (d : Directive) (n : Int) : Text :=
  d.padNumber d.precision.isNone (d.sign (n < 0)) (d.digits 10 n.natAbs)

/-- An integer of 64 bits without a sign. -/
def unsigned (d : Directive) (n : Nat) : Text :=
  let zeros := d.precision.isNone
  if d.conversion == 0x6F then
    let shown := d.digits 8 n
    let lead := if d.alternate && shown.head? != some 0x30 then [0x30] else []
    d.padNumber zeros [] (lead ++ shown)
  else if d.conversion == 0x75 then d.padNumber zeros [] (d.digits 10 n)
  else
    let lead := if d.alternate && n != 0 then utf8 "0x" else []
    let upper := d.conversion == 0x58
    let shape (t : Text) : Text := if upper then t.map toUpper else t
    d.padNumber zeros (shape lead) (shape (d.digits 16 n))

/-- A ratio times a power of ten, rounded to the nearest integer, a tie to the even one. -/
def scaledRound (num den : Nat) (places : Int) : Nat :=
  let (n, m) := Double.tenPower places
  Double.roundToEven (num * n) (den * m)

def fixed (d : Directive) (places : Nat) (num den : Nat) : Text :=
  let shown := Text.ofNat (scaledRound num den places)
  let padded := List.replicate (places + 1 - shown.length) 0x30 ++ shown
  let whole := padded.take (padded.length - places)
  if places == 0 then whole ++ (if d.alternate then [dot] else [])
  else whole ++ dot :: padded.drop (padded.length - places)

/-- The exponent of ten of the first digit of a ratio that is not zero. -/
def leadingExponent (num den : Nat) : Int :=
  if den ≤ num then ((Text.ofNat (num / den)).length : Int) - 1
  else
    let places := (Text.ofNat (den / num)).length
    if den ≤ num * Nat.pow 10 (places - 1) then 1 - (places : Int) else -(places : Int)

/-- The digits of a ratio, one more than `places`, and the exponent of the first one. -/
def scientificDigits (places : Nat) (num den : Nat) : Text × Int :=
  if num == 0 then (List.replicate (places + 1) 0x30, 0)
  else
    let e := leadingExponent num den
    let shown := Text.ofNat (scaledRound num den ((places : Int) - e))
    if shown.length > places + 1 then (shown.take (places + 1), e + 1) else (shown, e)

/-- The exponent of a number, with at least two digits. -/
def exponentText (e : Int) : Text :=
  let shown := Text.ofNat e.natAbs
  0x65 :: (if e < 0 then hyphen else 0x2B) :: List.replicate (2 - shown.length) 0x30 ++ shown

def pointed (d : Directive) (shown : Text) : Text :=
  if shown.length ≤ 1 then shown ++ (if d.alternate then [dot] else [])
  else shown.take 1 ++ dot :: shown.drop 1

/-- A text without zeros at the end of its fraction. -/
def withoutZeros (t : Text) : Text :=
  if t.contains dot then
    let kept := t.reverse.dropWhile (· == 0x30)
    ((if kept.head? == some dot then kept.drop 1 else kept)).reverse
  else t

/-- The digits of a fraction as the conversion asks for them. -/
def magnitude (d : Directive) (num den : Nat) : Text :=
  let kind := toLower d.conversion
  let places := d.precision.getD 6
  if kind == 0x66 then d.fixed places num den
  else if kind == 0x65 then
    let (shown, e) := scientificDigits places num den
    d.pointed shown ++ exponentText e
  else
    let wanted := max places 1
    let (shown, e) := scientificDigits (wanted - 1) num den
    let trim (t : Text) : Text := if d.alternate then t else withoutZeros t
    if e < -4 || (wanted : Int) ≤ e then trim (d.pointed shown) ++ exponentText e
    else trim (d.fixed ((wanted : Int) - 1 - e).toNat num den)

def fraction (d : Directive) (f : Floating) : Text :=
  let upper := d.conversion == 0x45 || d.conversion == 0x46 || d.conversion == 0x47
  let shape (t : Text) : Text := if upper then t.map toUpper else t
  match f with
  | .finite negative m =>
    d.padNumber true (d.sign negative) (shape (d.magnitude m.ratio.1 m.ratio.2))
  | .infinite negative => d.pad (d.sign negative ++ shape (utf8 "inf"))
  | .undefined => d.pad (shape (utf8 "nan"))

end Directive

/-! ## Arguments -/

/-- What has been written, what is to be complained about, and the arguments that are left. -/
structure Printing where
  text : Text
  warnings : List Text
  arguments : List Text
  /-- Whether an argument asked for everything after it to be left out. -/
  stopped : Bool

/-- A step of printing, which a fault of the format ends. -/
abbrev Print := StateT Printing (Except (Text × Printing))

namespace Print

def write (t : Text) : Print Unit := modify fun p => { p with text := p.text ++ t }

/-- Complains and goes on. -/
def warn (what : Text) : Print Unit := modify fun p => { p with warnings := p.warnings ++ [what] }

/-- Complains and ends. -/
def fail {α : Type} (what : Text) : Print α := do throw (what, ← get)

def argument? : Print (Option Text) := do
  let p ← get
  set { p with arguments := p.arguments.drop 1 }
  return p.arguments.head?

/-- The number at the front of a text in the base that it shows, and what follows it; none where
there is no number. -/
def leadingNumber? (t : Text) : Option (Int × Text) :=
  let inner := t.dropWhile isSpaceByte
  let (negative, digits) :=
    match inner with
    | 0x2D :: rest => (true, rest)
    | 0x2B :: rest => (false, rest)
    | _ => (false, inner)
  let (base, lead, count) := numeralAt digits
  if count == 0 then none
  else
    let value := (Text.digits? base ((digits.drop lead).take count)).getD 0
    some (if negative then -(value : Int) else value, digits.drop (lead + count))

/-- Complains about what follows the number in an argument, or about its size. -/
def checkNumber (t rest : Text) (fits : Bool) : Print Unit :=
  if !rest.isEmpty then
    warn (t ++ (if rest.length == t.length then utf8 ": expected numeric value"
      else utf8 ": not completely converted"))
  else if !fits then warn (t ++ utf8 ": Numerical result out of range")
  else pure ()

/-- The integer that an argument writes. A quote makes it the code of the byte after it. -/
def integer (low high : Int) : Print Int := do
  match ← argument? with
  | none => pure 0
  | some t =>
    if t.head? == some singleQuote || t.head? == some doubleQuote then
      pure ((t[1]?.map fun b => (b.toNat : Int)).getD 0)
    else
      match leadingNumber? t with
      | none =>
        checkNumber t t true
        pure 0
      | some (n, rest) =>
        let kept := if n < low then low else if high < n then high else n
        checkNumber t rest (kept == n)
        pure kept

/-- The longest front of a text that is a decimal fraction, and what follows it. -/
def leadingFraction? (t : Text) : Option (Decimal × Text) :=
  let lengths := (List.range (t.length + 1)).reverse
  lengths.findSome? fun n => (decimal? (t.take n)).map fun d => (d, t.drop n)

def fraction : Print Floating := do
  match ← argument? with
  | none => pure (.finite false .zero)
  | some t =>
    if t.head? == some singleQuote || t.head? == some doubleQuote then
      let n := (t[1]?.map UInt8.toNat).getD 0
      pure (.finite false (Double.nearest n 1))
    else
      let inner := t.dropWhile isSpaceByte
      let (negative, word) :=
        match inner with
        | 0x2D :: rest => (true, rest)
        | 0x2B :: rest => (false, rest)
        | _ => (false, inner)
      let lower := word.map toLower
      match [utf8 "infinity", utf8 "inf", utf8 "nan"].find? (Text.startsWith lower) with
      | some name =>
        checkNumber t (word.drop name.length) true
        pure (if name == utf8 "nan" then .undefined else .infinite negative)
      | none =>
        match leadingFraction? inner with
        | none =>
          checkNumber t t true
          pure (.finite false .zero)
        | some (d, rest) =>
          match d.toFloating? with
          | some f =>
            checkNumber t rest true
            pure f
          | none =>
            checkNumber t rest false
            pure (.infinite d.negative)

end Print

open Print

/-! ## Formats -/

def isFlag (b : UInt8) : Bool := [Byte.hash, hyphen, 0x2B, space, 0x30].contains b

/-- A width or a precision in front of a format: the number, none if it is left out, and the
length. A star takes the number from an argument. -/
def readMeasure (t : Text) : Print (Option Int × Nat) := do
  if t.head? == some star then return (some (← integer smallestInt largestInt), 1)
  else
    let run := t.takeWhile fun b => isDigit b || b == star
    return ((Text.digits? 10 run).map Int.ofNat, run.length)

/-- The directive after a percent sign, and its length. -/
def readDirective (t : Text) : Print (Directive × Nat) := do
  let flags := t.takeWhile isFlag
  let t1 := t.drop flags.length
  let (width, n1) ← readMeasure t1
  let t2 := t1.drop n1
  let (precision, n2) ←
    match t2 with
    | 0x2E :: rest => do
      let (p, n) ← readMeasure rest
      pure (some (p.getD 0), n + 1)
    | _ => pure (none, 0)
  let length := flags.length + n1 + n2
  match t.drop length with
  | [] => fail (utf8 "missing format character")
  | c :: _ =>
    let width := width.getD 0
    pure
      ({ alternate := flags.contains Byte.hash, left := flags.contains hyphen || width < 0
         plus := flags.contains 0x2B, blank := flags.contains space, zero := flags.contains 0x30
         width := width.natAbs
         precision := precision.bind fun p => if p < 0 then none else some p.toNat
         conversion := c }, length + 1)

/-- Writes the argument of a directive; `whole` is the directive as it is written. -/
def printDirective (d : Directive) (whole : Text) : Print Unit := do
  let c := d.conversion
  if c == 0x73 then write (d.text ((← argument?).getD []))
  else if c == 0x62 then
    let (t, stopped) := unescape 0 ((← argument?).getD [])
    write (d.text t)
    modify fun p => { p with stopped }
  else if c == 0x63 then write (d.pad [((← argument?).getD []).headD 0])
  else if c == 0x64 || c == 0x69 then write (d.signed (← integer smallestInt largestInt))
  else if c == 0x6F || c == 0x75 || c == 0x78 || c == 0x58 then
    let n ← integer (-0xFFFFFFFFFFFFFFFF) 0xFFFFFFFFFFFFFFFF
    write (d.unsigned (n % 0x10000000000000000).toNat)
  else if [0x65, 0x66, 0x67].contains (toLower c) then write (d.fraction (← fraction))
  else fail (whole ++ utf8 ": invalid directive")

/-- One pass over a format; `skip` counts the bytes of a directive or an escape that are still to
come. -/
def printOnce : (skip : Nat) → Text → Print Unit
  | _, [] => pure ()
  | skip + 1, _ :: rest => printOnce skip rest
  | 0, b :: rest => do
    if b == backslash then
      let (c, n) := escapeAt rest
      write [c]
      printOnce n rest
    else if b == 0x25 then
      if rest.head? == some 0x25 then
        write [b]
        printOnce 1 rest
      else
        let (d, n) ← readDirective rest
        printDirective d (b :: rest.take n)
        if (← get).stopped then pure () else printOnce n rest
    else
      write [b]
      printOnce 0 rest

/-- Uses a format until no arguments are left. -/
def printAll (format : Text) : (fuel : Nat) → Print Unit
  | 0 => pure ()
  | fuel + 1 => do
    let before := (← get).arguments.length
    printOnce 0 format
    let p ← get
    if p.stopped || p.arguments.isEmpty || p.arguments.length == before then pure ()
    else printAll format fuel

/-- What `printf` writes, and the fault of the format if it has one. -/
def printed (format : Text) (arguments : List Text) : Printing × Option Text :=
  match (printAll format (arguments.length + 1)).run ⟨[], [], arguments, false⟩ with
  | .ok ((), p) => (p, none)
  | .error (fault, p) => (p, some fault)

end ClassUpgrade.Shell
