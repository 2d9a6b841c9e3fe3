/-
# Text.Screen — how many columns a text takes on a screen

A terminal acts on control sequences and shows the rest. A sequence starts
with the escape character or with one of the bytes from 0x80 to 0x9F, and the
`Mode` says what the next byte is to it. Only printable ASCII bytes and
clusters of characters that start with a lead byte of UTF-8 take room.

The columns of a cluster are those of its characters together, except that
the second half of a flag and the further letters of a Korean syllable add
nothing, and that a pictograph takes the width its variation selector asks
for.
-/
import ClassUpgrade.Text.Cluster
import ClassUpgrade.Text.Width

namespace ClassUpgrade

set_option autoImplicit false
set_option maxRecDepth 4000

namespace Screen

/-- The pictographs that are shown in colour, two columns wide, unless told otherwise. -/
def colourRanges : List CodeRange := [
    ⟨0x231A, 0x231B⟩, ⟨0x23E9, 0x23EC⟩, ⟨0x23F0, 0x23F0⟩, ⟨0x23F3, 0x23F3⟩, ⟨0x25FD, 0x25FE⟩,
    ⟨0x2614, 0x2615⟩, ⟨0x2648, 0x2653⟩, ⟨0x267F, 0x267F⟩, ⟨0x2693, 0x2693⟩, ⟨0x26A1, 0x26A1⟩,
    ⟨0x26AA, 0x26AB⟩, ⟨0x26BD, 0x26BE⟩, ⟨0x26C4, 0x26C5⟩, ⟨0x26CE, 0x26CE⟩, ⟨0x26D4, 0x26D4⟩,
    ⟨0x26EA, 0x26EA⟩, ⟨0x26F2, 0x26F3⟩, ⟨0x26F5, 0x26F5⟩, ⟨0x26FA, 0x26FA⟩, ⟨0x26FD, 0x26FD⟩,
    ⟨0x2705, 0x2705⟩, ⟨0x270A, 0x270B⟩, ⟨0x2728, 0x2728⟩, ⟨0x274C, 0x274C⟩, ⟨0x274E, 0x274E⟩,
    ⟨0x2753, 0x2755⟩, ⟨0x2757, 0x2757⟩, ⟨0x2795, 0x2797⟩, ⟨0x27B0, 0x27B0⟩, ⟨0x27BF, 0x27BF⟩,
    ⟨0x2B1B, 0x2B1C⟩, ⟨0x2B50, 0x2B50⟩, ⟨0x2B55, 0x2B55⟩, ⟨0x1F004, 0x1F004⟩, ⟨0x1F0CF, 0x1F0CF⟩,
    ⟨0x1F18E, 0x1F18E⟩, ⟨0x1F191, 0x1F19A⟩, ⟨0x1F1E6, 0x1F1FF⟩, ⟨0x1F201, 0x1F201⟩,
    ⟨0x1F21A, 0x1F21A⟩, ⟨0x1F22F, 0x1F22F⟩, ⟨0x1F232, 0x1F236⟩, ⟨0x1F238, 0x1F23A⟩,
    ⟨0x1F250, 0x1F251⟩, ⟨0x1F300, 0x1F320⟩, ⟨0x1F32D, 0x1F335⟩, ⟨0x1F337, 0x1F37C⟩,
    ⟨0x1F37E, 0x1F393⟩, ⟨0x1F3A0, 0x1F3CA⟩, ⟨0x1F3CF, 0x1F3D3⟩, ⟨0x1F3E0, 0x1F3F0⟩,
    ⟨0x1F3F4, 0x1F3F4⟩, ⟨0x1F3F8, 0x1F43E⟩, ⟨0x1F440, 0x1F440⟩, ⟨0x1F442, 0x1F4FC⟩,
    ⟨0x1F4FF, 0x1F53D⟩, ⟨0x1F54B, 0x1F54E⟩, ⟨0x1F550, 0x1F567⟩, ⟨0x1F57A, 0x1F57A⟩,
    ⟨0x1F595, 0x1F596⟩, ⟨0x1F5A4, 0x1F5A4⟩, ⟨0x1F5FB, 0x1F64F⟩, ⟨0x1F680, 0x1F6C5⟩,
    ⟨0x1F6CC, 0x1F6CC⟩, ⟨0x1F6D0, 0x1F6D2⟩, ⟨0x1F6D5, 0x1F6D7⟩, ⟨0x1F6DC, 0x1F6DF⟩,
    ⟨0x1F6EB, 0x1F6EC⟩, ⟨0x1F6F4, 0x1F6FC⟩, ⟨0x1F7E0, 0x1F7EB⟩, ⟨0x1F7F0, 0x1F7F0⟩,
    ⟨0x1F90C, 0x1F93A⟩, ⟨0x1F93C, 0x1F945⟩, ⟨0x1F947, 0x1F9FF⟩, ⟨0x1FA70, 0x1FA7C⟩,
    ⟨0x1FA80, 0x1FA88⟩, ⟨0x1FA90, 0x1FABD⟩, ⟨0x1FABF, 0x1FAC5⟩, ⟨0x1FACE, 0x1FADB⟩,
    ⟨0x1FAE0, 0x1FAE8⟩, ⟨0x1FAF0, 0x1FAF8⟩]

/-- The columns of a character of a given kind. -/
def ofChar (k : Cluster.Kind) (c : Char) : Nat :=
  match k with
  | .control | .lineReturn | .lineFeed | .mark | .joiner => 0
  | .flagLetter => 2
  | .pictograph => if CodeRange.anyHolds colourRanges c then 2 else 1
  | _ =>
    if c.toNat == 0x2E3A then 3
    else if c.toNat == 0x2E3B then 4
    else if CodeRange.anyHolds Width.wideRanges c then 2
    else 1

/-- The columns of a cluster that starts with a character of kind `lead` and has taken `columns`
so far. -/
def addColumns (lead : Cluster.Kind) (columns : Nat) (c : Char) : Nat :=
  match lead with
  | .pictograph =>
    if c.toNat == 0xFE0E then 1 else if c.toNat == 0xFE0F then 2 else columns
  | .flagLetter | .initial => columns
  | _ => columns + ofChar (.of c) c

def ofCluster : List Char → Nat
  | [] => 0
  | c :: rest =>
    let lead := Cluster.Kind.of c
    rest.foldl (addColumns lead) (ofChar lead c)

/-- What a terminal takes the next byte for. -/
inductive Mode where
  /-- Something to show. -/
  | shown
  /-- What follows the escape character. -/
  | escape
  | escapeMiddle
  /-- The parameters of a control sequence: before the first, among them, after the last. -/
  | controlStart
  | controlParameter
  | controlMiddle
  /-- The parameters of a device control string, and the string. -/
  | deviceStart
  | deviceParameter
  | deviceMiddle
  | deviceString
  /-- A command of the system, which a bell may end. -/
  | systemString
  /-- Any other string. -/
  | otherString
  deriving DecidableEq, Repr

/-- Whether a byte starts a character of more than one byte. -/
def isLead (b : UInt8) : Bool := 0xC2 ≤ b && b ≤ 0xF4

/-- Whether a byte lies between two others, both included. -/
def within (first last b : UInt8) : Bool := first ≤ b && b ≤ last

/-- The bytes of the first control block that no mode treats specially. -/
def isQuiet (b : UInt8) : Bool := b ≤ 0x17 || b == 0x19 || within 0x1C 0x1F b

/-- What a byte that interrupts any sequence turns to; every other byte ends it. -/
def interrupted (b : UInt8) : Mode :=
  if b == 0x1B then .escape
  else if b == 0x9B then .controlStart
  else if b == 0x90 then .deviceStart
  else if b == 0x9D then .systemString
  else if b == 0x98 || b == 0x9E || b == 0x9F then .otherString
  else .shown

/-- What an escape character and the byte `b` after it start. -/
def escaped (b : UInt8) : Mode :=
  if isQuiet b || b == 0x7F then .escape
  else if within 0x20 0x2F b then .escapeMiddle
  else if b == 0x50 then .deviceStart
  else if b == 0x5B then .controlStart
  else if b == 0x5D then .systemString
  else if b == 0x58 || b == 0x5E || b == 0x5F then .otherString
  else interrupted b

def Mode.next (mode : Mode) (b : UInt8) : Mode :=
  match mode with
  | .shown => interrupted b
  | .escape => escaped b
  | .escapeMiddle =>
    if isQuiet b || within 0x20 0x2F b || b == 0x7F then .escapeMiddle else interrupted b
  | .controlStart =>
    if isQuiet b || b == 0x7F then .controlStart
    else if within 0x20 0x2F b then .controlMiddle
    else if within 0x30 0x3F b then .controlParameter
    else interrupted b
  | .controlParameter =>
    if isQuiet b || b == 0x7F || within 0x30 0x3F b then .controlParameter
    else if within 0x20 0x2F b then .controlMiddle
    else interrupted b
  | .controlMiddle =>
    if isQuiet b || b == 0x7F || within 0x20 0x2F b then .controlMiddle else interrupted b
  | .deviceStart =>
    if within 0x08 0x0D b || b == 0x1B || within 0x40 0x7E b then .deviceString
    else if isQuiet b || b == 0x7F then .deviceStart
    else if within 0x20 0x2F b then .deviceMiddle
    else if within 0x30 0x3F b then .deviceParameter
    else interrupted b
  | .deviceParameter =>
    if isQuiet b || b == 0x7F || within 0x30 0x3F b then .deviceParameter
    else if within 0x20 0x2F b then .deviceMiddle
    else if within 0x40 0x7E b then .deviceString
    else interrupted b
  | .deviceMiddle =>
    if isQuiet b || b == 0x7F || within 0x20 0x2F b then .deviceMiddle
    else if within 0x30 0x7E b then .deviceString
    else interrupted b
  | .deviceString =>
    if b == 0x18 || b == 0x1A || b == 0x9C then .shown
    else if b == 0x1B then .escape
    else .deviceString
  | .systemString =>
    if b == 0x07 || b == 0x18 || b == 0x1A || b == 0x9C then .shown
    else if b == 0x1B then .escape
    else .systemString
  | .otherString => if isQuiet b || within 0x20 0x7F b then .otherString else interrupted b

/-- Whether a mode takes the bytes of characters for its own. -/
def Mode.keepsCharacters (mode : Mode) : Bool := mode = .deviceString || mode = .systemString

/-- The columns of the rest of a text, after `skip` bytes of a cluster that was counted. -/
def columnsFrom : (skip : Nat) → Mode → Text → Nat
  | _, _, [] => 0
  | skip + 1, mode, _ :: rest => columnsFrom skip mode rest
  | 0, mode, b :: rest =>
    if isLead b && !mode.keepsCharacters then
      let glyphs := Text.glyphs (b :: rest)
      let length :=
        match glyphs with
        | [] => 0
        | g :: others =>
          Cluster.restLength (Cluster.Kind.of g.toChar).tail (others.map Glyph.toChar) + 1
      let cluster := glyphs.take length
      ofCluster (cluster.map Glyph.toChar) +
        columnsFrom ((Text.ofGlyphs cluster).length - 1) .shown rest
    else
      (if mode = .shown && within 0x20 0x7E b then 1 else 0) + columnsFrom 0 (mode.next b) rest

end Screen

/-- The columns that a text takes on a screen. -/
def Text.screenWidth (t : Text) : Nat := Screen.columnsFrom 0 .shown t

end ClassUpgrade
