/-
# Proofs.Text.Glyph — characters written as bytes are read back

A character is written as one to four bytes, the first of which tells how many
there are (`Glyph.sequence?_two` and its neighbours), so what is written is read
back whatever follows it (`Glyph.first_utf8EncodeChar`), and a sequence of
characters is read back whole (`Text.chars_ofChars`).

In the other direction a glyph keeps the bytes that it was read from
(`Glyph.bytes_first_prefix`), so that a text is the bytes of its glyphs
(`Text.ofGlyphs_glyphs`). An ASCII byte is a character by itself wherever it
stands: it parts the characters of a text as it parts the bytes
(`Text.chars_append_ascii`).
-/
import ClassUpgrade.Text.Glyph

namespace ClassUpgrade

set_option autoImplicit false

namespace Glyph

theorem toNat_byte {n : Nat} (small : n < 0x100) : (UInt8.ofNat n).toNat = n := by
  rw [UInt8.toNat_ofNat']
  exact Nat.mod_eq_of_lt small

theorem byte_lt {n m : Nat} (less : n < m) (small : m < 0x100) :
    UInt8.ofNat n < UInt8.ofNat m := by
  rwa [UInt8.lt_iff_toNat_lt, toNat_byte small, toNat_byte (by omega)]

theorem not_byte_lt {n m : Nat} (le : m ≤ n) (small : n < 0x100) :
    ¬ UInt8.ofNat n < UInt8.ofNat m := by
  rw [UInt8.lt_iff_toNat_lt, toNat_byte small, toNat_byte (by omega)]
  omega

theorem continuation?_byte {n : Nat} (small : n < 0x40) :
    continuation? (UInt8.ofNat (n + 0x80)) = some n := by
  have code : (UInt8.ofNat (n + 0x80)).toNat = n + 0x80 := toNat_byte (by omega)
  have inside : (0x80 ≤ UInt8.ofNat (n + 0x80) && UInt8.ofNat (n + 0x80) ≤ 0xBF) = true := by
    simp only [Bool.and_eq_true, decide_eq_true_eq, UInt8.le_iff_toNat_le, code]
    refine ⟨Nat.le_add_left .., ?_⟩
    show n + 0x80 ≤ 0xBF
    omega
  rw [continuation?, if_pos inside, code, Nat.add_sub_cancel]

theorem scalar?_code {c : Char} {least code : Nat} (le : least ≤ code) (same : code = c.toNat) :
    scalar? least code = some c := by
  have valid : code.isValidChar := same ▸ c.valid
  rw [scalar?, if_pos ⟨le, valid⟩, same, Char.ofNat_toNat]

/-! ## The lengths of a sequence -/

section Sequence

variable {n p q r : Nat} {rest : Text}

/-- A byte behind the first one, with the last six bits of a number. -/
def following (n : Nat) : UInt8 := UInt8.ofNat (n % 0x40 + 0x80)

theorem continuation?_following (n : Nat) : continuation? (following n) = some (n % 0x40) :=
  continuation?_byte (Nat.mod_lt n (by decide))

theorem sequence?_one (most : n < 0x80) :
    sequence? (UInt8.ofNat n) rest = some (Char.ofNat n) := by
  have ascii : UInt8.ofNat n < 0x80 := byte_lt most (by decide)
  rw [sequence?, if_pos ascii, toNat_byte (by omega)]

theorem sequence?_two (least : 0xC0 ≤ n) (most : n < 0xE0) :
    sequence? (UInt8.ofNat n) (following p :: rest) =
      scalar? 0x80 ((n - 0xC0) * 64 + p % 0x40) := by
  have noOne : ¬ UInt8.ofNat n < 0x80 := not_byte_lt (Nat.le_trans (by decide) least) (by omega)
  have noTail : ¬ UInt8.ofNat n < 0xC0 := not_byte_lt least (by omega)
  have two : UInt8.ofNat n < 0xE0 := byte_lt most (by decide)
  rw [sequence?, if_neg noOne, if_neg noTail, if_pos two, toNat_byte (by omega)]
  simp [continuation?_following]

theorem sequence?_three (least : 0xE0 ≤ n) (most : n < 0xF0) :
    sequence? (UInt8.ofNat n) (following p :: following q :: rest) =
      scalar? 0x800 (((n - 0xE0) * 64 + p % 0x40) * 64 + q % 0x40) := by
  have noOne : ¬ UInt8.ofNat n < 0x80 := not_byte_lt (Nat.le_trans (by decide) least) (by omega)
  have noTail : ¬ UInt8.ofNat n < 0xC0 := not_byte_lt (Nat.le_trans (by decide) least) (by omega)
  have noTwo : ¬ UInt8.ofNat n < 0xE0 := not_byte_lt least (by omega)
  have three : UInt8.ofNat n < 0xF0 := byte_lt most (by decide)
  rw [sequence?, if_neg noOne, if_neg noTail, if_neg noTwo, if_pos three, toNat_byte (by omega)]
  simp [continuation?_following]

theorem sequence?_four (least : 0xF0 ≤ n) (most : n < 0xF8) :
    sequence? (UInt8.ofNat n) (following p :: following q :: following r :: rest) =
      scalar? 0x10000 ((((n - 0xF0) * 64 + p % 0x40) * 64 + q % 0x40) * 64 + r % 0x40) := by
  have noOne : ¬ UInt8.ofNat n < 0x80 := not_byte_lt (Nat.le_trans (by decide) least) (by omega)
  have noTail : ¬ UInt8.ofNat n < 0xC0 := not_byte_lt (Nat.le_trans (by decide) least) (by omega)
  have noTwo : ¬ UInt8.ofNat n < 0xE0 := not_byte_lt (Nat.le_trans (by decide) least) (by omega)
  have noThree : ¬ UInt8.ofNat n < 0xF0 := not_byte_lt least (by omega)
  have four : UInt8.ofNat n < 0xF8 := byte_lt most (by decide)
  rw [sequence?, if_neg noOne, if_neg noTail, if_neg noTwo, if_neg noThree, if_pos four,
    toNat_byte (by omega)]
  simp [continuation?_following]

end Sequence

/-- The bytes of a character are read as the character, whatever follows them. -/
theorem first_utf8EncodeChar (c : Char) : ∃ lead tail, String.utf8EncodeChar c = lead :: tail ∧
    ∀ rest, first lead (tail ++ rest) = .char c := by
  have code_eq : c.val.toNat = c.toNat := rfl
  have small : c.toNat < 0x110000 := by
    rcases c.valid with low | ⟨-, high⟩
    · exact Nat.lt_trans low (by decide)
    · exact high
  have read : ∀ {lead : UInt8} {tail rest : Text}, sequence? lead (tail ++ rest) = some c →
      first lead (tail ++ rest) = .char c := by
    intro lead tail rest found
    rw [first, found]
  unfold String.utf8EncodeChar
  dsimp only
  rw [code_eq]
  split
  · refine ⟨_, [], rfl, fun rest => read ?_⟩
    rw [sequence?_one (by omega), Char.ofNat_toNat]
  · split
    · refine ⟨_, [following c.toNat], rfl, fun rest => read ?_⟩
      rw [List.singleton_append, sequence?_two (by omega) (by omega)]
      exact scalar?_code (by omega) (by omega)
    · split
      · refine ⟨_, [following (c.toNat / 0x40), following c.toNat], rfl, fun rest => read ?_⟩
        rw [List.cons_append, List.singleton_append, sequence?_three (by omega) (by omega)]
        exact scalar?_code (by omega) (by omega)
      · refine ⟨_, [following (c.toNat / 0x1000), following (c.toNat / 0x40), following c.toNat],
          rfl, fun rest => read ?_⟩
        rw [List.cons_append, List.cons_append, List.singleton_append,
          sequence?_four (by omega) (by omega)]
        exact scalar?_code (by omega) (by omega)

/-! ## The bytes of what is read -/

theorem continuation?_eq_some {b : UInt8} {n : Nat} (read : continuation? b = some n) :
    b.toNat = n + 0x80 ∧ n < 0x40 := by
  unfold continuation? at read
  split at read
  · rename_i inside
    obtain rfl := Option.some.inj read
    simp only [Bool.and_eq_true, decide_eq_true_eq, UInt8.le_iff_toNat_le] at inside
    have least : 0x80 ≤ b.toNat := inside.1
    have most : b.toNat ≤ 0xBF := inside.2
    omega
  · cases read

theorem toNat_ofNat_valid {n : Nat} (valid : n.isValidChar) : (Char.ofNat n).toNat = n := by
  rw [Char.ofNat, dif_pos valid]
  rfl

theorem toNat_ofNat_ascii {b : UInt8} (ascii : b < 0x80) : (Char.ofNat b.toNat).toNat = b.toNat :=
  toNat_ofNat_valid (.inl (Nat.lt_trans (UInt8.lt_iff_toNat_lt.mp ascii) (by decide)))

theorem scalar?_eq_some {least code : Nat} {c : Char} (read : scalar? least code = some c) :
    least ≤ code ∧ c.val.toNat = code := by
  unfold scalar? at read
  split at read
  · rename_i fits
    obtain rfl := Option.some.inj read
    exact ⟨fits.1, toNat_ofNat_valid fits.2⟩
  · cases read

theorem ofNat_eq {b : UInt8} {n : Nat} (same : n = b.toNat) : UInt8.ofNat n = b := by
  rw [same, UInt8.ofNat_toNat]

/-- An ASCII character is written as one byte. -/
theorem utf8EncodeChar_ascii {b : UInt8} (ascii : b < 0x80) :
    String.utf8EncodeChar (Char.ofNat b.toNat) = [b] := by
  have code : (Char.ofNat b.toNat).val.toNat = b.toNat := toNat_ofNat_ascii ascii
  have small : b.toNat < 0x80 := UInt8.lt_iff_toNat_lt.mp ascii
  unfold String.utf8EncodeChar
  dsimp only
  rw [code, if_pos (by omega), UInt8.ofNat_toNat]

section Written

variable {lead x y z : UInt8} {n m k : Nat} {c : Char}

theorem utf8EncodeChar_two (least : ¬ lead.toNat < 0xC0) (most : lead.toNat < 0xE0)
    (first : continuation? x = some n)
    (scalar : scalar? 0x80 ((lead.toNat - 0xC0) * 64 + n) = some c) :
    String.utf8EncodeChar c = [lead, x] := by
  obtain ⟨x_eq, small⟩ := continuation?_eq_some first
  obtain ⟨shortest, code⟩ := scalar?_eq_some scalar
  unfold String.utf8EncodeChar
  dsimp only
  rw [code, if_neg (by omega), if_pos (by omega), ofNat_eq (b := lead) (by omega),
    ofNat_eq (b := x) (by omega)]

theorem utf8EncodeChar_three (least : ¬ lead.toNat < 0xE0) (most : lead.toNat < 0xF0)
    (first : continuation? x = some n) (second : continuation? y = some m)
    (scalar : scalar? 0x800 (((lead.toNat - 0xE0) * 64 + n) * 64 + m) = some c) :
    String.utf8EncodeChar c = [lead, x, y] := by
  obtain ⟨x_eq, small⟩ := continuation?_eq_some first
  obtain ⟨y_eq, small'⟩ := continuation?_eq_some second
  obtain ⟨shortest, code⟩ := scalar?_eq_some scalar
  unfold String.utf8EncodeChar
  dsimp only
  rw [code, if_neg (by omega), if_neg (by omega), if_pos (by omega),
    ofNat_eq (b := lead) (by omega), ofNat_eq (b := x) (by omega), ofNat_eq (b := y) (by omega)]

theorem utf8EncodeChar_four (least : ¬ lead.toNat < 0xF0) (most : lead.toNat < 0xF8)
    (first : continuation? x = some n) (second : continuation? y = some m)
    (third : continuation? z = some k)
    (scalar : scalar? 0x10000 ((((lead.toNat - 0xF0) * 64 + n) * 64 + m) * 64 + k) = some c) :
    String.utf8EncodeChar c = [lead, x, y, z] := by
  obtain ⟨x_eq, small⟩ := continuation?_eq_some first
  obtain ⟨y_eq, small'⟩ := continuation?_eq_some second
  obtain ⟨z_eq, small''⟩ := continuation?_eq_some third
  obtain ⟨shortest, code⟩ := scalar?_eq_some scalar
  unfold String.utf8EncodeChar
  dsimp only
  rw [code, if_neg (by omega), if_neg (by omega), if_neg (by omega),
    ofNat_eq (b := lead) (by omega), ofNat_eq (b := x) (by omega), ofNat_eq (b := y) (by omega),
    ofNat_eq (b := z) (by omega)]

end Written

/-- The bytes of a character that was read stand at the front of what it was read from. -/
theorem utf8EncodeChar_prefix {lead : UInt8} {rest : Text} {c : Char}
    (read : sequence? lead rest = some c) : String.utf8EncodeChar c <+: lead :: rest := by
  unfold sequence? at read
  split at read
  · rename_i ascii
    obtain rfl := Option.some.inj read
    rw [utf8EncodeChar_ascii ascii]
    exact List.prefix_append [lead] rest
  · simp only [UInt8.lt_iff_toNat_lt] at read
    split at read
    · cases read
    · rename_i least
      split at read
      · rename_i most
        simp only [Option.bind_eq_bind, Option.bind_eq_some_iff] at read
        obtain ⟨n, ⟨x, at_x, first⟩, scalar⟩ := read
        rw [utf8EncodeChar_two least most first scalar]
        match rest with
        | [] => cases at_x
        | a :: rest =>
            obtain rfl := Option.some.inj at_x
            exact List.prefix_append [lead, a] rest
      · rename_i least
        split at read
        · rename_i most
          simp only [Option.bind_eq_bind, Option.bind_eq_some_iff] at read
          obtain ⟨n, ⟨x, at_x, first⟩, m, ⟨y, at_y, second⟩, scalar⟩ := read
          rw [utf8EncodeChar_three least most first second scalar]
          match rest with
          | [] => cases at_x
          | [a] => cases at_y
          | a :: b :: rest =>
              obtain rfl := Option.some.inj at_x
              obtain rfl := Option.some.inj at_y
              exact List.prefix_append [lead, a, b] rest
        · rename_i least
          split at read
          · rename_i most
            simp only [Option.bind_eq_bind, Option.bind_eq_some_iff] at read
            obtain ⟨n, ⟨x, at_x, first⟩, m, ⟨y, at_y, second⟩, k, ⟨z, at_z, third⟩, scalar⟩ := read
            rw [utf8EncodeChar_four least most first second third scalar]
            match rest with
            | [] => cases at_x
            | [a] => cases at_y
            | [a, b] => cases at_z
            | a :: b :: d :: rest =>
                obtain rfl := Option.some.inj at_x
                obtain rfl := Option.some.inj at_y
                obtain rfl := Option.some.inj at_z
                exact List.prefix_append [lead, a, b, d] rest
          · cases read

/-- A glyph is read from its bytes. -/
theorem bytes_first_prefix (lead : UInt8) (rest : Text) :
    (first lead rest).bytes <+: lead :: rest := by
  unfold first
  split
  · rename_i c read
    exact utf8EncodeChar_prefix read
  · exact List.prefix_append [lead] rest

theorem bytes_first_ne_nil (lead : UInt8) (rest : Text) : (first lead rest).bytes ≠ [] := by
  unfold first
  split
  · exact String.utf8EncodeChar_ne_nil
  · exact List.cons_ne_nil _ _

theorem continuation?_of_ascii {b : UInt8} (ascii : b < 0x80) : continuation? b = none := by
  refine if_neg fun inside => ?_
  simp only [Bool.and_eq_true, decide_eq_true_eq] at inside
  exact absurd (UInt8.lt_of_lt_of_le ascii inside.1) (UInt8.lt_irrefl b)

/-- What a glyph is does not depend on anything from the next ASCII byte on. -/
theorem first_append_ascii (lead : UInt8) (rest more : Text) {b : UInt8} (ascii : b < 0x80) :
    first lead (rest ++ b :: more) = first lead rest := by
  have stops := continuation?_of_ascii ascii
  unfold first sequence?
  match rest with
  | [] => simp [stops]
  | [x] => simp [stops]
  | [x, y] => simp [stops]
  | x :: y :: z :: rest => simp

theorem first_ascii {b : UInt8} (ascii : b < 0x80) (rest : Text) :
    first b rest = .char (Char.ofNat b.toNat) := by
  rw [first, sequence?, if_pos ascii]

end Glyph

namespace Text

theorem glyphsFrom_skip : ∀ x t : Text, glyphsFrom x.length (x ++ t) = glyphsFrom 0 t
  | [], _ => rfl
  | _ :: x, t => glyphsFrom_skip x t

theorem glyphs_ofChars : ∀ cs : List Char, glyphs (ofChars cs) = cs.map .char
  | [] => rfl
  | c :: cs => by
      obtain ⟨lead, tail, bytes_eq, read⟩ := Glyph.first_utf8EncodeChar c
      have split : ofChars (c :: cs) = lead :: (tail ++ ofChars cs) := by
        rw [ofChars, List.flatMap_cons, bytes_eq]
        rfl
      have length_eq : (Glyph.char c).bytes.length - 1 = tail.length := by
        rw [Glyph.bytes, bytes_eq]
        rfl
      have ih := glyphs_ofChars cs
      rw [split, glyphs, glyphsFrom, read, length_eq, glyphsFrom_skip, ← glyphs, ih]
      rfl

/-- **Characters written as bytes are read back.** -/
theorem chars_ofChars (cs : List Char) : chars (ofChars cs) = cs := by
  rw [chars, glyphs_ofChars, List.map_map]
  exact List.map_id cs

/-! ## Texts and their glyphs -/

theorem glyphsFrom_drop : ∀ (n : Nat) (t : Text), glyphsFrom n t = glyphs (t.drop n)
  | 0, _ => rfl
  | _ + 1, [] => rfl
  | n + 1, _ :: rest => glyphsFrom_drop n rest

theorem glyphs_cons (lead : UInt8) (tail : Text) :
    glyphs (lead :: tail) = Glyph.first lead tail ::
      glyphs ((lead :: tail).drop (Glyph.first lead tail).bytes.length) := by
  obtain ⟨n, length_eq⟩ := Nat.exists_eq_add_one_of_ne_zero
    (mt List.length_eq_zero_iff.mp (Glyph.bytes_first_ne_nil lead tail))
  rw [glyphs, glyphsFrom, glyphsFrom_drop, length_eq, Nat.add_sub_cancel, List.drop_succ_cons]

/-- A text is its first glyph and the rest. -/
theorem exists_first {t : Text} (ne_nil : t ≠ []) :
    ∃ g rest, t = g.bytes ++ rest ∧ rest.length < t.length ∧ glyphs t = g :: glyphs rest := by
  obtain ⟨lead, tail, rfl⟩ := List.exists_cons_of_ne_nil ne_nil
  obtain ⟨rest, whole⟩ := Glyph.bytes_first_prefix lead tail
  have some_bytes := List.length_pos_iff.mpr (Glyph.bytes_first_ne_nil lead tail)
  refine ⟨_, rest, whole.symm, ?_, ?_⟩
  · rw [← whole, List.length_append]
    omega
  · rw [glyphs_cons, ← whole, List.drop_left]

/-- **A text is the bytes of its glyphs.** -/
theorem ofGlyphs_glyphs (t : Text) : ofGlyphs (glyphs t) = t := by
  by_cases empty : t = []
  · rw [empty]
    rfl
  · obtain ⟨g, rest, whole, shorter, glyphs_eq⟩ := exists_first empty
    have ih := ofGlyphs_glyphs rest
    rw [glyphs_eq, ofGlyphs, List.flatMap_cons, ← ofGlyphs, ih, whole]
termination_by t.length

/-- An ASCII byte parts the glyphs of a text. -/
theorem glyphs_append_ascii (t more : Text) {b : UInt8} (ascii : b < 0x80) :
    glyphs (t ++ b :: more) = glyphs t ++ .char (Char.ofNat b.toNat) :: glyphs more := by
  match t with
  | [] =>
      rw [List.nil_append, glyphs, glyphsFrom, Glyph.first_ascii ascii, Glyph.bytes,
        Glyph.utf8EncodeChar_ascii ascii]
      rfl
  | lead :: tail =>
      obtain ⟨rest, whole⟩ := Glyph.bytes_first_prefix lead tail
      have some_bytes := List.length_pos_iff.mpr (Glyph.bytes_first_ne_nil lead tail)
      have shorter : rest.length < (lead :: tail).length := by
        rw [← whole, List.length_append]
        omega
      have ih := glyphs_append_ascii rest more ascii
      have joined : lead :: (tail ++ b :: more) =
          (Glyph.first lead tail).bytes ++ (rest ++ b :: more) := by
        rw [← List.append_assoc, whole, List.cons_append]
      rw [List.cons_append, glyphs_cons, glyphs_cons, Glyph.first_append_ascii lead tail more ascii,
        joined, ← whole, List.drop_left, List.drop_left, ih, List.cons_append]
termination_by t.length
decreasing_by exact shorter

/-- An ASCII byte parts the characters of a text. -/
theorem chars_append_ascii (t more : Text) {b : UInt8} (ascii : b < 0x80) :
    chars (t ++ b :: more) = chars t ++ Char.ofNat b.toNat :: chars more := by
  rw [chars, glyphs_append_ascii t more ascii, List.map_append, List.map_cons]
  rfl

/-- A character but U+FFFD was read from its own bytes. -/
theorem eq_char_of_toChar {g : Glyph} {c : Char} (same : g.toChar = c)
    (readable : c ≠ Glyph.replacement) : g = .char c := by
  cases g with
  | char d => exact congrArg Glyph.char same
  | stray b => exact absurd same.symm readable

/-- A text is the bytes of its characters, where all of them can be read. -/
theorem ofChars_chars {t : Text} (readable : Glyph.replacement ∉ chars t) :
    ofChars (chars t) = t := by
  have chars_eq : ∀ gs : List Glyph, Glyph.replacement ∉ gs.map Glyph.toChar →
      ofChars (gs.map Glyph.toChar) = ofGlyphs gs := by
    intro gs
    induction gs with
    | nil => exact fun _ => rfl
    | cons g gs ih =>
        intro readable
        rw [List.map_cons, List.mem_cons, not_or] at readable
        have char := eq_char_of_toChar (rfl : g.toChar = _) (Ne.symm readable.1)
        have bytes_eq : g.bytes = String.utf8EncodeChar g.toChar := congrArg Glyph.bytes char
        rw [List.map_cons, ofChars, List.flatMap_cons, ← ofChars, ih readable.2, ofGlyphs, ofGlyphs,
          List.flatMap_cons, bytes_eq]
  rw [chars, chars_eq _ readable, ofGlyphs_glyphs]

/-- Readable characters at the front of a text were read from their bytes at its front. -/
theorem ofChars_prefix {cs : List Char} {t : Text} (readable : Glyph.replacement ∉ cs)
    (front : cs <+: chars t) : ofChars cs <+: t := by
  induction cs generalizing t with
  | nil => exact List.nil_prefix
  | cons c cs ih =>
      rw [List.mem_cons, not_or] at readable
      have ne_nil : t ≠ [] := by
        rintro rfl
        exact absurd (List.prefix_nil.mp front) (List.cons_ne_nil c cs)
      obtain ⟨g, rest, rfl, -, glyphs_eq⟩ := exists_first ne_nil
      rw [chars, glyphs_eq, List.map_cons, ← chars, List.cons_prefix_cons] at front
      obtain rfl := eq_char_of_toChar front.1.symm (Ne.symm readable.1)
      rw [ofChars, List.flatMap_cons, ← ofChars]
      exact (List.prefix_append_right_inj _).mpr (ih readable.2 front.2)

/-- A text has an ASCII character where it has its byte. -/
theorem mem_chars_iff {t : Text} {b : UInt8} (ascii : b < 0x80) :
    Char.ofNat b.toNat ∈ chars t ↔ b ∈ t := by
  constructor
  · intro mem
    obtain ⟨g, mem_g, same⟩ := List.mem_map.mp mem
    have small : b.toNat < 0x80 := UInt8.lt_iff_toNat_lt.mp ascii
    have code := Glyph.toNat_ofNat_ascii ascii
    have readable : Char.ofNat b.toNat ≠ Glyph.replacement := by
      intro same
      rw [same] at code
      have : Glyph.replacement.toNat = 0xFFFD := rfl
      omega
    obtain rfl := eq_char_of_toChar same readable
    rw [← ofGlyphs_glyphs t]
    refine List.mem_flatMap.mpr ⟨_, mem_g, ?_⟩
    rw [Glyph.bytes, Glyph.utf8EncodeChar_ascii ascii]
    exact List.mem_singleton_self b
  · intro mem
    obtain ⟨front, back, rfl⟩ := List.append_of_mem mem
    rw [chars_append_ascii front back ascii]
    exact List.mem_append_right _ List.mem_cons_self

end Text

end ClassUpgrade
