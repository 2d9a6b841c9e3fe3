/-
# Proofs.Source.Balance — a scope is plain brace counting outside literals

The search for the end of a scope passes over literals and counts braces at
once. Here the two are taken apart. `Cursor.blanked` writes a blank over every
byte of a literal that the token walk from a place passes over
(`getElem?_blanked`), and `closeIn` counts brackets in a text without looking
for literals; the search is the second on the first (`closeFrom_eq_closeIn`).
Counting stops at the first offset up to which as many brackets are closed as
opened (`closeIn_eq_some_iff`).

Main statement: `scopeEnd_counts`, for every text and every offset.
-/
import ClassUpgrade.Proofs.Source.Bracket

namespace ClassUpgrade.Source

set_option autoImplicit false

open Byte Cursor

/-! ## Blanked literals -/

/-- A text with a blank for every byte of a literal. The walk stands after `before` (reversed),
inside a literal for `skip` more bytes. -/
def blankFrom (before : Text) (skip : Nat) : Text → Text
  | [] => []
  | b :: rest =>
    match skip with
    | skip + 1 => space :: blankFrom (b :: before) skip rest
    | 0 =>
      match literalLength before (b :: rest) with
      | n + 1 => space :: blankFrom (b :: before) n rest
      | 0 => b :: blankFrom (b :: before) 0 rest

namespace Cursor

/-- The text around a place, with a blank for every byte of a literal that the walk from the
place passes over. -/
def blanked (c : Cursor) : Text := c.before.reverse ++ blankFrom c.before 0 c.after

/-- An offset inside a literal that the walk from a place passes over. -/
def InLiteral (c : Cursor) (i : Nat) : Prop :=
  ∃ d, Walk c d ∧ d.offset ≤ i ∧ i < d.offset + d.literalLength

theorem inLiteral_iff {c : Cursor} {i : Nat} (more : c.after ≠ []) :
    c.InLiteral i ↔ (c.offset ≤ i ∧ i < c.offset + c.literalLength) ∨ c.pastToken.InLiteral i := by
  constructor
  · rintro ⟨d, walk, within⟩
    rcases walk.eq_or_pastToken with rfl | later
    · exact .inl within
    · exact .inr ⟨d, later, within⟩
  · rintro (within | ⟨d, walk, within⟩)
    · exact ⟨c, .here c, within⟩
    · exact ⟨d, .token more walk, within⟩

theorem InLiteral.offset_le {c : Cursor} {i : Nat} (within : c.InLiteral i) : c.offset ≤ i := by
  obtain ⟨d, walk, le, -⟩ := within
  exact Nat.le_trans walk.offset_le le

/-- Every byte that the walk comes by is inside a literal, or a place of the walk where none
starts. -/
theorem inLiteral_or_plain : ∀ (k i : Nat) (c : Cursor), i < c.offset + k → c.offset ≤ i →
    i < c.text.length → c.InLiteral i ∨ ∃ d, Walk c d ∧ d.offset = i ∧ d.literalLength = 0
  | 0, i, c, near, le, _ => absurd near (by omega)
  | k + 1, i, c, near, le, lt => by
      have more : c.after ≠ [] := by
        intro done
        have := c.offset_add_length
        rw [done, List.length_nil] at this
        omega
      have forward : c.pastToken.offset = c.offset + min (max c.literalLength 1) c.after.length :=
        offset_advance c _
      have := List.length_pos_iff.mpr more
      by_cases passed : c.pastToken.offset ≤ i
      · rw [inLiteral_iff more]
        rcases inLiteral_or_plain k i c.pastToken (by omega) passed (by simpa [pastToken])
          with within | ⟨d, walk, facts⟩
        · exact .inl (.inr within)
        · exact .inr ⟨d, .token more walk, facts⟩
      · by_cases plain : c.literalLength = 0
        · exact .inr ⟨c, .here c, by omega, plain⟩
        · exact .inl ⟨c, .here c, le, by omega⟩

end Cursor

/-- A byte is blanked when it is passed over or lies in a literal, and kept otherwise. -/
theorem getElem?_blankFrom : ∀ (t before : Text) (skip i : Nat),
    ((i < skip ∨ ((⟨before, t⟩ : Cursor).advance skip).InLiteral (before.length + i)) →
        (blankFrom before skip t)[i]? = t[i]?.map fun _ => space) ∧
      (¬ (i < skip ∨ ((⟨before, t⟩ : Cursor).advance skip).InLiteral (before.length + i)) →
        (blankFrom before skip t)[i]? = t[i]?)
  | [], before, skip, i => by simp [blankFrom]
  | b :: rest, before, skip + 1, 0 => by simp [blankFrom]
  | b :: rest, before, skip + 1, i + 1 => by
      have ih := getElem?_blankFrom rest (b :: before) skip i
      rw [List.length_cons, Nat.add_assoc, Nat.add_comm 1 i] at ih
      simpa [blankFrom, advance_cons] using ih
  | b :: rest, before, 0, i => by
      have more : (⟨before, b :: rest⟩ : Cursor).after ≠ [] := by simp
      rw [advance_zero, inLiteral_iff more]
      unfold blankFrom
      dsimp only
      split
      · rename_i n literal
        have starts : (⟨before, b :: rest⟩ : Cursor).literalLength = n + 1 := literal
        rw [pastToken_of_literal (by omega), starts, advance_cons]
        cases i with
        | zero => simp [offset]
        | succ i =>
            have ih := getElem?_blankFrom rest (b :: before) n i
            rw [List.length_cons, Nat.add_assoc, Nat.add_comm 1 i] at ih
            have near : before.length + (i + 1) < before.length + (n + 1) ↔ i < n := by omega
            simpa [offset, near] using ih
      · rename_i plain
        have starts : (⟨before, b :: rest⟩ : Cursor).literalLength = 0 := plain
        rw [pastToken_of_plain starts, starts, advance_cons, advance_zero]
        cases i with
        | zero =>
            have ahead : ¬ (⟨b :: before, rest⟩ : Cursor).InLiteral before.length := by
              intro within
              have : before.length + 1 ≤ before.length := within.offset_le
              omega
            simp [ahead, offset]
        | succ i =>
            have ih := getElem?_blankFrom rest (b :: before) 0 i
            rw [List.length_cons, Nat.add_assoc, Nat.add_comm 1 i] at ih
            have outside : ¬ before.length + (i + 1) < before.length := by omega
            simpa [offset, outside] using ih

/-- **Blanking writes over the literals of the walk and nothing else.** -/
theorem getElem?_blanked (c : Cursor) (i : Nat) :
    (c.InLiteral i → c.blanked[i]? = c.text[i]?.map fun _ => space) ∧
      (¬ c.InLiteral i → c.blanked[i]? = c.text[i]?) := by
  have length_eq : c.before.reverse.length = c.before.length := List.length_reverse
  by_cases behind : i < c.before.length
  · have outside : ¬ c.InLiteral i := fun within => absurd within.offset_le (by simpa [offset])
    refine ⟨fun within => absurd within outside, fun _ => ?_⟩
    rw [blanked, text, List.getElem?_append_left (by omega), List.getElem?_append_left (by omega)]
  · obtain ⟨k, rfl⟩ : ∃ k, i = c.before.length + k := ⟨i - c.before.length, by omega⟩
    have facts := getElem?_blankFrom c.after c.before 0 k
    rw [blanked, text, List.getElem?_append_right (by omega), List.getElem?_append_right (by omega),
      length_eq, Nat.add_sub_cancel_left]
    simpa using facts

/-- A byte of the blanked text that is no blank is a byte of the text outside literals. -/
theorem outside_of_getElem?_blanked {c : Cursor} {i : Nat} {b : UInt8}
    (kept : c.blanked[i]? = some b) (ink : space ≠ b) : ¬ c.InLiteral i ∧ c.text[i]? = some b := by
  obtain ⟨covered, copied⟩ := getElem?_blanked c i
  by_cases within : c.InLiteral i
  · rw [covered within, Option.map_eq_some_iff] at kept
    obtain ⟨-, -, blank⟩ := kept
    exact absurd blank ink
  · exact ⟨within, (copied within).symm.trans kept⟩

theorem blankFrom_of_plain : ∀ (t before : Text), (∀ b ∈ t, opensLiteral b = false) →
    blankFrom before 0 t = t
  | [], before, _ => rfl
  | b :: rest, before, plain => by
      have starts : literalLength before (b :: rest) = 0 :=
        Source.literalLength_eq_zero (by simpa using plain b List.mem_cons_self)
      have ih := blankFrom_of_plain rest (b :: before)
        fun x mem => plain x (List.mem_cons_of_mem b mem)
      simp [blankFrom, starts, ih]

/-! ## Counting -/

/-- The offset at which the innermost bracket opened before a text is closed, when every byte
counts; `depth` brackets opened on the way are still open. -/
def closeIn (kind : Bracket) (depth : Nat) : Text → Option Nat
  | [] => none
  | b :: rest =>
    if b = kind.opening then (closeIn kind (depth + 1) rest).map (· + 1)
    else if b = kind.closing then
      match depth with
      | 0 => some 0
      | depth + 1 => (closeIn kind depth rest).map (· + 1)
    else (closeIn kind depth rest).map (· + 1)

/-- The search for a closing bracket counts brackets in the blanked text. -/
theorem closeFrom_eq_closeIn {kind : Bracket} (opening : space ≠ kind.opening)
    (closing : space ≠ kind.closing) : ∀ (t before : Text) (skip depth : Nat),
      closeFrom kind before skip depth t =
        (closeIn kind depth (blankFrom before skip t)).map (before.length + ·)
  | [], before, skip, depth => rfl
  | b :: rest, before, skip, depth => by
      -- behind the byte in front all offsets are one more
      have onward : ∀ skip' depth', closeFrom kind (b :: before) skip' depth' rest =
          ((closeIn kind depth' (blankFrom (b :: before) skip' rest)).map (· + 1)).map
            (before.length + ·) := by
        intro skip' depth'
        rw [closeFrom_eq_closeIn opening closing rest (b :: before) skip' depth', Option.map_map]
        congr 1
        funext n
        simp only [List.length_cons, Function.comp_apply]
        omega
      have passed : ∀ t, closeIn kind depth (space :: t) = (closeIn kind depth t).map (· + 1) := by
        intro t
        simp only [closeIn, if_neg opening, if_neg closing]
      cases skip with
      | succ skip => rw [closeFrom, blankFrom, passed, onward]
      | zero =>
          unfold closeFrom blankFrom
          dsimp only
          cases literalLength before (b :: rest) with
          | succ n => rw [passed]; exact onward n depth
          | zero =>
              unfold closeIn
              dsimp only
              split
              · exact onward 0 (depth + 1)
              · split
                · cases depth with
                  | zero => rfl
                  | succ depth => exact onward 0 depth
                · exact onward 0 depth

/-- One bracket more is closed than opened in a text with `depth` brackets open before it. -/
def Overdrawn (kind : Bracket) (depth : Nat) (t : Text) : Prop :=
  t.count kind.closing = t.count kind.opening + depth + 1

/-- The shortest prefix with a property, the empty one aside, ends at the offset `i`. -/
def FirstPrefix (p : Text → Prop) (t : Text) (i : Nat) : Prop :=
  i < t.length ∧ p (t.take (i + 1)) ∧ ∀ j < i, ¬ p (t.take (j + 1))

theorem firstPrefix_zero {p : Text → Prop} {b : UInt8} {rest : Text} :
    FirstPrefix p (b :: rest) 0 ↔ p [b] := by
  simp [FirstPrefix]

theorem firstPrefix_succ {p : Text → Prop} {b : UInt8} {rest : Text} {i : Nat} :
    FirstPrefix p (b :: rest) (i + 1) ↔ ¬ p [b] ∧ FirstPrefix (fun t => p (b :: t)) rest i := by
  simp only [FirstPrefix, List.length_cons, Nat.add_lt_add_iff_right, List.take_succ_cons]
  constructor
  · rintro ⟨lt, holds, first⟩
    exact ⟨by simpa using first 0 (by omega), lt, holds,
      fun j before => by simpa using first (j + 1) (by omega)⟩
  · rintro ⟨none, lt, holds, first⟩
    refine ⟨lt, holds, fun j before => ?_⟩
    cases j with
    | zero => simpa using none
    | succ j => simpa using first j (by omega)

/-- Counting behind a byte at which it does not stop. -/
theorem map_eq_some_iff_firstPrefix {p q : Text → Prop} {b : UInt8} {rest : Text}
    {found : Option Nat} (goes : ¬ p [b]) (shift : ∀ t, p (b :: t) ↔ q t)
    (ih : ∀ i, found = some i ↔ FirstPrefix q rest i) (i : Nat) :
    found.map (· + 1) = some i ↔ FirstPrefix p (b :: rest) i := by
  cases i with
  | zero => simpa [firstPrefix_zero] using goes
  | succ i => simp [firstPrefix_succ, goes, ← ih, shift]

/-- **Counting stops at the first offset up to which one bracket more is closed than opened.** -/
theorem closeIn_eq_some_iff {kind : Bracket} (distinct : kind.closing ≠ kind.opening) :
    ∀ (t : Text) (depth i : Nat),
      closeIn kind depth t = some i ↔ FirstPrefix (Overdrawn kind depth) t i
  | [], depth, i => by simp [closeIn, FirstPrefix]
  | b :: rest, depth, i => by
      have ih := fun depth' i => closeIn_eq_some_iff distinct rest depth' i
      unfold closeIn
      split
      · rename_i front
        subst front
        exact map_eq_some_iff_firstPrefix (by simp [Overdrawn, distinct.symm])
          (fun t => by simp [Overdrawn, distinct.symm]; omega) (ih (depth + 1)) i
      · rename_i noOpening
        split
        · rename_i front
          subst front
          cases depth with
          | zero =>
              cases i with
              | zero => simp [firstPrefix_zero, Overdrawn, distinct]
              | succ i => simp [firstPrefix_succ, Overdrawn, distinct]
          | succ depth =>
              exact map_eq_some_iff_firstPrefix (by simp [Overdrawn, distinct])
                (fun t => by simp [Overdrawn, distinct]; omega) (ih depth) i
        · rename_i noClosing
          exact map_eq_some_iff_firstPrefix (by simp [Overdrawn, noOpening, noClosing])
            (fun t => by simp [Overdrawn, noOpening, noClosing]) (ih depth) i

/-! ## Scopes -/

/-- Plain counting from an offset, which may be any integer: a bracket opens there, and `stop` is the
first offset behind it up to which as many brackets are closed as opened. -/
structure CountsTo (kind : Bracket) (t : Text) (start : Int) (stop : Nat) : Prop where
  nonneg : 0 ≤ start
  opening : t[start.toNat]? = some kind.opening
  behind : start.toNat < stop
  inside : stop < t.length
  equal : (t.slice start.toNat (stop + 1)).count kind.opening =
    (t.slice start.toNat (stop + 1)).count kind.closing
  first : ∀ i, start.toNat < i → i < stop →
    (t.slice start.toNat (i + 1)).count kind.opening ≠
      (t.slice start.toNat (i + 1)).count kind.closing

theorem slice_opening (kind : Bracket) (lead u : Text) (i : Nat) :
    (lead ++ kind.opening :: u).slice lead.length (lead.length + 1 + i + 1) =
      kind.opening :: u.take (i + 1) := by
  have length_eq : lead.length + 1 + i + 1 - lead.length = i + 1 + 1 := by omega
  rw [Text.slice, List.drop_left, length_eq, List.take_succ_cons]

/-- Counting from a bracket is counting in the text behind it, with this bracket to close. -/
theorem countsTo_append {kind : Bracket} (distinct : kind.closing ≠ kind.opening)
    (lead u : Text) (stop : Nat) :
    CountsTo kind (lead ++ kind.opening :: u) lead.length stop ↔
      ∃ i, FirstPrefix (Overdrawn kind 0) u i ∧ stop = lead.length + 1 + i := by
  have equal_iff : ∀ i, ((lead ++ kind.opening :: u).slice lead.length (lead.length + 1 + i + 1)).count
        kind.opening =
      ((lead ++ kind.opening :: u).slice lead.length (lead.length + 1 + i + 1)).count kind.closing ↔
        Overdrawn kind 0 (u.take (i + 1)) := by
    intro i
    rw [slice_opening, List.count_cons_self, List.count_cons_of_ne distinct.symm, Overdrawn]
    omega
  constructor
  · rintro ⟨-, -, behind, inside, equal, first⟩
    obtain ⟨i, rfl⟩ : ∃ i, stop = lead.length + 1 + i := ⟨stop - lead.length - 1, by omega⟩
    refine ⟨i, ⟨?_, (equal_iff i).mp equal, fun j before holds => ?_⟩, rfl⟩
    · simp only [List.length_append, List.length_cons] at inside
      omega
    · exact first (lead.length + 1 + j) (by omega) (by omega) ((equal_iff j).mpr holds)
  · rintro ⟨i, ⟨lt, holds, first⟩, rfl⟩
    refine ⟨by omega, by simp, by simp only [Int.toNat_natCast]; omega, ?_, (equal_iff i).mpr holds, ?_⟩
    · simp only [List.length_append, List.length_cons]
      omega
    · intro k behind before equal
      obtain ⟨j, rfl⟩ : ∃ j, k = lead.length + 1 + j := ⟨k - lead.length - 1, by omega⟩
      exact first j (by omega) ((equal_iff j).mp equal)

/-- The search at an opening bracket counts in the text whose literals are blanked from behind it
on. -/
theorem closeOf?_eq_some_iff_countsTo {kind : Bracket} (distinct : kind.closing ≠ kind.opening)
    (opening : space ≠ kind.opening) (closing : space ≠ kind.closing) {c : Cursor}
    (front : c.peek? = some kind.opening) (stop : Nat) :
    c.closeOf? kind = some stop ↔ CountsTo kind (c.advance 1).blanked c.offset stop := by
  obtain ⟨before, after⟩ := c
  obtain ⟨rest, rfl⟩ := peek?_eq_some_iff.mp front
  have blanked_eq : ((⟨before, kind.opening :: rest⟩ : Cursor).advance 1).blanked =
      before.reverse ++ kind.opening :: blankFrom (kind.opening :: before) 0 rest := by
    rw [advance_cons, advance_zero, blanked, List.reverse_cons, List.append_assoc]
    rfl
  have offset_eq : (⟨before, kind.opening :: rest⟩ : Cursor).offset = before.reverse.length := by
    simp [offset]
  have search : (⟨before, kind.opening :: rest⟩ : Cursor).closeOf? kind =
      closeFrom kind (kind.opening :: before) 0 0 rest := by
    simp [closeOf?, expect?, front, advance]
  rw [blanked_eq, offset_eq, countsTo_append distinct, search,
    closeFrom_eq_closeIn opening closing, Option.map_eq_some_iff]
  simp only [closeIn_eq_some_iff distinct, List.length_cons, List.length_reverse, eq_comm]

theorem scopeEnd_eq_ok_iff (t : Text) (start : Int) (stop : Nat) :
    scopeEnd t start = .ok stop ↔
      0 ≤ start ∧ (ofOffset t start.toNat).closeOf? .brace = some stop := by
  unfold scopeEnd
  split
  · rename_i negative
    exact iff_of_false (by simp) fun facts => absurd facts.1 (by omega)
  · rename_i nonneg
    split
    · rename_i stop' found
      simp [found, Int.not_lt.mp nonneg]
    · rename_i none_found
      simp [none_found]

/-- The scope whose end was found, at its place. -/
theorem scope_of_scopeEnd {t : Text} {start : Int} {stop : Nat}
    (closed : scopeEnd t start = .ok stop) :
    (ofOffset t start.toNat).scope = .ok ⟨start.toNat, stop⟩ := by
  obtain ⟨-, found⟩ := (scopeEnd_eq_ok_iff t start stop).mp closed
  have short := offset_lt_of_peek? ((closeOf?_eq_some_iff (by decide)).mp found).1
  have offset_eq : (ofOffset t start.toNat).offset = start.toNat := by
    rw [text_ofOffset] at short
    rw [offset_ofOffset] at short ⊢
    omega
  rw [Cursor.scope, found, offset_eq]

theorem scopeEnd_eq_error_iff (t : Text) (start : Int) (e : UnmatchedScope) :
    scopeEnd t start = .error e ↔ e = ⟨start⟩ ∧ ¬ ∃ stop, scopeEnd t start = .ok stop := by
  unfold scopeEnd
  split
  · simp [eq_comm]
  · split <;> simp [eq_comm]

theorem scopeEnd_eq_ok_iff_countsTo (t : Text) (start : Int) (stop : Nat) :
    scopeEnd t start = .ok stop ↔
      CountsTo .brace (ofOffset t (start.toNat + 1)).blanked start stop := by
  rw [scopeEnd_eq_ok_iff]
  by_cases nonneg : 0 ≤ start
  · obtain ⟨n, rfl⟩ := Int.eq_ofNat_of_zero_le nonneg
    rw [Int.toNat_natCast, ← advance_ofOffset]
    by_cases front : (ofOffset t n).peek? = some Bracket.brace.opening
    · have offset_eq : (ofOffset t n).offset = n := by
        have := offset_lt_of_peek? front
        rw [text_ofOffset, offset_ofOffset] at *
        omega
      have counted := closeOf?_eq_some_iff_countsTo (by decide) (by decide) (by decide) front stop
      rw [offset_eq] at counted
      exact ⟨fun found => counted.mp found.2, fun counts => ⟨nonneg, counted.mpr counts⟩⟩
    · refine iff_of_false (fun found => ?_) fun counts => ?_
      · exact front ((closeOf?_eq_some_iff (by decide)).mp found.2).1
      · have kept := (outside_of_getElem?_blanked counts.opening (by decide)).2
        rw [text_advance, text_ofOffset, Int.toNat_natCast] at kept
        exact front ((peek?_ofOffset t n).trans kept)
  · exact iff_of_false (fun found => nonneg found.1) fun counts => nonneg counts.nonneg

/-- The scope of a brace outside the literals of a scope, from behind its opening brace on, ends
before that scope does. -/
theorem scopeEnd_inside {t : Text} {start : Int} {stop : Nat} (closed : scopeEnd t start = .ok stop)
    {p : Nat} (behind : start < p) (inside : p < stop)
    (structural : (ofOffset t (start.toNat + 1)).blanked[p]? = some openBrace) :
    ∃ inner, scopeEnd t p = .ok inner ∧ p < inner ∧ inner < stop := by
  obtain ⟨nonneg, -⟩ := (scopeEnd_eq_ok_iff t start stop).mp closed
  obtain ⟨outside, kept⟩ := outside_of_getElem?_blanked structural (by decide)
  rw [text_ofOffset] at kept
  have short : p < t.length := (List.getElem?_eq_some_iff.mp kept).1
  have offset_eq : ∀ n, n ≤ p → (ofOffset t n).offset = n := by
    intro n le
    rw [offset_ofOffset]
    omega
  obtain within | ⟨d, walk, at_p, plain⟩ := inLiteral_or_plain (p + 1) p
    (ofOffset t (start.toNat + 1)) (by omega) (by rw [offset_eq] <;> omega) (by simpa using short)
  · exact absurd within outside
  · obtain rfl : d = ofOffset t p := by
      apply eq_of_text_offset
      · rw [walk.text_eq, text_ofOffset, text_ofOffset]
      · rw [at_p, offset_eq p (Nat.le_refl p)]
    rw [← advance_ofOffset] at walk
    obtain ⟨inner, scope_eq, lt⟩ := scope_inside (scope_of_scopeEnd closed) walk
      (by rw [at_p]; exact inside) plain
      ((peek?_ofOffset t p).trans kept)
    obtain ⟨-, after, -, -⟩ := scope_walk scope_eq
    rw [at_p] at after
    refine ⟨inner.stop, (scopeEnd_eq_ok_iff t p inner.stop).mpr ⟨by omega, ?_⟩, after, lt⟩
    obtain ⟨front, e, closes, rfl⟩ := scope_eq_ok_iff.mp scope_eq
    exact (closeOf?_eq_some_iff (by decide)).mpr ⟨front, e, closes, rfl⟩

/-- **The end of a scope is found by plain brace counting outside literals.** For every text and
every integer offset, the search answers with `stop` exactly when a brace opens at the offset and
`stop` is the first offset behind it up to which as many braces are closed as opened, in the text
whose literals on the walk from behind the brace are blanked; in every other case it fails with
the offset it was given. Where no quote and no slash follows the brace nothing is blanked. A scope
that opens inside, outside literals, ends inside. -/
theorem scopeEnd_counts (t : Text) (start : Int) :
    let inside := ofOffset t (start.toNat + 1)
    (∀ i, (inside.InLiteral i → inside.blanked[i]? = t[i]?.map fun _ => space) ∧
      (¬ inside.InLiteral i → inside.blanked[i]? = t[i]?)) ∧
    (∀ stop, scopeEnd t start = .ok stop ↔ CountsTo .brace inside.blanked start stop) ∧
    (∀ e, scopeEnd t start = .error e ↔
      e = ⟨start⟩ ∧ ¬ ∃ stop, CountsTo .brace inside.blanked start stop) ∧
    ((∀ b ∈ t.drop (start.toNat + 1), opensLiteral b = false) →
      ∀ stop, scopeEnd t start = .ok stop ↔ CountsTo .brace t start stop) ∧
    ∀ stop, scopeEnd t start = .ok stop → ∀ p : Nat, start < p → p < stop →
      inside.blanked[p]? = some openBrace →
        ∃ inner, scopeEnd t p = .ok inner ∧ p < inner ∧ inner < stop := by
  intro inside
  have counts := scopeEnd_eq_ok_iff_countsTo t start
  refine ⟨fun i => ?_, counts, fun e => ?_, fun plain => ?_, fun stop closed p behind before =>
    scopeEnd_inside closed behind before⟩
  · have facts := getElem?_blanked inside i
    rwa [text_ofOffset] at facts
  · rw [scopeEnd_eq_error_iff]
    simp only [counts, inside]
  · have same : inside.blanked = t := by
      rw [blanked, blankFrom_of_plain inside.after inside.before plain]
      exact text_ofOffset t _
    intro stop
    rw [counts, show ofOffset t (start.toNat + 1) = inside from rfl, same]

/-- A closing brace in a string, and a scope behind it. -/
theorem scopeEnd_behind_string :
    let t := utf8 "\x7b'\x7d'\x7b\x7d\x7d"
    scopeEnd t 0 = .ok 6 ∧ CountsTo .brace (utf8 "\x7b   \x7b\x7d\x7d") 0 6 ∧
      ∃ inner, scopeEnd t 4 = .ok inner ∧ 4 < inner ∧ inner < 6 := by
  intro t
  have closed : scopeEnd t 0 = .ok 6 := by rfl
  obtain ⟨-, counts, -, -, nested⟩ := scopeEnd_counts t 0
  exact ⟨closed, (counts 6).mp closed, nested 6 closed 4 (by decide) (by decide) (by rfl)⟩

end ClassUpgrade.Source
