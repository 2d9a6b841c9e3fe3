/-
# Proofs.Source.Walk — the token walk, and the scanners that stay on it

The walk of a text goes from token to token: past a whole literal where one
starts, else past one byte (`Cursor.pastToken`). `Walk c d` says that the walk
from `c` comes by `d`. It has one way to go, so of two places on it one comes
after the other (`Walk.comparable`).

Each scanner of this library moves a cursor in its own way: over a run of
blanks, a word, trivia, up to a closing bracket. The lemmas here say that each
of them stops on the walk that it started from. A scanner that stopped inside
a literal would make everything behind it be read inside out.
-/
import ClassUpgrade.Proofs.Source.Cursor
import ClassUpgrade.Source.Scope

namespace ClassUpgrade.Source

set_option autoImplicit false

open Byte

namespace Cursor

/-- The place past the token in front: past the literal that starts here, else past one byte. -/
def pastToken (c : Cursor) : Cursor := c.advance (max c.literalLength 1)

/-- The walk from the first place comes by the second. The end of the text is its last place. -/
inductive Walk : Cursor → Cursor → Prop where
  | here (c : Cursor) : Walk c c
  | token {c d : Cursor} (more : c.after ≠ []) (rest : Walk c.pastToken d) : Walk c d

namespace Walk

theorem trans {c d e : Cursor} (first : Walk c d) (last : Walk d e) : Walk c e := by
  induction first with
  | here c => exact last
  | token more _ ih => exact .token more (ih last)

theorem text_eq {c d : Cursor} (walk : Walk c d) : d.text = c.text := by
  induction walk with
  | here c => rfl
  | token _ _ ih => rw [ih, pastToken, text_advance]

theorem offset_le {c d : Cursor} (walk : Walk c d) : c.offset ≤ d.offset := by
  induction walk with
  | here c => exact Nat.le_refl _
  | token _ _ ih =>
      rw [pastToken, offset_advance] at ih
      omega

/-- The walk has one way to go. -/
theorem comparable {c d e : Cursor} (first : Walk c d) (second : Walk c e) :
    Walk d e ∨ Walk e d := by
  induction first with
  | here c => exact .inl second
  | token more rest ih =>
      cases second with
      | here c => exact .inr (.token more rest)
      | token _ rest' => exact ih rest'

theorem advance_sub {c d : Cursor} (walk : Walk c d) : c.advance (d.offset - c.offset) = d :=
  Cursor.advance_sub walk.text_eq.symm walk.offset_le

/-- What lies after a place lies after every place before it on the walk. -/
theorem exists_after {c d : Cursor} (walk : Walk c d) : ∃ x, c.after = x ++ d.after := by
  have rest : d.after = c.after.drop (d.offset - c.offset) := by
    rw [← after_advance, walk.advance_sub]
  exact ⟨c.after.take (d.offset - c.offset), by rw [rest, List.take_append_drop]⟩

/-- A walk that has not come to an end at its first place goes through the next one. -/
theorem eq_or_pastToken {c d : Cursor} (walk : Walk c d) : d = c ∨ Walk c.pastToken d := by
  cases walk with
  | here c => exact .inl rfl
  | token _ rest => exact .inr rest

/-- At the end of the text the walk is over. -/
theorem eq_of_nil {c d : Cursor} (walk : Walk c d) (done : c.after = []) : d = c := by
  cases walk with
  | here c => rfl
  | token more _ => exact absurd done more

/-- Past the literal in front, if there is one. -/
theorem literal (c : Cursor) : Walk c (c.advance c.literalLength) := by
  by_cases plain : c.literalLength = 0
  · rw [plain]
    exact .here c
  · by_cases done : c.after = []
    · rw [advance_of_nil done]
      exact .here c
    · refine .token done ?_
      rw [pastToken, Nat.max_eq_left (by omega)]
      exact .here _

/-- Past a byte that starts no literal. -/
theorem byte {c : Cursor} (plain : c.literalLength = 0) : Walk c (c.advance 1) := by
  by_cases done : c.after = []
  · rw [advance_of_nil done]
    exact .here c
  · refine .token done ?_
    rw [pastToken, plain]
    exact .here _

end Walk

end Cursor

/-! ## Bytes that start no literal -/

def opensLiteral (b : UInt8) : Bool := isQuote b || b == slash

theorem literalLength_eq_zero {before t : Text}
    (plain : ∀ b ∈ t.head?, opensLiteral b = false) : literalLength before t = 0 := by
  cases t with
  | nil => rfl
  | cons b rest =>
      have : isQuote b = false ∧ b ≠ slash := by simpa [opensLiteral] using plain b
      simp [literalLength, this.1, this.2]

theorem opensLiteral_of_isSpace {b : UInt8} (blank : isSpace b = true) :
    opensLiteral b = false := by
  simp only [isSpace, Bool.or_eq_true, beq_iff_eq] at blank
  rcases blank with ((rfl | rfl) | rfl) | rfl <;> decide

theorem isWordPart_of_isSpace {b : UInt8} (blank : isSpace b = true) : isWordPart b = false := by
  simp only [isSpace, Bool.or_eq_true, beq_iff_eq] at blank
  rcases blank with ((rfl | rfl) | rfl) | rfl <;> decide

theorem opensLiteral_of_isWordPart {b : UInt8} (part : isWordPart b = true) :
    opensLiteral b = false := by
  cases opens : opensLiteral b with
  | false => rfl
  | true =>
      simp only [opensLiteral, isQuote, Bool.or_eq_true, beq_iff_eq] at opens
      rcases opens with ((rfl | rfl) | rfl) | rfl <;> exact absurd part (by decide)

theorem word_leads (t : Text) : word t <+: t := by
  unfold word
  split
  · exact List.prefix_rfl
  · split
    · exact List.prefix_cons_inj _ |>.mpr (List.takeWhile_prefix _)
    · exact List.nil_prefix

theorem isWordPart_of_mem_word {t : Text} {b : UInt8} (mem : b ∈ word t) :
    isWordPart b = true := by
  unfold word at mem
  split at mem
  · cases mem
  · split at mem
    · rename_i starts
      rcases List.mem_cons.mp mem with rfl | later
      · simp [isWordPart, starts]
      · exact List.all_eq_true.mp List.all_takeWhile b later
    · cases mem

namespace Cursor

theorem take_word (c : Cursor) : c.word = c.after.take c.word.length :=
  List.prefix_iff_eq_take.mp (word_leads c.after)

theorem after_word (c : Cursor) : c.after = c.word ++ (c.advance c.word.length).after := by
  have split := List.take_append_drop c.word.length c.after
  rwa [← take_word, ← after_advance, eq_comm] at split

theorem exists_blanks (c : Cursor) :
    ∃ blanks, (∀ b ∈ blanks, isSpace b = true) ∧ c.after = blanks ++ c.skipSpace.after := by
  refine ⟨c.after.takeWhile isSpace, fun b mem => List.all_eq_true.mp List.all_takeWhile b mem, ?_⟩
  have taken : c.after.takeWhile isSpace = c.after.take (spaceLength c.after) :=
    List.prefix_iff_eq_take.mp (List.takeWhile_prefix isSpace)
  rw [taken, skipSpace, after_advance, List.take_append_drop]

theorem word_length_pos {c : Cursor} (starts : c.startsWord = true) : 0 < c.word.length := by
  simp only [Cursor.startsWord, Bool.and_eq_true, Bool.not_eq_true',
    List.isEmpty_eq_false_iff] at starts
  exact List.length_pos_iff.mpr starts.1

/-- No word starts inside a word or right behind it. -/
theorem startsWord_behind_word {c : Cursor} {k : Nat} (pos : 0 < k) (le : k ≤ c.word.length) :
    (c.advance k).startsWord = false := by
  have taken : c.after.take k = c.word.take k :=
    calc c.after.take k = (c.after.take c.word.length).take k := by
          rw [List.take_take, Nat.min_eq_left le]
      _ = c.word.take k := by rw [← take_word]
  cases behind : (c.word.take k).reverse with
  | nil =>
      have := congrArg List.length behind
      simp only [List.length_reverse, List.length_take, List.length_nil] at this
      omega
  | cons b others =>
      have mem : b ∈ c.word := by
        apply List.mem_of_mem_take (i := k)
        rw [← List.mem_reverse, behind]
        exact List.mem_cons_self
      have closed : atWordStart ((c.advance k).before) = false := by
        simp [advance, taken, behind, atWordStart, isWordPart_of_mem_word mem]
      simp [startsWord, closed]

theorem literalLength_eq_zero_of_peek? {c : Cursor} {b : UInt8} (front : c.peek? = some b)
    (plain : opensLiteral b = false) : c.literalLength = 0 := by
  apply Source.literalLength_eq_zero
  intro x mem
  rw [show c.after.head? = some b from front] at mem
  exact Option.mem_some.mp mem ▸ plain

namespace Walk

/-- Past a run of bytes none of which starts a literal. -/
theorem plainRun : ∀ (n : Nat) (c : Cursor),
    (∀ b ∈ c.after.take n, opensLiteral b = false) → Walk c (c.advance n)
  | 0, c, _ => .here c
  | n + 1, ⟨before, []⟩, _ => by
      rw [advance_of_nil rfl]
      exact .here _
  | n + 1, ⟨before, b :: rest⟩, plain => by
      have first : Walk ⟨before, b :: rest⟩ ⟨b :: before, rest⟩ :=
        byte (Source.literalLength_eq_zero (by simpa using plain b (by simp)))
      rw [advance_cons]
      exact first.trans (plainRun n ⟨b :: before, rest⟩ fun x mem => plain x (by simp [mem]))

/-- Past the longest run of bytes of one kind, when no literal starts with that kind. -/
theorem takeWhile {kind : UInt8 → Bool} (plain : ∀ b, kind b = true → opensLiteral b = false)
    (c : Cursor) : Walk c (c.advance (c.after.takeWhile kind).length) := by
  apply plainRun
  intro b mem
  have taken : c.after.take (c.after.takeWhile kind).length = c.after.takeWhile kind :=
    List.prefix_iff_eq_take.mp (List.takeWhile_prefix kind) |>.symm
  rw [taken] at mem
  exact plain b (List.all_eq_true.mp List.all_takeWhile b mem)

theorem skipSpace (c : Cursor) : Walk c c.skipSpace :=
  takeWhile (fun _ => opensLiteral_of_isSpace) c

theorem word (c : Cursor) : Walk c (c.advance c.word.length) := by
  apply plainRun
  rw [← take_word]
  exact fun b mem => opensLiteral_of_isWordPart (isWordPart_of_mem_word mem)

theorem expect? {c d : Cursor} {b : UInt8} (found : c.expect? b = some d)
    (plain : opensLiteral b = false) : Walk c d := by
  obtain ⟨front, rfl⟩ := expect?_eq_some_iff.mp found
  exact byte (literalLength_eq_zero_of_peek? front plain)

theorem skipByte {b : UInt8} (plain : opensLiteral b = false) (c : Cursor) :
    Walk c (c.skipByte b) := by
  unfold Cursor.skipByte
  cases found : c.expect? b with
  | none => exact .here c
  | some d => exact expect? found plain

end Walk

/-! ## Trivia -/

/-- A comment is the literal of its slash. -/
theorem literalLength_of_comment {before t : Text} (comment : commentLength t ≠ 0) :
    Source.literalLength before t = commentLength t := by
  cases t with
  | nil => rfl
  | cons b rest =>
      have opens : b = slash := by
        unfold commentLength at comment
        split at comment
        · rename_i x y tail same
          cases same
          by_cases opens : b = slash
          · exact opens
          · simp [opens] at comment
        · exact absurd rfl comment
      subst opens
      simp [Source.literalLength, comment, show isQuote slash = false from by decide]

namespace Walk

/-- Blanks and comments, once `skip` bytes of a comment are passed over, end on the walk that goes
on after these bytes. -/
theorem triviaFrom : ∀ (t before : Text) (skip : Nat),
    Walk ((⟨before, t⟩ : Cursor).advance skip)
      ((⟨before, t⟩ : Cursor).advance (Source.triviaFrom skip t))
  | [], before, skip => by
      rw [advance_of_nil rfl, advance_of_nil rfl]
      exact .here _
  | b :: rest, before, skip + 1 => by
      rw [Source.triviaFrom, advance_cons, advance_cons]
      exact triviaFrom rest (b :: before) skip
  | b :: rest, before, 0 => by
      rw [Source.triviaFrom]
      split
      · rename_i blank
        have plain : (⟨before, b :: rest⟩ : Cursor).literalLength = 0 :=
          Source.literalLength_eq_zero (by simpa using opensLiteral_of_isSpace blank)
        rw [advance_cons]
        exact (byte plain).trans (triviaFrom rest (b :: before) 0)
      · split
        · exact .here _
        · rename_i n comment
          have length_eq : (⟨before, b :: rest⟩ : Cursor).literalLength = n + 1 := by
            have nonzero : commentLength (b :: rest) ≠ 0 := by omega
            exact (literalLength_of_comment nonzero).trans comment
          have first := literal ⟨before, b :: rest⟩
          rw [length_eq, advance_cons] at first
          rw [advance_cons]
          exact first.trans (triviaFrom rest (b :: before) n)

theorem skipTrivia (c : Cursor) : Walk c c.skipTrivia := triviaFrom c.after c.before 0

end Walk

end Cursor

/-! ## Brackets -/

/-- What the search for a closing bracket finds: a place on the walk, outside literals, with the
closing bracket in front. -/
theorem closeFrom_walk {kind : Bracket} : ∀ (t before : Text) (skip depth n : Nat),
    closeFrom kind before skip depth t = some n →
      ∃ e, Cursor.Walk ((⟨before, t⟩ : Cursor).advance skip) e ∧ e.offset = n ∧
        e.literalLength = 0 ∧ e.peek? = some kind.closing
  | [], before, skip, depth, n, found => by simp [closeFrom] at found
  | b :: rest, before, skip + 1, depth, n, found => by
      unfold closeFrom at found
      rw [Cursor.advance_cons]
      exact closeFrom_walk rest (b :: before) skip depth n found
  | b :: rest, before, 0, depth, n, found => by
      unfold closeFrom at found
      dsimp only at found
      have walk := Cursor.Walk.literal ⟨before, b :: rest⟩
      split at found
      · rename_i k literal
        rw [show (⟨before, b :: rest⟩ : Cursor).literalLength = k + 1 from literal,
          Cursor.advance_cons] at walk
        obtain ⟨e, rest_walk, facts⟩ := closeFrom_walk rest (b :: before) k depth n found
        exact ⟨e, walk.trans rest_walk, facts⟩
      · rename_i plain
        have step : Cursor.Walk ⟨before, b :: rest⟩ ⟨b :: before, rest⟩ := Cursor.Walk.byte plain
        -- every branch but the last bracket goes on behind the byte in front
        have onward : ∀ depth', closeFrom kind (b :: before) 0 depth' rest = some n →
            ∃ e, Cursor.Walk ⟨before, b :: rest⟩ e ∧ e.offset = n ∧
              e.literalLength = 0 ∧ e.peek? = some kind.closing := by
          intro depth' found'
          obtain ⟨e, rest_walk, facts⟩ := closeFrom_walk rest (b :: before) 0 depth' n found'
          exact ⟨e, step.trans rest_walk, facts⟩
        split at found
        · exact onward _ found
        · split at found
          · rename_i closes
            split at found
            · refine ⟨⟨before, b :: rest⟩, .here _, Option.some.inj found, plain, ?_⟩
              rw [closes]
              rfl
            · exact onward _ found
          · exact onward _ found

namespace Cursor

/-- The scope at a place: its span starts here, its close lies further on and inside the text, and
the walk comes by the place behind it. -/
theorem scope_walk {c : Cursor} {span : Span} (closed : c.scope = .ok span) :
    span.start = c.offset ∧ c.offset < span.stop ∧ span.stop < c.text.length ∧
      Walk c (c.advance span.length) := by
  unfold scope closeOf? at closed
  cases opened : c.expect? Bracket.brace.opening with
  | none => simp [opened] at closed
  | some inside =>
      simp only [opened, Option.bind_eq_bind, Option.bind_some] at closed
      split at closed
      · rename_i stop found
        cases closed
        obtain ⟨e, walk, rfl, plain, front⟩ := closeFrom_walk _ _ _ _ _ found
        have entered : Walk c inside := Walk.expect? opened (by decide)
        obtain ⟨opens, rfl⟩ := expect?_eq_some_iff.mp opened
        have reached : Walk c e := entered.trans walk
        have past : Walk c (e.advance 1) := reached.trans (Walk.byte plain)
        have lt : c.offset < e.offset := by
          have := walk.offset_le
          rw [advance_zero, offset_advance_one opens] at this
          omega
        refine ⟨rfl, lt, ?_, ?_⟩
        · rw [← reached.text_eq]
          exact offset_lt_of_peek? front
        · have goes := past.advance_sub
          rw [offset_advance_one front] at goes
          rw [Span.length, goes]
          exact past
      · cases closed

theorem offset_behind_scope {c : Cursor} {span : Span} (closed : c.scope = .ok span) :
    (c.advance span.length).offset = span.stop + 1 := by
  obtain ⟨start_eq, lt, inside, -⟩ := scope_walk closed
  have := c.offset_add_length
  rw [offset_advance, Span.length]
  omega

end Cursor

end ClassUpgrade.Source
