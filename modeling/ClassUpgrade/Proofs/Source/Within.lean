/-
# Proofs.Source.Within — a bracketed text is read alike in all surroundings

A text between brackets is scanned in place, and it is scanned again by itself
once it is cut out. `Cursor.within` puts a place of a text into surroundings.
Between brackets (`Bracketed`) the surroundings do not matter: a slash is judged
by what stands before it, and an opening bracket speaks for an expression like
the front of a text does; a literal that ends before the closing bracket has
found its end in what stands before that bracket.

One reading depends on what follows, a slash that is a division for want of a
closing slash. So a text may be cut out of its surroundings as it is, but may
be moved into others only when every slash that the walk stands at starts a
comment (`SlashesComment`).

* `literalLength_within`: one literal;
* `Walk.moved`, `Closes.moved`: the walk, and the search for a closing bracket.
-/
import ClassUpgrade.Proofs.Source.Bracket

namespace ClassUpgrade.Source

set_option autoImplicit false

open Byte Cursor

/-- A bracket that closes a scope or a group. -/
def isCloser (b : UInt8) : Bool := b == closeBrace || b == closeParen

/-- Nothing, or a text that opens with a closing bracket. -/
def OpensClosing (t : Text) : Prop := ∀ b ∈ t.head?, isCloser b = true

theorem opensClosing_nil : OpensClosing [] := by simp [OpensClosing]

/-! ## What a closing bracket is not -/

theorem ne_of_isCloser {b c : UInt8} (closer : isCloser b = true)
    (other : isCloser c = false) : b ≠ c := by
  rintro rfl
  rw [closer] at other
  cases other

theorem opensLiteral_of_isCloser {b : UInt8} (closer : isCloser b = true) :
    opensLiteral b = false := by
  simp only [isCloser, Bool.or_eq_true, beq_iff_eq] at closer
  rcases closer with rfl | rfl <;> decide

theorem isWordPart_of_isCloser {b : UInt8} (closer : isCloser b = true) :
    isWordPart b = false := by
  simp only [isCloser, Bool.or_eq_true, beq_iff_eq] at closer
  rcases closer with rfl | rfl <;> decide

theorem isCloser_of_isQuote {b : UInt8} (quote : isQuote b = true) : isCloser b = false := by
  simp only [isQuote, Bool.or_eq_true, beq_iff_eq] at quote
  rcases quote with (rfl | rfl) | rfl <;> decide

/-! ## Behind a literal

`x` is a text in front of a closing bracket, `y` the bracket and what follows it, and `z` what
follows in other surroundings. -/

section Behind

variable {b : UInt8} {post z : Text}

theorem quotedTail_behind {quote : UInt8} (isQuote : isQuote quote = true)
    (closer : isCloser b = true) : ∀ (x : Text) (escaped : Bool),
      quotedTail quote escaped (x ++ b :: post) ≤ x.length →
        quotedTail quote escaped (x ++ z) = quotedTail quote escaped (x ++ b :: post)
  | [], true, within => by simp [quotedTail] at within
  | [], false, within => by
      have noEscape : b ≠ backslash := ne_of_isCloser closer (by decide)
      have noQuote : b ≠ quote := ne_of_isCloser closer (isCloser_of_isQuote isQuote)
      have noLine : b ≠ lineFeed := ne_of_isCloser closer (by decide)
      simp [quotedTail, noEscape, noQuote, noLine] at within
  | a :: x, true, within => by
      simp only [List.cons_append, quotedTail, List.length_cons] at within ⊢
      rw [quotedTail_behind isQuote closer x false (by omega)]
  | a :: x, false, within => by
      simp only [List.cons_append, quotedTail, List.length_cons] at within ⊢
      split
      · rename_i escapes
        rw [if_pos escapes] at within
        rw [quotedTail_behind isQuote closer x true (by omega)]
      · rename_i noEscape
        rw [if_neg noEscape] at within
        split
        · rfl
        · rename_i noQuote
          rw [if_neg noQuote] at within
          split
          · rfl
          · rename_i noLine
            rw [if_neg noLine] at within
            rw [quotedTail_behind isQuote closer x false (by omega)]

theorem line_behind (closer : isCloser b = true) : ∀ x : Text,
    (Text.line (x ++ b :: post)).length ≤ x.length → Text.line (x ++ z) = Text.line (x ++ b :: post)
  | [], within => by
      have noLine : b ≠ lineFeed := ne_of_isCloser closer (by decide)
      simp [Text.line, noLine] at within
  | a :: x, within => by
      have ih := line_behind closer x
      by_cases ends : a = lineFeed
      · simp [Text.line, ends]
      · simp only [Text.line, List.cons_append, bne_iff_ne, ne_eq, ends, not_false_eq_true,
          List.takeWhile_cons_of_pos, List.length_cons, Nat.add_le_add_iff_right] at within ⊢
        exact congrArg (a :: ·) (ih within)

theorem blockTail_behind (closer : isCloser b = true) : ∀ x : Text,
    blockTail (x ++ b :: post) ≤ x.length → blockTail (x ++ z) = blockTail (x ++ b :: post)
  | [], within => by
      have noStar : b ≠ star := ne_of_isCloser closer (by decide)
      simp [blockTail, noStar] at within
  | [a], within => by
      have noSlash : b ≠ slash := ne_of_isCloser closer (by decide)
      have noStar : b ≠ star := ne_of_isCloser closer (by decide)
      simp [blockTail, noSlash, noStar] at within
  | a :: a' :: x, within => by
      by_cases closes : a = star ∧ a' = slash
      · simp [blockTail, closes]
      · have step : ∀ t, blockTail (a :: a' :: t) = blockTail (a' :: t) + 1 := by
          intro t
          rw [blockTail, if_neg (by simpa using closes)]
        have ih := blockTail_behind closer (a' :: x)
        simp only [List.cons_append, step, List.length_cons] at within ih ⊢
        rw [ih (by omega)]

/-- The second byte of a comment mark closes no bracket. -/
theorem commentLength_cons_eq_zero {t : Text} (opens : OpensClosing t) (a : UInt8) :
    commentLength (a :: t) = 0 := by
  cases t with
  | nil => rfl
  | cons c t =>
      have closes : isCloser c = true := opens c (by simp)
      have noSlash : c ≠ slash := ne_of_isCloser closes (by decide)
      have noStar : c ≠ star := ne_of_isCloser closes (by decide)
      simp [commentLength, noSlash, noStar]

/-- Nor does the first. -/
theorem commentLength_eq_zero {t : Text} (opens : OpensClosing t) : commentLength t = 0 := by
  cases t with
  | nil => rfl
  | cons c t =>
      have noSlash : c ≠ slash := ne_of_isCloser (opens c (by simp)) (by decide)
      cases t <;> simp [commentLength, noSlash]

theorem commentLength_behind (closer : isCloser b = true) (behind : OpensClosing z) (x : Text)
    (within : commentLength (x ++ b :: post) ≤ x.length) :
    commentLength (x ++ z) = commentLength (x ++ b :: post) := by
  have here : OpensClosing (b :: post) := by simpa [OpensClosing] using closer
  match x, within with
  | [], _ =>
      rw [List.nil_append, List.nil_append, commentLength_eq_zero behind, commentLength_eq_zero here]
  | [a], _ =>
      rw [List.singleton_append, List.singleton_append, commentLength_cons_eq_zero behind,
        commentLength_cons_eq_zero here]
  | a :: a' :: x, within =>
      simp only [List.cons_append, commentLength, List.length_cons] at within ⊢
      split
      · rename_i line
        rw [if_pos line] at within
        have same : Text.line (x ++ z) = Text.line (x ++ b :: post) :=
          line_behind closer x (by omega)
        rw [same]
      · rename_i noLine
        rw [if_neg noLine] at within
        split
        · rename_i block
          rw [if_pos block] at within
          have same : blockTail (x ++ z) = blockTail (x ++ b :: post) :=
            blockTail_behind closer x (by omega)
          rw [same]
        · rfl

theorem takeWhile_append_of_stop {kind : UInt8 → Bool} {t : Text}
    (stop : ∀ b ∈ t.head?, kind b = false) (x : Text) :
    (x ++ t).takeWhile kind = x.takeWhile kind := by
  have none : t.takeWhile kind = [] := by
    cases t with
    | nil => rfl
    | cons c t => simp [stop c (by simp)]
  rw [List.takeWhile_append]
  split
  · rename_i whole
    rw [none, List.append_nil, (List.takeWhile_prefix kind).eq_of_length whole]
  · rfl

theorem takeWhile_isWordPart_append (x : Text) {t : Text} (opens : OpensClosing t) :
    (x ++ t).takeWhile isWordPart = x.takeWhile isWordPart :=
  takeWhile_append_of_stop (fun b mem => isWordPart_of_isCloser (opens b mem)) x

/-- What one byte does to the search for the end of a regular expression: the search goes on, or it
has found the closing slash, or the line ends. Only a backslash escapes the next byte. -/
theorem regexTail_cons (escaped inClass : Bool) (a : UInt8) :
    (∃ escaped' inClass', (escaped' = true → a = backslash) ∧
        ∀ t, regexTail escaped inClass (a :: t) = (regexTail escaped' inClass' t).map (· + 1)) ∨
      (∀ t, regexTail escaped inClass (a :: t) = some ((t.takeWhile isWordPart).length + 1)) ∨
      ∀ t, regexTail escaped inClass (a :: t) = none := by
  cases escaped with
  | true => exact .inl ⟨false, inClass, by simp, fun _ => rfl⟩
  | false =>
      by_cases escapes : a = backslash
      · exact .inl ⟨true, inClass, fun _ => escapes, fun t => by simp [regexTail, escapes]⟩
      by_cases opens : a = openBracket
      · exact .inl ⟨false, true, by simp, fun t => by rw [regexTail, if_neg escapes, if_pos opens]⟩
      by_cases closes : a = closeBracket
      · exact .inl ⟨false, false, by simp, fun t => by
          rw [regexTail, if_neg escapes, if_neg opens, if_pos closes]⟩
      by_cases ends : a = slash ∧ inClass = false
      · exact .inr (.inl fun t => by
          rw [regexTail, if_neg escapes, if_neg opens, if_neg closes, if_pos ends])
      by_cases line : a = lineFeed ∨ a = carriageReturn
      · exact .inr (.inr fun t => by simp [regexTail, escapes, opens, closes, ends, line])
      · exact .inl ⟨false, inClass, by simp, fun t => by simp [regexTail, escapes, opens, closes, ends, line]⟩

theorem regexTail_le_length : ∀ (t : Text) (escaped inClass : Bool) (n : Nat),
    regexTail escaped inClass t = some n → n ≤ t.length
  | [], escaped, inClass, n, found => by cases escaped <;> cases found
  | a :: t, escaped, inClass, n, found => by
      rw [List.length_cons]
      obtain ⟨escaped', inClass', -, step⟩ | ends | fails := regexTail_cons escaped inClass a
      · rw [step] at found
        obtain ⟨m, found', rfl⟩ := Option.map_eq_some_iff.mp found
        have := regexTail_le_length t escaped' inClass' m found'
        omega
      · rw [ends] at found
        obtain rfl := Option.some.inj found
        have := (List.takeWhile_prefix isWordPart (l := t)).length_le
        omega
      · rw [fails] at found
        cases found

/-- A regular expression has a closing slash. -/
theorem regexTail_ne_zero (escaped inClass : Bool) (t : Text) :
    regexTail escaped inClass t ≠ some 0 := by
  cases t with
  | nil => cases escaped <;> simp [regexTail]
  | cons a t =>
      obtain ⟨escaped', inClass', -, step⟩ | ends | fails := regexTail_cons escaped inClass a
      · simp [step]
      · simp [ends]
      · simp [fails]

/-- A regular expression that ends in front of a closing bracket, or in front of the end of the
text, has its end in any surroundings. -/
theorem regexTail_behind {y : Text} (closes : OpensClosing y) (behind : OpensClosing z) :
    ∀ (x : Text) (escaped inClass : Bool) (n : Nat),
      regexTail escaped inClass (x ++ y) = some n → n ≤ x.length →
        regexTail escaped inClass (x ++ z) = some n
  | [], escaped, inClass, n, found, within => by
      obtain rfl := Nat.le_zero.mp within
      exact absurd found (regexTail_ne_zero escaped inClass y)
  | a :: x, escaped, inClass, n, found, within => by
      simp only [List.cons_append, List.length_cons] at found within ⊢
      obtain ⟨escaped', inClass', -, step⟩ | ends | fails := regexTail_cons escaped inClass a
      · rw [step] at found ⊢
        obtain ⟨m, found', rfl⟩ := Option.map_eq_some_iff.mp found
        rw [regexTail_behind closes behind x escaped' inClass' m found' (by omega)]
        rfl
      · rw [ends, takeWhile_isWordPart_append x behind]
        rwa [ends, takeWhile_isWordPart_append x closes] at found
      · rw [fails] at found
        cases found

/-- A text is cut off in front of a closing bracket without a slash becoming a regular expression,
and without one ceasing to be one that ends before. -/
theorem regexLength_cut (closer : isCloser b = true) (a : UInt8) (x : Text)
    (within : regexLength (a :: (x ++ b :: post)) ≤ x.length + 1) :
    regexLength (a :: x) = regexLength (a :: (x ++ b :: post)) := by
  have opens : OpensClosing (b :: post) := by simpa [OpensClosing] using closer
  simp only [regexLength] at within ⊢
  cases found : regexTail false false (x ++ b :: post) with
  | some n =>
      simp only [found] at within
      have kept := regexTail_behind opens opensClosing_nil x false false n found (by omega)
      rw [List.append_nil] at kept
      rw [kept]
  | none =>
      cases found' : regexTail false false x with
      | none => rfl
      | some n =>
          have le := regexTail_le_length x false false n found'
          rw [← List.append_nil x] at found'
          rw [regexTail_behind opensClosing_nil opens x false false n found' le] at found
          cases found

/-- A literal that ends in front of a closing bracket does not depend on what follows, unless it is
for a slash that starts no comment. -/
theorem literalLength_behind (closer : isCloser b = true) (behind : OpensClosing z)
    (before : Text) (a : UInt8) (x : Text)
    (within : literalLength before (a :: (x ++ b :: post)) ≤ x.length + 1)
    (cut : z = [] ∨ (a = slash → commentLength (a :: (x ++ b :: post)) ≠ 0)) :
    literalLength before (a :: (x ++ z)) = literalLength before (a :: (x ++ b :: post)) := by
  simp only [literalLength] at within ⊢
  split
  · rename_i quote
    rw [if_pos quote, quotedLength] at within
    have same : quotedTail a false (x ++ z) = quotedTail a false (x ++ b :: post) :=
      quotedTail_behind quote closer x false (by omega)
    rw [quotedLength, quotedLength, same]
  · rename_i noQuote
    rw [if_neg noQuote] at within
    split
    · rename_i front
      rw [if_pos front] at within
      have comment : commentLength (a :: (x ++ z)) = commentLength (a :: (x ++ b :: post)) := by
        refine commentLength_behind closer behind (a :: x) ?_
        rw [List.cons_append, List.length_cons]
        split at within <;> omega
      rw [comment]
      split
      · rfl
      · rename_i noComment
        rw [if_neg noComment] at within
        obtain rfl : z = [] := cut.resolve_right fun comments => noComment (comments front)
        split
        · rename_i allowed
          rw [if_pos allowed] at within
          rw [List.append_nil]
          exact regexLength_cut closer a x within
        · rfl
    · rfl

end Behind

/-! ## In front of a slash -/

/-- Nothing, or a text, read backwards, that ends with an operator. -/
def EndsOperator (before : Text) : Prop := ∀ b ∈ before.head?, b ∈ expressionOperators

theorem endsOperator_nil : EndsOperator [] := by simp [EndsOperator]

theorem plain_of_operator {b : UInt8} (operator : b ∈ expressionOperators) :
    isSpace b = false ∧ isWordPart b = false ∧ opensLiteral b = false := by
  have plain : expressionOperators.all (fun b => !isSpace b && !isWordPart b && !opensLiteral b) =
      true := by decide
  simpa [and_assoc] using List.all_eq_true.mp plain b operator

/-- An operator speaks for an expression, as the front of a text does. -/
theorem regexAllowed_append {before : Text} (ends : EndsOperator before) (near : Text) :
    regexAllowed (near ++ before) = regexAllowed near := by
  unfold regexAllowed
  cases trimmed : near.dropWhile isSpace with
  | nil =>
      have dropped : (near ++ before).dropWhile isSpace = before.dropWhile isSpace := by
        rw [List.dropWhile_append, trimmed]
        rfl
      rw [dropped]
      cases before with
      | nil => rfl
      | cons b rest =>
          have operator : b ∈ expressionOperators := ends b (by simp)
          simp [plain_of_operator operator, operator]
  | cons b rest =>
      have dropped : (near ++ before).dropWhile isSpace = b :: (rest ++ before) := by
        rw [List.dropWhile_append, trimmed]
        rfl
      have name : (b :: (rest ++ before)).takeWhile isWordPart = (b :: rest).takeWhile isWordPart :=
        takeWhile_append_of_stop (fun a mem => (plain_of_operator (ends a mem)).2.1) (b :: rest)
      rw [dropped]
      dsimp only
      rw [name]

/-! ## Places in surroundings -/

namespace Cursor

/-- The place of a text, seen where this text fills a gap. -/
def within (c gap : Cursor) : Cursor := ⟨c.before ++ gap.before, c.after ++ gap.after⟩

/-- A gap between brackets: nothing or an operator before it, nothing or a closing bracket
behind it. -/
structure Bracketed (gap : Cursor) : Prop where
  before : EndsOperator gap.before
  after : OpensClosing gap.after

theorem bracketed_start : Bracketed (start []) := ⟨endsOperator_nil, opensClosing_nil⟩

@[simp] theorem within_start (c : Cursor) : c.within (start []) = c := by
  simp [within, start]

@[simp] theorem offset_within (c gap : Cursor) : (c.within gap).offset = c.offset + gap.offset := by
  simp [within, offset]

theorem after_within (c gap : Cursor) : (c.within gap).after = c.after ++ gap.after := rfl

theorem advance_within {c : Cursor} {n : Nat} (inside : n ≤ c.after.length) (gap : Cursor) :
    (c.within gap).advance n = (c.advance n).within gap := by
  simp [within, advance, List.take_append_of_le_length inside,
    List.drop_append_of_le_length inside]

theorem peek?_within {c : Cursor} (more : c.after ≠ []) (gap : Cursor) :
    (c.within gap).peek? = c.peek? := by
  obtain ⟨b, rest, after_eq⟩ := List.exists_cons_of_ne_nil more
  simp [within, peek?, after_eq]

/-- Every slash that the walk from a place stands at starts a comment. -/
def SlashesComment (c : Cursor) : Prop :=
  ∀ d, Walk c d → d.peek? = some slash → commentLength d.after ≠ 0

end Cursor

/-- **A literal that ends between the brackets is one in all surroundings.** -/
theorem literalLength_within {c gap gap' : Cursor} (here : gap.Bracketed) (there : gap'.Bracketed)
    (closed : gap.after ≠ []) (inside : (c.within gap).literalLength ≤ c.after.length)
    (cut : gap'.after = [] ∨ (c.peek? = some slash → commentLength (c.within gap).after ≠ 0)) :
    (c.within gap').literalLength = (c.within gap).literalLength := by
  obtain ⟨near, after⟩ := c
  obtain ⟨b, post, after_eq⟩ := List.exists_cons_of_ne_nil closed
  have closer : isCloser b = true := here.after b (by simp [after_eq])
  simp only [Cursor.literalLength, within, after_eq] at inside cut ⊢
  cases after with
  | nil =>
      have plain : ∀ before t, OpensClosing t → Source.literalLength before t = 0 := fun _ _ opens =>
        Source.literalLength_eq_zero fun x mem => opensLiteral_of_isCloser (opens x mem)
      rw [List.nil_append, List.nil_append, plain _ _ there.after,
        plain _ _ (by simpa [OpensClosing] using closer)]
  | cons a x =>
      have allowed : ∀ t, Source.literalLength (near ++ gap'.before) t =
          Source.literalLength (near ++ gap.before) t := by
        intro t
        cases t with
        | nil => rfl
        | cons a t =>
            simp only [Source.literalLength, regexAllowed_append here.before,
              regexAllowed_append there.before]
      rw [allowed]
      exact literalLength_behind closer there.after _ a x inside (by simpa [peek?] using cut)

/-! ## Walks in surroundings -/

section Moved

variable {gap gap' : Cursor}

/-- A move that stays in front of the closing bracket stays inside the text. -/
theorem le_of_advance_within {c : Cursor} {n : Nat} (closed : gap.after ≠ [])
    (inside : ((c.within gap).advance n).offset ≤ gap.offset + c.text.length) :
    n ≤ c.after.length := by
  have := List.length_pos_iff.mpr closed
  have := c.offset_add_length
  rw [offset_advance, offset_within, after_within, List.length_append] at inside
  omega

/-- Where no slash follows, every slash starts a comment. -/
theorem Cursor.SlashesComment.of_free {c : Cursor} (free : slash ∉ c.after) : SlashesComment c := by
  intro d walk front
  obtain ⟨rest, after_eq⟩ := peek?_eq_some_iff.mp front
  have mem : slash ∈ c.after := by
    apply List.mem_of_mem_drop (i := d.offset - c.offset)
    rw [← after_advance, walk.advance_sub, after_eq]
    exact List.mem_cons_self
  exact absurd mem free

/-- The token in front, and what follows it. -/
theorem Cursor.SlashesComment.token {c : Cursor}
    (first : c.peek? = some slash → commentLength c.after ≠ 0) (rest : SlashesComment c.pastToken) :
    SlashesComment c := by
  intro d walk
  rcases walk.eq_or_pastToken with rfl | later
  · exact first
  · exact rest d later

theorem Cursor.SlashesComment.of_walk {c d : Cursor} (comments : SlashesComment c) (walk : Walk c d) :
    SlashesComment d := fun e later => comments e (walk.trans later)

/-- Past one token, in both surroundings. -/
theorem advance_moved {c : Cursor} {n : Nat} (here : gap.Bracketed) (there : gap'.Bracketed)
    (closed : gap.after ≠ []) (cut : gap'.after = [] ∨ SlashesComment (c.within gap))
    (token : (c.within gap).literalLength ≤ n) (pos : 0 < n)
    (inside : ((c.within gap).advance n).offset ≤ gap.offset + c.text.length) :
    (c.within gap).advance n = (c.advance n).within gap ∧
      (c.within gap').advance n = (c.advance n).within gap' ∧
      (c.within gap').literalLength = (c.within gap).literalLength ∧
      c.after ≠ [] := by
  have le := le_of_advance_within closed inside
  have more : c.after ≠ [] := by
    intro done
    rw [done, List.length_nil] at le
    omega
  refine ⟨advance_within le gap, advance_within le gap', ?_, more⟩
  refine literalLength_within here there closed (by omega) (cut.imp_right fun comments front => ?_)
  exact comments _ (.here _) ((peek?_within more gap).trans front)

/-- **The walk between brackets is the same in all surroundings.** -/
theorem Cursor.Walk.moved (here : gap.Bracketed) (there : gap'.Bracketed) (closed : gap.after ≠ [])
    {p d : Cursor} (walk : Walk p d) : ∀ c : Cursor, p = c.within gap →
      d.offset ≤ gap.offset + c.text.length →
      (gap'.after = [] ∨ SlashesComment (c.within gap)) →
        ∃ e : Cursor, d = e.within gap ∧ e.text = c.text ∧ Walk (c.within gap') (e.within gap') := by
  induction walk with
  | here p =>
      rintro c rfl - -
      exact ⟨c, rfl, rfl, .here _⟩
  | @token p d more rest ih =>
      rintro c rfl inside cut
      have onward : Walk (c.within gap) (c.within gap).pastToken := .token more (.here _)
      obtain ⟨past, past', same, left⟩ := advance_moved here there closed cut (Nat.le_max_left _ 1)
        (by omega) (Nat.le_trans rest.offset_le inside)
      obtain ⟨e, d_eq, text_eq, walk⟩ := ih _ past (by rwa [text_advance])
        (cut.imp_right fun comments => past ▸ SlashesComment.of_walk comments onward)
      refine ⟨e, d_eq, text_eq.trans (text_advance _ _), .token ?_ ?_⟩
      · simp [after_within, left]
      · rw [pastToken, same, past']
        exact walk

/-- **The search for a closing bracket between brackets is the same in all surroundings**, up to
the bracket that closes them. -/
theorem Closes.moved {kind : Bracket} (here : gap.Bracketed) (there : gap'.Bracketed)
    (closed : gap.after ≠ []) {depth : Nat} {p d : Cursor} (closes : Closes kind depth p d) :
    ∀ c : Cursor, p = c.within gap →
      (d.offset < gap.offset + c.text.length ∨
        d.offset = gap.offset + c.text.length ∧ gap'.after.head? = gap.after.head?) →
      (gap'.after = [] ∨ SlashesComment (c.within gap)) →
        ∃ e : Cursor, d = e.within gap ∧ e.text = c.text ∧
          Closes kind depth (c.within gap') (e.within gap') := by
  induction closes with
  | @here p plain front =>
      rintro c rfl inside cut
      refine ⟨c, rfl, rfl, .here ?_ ?_⟩
      · rw [← plain]
        refine literalLength_within here there closed (by omega)
          (cut.imp_right fun comments slashed => comments _ (.here _) ?_)
        rw [peek?_within (ne_nil_of_peek? slashed), slashed]
      · by_cases done : c.after = []
        · have at_end := c.offset_add_length
          rw [done, List.length_nil] at at_end
          have same : gap'.after.head? = gap.after.head? := by
            rw [offset_within] at inside
            exact (inside.resolve_left (by omega)).2
          simpa [peek?, within, done, same] using front
        · rwa [peek?_within done, ← peek?_within done gap]
  | @literal depth p d starts rest ih =>
      rintro c rfl inside cut
      have le : d.offset ≤ gap.offset + c.text.length := by omega
      obtain ⟨past, past', same, more⟩ := advance_moved here there closed cut (Nat.le_refl _)
        (by omega) (Nat.le_trans rest.walk.offset_le le)
      obtain ⟨e, d_eq, text_eq, closes⟩ := ih _ past (by rwa [text_advance])
        (cut.imp_right fun comments => past ▸ SlashesComment.of_walk comments (.literal _))
      refine ⟨e, d_eq, text_eq.trans (text_advance _ _), .literal (by omega) ?_⟩
      rw [same, past']
      exact closes
  | @opening depth p d plain front rest ih =>
      rintro c rfl inside cut
      have le : d.offset ≤ gap.offset + c.text.length := by omega
      obtain ⟨past, past', same, more⟩ := advance_moved here there closed cut (n := 1) (by omega)
        (by omega) (Nat.le_trans rest.walk.offset_le le)
      obtain ⟨e, d_eq, text_eq, closes⟩ := ih _ past (by rwa [text_advance])
        (cut.imp_right fun comments => past ▸ SlashesComment.of_walk comments (.byte plain))
      rw [← past'] at closes
      exact ⟨e, d_eq, text_eq.trans (text_advance _ _), .opening (by omega)
        (by rwa [peek?_within more, ← peek?_within more gap]) closes⟩
  | @closing depth p d plain front rest ih =>
      rintro c rfl inside cut
      have le : d.offset ≤ gap.offset + c.text.length := by omega
      obtain ⟨past, past', same, more⟩ := advance_moved here there closed cut (n := 1) (by omega)
        (by omega) (Nat.le_trans rest.walk.offset_le le)
      obtain ⟨e, d_eq, text_eq, closes⟩ := ih _ past (by rwa [text_advance])
        (cut.imp_right fun comments => past ▸ SlashesComment.of_walk comments (.byte plain))
      rw [← past'] at closes
      exact ⟨e, d_eq, text_eq.trans (text_advance _ _), .closing (by omega)
        (by rwa [peek?_within more, ← peek?_within more gap]) closes⟩
  | @byte depth p d plain _ noOpening noClosing rest ih =>
      rintro c rfl inside cut
      have le : d.offset ≤ gap.offset + c.text.length := by omega
      obtain ⟨past, past', same, more⟩ := advance_moved here there closed cut (n := 1) (by omega)
        (by omega) (Nat.le_trans rest.walk.offset_le le)
      obtain ⟨e, d_eq, text_eq, closes⟩ := ih _ past (by rwa [text_advance])
        (cut.imp_right fun comments => past ▸ SlashesComment.of_walk comments (.byte plain))
      rw [← past'] at closes
      rw [peek?_within more, ← peek?_within more gap'] at noOpening noClosing
      exact ⟨e, d_eq, text_eq.trans (text_advance _ _),
        .byte (by omega) (by simp [after_within, more]) noOpening noClosing closes⟩

end Moved

end ClassUpgrade.Source
