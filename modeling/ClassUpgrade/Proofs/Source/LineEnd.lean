/-
# Proofs.Source.LineEnd — scopes under the two line-end conventions

One script may be checked out with a line feed at every line end, or with a
carriage return before each of them. `Text.crlf` goes from the first to the
second, `Text.crlfOffset` says where each byte comes to stand, and
`Cursor.crlf` moves a place along.

The scanners read both alike but for one thing: a backslash takes one byte
along. Before a line feed it continues a string, or a regular expression, on
the next line; before a carriage return it does not, since the line feed is
still to come. `Cursor.SpansLine` are the places where such a literal starts,
and exactly there a literal comes out too short (`literalLength_crlf`). A search
that does not come by one of them finds the same bracket under both conventions
(`closes_crlf`), and so does the search for the end of a scope
(`scopeEnd_crlf`).
-/
import ClassUpgrade.Proofs.Source.Balance
import ClassUpgrade.Proofs.Source.Within

namespace ClassUpgrade

set_option autoImplicit false

open Byte

namespace Text

/-! ## Line ends -/

/-- A byte, with a carriage return before it when it is a line feed. -/
def crlfByte (b : UInt8) : Text := if b = lineFeed then [carriageReturn, lineFeed] else [b]

/-- The text with a carriage return before every line feed. -/
def crlf (t : Text) : Text := t.flatMap crlfByte

/-- Where the byte at an offset of a text stands once the line ends are changed. An offset in front
of the text stays, and one behind it stays behind it. -/
def crlfOffset (t : Text) (i : Int) : Int := i + (t.take (i + 1).toNat).count lineFeed

theorem crlfByte_of_ne {b : UInt8} (inked : b ≠ lineFeed) : crlfByte b = [b] := if_neg inked

@[simp] theorem crlf_lineFeed (t : Text) :
    crlf (lineFeed :: t) = carriageReturn :: lineFeed :: crlf t := rfl

theorem crlf_cons {b : UInt8} (inked : b ≠ lineFeed) (t : Text) : crlf (b :: t) = b :: crlf t := by
  simp [crlf, crlfByte_of_ne inked]

theorem crlf_append (s t : Text) : crlf (s ++ t) = crlf s ++ crlf t := List.flatMap_append

theorem crlf_of_free : ∀ {t : Text}, lineFeed ∉ t → crlf t = t
  | [], _ => rfl
  | b :: t, free => by
      simp only [List.mem_cons, not_or] at free
      rw [crlf_cons (Ne.symm free.1), crlf_of_free free.2]

theorem length_crlf : ∀ t : Text, (crlf t).length = t.length + t.count lineFeed
  | [] => rfl
  | b :: t => by
      have ih := length_crlf t
      by_cases ends : b = lineFeed
      · simp only [ends, crlf_lineFeed, List.length_cons, List.count_cons_self, ih]
        omega
      · rw [crlf_cons ends, List.length_cons, List.length_cons, List.count_cons_of_ne ends, ih]
        omega

theorem length_le_length_crlf (t : Text) : t.length ≤ (crlf t).length := by
  rw [length_crlf]
  omega

theorem take_crlf (t : Text) (n : Nat) :
    (crlf t).take (crlf (t.take n)).length = crlf (t.take n) := by
  conv => lhs; rw [← List.take_append_drop n t, crlf_append]
  simp

theorem drop_crlf (t : Text) (n : Nat) :
    (crlf t).drop (crlf (t.take n)).length = crlf (t.drop n) := by
  conv => lhs; rw [← List.take_append_drop n t, crlf_append]
  simp

/-- Every byte is found at its new offset, and no other. -/
theorem getElem?_crlf : ∀ (t : Text) (n : Nat),
    (crlf t)[n + (t.take (n + 1)).count lineFeed]? = t[n]?
  | [], _ => rfl
  | b :: t, n => by
      by_cases ends : b = lineFeed
      · subst ends
        cases n with
        | zero => simp
        | succ n =>
            have ih := getElem?_crlf t n
            rw [List.take_succ_cons, List.count_cons_self, crlf_lineFeed, List.getElem?_cons_succ,
              show n + 1 + ((t.take (n + 1)).count lineFeed + 1) =
                n + (t.take (n + 1)).count lineFeed + 1 + 1 from by omega]
            simpa using ih
      · rw [List.take_succ_cons, List.count_cons_of_ne ends, crlf_cons ends]
        cases n with
        | zero => simp
        | succ n =>
            have ih := getElem?_crlf t n
            rw [show n + 1 + (t.take (n + 1)).count lineFeed =
              n + (t.take (n + 1)).count lineFeed + 1 from by omega]
            simpa using ih

end Text

namespace Source

open Cursor Text

/-! ## Places -/

/-- The same place once the line ends are changed, in front of both bytes of a line end. -/
def Cursor.crlf (c : Cursor) : Cursor := ⟨(Text.crlf c.before.reverse).reverse, Text.crlf c.after⟩

/-- Two lengths that lead to one place of a text, before and after its line ends are changed, or the
second one byte further, between the two bytes of a line end. -/
def Abreast (t : Text) (n n' : Nat) : Prop :=
  n' = (Text.crlf (t.take n)).length ∨
    n' = (Text.crlf (t.take n)).length + 1 ∧ (t.drop n).head? = some lineFeed

namespace Cursor

theorem text_crlf (c : Cursor) : c.crlf.text = Text.crlf c.text := by
  simp [crlf, text, crlf_append]

theorem offset_crlf (c : Cursor) : c.crlf.offset = (Text.crlf c.before.reverse).length := by
  simp [crlf, offset]

theorem advance_crlf (c : Cursor) (n : Nat) :
    c.crlf.advance (Text.crlf (c.after.take n)).length = (c.advance n).crlf := by
  simp only [crlf, advance, take_crlf, drop_crlf, List.reverse_append, List.reverse_reverse,
    crlf_append]

/-- A line end is two bytes long. -/
theorem advance_crlf_lineFeed {c : Cursor} (front : c.peek? = some lineFeed) :
    (c.crlf.advance 1).advance 1 = (c.advance 1).crlf := by
  obtain ⟨rest, after_eq⟩ := peek?_eq_some_iff.mp front
  rw [advance_advance, ← advance_crlf, after_eq]
  rfl

theorem advance_crlf_one {c : Cursor} {b : UInt8} (front : c.peek? = some b)
    (inked : b ≠ lineFeed) : c.crlf.advance 1 = (c.advance 1).crlf := by
  obtain ⟨rest, after_eq⟩ := peek?_eq_some_iff.mp front
  rw [← advance_crlf, after_eq, List.take_succ_cons, crlf_cons inked]
  rfl

theorem peek?_crlf {c : Cursor} {b : UInt8} (front : c.peek? = some b) (inked : b ≠ lineFeed) :
    c.crlf.peek? = some b := by
  obtain ⟨rest, after_eq⟩ := peek?_eq_some_iff.mp front
  simp [crlf, peek?, after_eq, crlf_cons inked]

theorem peek?_crlf_lineFeed {c : Cursor} (front : c.peek? = some lineFeed) :
    c.crlf.peek? = some carriageReturn ∧ (c.crlf.advance 1).peek? = some lineFeed := by
  obtain ⟨rest, after_eq⟩ := peek?_eq_some_iff.mp front
  simp [crlf, advance, peek?, after_eq]

end Cursor

/-! ## Literals -/

theorem Abreast.cons {b : UInt8} (inked : b ≠ lineFeed) {t : Text} {n n' : Nat}
    (abreast : Abreast t n n') : Abreast (b :: t) (n + 1) (n' + 1) := by
  simp only [Abreast, List.take_succ_cons, crlf_cons inked, List.length_cons, List.drop_succ_cons]
  exact abreast.imp (congrArg (· + 1)) fun past => ⟨congrArg (· + 1) past.1, past.2⟩

theorem abreast_length (t : Text) (n : Nat) : Abreast t n (Text.crlf (t.take n)).length := .inl rfl

theorem abreast_zero (t : Text) : Abreast t 0 0 := .inl rfl

/-- What one byte that is no line feed does to the search for the closing quote: the search goes on,
or it has found the quote. -/
theorem quotedTail_cons (quote : UInt8) (escaped : Bool) {a : UInt8} (inked : a ≠ lineFeed) :
    (∃ escaped', (escaped' = true → a = backslash) ∧
        ∀ t, quotedTail quote escaped (a :: t) = quotedTail quote escaped' t + 1) ∨
      ∀ t, quotedTail quote escaped (a :: t) = 1 := by
  cases escaped with
  | true => exact .inl ⟨false, by simp, fun _ => rfl⟩
  | false =>
      by_cases escapes : a = backslash
      · exact .inl ⟨true, fun _ => escapes, fun t => by rw [quotedTail, if_pos escapes]⟩
      by_cases ends : a = quote
      · exact .inr fun t => by rw [quotedTail, if_neg escapes, if_pos ends]
      · exact .inl ⟨false, by simp, fun t => by simp [quotedTail, escapes, ends, inked]⟩

section Quoted

variable {quote : UInt8} (opens : isQuote quote = true)

include opens in
theorem lineEnd_ne_quote : lineFeed ≠ quote ∧ carriageReturn ≠ quote := by
  simp only [isQuote, Bool.or_eq_true, beq_iff_eq] at opens
  rcases opens with (rfl | rfl) | rfl <;> decide

include opens in
theorem quotedTail_carriageReturn (t : Text) :
    quotedTail quote false (carriageReturn :: t) = quotedTail quote false t + 1 := by
  rw [quotedTail, if_neg (by decide), if_neg (lineEnd_ne_quote opens).2,
    if_neg fun line => absurd line.1 (by decide)]

include opens in
theorem quotedTail_lineFeed (t : Text) :
    quotedTail quote false (lineFeed :: t) =
      if quote = backtick then quotedTail quote false t + 1 else 0 := by
  rw [quotedTail, if_neg (by decide), if_neg (lineEnd_ne_quote opens).1]
  by_cases template : quote = backtick
  · rw [if_neg fun line => line.2 template, if_pos template]
  · rw [if_pos ⟨rfl, template⟩, if_neg template]

end Quoted

/-- A template runs over line ends of either kind, escaped or not. -/
theorem quotedTail_crlf_template : ∀ (t : Text) (escaped : Bool),
    quotedTail backtick escaped (Text.crlf t) =
      (Text.crlf (t.take (quotedTail backtick escaped t))).length
  | [], escaped => by cases escaped <;> rfl
  | b :: t, escaped => by
      have ih := quotedTail_crlf_template t
      have opens : isQuote backtick = true := by decide
      by_cases line : b = lineFeed
      · subst line
        have goes :
            quotedTail backtick escaped (lineFeed :: t) = quotedTail backtick false t + 1 := by
          cases escaped with
          | true => rfl
          | false => rw [quotedTail_lineFeed opens, if_pos rfl]
        have goes' : quotedTail backtick escaped (Text.crlf (lineFeed :: t)) =
            quotedTail backtick false (Text.crlf t) + 2 := by
          rw [crlf_lineFeed]
          cases escaped with
          | true => rw [quotedTail, quotedTail_lineFeed opens, if_pos rfl]
          | false =>
              rw [quotedTail_carriageReturn opens, quotedTail_lineFeed opens, if_pos rfl]
        rw [goes, goes', ih, List.take_succ_cons, crlf_lineFeed]
        rfl
      · rw [crlf_cons line]
        obtain ⟨escaped', -, step⟩ | ends := quotedTail_cons backtick escaped line
        · rw [step, step, ih, List.take_succ_cons, crlf_cons line, List.length_cons]
        · rw [ends, ends, List.take_succ_cons, crlf_cons line]
          rfl

/-- A string that stays on its line meets its end under both conventions. One that continues behind
an escaped line feed is cut off at it. -/
theorem quotedTail_crlf {quote : UInt8} (opens : isQuote quote = true) (string : quote ≠ backtick) :
    ∀ (t : Text) (escaped : Bool),
      (lineFeed ∉ t.take (quotedTail quote escaped t) →
        Abreast t (quotedTail quote escaped t) (quotedTail quote escaped (Text.crlf t))) ∧
      (lineFeed ∈ t.take (quotedTail quote escaped t) →
        quotedTail quote escaped (Text.crlf t) <
          (Text.crlf (t.take (quotedTail quote escaped t))).length)
  | [], escaped => by
      have none_left : quotedTail quote escaped [] = 0 := by cases escaped <;> rfl
      simp [none_left, abreast_zero, Text.crlf_of_free List.not_mem_nil]
  | b :: t, escaped => by
      by_cases line : b = lineFeed
      · subst line
        have stops : ∀ u, quotedTail quote false (lineFeed :: u) = 0 := by
          intro u
          rw [quotedTail_lineFeed opens, if_neg string]
        rw [crlf_lineFeed]
        cases escaped with
        | true =>
            have cut : quotedTail quote true (carriageReturn :: lineFeed :: Text.crlf t) = 1 :=
              congrArg (· + 1) (stops _)
            have within : ∀ u,
                quotedTail quote true (lineFeed :: u) = quotedTail quote false u + 1 := fun _ => rfl
            rw [cut, within]
            simp
        | false =>
            rw [stops, quotedTail_carriageReturn opens, stops]
            exact ⟨fun _ => .inr ⟨rfl, rfl⟩, fun within => by simp at within⟩
      · rw [crlf_cons line]
        obtain ⟨escaped', -, step⟩ | ends := quotedTail_cons quote escaped line
        · have ih := quotedTail_crlf opens string t escaped'
          rw [step, step, List.take_succ_cons, crlf_cons line, List.length_cons]
          simp only [List.mem_cons, Ne.symm line, false_or]
          exact ⟨fun free => (ih.1 free).cons line, fun within => by have := ih.2 within; omega⟩
        · rw [ends, ends]
          refine ⟨fun _ => (abreast_zero t).cons line, fun within => ?_⟩
          simp [Ne.symm line] at within

theorem line_crlf : ∀ t : Text, Abreast t (line t).length (line (Text.crlf t)).length
  | [] => abreast_zero []
  | b :: t => by
      by_cases ends : b = lineFeed
      · subst ends
        exact .inr ⟨rfl, rfl⟩
      · have grows : ∀ u, (line (b :: u)).length = (line u).length + 1 := by
          intro u
          simp [line, ends]
        rw [crlf_cons ends, grows, grows]
        exact (line_crlf t).cons ends

theorem head?_crlf_eq_some_iff {b : UInt8} (inked : b ≠ lineFeed) (noReturn : b ≠ carriageReturn)
    (t : Text) : (Text.crlf t).head? = some b ↔ t.head? = some b := by
  cases t with
  | nil => rfl
  | cons a t =>
      by_cases ends : a = lineFeed
      · simp [ends, Ne.symm inked, Ne.symm noReturn]
      · simp [crlf_cons ends]

theorem blockTail_crlf : ∀ t : Text,
    blockTail (Text.crlf t) = (Text.crlf (t.take (blockTail t))).length
  | [] => rfl
  | b :: t => by
      have ih := blockTail_crlf t
      by_cases ends : b = lineFeed
      · subst ends
        have passed : ∀ {a : UInt8} (u : Text), a ≠ star → blockTail (a :: u) = blockTail u + 1 :=
          fun u other => by rw [blockTail, if_neg fun closes => other closes.1]
        rw [crlf_lineFeed, passed _ (by decide), passed _ (by decide), passed _ (by decide), ih,
          List.take_succ_cons, crlf_lineFeed]
        rfl
      · rw [crlf_cons ends]
        simp only [blockTail, head?_crlf_eq_some_iff (b := slash) (by decide) (by decide)]
        split
        · rename_i closes
          obtain ⟨u, rfl⟩ := List.head?_eq_some_iff.mp closes.2
          simp [crlf_cons ends, crlf_cons (b := slash) (by decide), crlf_of_free List.not_mem_nil]
        · rw [ih, List.take_succ_cons, crlf_cons ends, List.length_cons]

theorem commentLength_ne_zero_iff {t : Text} :
    commentLength t ≠ 0 ↔ ∃ u, t = slash :: slash :: u ∨ t = slash :: star :: u := by
  constructor
  · intro comment
    unfold commentLength at comment
    split at comment
    · rename_i b c u
      split at comment
      · rename_i line
        exact ⟨u, .inl (by rw [line.1, line.2])⟩
      · split at comment
        · rename_i block
          exact ⟨u, .inr (by rw [block.1, block.2])⟩
        · exact absurd rfl comment
    · exact absurd rfl comment
  · rintro ⟨u, rfl | rfl⟩ <;> simp [commentLength, show star ≠ slash from by decide]

theorem crlf_eq_cons_iff {b : UInt8} (inked : b ≠ lineFeed) (noReturn : b ≠ carriageReturn)
    {t u : Text} : Text.crlf t = b :: u ↔ ∃ v, t = b :: v ∧ Text.crlf v = u := by
  constructor
  · intro opens
    have front := (head?_crlf_eq_some_iff inked noReturn t).mp (by rw [opens]; rfl)
    obtain ⟨v, rfl⟩ := List.head?_eq_some_iff.mp front
    rw [crlf_cons inked] at opens
    exact ⟨v, rfl, List.cons_inj_right b |>.mp opens⟩
  · rintro ⟨v, rfl, rfl⟩
    exact crlf_cons inked v

/-- A comment is one under both conventions. -/
theorem commentLength_crlf_ne_zero_iff {t : Text} :
    commentLength (Text.crlf t) ≠ 0 ↔ commentLength t ≠ 0 := by
  have slash_inked : slash ≠ lineFeed ∧ slash ≠ carriageReturn := by decide
  have star_inked : star ≠ lineFeed ∧ star ≠ carriageReturn := by decide
  simp only [commentLength_ne_zero_iff, crlf_eq_cons_iff slash_inked.1 slash_inked.2,
    crlf_eq_cons_iff star_inked.1 star_inked.2]
  constructor
  · rintro ⟨u, ⟨v, rfl, w, rfl, -⟩ | ⟨v, rfl, w, rfl, -⟩⟩
    · exact ⟨w, .inl rfl⟩
    · exact ⟨w, .inr rfl⟩
  · rintro ⟨u, rfl | rfl⟩
    · exact ⟨_, .inl ⟨_, rfl, u, rfl, rfl⟩⟩
    · exact ⟨_, .inr ⟨_, rfl, u, rfl, rfl⟩⟩

theorem commentLength_crlf {t : Text} (comment : commentLength t ≠ 0) :
    Abreast t (commentLength t) (commentLength (Text.crlf t)) := by
  have slash_inked : slash ≠ lineFeed := by decide
  have star_inked : star ≠ lineFeed := by decide
  obtain ⟨u, rfl | rfl⟩ := commentLength_ne_zero_iff.mp comment
  · rw [crlf_cons slash_inked, crlf_cons slash_inked]
    exact ((line_crlf u).cons slash_inked).cons slash_inked
  · have block : ∀ v, commentLength (slash :: star :: v) = blockTail v + 2 := fun _ => rfl
    rw [crlf_cons slash_inked, crlf_cons star_inked, block, block, blockTail_crlf]
    exact ((abreast_length u _).cons star_inked).cons slash_inked

/-! ## Regular expressions -/

/-- A text read backwards, with the line ends changed. -/
theorem reverse_crlf_reverse (t : Text) :
    (Text.crlf t.reverse).reverse = t.flatMap fun b => (crlfByte b).reverse := by
  rw [Text.crlf, List.reverse_flatMap, List.reverse_reverse]
  rfl

theorem dropWhile_isSpace_crlf : ∀ t : Text,
    (t.flatMap fun b => (crlfByte b).reverse).dropWhile isSpace =
      (t.dropWhile isSpace).flatMap fun b => (crlfByte b).reverse
  | [] => rfl
  | b :: t => by
      have ih := dropWhile_isSpace_crlf t
      have blanks : isSpace lineFeed = true ∧ isSpace carriageReturn = true := by decide
      by_cases ends : b = lineFeed
      · subst ends
        simpa [crlfByte, blanks] using ih
      · cases blank : isSpace b <;> simp [crlfByte_of_ne ends, blank, ih]

theorem takeWhile_isWordPart_crlf_reverse : ∀ t : Text,
    (t.flatMap fun b => (crlfByte b).reverse).takeWhile isWordPart = t.takeWhile isWordPart
  | [] => rfl
  | b :: t => by
      have ih := takeWhile_isWordPart_crlf_reverse t
      have blank : isWordPart lineFeed = false := by decide
      by_cases ends : b = lineFeed
      · simp [ends, crlfByte, blank]
      · cases part : isWordPart b <;> simp [crlfByte_of_ne ends, part, ih]

/-- Looking back over line ends, a slash finds the same operator or word. -/
theorem regexAllowed_crlf (before : Text) :
    regexAllowed (Text.crlf before.reverse).reverse = regexAllowed before := by
  rw [reverse_crlf_reverse, regexAllowed, regexAllowed, dropWhile_isSpace_crlf]
  cases trimmed : before.dropWhile isSpace with
  | nil => rfl
  | cons b rest =>
      have inked : b ≠ lineFeed := by
        rintro rfl
        have := List.head?_dropWhile_not isSpace before
        rw [trimmed] at this
        cases show isSpace lineFeed = false from this
      have front : (b :: rest).flatMap (fun b => (crlfByte b).reverse) =
          b :: rest.flatMap fun b => (crlfByte b).reverse := by
        simp [crlfByte_of_ne inked]
      have word := takeWhile_isWordPart_crlf_reverse (b :: rest)
      rw [front] at word ⊢
      dsimp only
      rw [word]

theorem takeWhile_isWordPart_crlf : ∀ t : Text,
    (Text.crlf t).takeWhile isWordPart = t.takeWhile isWordPart
  | [] => rfl
  | b :: t => by
      have ih := takeWhile_isWordPart_crlf t
      have blanks : isWordPart lineFeed = false ∧ isWordPart carriageReturn = false := by decide
      by_cases ends : b = lineFeed
      · simp [ends, blanks]
      · rw [crlf_cons ends]
        cases part : isWordPart b <;> simp [part, ih]

theorem regexTail_lineEnd {a : UInt8} (inClass : Bool) (t : Text)
    (line : a = lineFeed ∨ a = carriageReturn) : regexTail false inClass (a :: t) = none := by
  rcases line with rfl | rfl
  all_goals rw [regexTail, if_neg (by decide), if_neg (by decide), if_neg (by decide),
    if_neg fun closes => absurd closes.1 (by decide), if_pos (by decide)]

/-- The closing slash and the flags stand on one line. -/
theorem not_mem_take_flags {b : UInt8} (inked : b ≠ lineFeed) (t : Text) :
    lineFeed ∉ (b :: t).take ((t.takeWhile isWordPart).length + 1) := by
  rw [List.take_succ_cons, List.mem_cons, or_iff_right (Ne.symm inked),
    ← List.prefix_iff_eq_take.mp (List.takeWhile_prefix isWordPart)]
  intro mem
  exact absurd (List.all_eq_true.mp List.all_takeWhile _ mem) (by decide)

/-- A regular expression has its end where it had it when it stays on its line, and none when it
does not. -/
theorem regexTail_crlf : ∀ (t : Text) (escaped inClass : Bool),
    regexTail escaped inClass (Text.crlf t) = (regexTail escaped inClass t).bind fun n =>
      if lineFeed ∈ t.take n then none else some n
  | [], escaped, inClass => by cases escaped <;> rfl
  | b :: t, escaped, inClass => by
      have ih := regexTail_crlf t
      by_cases ends : b = lineFeed
      · subst ends
        rw [crlf_lineFeed]
        cases escaped with
        | true =>
            rw [regexTail, regexTail_lineEnd _ _ (.inl rfl), regexTail]
            cases regexTail false inClass t <;> simp
        | false =>
            rw [regexTail_lineEnd _ _ (.inr rfl), regexTail_lineEnd _ _ (.inl rfl)]
            rfl
      · rw [crlf_cons ends]
        obtain ⟨escaped', inClass', -, step⟩ | closes | fails := regexTail_cons escaped inClass b
        · rw [step, step, ih]
          cases regexTail escaped' inClass' t with
          | none => rfl
          | some n =>
              have same : lineFeed ∈ (b :: t).take (n + 1) ↔ lineFeed ∈ t.take n := by
                rw [List.take_succ_cons, List.mem_cons, or_iff_right (Ne.symm ends)]
              simp only [Option.map_some, Option.bind_some, same]
              split <;> rfl
        · rw [closes, closes, takeWhile_isWordPart_crlf, Option.bind_some,
            if_neg (not_mem_take_flags ends t)]
        · rw [fails, fails]
          rfl

/-! ## Escaped line ends -/

/-- A backslash stands in front of a line feed somewhere in the text. -/
def EscapesLine (t : Text) : Prop := [backslash, lineFeed] <:+: t

instance (t : Text) : Decidable (EscapesLine t) := inferInstanceAs (Decidable (_ <:+: _))

/-- An escaped byte is a line feed, or the text escapes one: what one byte adds to it. -/
theorem escapesLine_cons {escaped : Bool} {a : UInt8} {t : Text}
    (slashed : escaped = true → a = backslash)
    (found : escaped = true ∧ t.head? = some lineFeed ∨ EscapesLine t) : EscapesLine (a :: t) := by
  rcases found with ⟨escapes, front⟩ | later
  · obtain ⟨u, rfl⟩ := List.head?_eq_some_iff.mp front
    rw [slashed escapes]
    exact ⟨[], u, rfl⟩
  · exact List.infix_cons later

theorem quotedTail_escapes {quote : UInt8} (opens : isQuote quote = true)
    (string : quote ≠ backtick) : ∀ (t : Text) (escaped : Bool),
      lineFeed ∈ t.take (quotedTail quote escaped t) →
        escaped = true ∧ t.head? = some lineFeed ∨ EscapesLine t
  | [], escaped, within => by cases escaped <;> cases within
  | b :: t, escaped, within => by
      by_cases line : b = lineFeed
      · subst line
        cases escaped with
        | true => exact .inl ⟨rfl, rfl⟩
        | false =>
            rw [quotedTail_lineFeed opens, if_neg string] at within
            cases within
      · obtain ⟨escaped', slashed, step⟩ | ends := quotedTail_cons quote escaped line
        · rw [step, List.take_succ_cons, List.mem_cons, or_iff_right (Ne.symm line)] at within
          exact .inr (escapesLine_cons slashed (quotedTail_escapes opens string t escaped' within))
        · rw [ends] at within
          simp [Ne.symm line] at within

theorem regexTail_escapes : ∀ (t : Text) (escaped inClass : Bool) (n : Nat),
    regexTail escaped inClass t = some n → lineFeed ∈ t.take n →
      escaped = true ∧ t.head? = some lineFeed ∨ EscapesLine t
  | [], escaped, inClass, n, found, within => by simp at within
  | b :: t, escaped, inClass, n, found, within => by
      by_cases line : b = lineFeed
      · subst line
        cases escaped with
        | true => exact .inl ⟨rfl, rfl⟩
        | false =>
            rw [regexTail_lineEnd _ _ (.inl rfl)] at found
            cases found
      · obtain ⟨escaped', inClass', slashed, step⟩ | closes | fails :=
          regexTail_cons escaped inClass b
        · rw [step] at found
          obtain ⟨m, found', rfl⟩ := Option.map_eq_some_iff.mp found
          rw [List.take_succ_cons, List.mem_cons, or_iff_right (Ne.symm line)] at within
          exact .inr (escapesLine_cons slashed
            (regexTail_escapes t escaped' inClass' m found' within))
        · rw [closes] at found
          obtain rfl := Option.some.inj found
          exact absurd within (not_mem_take_flags line t)
        · rw [fails] at found
          cases found

/-! ## Literals that span lines -/

theorem literalLength_quote {quote : UInt8} (opens : isQuote quote = true) (before rest : Text) :
    literalLength before (quote :: rest) = quotedTail quote false rest + 1 := if_pos opens

theorem literalLength_slash {rest : Text} (noComment : commentLength (slash :: rest) = 0)
    (before : Text) : literalLength before (slash :: rest) =
      if regexAllowed before then regexLength (slash :: rest) else 0 := by
  simp [literalLength, noComment, show isQuote slash = false from by decide]

namespace Cursor

/-- A string or a regular expression that goes on behind a line end starts here. Only a backslash
in front of the line end makes one do so. -/
def SpansLine (c : Cursor) : Prop :=
  lineFeed ∈ c.after.take c.literalLength ∧ c.peek? ≠ some backtick ∧ commentLength c.after = 0

instance (c : Cursor) : Decidable c.SpansLine := inferInstanceAs (Decidable (_ ∧ _ ∧ _))

theorem SpansLine.starts {c : Cursor} (spans : c.SpansLine) : c.literalLength ≠ 0 := by
  intro plain
  have within := spans.1
  rw [plain] at within
  cases within

theorem literalLength_crlf_of_plain {c : Cursor} (front : c.peek? = some lineFeed) :
    c.crlf.literalLength = 0 ∧ (c.crlf.advance 1).literalLength = 0 :=
  ⟨literalLength_eq_zero_of_peek? (peek?_crlf_lineFeed front).1 (by decide),
    literalLength_eq_zero_of_peek? (peek?_crlf_lineFeed front).2 (by decide)⟩

/-- What becomes of a literal: it meets its end again, unless it spans lines. -/
def KeepsEnd (c : Cursor) : Prop :=
  (¬ c.SpansLine → Abreast c.after c.literalLength c.crlf.literalLength) ∧
    (c.SpansLine → c.crlf.literalLength < (Text.crlf (c.after.take c.literalLength)).length)

theorem keepsEnd_of_plain {c : Cursor} (plain : c.literalLength = 0)
    (plain' : c.crlf.literalLength = 0) : c.KeepsEnd := by
  refine ⟨fun _ => ?_, fun spans => absurd plain spans.starts⟩
  rw [plain, plain']
  exact abreast_zero _

theorem keepsEnd_quoted {quote : UInt8} (opens : isQuote quote = true) (before rest : Text) :
    KeepsEnd ⟨before, quote :: rest⟩ := by
  have inked : quote ≠ lineFeed := (lineEnd_ne_quote opens).1.symm
  have length_eq : ∀ near t, (⟨near, quote :: t⟩ : Cursor).literalLength =
      quotedTail quote false t + 1 := literalLength_quote opens
  have moved : (⟨before, quote :: rest⟩ : Cursor).crlf.literalLength =
      quotedTail quote false (Text.crlf rest) + 1 := by
    rw [crlf, crlf_cons inked, length_eq]
  have grows : ∀ n, (Text.crlf ((quote :: rest).take (n + 1))).length =
      (Text.crlf (rest.take n)).length + 1 := by
    intro n
    rw [List.take_succ_cons, crlf_cons inked, List.length_cons]
  rw [KeepsEnd, SpansLine, moved, length_eq, grows]
  by_cases template : quote = backtick
  · subst template
    rw [quotedTail_crlf_template]
    exact ⟨fun _ => (abreast_length rest _).cons inked, fun spans => absurd rfl spans.2.1⟩
  · have noComment : commentLength (quote :: rest) = 0 := by
      have noSlash : quote ≠ slash := by
        rintro rfl
        cases opens
      cases rest <;> simp [commentLength, noSlash]
    have spans_iff : lineFeed ∈ (quote :: rest).take (quotedTail quote false rest + 1) ↔
        lineFeed ∈ rest.take (quotedTail quote false rest) := by
      rw [List.take_succ_cons, List.mem_cons, or_iff_right (Ne.symm inked)]
    have string : (⟨before, quote :: rest⟩ : Cursor).peek? ≠ some backtick := by
      simpa [peek?] using template
    obtain ⟨stays, cut⟩ := quotedTail_crlf opens template rest false
    simp only [spans_iff, noComment, string, ne_eq, not_false_eq_true, and_true]
    exact ⟨fun free => (stays free).cons inked, fun within => Nat.add_lt_add_right (cut within) 1⟩

theorem keepsEnd_comment {c : Cursor} (comment : commentLength c.after ≠ 0) : c.KeepsEnd := by
  have length_eq : c.literalLength = commentLength c.after := literalLength_of_comment comment
  have length_eq' : c.crlf.literalLength = commentLength (Text.crlf c.after) :=
    literalLength_of_comment (commentLength_crlf_ne_zero_iff.mpr comment)
  refine ⟨fun _ => ?_, fun spans => absurd spans.2.2 comment⟩
  rw [length_eq, length_eq']
  exact commentLength_crlf comment

theorem keepsEnd_slash {before rest : Text} (noComment : commentLength (slash :: rest) = 0) :
    KeepsEnd ⟨before, slash :: rest⟩ := by
  have inked : slash ≠ lineFeed := by decide
  have noComment' : commentLength (slash :: Text.crlf rest) = 0 := by
    rw [← crlf_cons inked]
    exact Decidable.not_not.mp fun comment => commentLength_crlf_ne_zero_iff.mp comment noComment
  by_cases allowed : regexAllowed before = true
  · have length_eq : (⟨before, slash :: rest⟩ : Cursor).literalLength =
        regexLength (slash :: rest) :=
      (literalLength_slash noComment before).trans (if_pos allowed)
    have length_eq' : (⟨before, slash :: rest⟩ : Cursor).crlf.literalLength =
        regexLength (slash :: Text.crlf rest) := by
      rw [crlf, crlf_cons inked, Cursor.literalLength, literalLength_slash noComment',
        regexAllowed_crlf, if_pos allowed]
    have expression : (⟨before, slash :: rest⟩ : Cursor).peek? ≠ some backtick := by
      simp [peek?, show slash ≠ backtick from by decide]
    rw [KeepsEnd, SpansLine, length_eq, length_eq', regexLength, regexLength, regexTail_crlf]
    cases found : regexTail false false rest with
    | none => exact ⟨fun _ => abreast_zero _, fun spans => by simp at spans⟩
    | some n =>
        have spans_iff : lineFeed ∈ (slash :: rest).take (n + 1) ↔ lineFeed ∈ rest.take n := by
          rw [List.take_succ_cons, List.mem_cons, or_iff_right (by decide)]
        simp only [Option.bind_some, spans_iff, noComment, expression, ne_eq, not_false_eq_true,
          and_true]
        by_cases within : lineFeed ∈ rest.take n
        · rw [if_pos within]
          refine ⟨fun free => absurd within free, fun _ => ?_⟩
          simp [List.take_succ_cons, crlf_cons inked]
        · rw [if_neg within]
          refine ⟨fun _ => .inl ?_, fun spans => absurd spans within⟩
          have whole : n ≤ rest.length := regexTail_le_length rest false false n found
          rw [List.take_succ_cons, crlf_cons inked, crlf_of_free within, List.length_cons,
            List.length_take, Nat.min_eq_left whole]
  · apply keepsEnd_of_plain
    · exact (literalLength_slash noComment before).trans (if_neg allowed)
    · rw [crlf, crlf_cons inked, Cursor.literalLength, literalLength_slash noComment',
        regexAllowed_crlf, if_neg allowed]

/-- A string or a regular expression goes on behind a line feed only when a backslash stands in front
of that. -/
theorem SpansLine.escapes {c : Cursor} (spans : c.SpansLine) : EscapesLine c.after := by
  obtain ⟨before, after⟩ := c
  cases after with
  | nil => exact absurd rfl spans.starts
  | cons b rest =>
      have opens : opensLiteral b = true := by
        apply Decidable.byContradiction
        intro plain
        exact spans.starts (literalLength_eq_zero_of_peek? rfl (Bool.eq_false_iff.mpr plain))
      obtain ⟨within, noTemplate, noComment⟩ := spans
      simp only [Cursor.literalLength, peek?, List.head?_cons] at within noTemplate noComment
      suffices behind : EscapesLine rest from List.infix_cons behind
      by_cases quote : isQuote b = true
      · have inked : lineFeed ≠ b := (lineEnd_ne_quote quote).1
        have string : b ≠ backtick := by simpa using noTemplate
        rw [literalLength_quote quote, List.take_succ_cons, List.mem_cons, or_iff_right inked]
          at within
        simpa using quotedTail_escapes quote string rest false within
      · obtain rfl : b = slash := by simpa [opensLiteral, quote] using opens
        rw [literalLength_slash noComment] at within
        cases found : regexTail false false rest with
        | none => simp [regexLength, found] at within
        | some n =>
            have length_eq : regexLength (slash :: rest) = n + 1 := by simp [regexLength, found]
            have inside : lineFeed ∈ rest.take n := by
              split at within
              · rwa [length_eq, List.take_succ_cons, List.mem_cons, or_iff_right (by decide)]
                  at within
              · cases within
            simpa using regexTail_escapes rest false false n found inside

/-- **A literal ends at the same place under both conventions, unless it spans lines**: then it comes
out too short. -/
theorem literalLength_crlf (c : Cursor) : c.KeepsEnd := by
  obtain ⟨before, after⟩ := c
  cases after with
  | nil => exact keepsEnd_of_plain rfl rfl
  | cons b rest =>
      by_cases quote : isQuote b = true
      · exact keepsEnd_quoted quote before rest
      by_cases comment : commentLength (b :: rest) = 0
      · by_cases slashed : b = slash
        · subst slashed
          exact keepsEnd_slash comment
        · have plain : opensLiteral b = false := by simp [opensLiteral, quote, slashed]
          apply keepsEnd_of_plain (literalLength_eq_zero_of_peek? rfl plain)
          by_cases ends : b = lineFeed
          · subst ends
            exact literalLength_eq_zero_of_peek? (b := carriageReturn) rfl (by decide)
          · exact literalLength_eq_zero_of_peek? (peek?_crlf rfl ends) plain
      · exact keepsEnd_comment comment

theorem literalLength_crlf_eq_zero {c : Cursor} (plain : c.literalLength = 0) :
    c.crlf.literalLength = 0 := by
  rcases (literalLength_crlf c).1 fun spans => spans.starts plain with meets | ⟨-, ends⟩
  · rwa [plain] at meets
  · rw [plain] at ends
    exact (literalLength_crlf_of_plain ends).1

theorem spansLine_iff (c : Cursor) : c.SpansLine ↔
    c.crlf.literalLength < (Text.crlf (c.after.take c.literalLength)).length := by
  obtain ⟨stays, cut⟩ := literalLength_crlf c
  refine ⟨cut, fun short => Decidable.byContradiction fun one_line => ?_⟩
  rcases stays one_line with meets | ⟨past, -⟩
  · omega
  · omega

end Cursor

/-! ## The search under both conventions -/

/-- A kind of bracket whose two bytes differ and are no blanks. -/
structure Bracket.Inked (kind : Bracket) : Prop where
  distinct : kind.closing ≠ kind.opening
  opening : isSpace kind.opening = false
  closing : isSpace kind.closing = false

section Search

variable {kind : Bracket} {depth : Nat} {c e : Cursor}

theorem Bracket.Inked.ne (inked : kind.Inked) {b : UInt8} (blank : isSpace b = true) :
    b ≠ kind.opening ∧ b ≠ kind.closing := by
  constructor
  · rintro rfl
    cases blank.symm.trans inked.opening
  · rintro rfl
    cases blank.symm.trans inked.closing

/-- Both bytes of a line end are passed over. -/
theorem closes_crlf_lineFeed (inked : kind.Inked) (front : c.peek? = some lineFeed) :
    (Closes kind depth c.crlf e ↔ Closes kind depth (c.advance 1).crlf e) ∧
      (Closes kind depth (c.crlf.advance 1) e ↔ Closes kind depth (c.advance 1).crlf e) := by
  have feed := inked.ne (b := lineFeed) (by decide)
  have back := inked.ne (b := carriageReturn) (by decide)
  obtain ⟨plain, plain'⟩ := literalLength_crlf_of_plain front
  obtain ⟨first, second⟩ := peek?_crlf_lineFeed front
  have second_step : Closes kind depth (c.crlf.advance 1) e ↔
      Closes kind depth (c.advance 1).crlf e := by
    rw [Closes.byte_iff plain' second feed.1 feed.2, advance_crlf_lineFeed front]
  exact ⟨(Closes.byte_iff plain first back.1 back.2).trans second_step, second_step⟩

/-- A literal that does not span lines is passed over under both conventions. -/
theorem closes_crlf_literal (inked : kind.Inked) (starts : c.literalLength ≠ 0)
    (stays : ¬ c.SpansLine) :
    Closes kind depth c.crlf e ↔ Closes kind depth (c.advance c.literalLength).crlf e := by
  have starts' : c.crlf.literalLength ≠ 0 := by
    intro plain'
    have more : c.after.take c.literalLength ≠ [] := by
      intro none_left
      rcases List.take_eq_nil_iff.mp none_left with plain | done
      · exact starts plain
      · exact starts (by rw [Cursor.literalLength, done]; rfl)
    have := List.length_pos_iff.mpr more
    have := length_le_length_crlf (c.after.take c.literalLength)
    have := (literalLength_crlf c).1 stays
    rw [Abreast, plain'] at this
    omega
  rw [Closes.literal_iff starts']
  rcases (literalLength_crlf c).1 stays with meets | ⟨past, ends⟩
  · rw [meets, advance_crlf]
  · rw [past, ← advance_advance, advance_crlf]
    have front : (c.advance c.literalLength).peek? = some lineFeed := ends
    obtain ⟨first, second⟩ := closes_crlf_lineFeed inked front
    exact second.trans first.symm

/-- **A search that comes by no literal that spans lines finds the same bracket under both
conventions, or none under both.** -/
theorem closes_crlf (inked : kind.Inked) (c : Cursor) (depth : Nat)
    (stays : ∀ d, Walk c d → (∀ e, Closes kind depth c e → d.offset < e.offset) → ¬ d.SpansLine)
    (e' : Cursor) :
    Closes kind depth c.crlf e' ↔ ∃ e, Closes kind depth c e ∧ e' = e.crlf := by
  by_cases done : c.after = []
  · have done' : c.crlf.after = [] := by rw [Cursor.crlf, done]; rfl
    exact iff_of_false (fun closes => closes.ne_nil done') fun ⟨_, closes, _⟩ => closes.ne_nil done
  -- past one token, with the brackets still to close, both searches go on
  have onward : ∀ n depth', 0 < n → Walk c (c.advance n) →
      (∀ e, Closes kind depth c e ↔ Closes kind depth' (c.advance n) e) →
      (Closes kind depth c.crlf e' ↔ Closes kind depth' (c.advance n).crlf e') →
        (Closes kind depth c.crlf e' ↔ ∃ e, Closes kind depth c e ∧ e' = e.crlf) := by
    intro n depth' pos walk step step'
    have shorter := length_after_lt pos done
    rw [step']
    simp only [step]
    exact closes_crlf inked (c.advance n) depth' (fun d later before =>
      stays d (walk.trans later) fun e closes => before e ((step e).mp closes)) e'
  by_cases starts : c.literalLength = 0
  · have byte : Walk c (c.advance 1) := .byte starts
    obtain ⟨b, front⟩ : ∃ b, c.peek? = some b := by
      obtain ⟨b, rest, after_eq⟩ := List.exists_cons_of_ne_nil done
      exact ⟨b, by rw [peek?, after_eq]; rfl⟩
    by_cases line : b = lineFeed
    · subst line
      have feed := inked.ne (b := lineFeed) (by decide)
      exact onward 1 depth (by omega) byte (fun e => Closes.byte_iff starts front feed.1 feed.2)
        (closes_crlf_lineFeed inked front).1
    have front' : c.crlf.peek? = some b := peek?_crlf front line
    have starts' : c.crlf.literalLength = 0 := literalLength_crlf_eq_zero starts
    have advances : c.crlf.advance 1 = (c.advance 1).crlf := advance_crlf_one front line
    by_cases opening : b = kind.opening
    · subst opening
      refine onward 1 (depth + 1) (by omega) byte
        (fun e => Closes.opening_iff inked.distinct starts front) ?_
      rw [Closes.opening_iff inked.distinct starts' front', advances]
    by_cases closing : b = kind.closing
    · subst closing
      cases depth with
      | zero =>
          rw [Closes.here_iff inked.distinct starts' front']
          simp [Closes.here_iff inked.distinct starts front]
      | succ depth =>
          refine onward 1 depth (by omega) byte
            (fun e => Closes.closing_iff inked.distinct starts front) ?_
          rw [Closes.closing_iff inked.distinct starts' front', advances]
    · refine onward 1 depth (by omega) byte
        (fun e => Closes.byte_iff starts front opening closing) ?_
      rw [Closes.byte_iff starts' front' opening closing, advances]
  · have step : ∀ e, Closes kind depth c e ↔ Closes kind depth (c.advance c.literalLength) e :=
      fun e => Closes.literal_iff starts
    refine onward _ depth (by omega) (.literal c) step (closes_crlf_literal inked starts ?_)
    refine stays c (.here c) fun e closes => ?_
    have later := ((step e).mp closes).walk.offset_le
    have := List.length_pos_iff.mpr done
    rw [offset_advance] at later
    omega
termination_by c.after.length

end Search

/-! ## Scopes -/

theorem inked_brace : Bracket.brace.Inked := ⟨by decide, by decide, by decide⟩

theorem crlfOffset_natCast (t : Text) (n : Nat) :
    crlfOffset t n = ((n + (t.take (n + 1)).count lineFeed : Nat) : Int) := by
  simp [crlfOffset, show ((n : Int) + 1).toNat = n + 1 from by omega]

/-- A byte other than a line feed stands at the place it stood at. -/
theorem offset_crlf_eq {c : Cursor} {b : UInt8} (front : c.peek? = some b) (inked : b ≠ lineFeed) :
    (c.crlf.offset : Int) = crlfOffset c.text c.offset := by
  obtain ⟨before, after⟩ := c
  obtain ⟨rest, rfl⟩ := peek?_eq_some_iff.mp front
  have taken :
      (Cursor.text ⟨before, b :: rest⟩).take (before.length + 1) = before.reverse ++ [b] := by
    rw [text, ← List.length_reverse, List.take_length_add_append]
    rfl
  rw [offset_crlf, length_crlf, crlfOffset_natCast, Cursor.offset, taken, List.count_append]
  simp [inked]

theorem scopeEnd_offset {c : Cursor} (front : c.peek? = some openBrace) (stop : Nat) :
    scopeEnd c.text c.offset = .ok stop ↔
      ∃ e, Closes .brace 0 (c.advance 1) e ∧ e.offset = stop := by
  rw [scopeEnd_eq_ok_iff, Int.toNat_natCast, ofOffset_offset, closeOf?_eq_some_iff (by decide)]
  exact ⟨fun found => found.2.2, fun closes => ⟨Int.natCast_nonneg _, front, closes⟩⟩

/-- No literal that spans lines starts on the walk from behind the brace at an offset to the close of
its scope, or to the end of the text when the scope has none. -/
def LinesApart (t : Text) (start : Int) : Prop :=
  ∀ d, Walk (ofOffset t (start.toNat + 1)) d →
    (∀ stop, scopeEnd t start = .ok stop → d.offset < stop) → ¬ d.SpansLine

theorem scopeEnd_crlf_of_front {c : Cursor} (front : c.peek? = some openBrace)
    (apart : LinesApart c.text c.offset) (stop' : Nat) :
    scopeEnd (Text.crlf c.text) (crlfOffset c.text c.offset) = .ok stop' ↔
      ∃ stop, scopeEnd c.text c.offset = .ok stop ∧ (stop' : Int) = crlfOffset c.text stop := by
  have front' : c.crlf.peek? = some openBrace := peek?_crlf front (by decide)
  have stays : ∀ d, Walk (c.advance 1) d →
      (∀ e, Closes .brace 0 (c.advance 1) e → d.offset < e.offset) → ¬ d.SpansLine := by
    intro d walk before
    rw [← ofOffset_offset c, advance_ofOffset] at walk
    refine apart d walk fun stop found => ?_
    obtain ⟨e, closes, rfl⟩ := (scopeEnd_offset front stop).mp found
    exact before e closes
  have offset_of : ∀ e, Closes .brace 0 (c.advance 1) e →
      (e.crlf.offset : Int) = crlfOffset c.text e.offset := by
    intro e closes
    rw [offset_crlf_eq closes.front.2 (by decide), closes.walk.text_eq, text_advance]
  rw [← offset_crlf_eq front (by decide), ← text_crlf, scopeEnd_offset front',
    advance_crlf_one front (by decide)]
  simp only [closes_crlf inked_brace _ 0 stays, scopeEnd_offset front]
  constructor
  · rintro ⟨_, ⟨e, closes, rfl⟩, rfl⟩
    exact ⟨_, ⟨e, closes, rfl⟩, offset_of e closes⟩
  · rintro ⟨_, ⟨e, closes, rfl⟩, same⟩
    refine ⟨_, ⟨e, closes, rfl⟩, ?_⟩
    have := offset_of e closes
    omega

/-- Every answer of the search is for a brace that opens at the offset. -/
theorem peek?_of_scopeEnd {t : Text} {start : Int} {stop : Nat}
    (found : scopeEnd t start = .ok stop) : 0 ≤ start ∧ t[start.toNat]? = some openBrace := by
  obtain ⟨nonneg, closes⟩ := (scopeEnd_eq_ok_iff t start stop).mp found
  rw [closeOf?_eq_some_iff (by decide), peek?_ofOffset] at closes
  exact ⟨nonneg, closes.1⟩

theorem scopeEnd_crlf_of_linesApart {t : Text} {start : Int} (apart : LinesApart t start)
    (stop' : Nat) :
    scopeEnd (Text.crlf t) (crlfOffset t start) = .ok stop' ↔
      ∃ stop, scopeEnd t start = .ok stop ∧ (stop' : Int) = crlfOffset t stop := by
  by_cases opens : 0 ≤ start ∧ t[start.toNat]? = some openBrace
  · obtain ⟨nonneg, front⟩ := opens
    obtain ⟨n, rfl⟩ := Int.eq_ofNat_of_zero_le nonneg
    rw [Int.toNat_natCast, ← peek?_ofOffset] at front
    have offset_eq : (ofOffset t n).offset = n := by
      have := offset_lt_of_peek? front
      rw [text_ofOffset, offset_ofOffset] at *
      omega
    have moved := scopeEnd_crlf_of_front front (by rwa [text_ofOffset, offset_eq]) stop'
    rwa [text_ofOffset, offset_eq] at moved
  · -- neither text has an opening brace there
    refine iff_of_false (fun found => opens ?_) fun ⟨_, found, _⟩ => opens (peek?_of_scopeEnd found)
    have front' := peek?_of_scopeEnd found
    by_cases nonneg : 0 ≤ start
    · obtain ⟨n, rfl⟩ := Int.eq_ofNat_of_zero_le nonneg
      rw [crlfOffset_natCast, Int.toNat_natCast, getElem?_crlf] at front'
      exact ⟨nonneg, front'.2⟩
    · rw [crlfOffset, show (start + 1).toNat = 0 from by omega] at front'
      exact absurd front'.1 (by simpa using nonneg)

/-- A text that escapes no line end has none of these literals. -/
theorem linesApart_of_unescaped {t : Text} (plain : ¬ EscapesLine t) (start : Int) :
    LinesApart t start := by
  intro d walk _ spans
  have inside : d.after <:+: t := by
    rw [← text_ofOffset t (start.toNat + 1), ← walk.text_eq]
    exact ⟨d.before.reverse, [], by simp [text]⟩
  exact plain (List.IsInfix.trans spans.escapes inside)

/-- **The end of a scope is found under both line-end conventions alike, as long as no literal spans
lines.** For every text and every integer offset: a literal that starts anywhere in the text comes out
too short in the changed text exactly when it is a string or a regular expression that goes on behind
a line feed. When none of these is in the way of the search, the search in the changed text answers
where the search in the text does, with the new offset of what that finds. None is in the way of any
search in a text without a backslash in front of a line feed. -/
theorem scopeEnd_crlf (t : Text) (start : Int) :
    (∀ c : Cursor, c.text = t →
      (c.SpansLine ↔
        c.crlf.literalLength < (Text.crlf (c.after.take c.literalLength)).length)) ∧
      (LinesApart t start → ∀ stop' : Nat,
        scopeEnd (Text.crlf t) (crlfOffset t start) = .ok stop' ↔
          ∃ stop, scopeEnd t start = .ok stop ∧ (stop' : Int) = crlfOffset t stop) ∧
      (¬ EscapesLine t → LinesApart t start) :=
  ⟨fun c _ => c.spansLine_iff, scopeEnd_crlf_of_linesApart,
    fun plain => linesApart_of_unescaped plain start⟩

/-- A closing brace in a string, between two line ends. -/
theorem scopeEnd_crlf_threeLines :
    let t := utf8 "\x7b\n'\x7d'\n\x7d"
    ¬ EscapesLine t ∧ LinesApart t 0 ∧ crlfOffset t 6 = 8 ∧ scopeEnd (Text.crlf t) 0 = .ok 8 ∧
      ¬ (ofOffset t 2).crlf.literalLength <
        (Text.crlf ((ofOffset t 2).after.take (ofOffset t 2).literalLength)).length := by
  intro t
  have plain : ¬ EscapesLine t := by decide
  have one_line : ¬ (ofOffset t 2).SpansLine := by decide
  obtain ⟨spans, found, none_in_the_way⟩ := scopeEnd_crlf t 0
  have apart : LinesApart t 0 := none_in_the_way plain
  exact ⟨plain, apart, by decide, (found apart 8).mpr ⟨6, by rfl, by decide⟩,
    fun short => one_line ((spans _ (text_ofOffset t 2)).mpr short)⟩

/-- An escaped line feed keeps a string going, and the brace in it from closing the scope; the carriage
return takes the backslash, and the brace closes it. -/
example :
    let t := utf8 "\x7b'\\\n\x7d'\x7d"
    scopeEnd t 0 = .ok 6 ∧ crlfOffset t 6 = 7 ∧ scopeEnd (Text.crlf t) 0 = .ok 5 :=
  ⟨by rfl, by decide, by rfl⟩

end Source

end ClassUpgrade
