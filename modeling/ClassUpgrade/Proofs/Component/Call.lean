/-
# Proofs.Component.Call — how much of a call a registration covers

The end of a registration is not found by closing the parenthesis of its call.
It is looked for behind the last scope that was read: past blanks, comments and
one comma, a closing parenthesis ends the call. When something else stands
there, the registration ends with that scope and what follows is kept.

Nothing that is passed over on the way is a closing parenthesis outside literals
(`Walk.past_separator`, `Walk.past_callEnd`). So the search for the parenthesis
that closes the call, when it comes by the last scope at all, comes by the place
where the end is looked for too, and `close_covered_iff` says exactly when the
span of a registration covers the parenthesis that closes its call.
-/
import ClassUpgrade.Proofs.Component.Survey
import ClassUpgrade.Proofs.Source.Bracket

namespace ClassUpgrade

set_option autoImplicit false

open Byte

namespace Source.Cursor

/-! ## What a walk passes over -/

/-- Of two places on a walk, the walk from the one that lies first comes by the other. -/
theorem Walk.onward {c d e : Cursor} (first : Walk c d) (second : Walk c e)
    (le : d.offset ≤ e.offset) : Walk d e := by
  rcases first.comparable second with on | back
  · exact on
  · have same : d.offset = e.offset := Nat.le_antisymm le back.offset_le
    rw [eq_of_text_offset (first.text_eq.trans second.text_eq.symm) same]
    exact .here e

/-- A place outside literals with a closing parenthesis in front. -/
def Closing (c : Cursor) : Prop := c.literalLength = 0 ∧ c.peek? = some closeParen

theorem Closing.past_byte {c e : Cursor} {b : UInt8} (closing : e.Closing)
    (front : c.peek? = some b) (other : b ≠ closeParen) (plain : c.literalLength = 0)
    (walk : Walk c e) : Walk (c.advance 1) e := by
  rcases walk.eq_or_pastToken with rfl | later
  · rw [closing.2] at front
    exact absurd (Option.some.inj front).symm other
  · rwa [pastToken_of_plain plain] at later

/-- A run of bytes of one kind holds no closing parenthesis when that is of another kind. -/
theorem Closing.past_run {kind : UInt8 → Bool} (plain : ∀ b, kind b = true → opensLiteral b = false)
    (other : kind closeParen = false) {e : Cursor} (closing : e.Closing) :
    ∀ (t before : Text), Walk ⟨before, t⟩ e →
      Walk ((⟨before, t⟩ : Cursor).advance (t.takeWhile kind).length) e
  | [], before, walk => walk
  | b :: rest, before, walk => by
      by_cases same : kind b = true
      · rw [List.takeWhile_cons_of_pos same, List.length_cons, advance_cons]
        refine past_run plain other closing rest (b :: before) ?_
        refine closing.past_byte (c := ⟨before, b :: rest⟩) rfl ?_
          (Source.literalLength_eq_zero (by simpa using plain b same)) walk
        rintro rfl
        rw [other] at same
        cases same
      · rw [List.takeWhile_cons_of_neg same]
        exact walk

/-- Nor do blanks and comments, once `skip` bytes of a comment are passed over. -/
theorem Closing.past_triviaFrom {e : Cursor} (closing : e.Closing) :
    ∀ (t before : Text) (skip : Nat), Walk ((⟨before, t⟩ : Cursor).advance skip) e →
      Walk ((⟨before, t⟩ : Cursor).advance (triviaFrom skip t)) e
  | [], before, skip, walk => by
      rw [advance_of_nil rfl] at walk ⊢
      exact walk
  | b :: rest, before, skip + 1, walk => by
      rw [triviaFrom, advance_cons]
      rw [advance_cons] at walk
      exact past_triviaFrom closing rest (b :: before) skip walk
  | b :: rest, before, 0, walk => by
      rw [triviaFrom]
      split
      · rename_i blank
        have other : b ≠ closeParen := by
          rintro rfl
          cases blank
        have plain : (⟨before, b :: rest⟩ : Cursor).literalLength = 0 :=
          Source.literalLength_eq_zero (by simpa using opensLiteral_of_isSpace blank)
        rw [advance_cons]
        exact past_triviaFrom closing rest (b :: before) 0
          (closing.past_byte (c := ⟨before, b :: rest⟩) rfl other plain walk)
      · split
        · exact walk
        · rename_i n comment
          have nonzero : commentLength (b :: rest) ≠ 0 := by omega
          have length_eq : (⟨before, b :: rest⟩ : Cursor).literalLength = n + 1 :=
            (literalLength_of_comment nonzero).trans comment
          rw [advance_cons]
          rcases Walk.eq_or_pastToken walk with rfl | later
          · rw [advance_zero] at closing
            rw [closing.1] at length_eq
            cases length_eq
          · rw [advance_zero, pastToken_of_literal (by omega), length_eq, advance_cons] at later
            exact past_triviaFrom closing rest (b :: before) n later

theorem Closing.past_trivia {c e : Cursor} (closing : e.Closing) (walk : Walk c e) :
    Walk c.skipTrivia e := closing.past_triviaFrom c.after c.before 0 walk

end Source.Cursor

namespace Component

open Source Source.Cursor

/-- The walk to a closing parenthesis goes on behind a separator. -/
theorem Closing.past_separator {c e : Cursor} (closing : e.Closing) (walk : Walk c e) :
    Walk (skipSeparator c) e := by
  have onward := closing.past_trivia walk
  unfold skipSeparator
  split
  · rename_i d comma
    obtain ⟨front, rfl⟩ := expect?_eq_some_iff.mp comma
    exact closing.past_trivia (closing.past_byte front (by decide)
      (literalLength_eq_zero_of_peek? front (by decide)) onward)
  · exact onward

theorem callEnd?_eq_none_iff {c : Cursor} : callEnd? c = none ↔ c.peek? ≠ some closeParen := by
  unfold callEnd? expect?
  split <;> simp_all

/-- The end of a call lies in front of the next closing parenthesis. -/
theorem Closing.past_callEnd {c d e : Cursor} (closing : e.Closing) (found : callEnd? c = some d)
    (walk : Walk (c.advance 1) e) : Walk d e := by
  simp only [callEnd?, Option.bind_eq_bind, Option.bind_eq_some_iff, Option.some.injEq] at found
  obtain ⟨inside, closed, rfl⟩ := found
  obtain ⟨-, rfl⟩ := expect?_eq_some_iff.mp closed
  have plain : ∀ b, (b == space || b == tab) = true → opensLiteral b = false :=
    fun b blank => opensLiteral_of_isSpace (by simp [isSpace, blank])
  have blanks := closing.past_run plain (by decide) _ _ walk
  unfold skipByte
  cases semicolons : Cursor.expect? _ semicolon with
  | none => exact blanks
  | some last =>
      obtain ⟨front, rfl⟩ := expect?_eq_some_iff.mp semicolons
      exact closing.past_byte front (by decide)
        (literalLength_eq_zero_of_peek? front (by decide)) blanks

/-! ## The call of a registration -/

/-- The parenthesis that opens the call of the registration at a place: behind the object, the dot
and the function, with blanks between them. -/
def callOpening (c : Cursor) : Cursor :=
  (((c.advance registrationObject.length).skipSpace.advance 1).skipSpace.advance
    registrationFunction.length).skipSpace

/-- The last scope that a registration holds: that of its methods, or of its properties. -/
def Registration.lastScope (r : Registration) : Span := r.methods.getD r.properties

/-- Where the parenthesis that closes the call of a registration is expected: behind the last scope
and a separator. -/
def callClosing (doc : Text) (r : Registration) : Nat :=
  (skipSeparator (ofOffset doc (r.lastScope.stop + 1))).offset

theorem callOpening_walk {c brace : Cursor} {name : Text}
    (found : registrationHead? c = some (name, brace)) :
    (callOpening c).peek? = some openParen ∧ Walk ((callOpening c).advance 1) brace := by
  simp only [registrationHead?, Option.bind_eq_bind, Option.bind_eq_some_iff, Option.guard_eq_some',
    Option.some.injEq, Prod.mk.injEq] at found
  obtain ⟨-, -, c₁, dotted, -, -, c₂, opened, ⟨name', c₃⟩, quoted, c₄, comma, -, -, -, rfl⟩ := found
  obtain ⟨-, rfl⟩ := expect?_eq_some_iff.mp dotted
  obtain ⟨front, rfl⟩ := expect?_eq_some_iff.mp opened
  refine ⟨front, ?_⟩
  show Walk (Cursor.advance _ 1) _
  exact ((Walk.skipSpace _).trans (quotedName?_walk quoted)).trans
    (((Walk.skipSpace c₃).trans (.expect? comma (by decide))).trans (.skipSpace c₄))

/-- A registration ends behind its last scope: at the end of the call where that is found behind a
separator, else right behind the scope. -/
theorem complete_end {start : Nat} {typeName : Text} {brace : Cursor} {r : Registration}
    (completed : complete start typeName brace = .ok r) :
    ∃ d, Walk brace d ∧ d.offset = r.lastScope.stop + 1 ∧
      r.stop = ((callEnd? (skipSeparator d)).getD d).offset := by
  unfold complete at completed
  split at completed
  · cases completed
  · rename_i properties closed
    obtain ⟨-, -, -, past⟩ := scope_walk closed
    dsimp only at completed
    split at completed
    · split at completed
      · cases completed
      · rename_i methods closed'
        obtain ⟨-, -, -, past'⟩ := scope_walk closed'
        cases completed
        exact ⟨_, (past.trans (skipSeparator_walk _)).trans past', offset_behind_scope closed', rfl⟩
    · cases completed
      exact ⟨_, past, offset_behind_scope closed, rfl⟩

/-- **When the span of a registration covers the end of its call.** When the call of a registration
is closed in the document, the span covers the closing parenthesis exactly when that lies in front of
the end of the last scope, or right where the end of the call is expected: behind the last scope,
blanks, comments and at most one comma. When no parenthesis stands there, the span ends with the last
scope. -/
theorem close_covered_iff {doc : Text} {found : List Registration}
    (surveyed : registrations doc = .ok found) {r : Registration} (mem : r ∈ found) {close : Nat}
    (closed : groupEnd? doc (callOpening (ofOffset doc r.start)).offset = some close) :
    (close ≤ r.span.stop ↔ close ≤ r.lastScope.stop ∨ close = callClosing doc r) ∧
      (doc[callClosing doc r]? ≠ some closeParen → r.span.stop = r.lastScope.stop) := by
  obtain ⟨c, brace, name, walk, -, -, head, completed⟩ :=
    (surveys_registrations surveyed).read_of_mem r mem
  have text_eq : c.text = doc := walk.text_eq.trans (text_start doc)
  have here : ofOffset doc r.start = c := by
    rw [(complete_walk completed).1, ← text_eq, ofOffset_offset]
  obtain ⟨front, lead⟩ := callOpening_walk head
  obtain ⟨d, past, d_offset, stop_eq⟩ := complete_end completed
  have opening_text : (callOpening c).text = doc := by simp [callOpening, Cursor.skipSpace, text_eq]
  have d_text : d.text = doc := by
    rw [past.text_eq, lead.text_eq, text_advance, opening_text]
  have behind : ofOffset doc (r.lastScope.stop + 1) = d := by
    rw [← d_offset, ← d_text, ofOffset_offset]
  rw [here, groupEnd?, ← opening_text, ofOffset_offset, closeOf?_eq_some_iff (by decide)] at closed
  obtain ⟨-, e, closes, rfl⟩ := closed
  have closing : e.Closing := closes.front
  have e_text : e.text = doc := by rw [closes.walk.text_eq, text_advance, opening_text]
  let p := skipSeparator d
  have closing_eq : callClosing doc r = p.offset := by rw [callClosing, behind]
  have p_walk : Walk d p := skipSeparator_walk d
  have p_text : p.text = doc := p_walk.text_eq.trans d_text
  have ends : d.offset ≤ r.stop := by
    rw [stop_eq]
    exact (callEnd?_getD_walk p_walk).offset_le
  have peek_eq : doc[callClosing doc r]? = p.peek? := by
    rw [closing_eq, ← p_text, ← peek?_eq_getElem?]
  have span_eq : r.span.stop + 1 = r.stop := by
    simp only [Registration.span]
    omega
  constructor
  · by_cases inside : e.offset ≤ r.lastScope.stop
    · exact iff_of_true (by omega) (.inl inside)
    · -- the search goes on behind the last scope, to the place where the end is expected
      have onward : Walk p e :=
        Closing.past_separator closing ((lead.trans past).onward closes.walk (by omega))
      rw [closing_eq, or_iff_right inside]
      change r.stop = ((callEnd? p).getD d).offset at stop_eq
      cases call_end : callEnd? p with
      | none =>
          rw [call_end, Option.getD_none] at stop_eq
          refine iff_of_false (by omega) fun same => ?_
          rw [← eq_of_text_offset (e_text.trans p_text.symm) same] at call_end
          exact callEnd?_eq_none_iff.mp call_end closing.2
      | some last =>
          rw [call_end, Option.getD_some] at stop_eq
          obtain ⟨closes_here, past_end⟩ := callEnd?_behind call_end
          have plain := literalLength_eq_zero_of_peek? closes_here (by decide)
          rcases onward.eq_or_pastToken with rfl | later
          · have := past_end.offset_le
            rw [offset_advance_one closes_here] at this
            exact iff_of_true (by omega) rfl
          · rw [pastToken_of_plain plain] at later
            have beyond := (Closing.past_callEnd closing call_end later).offset_le
            have := later.offset_le
            rw [offset_advance_one closes_here] at this
            exact iff_of_false (by omega) (by omega)
  · intro other
    rw [peek_eq] at other
    change r.stop = ((callEnd? p).getD d).offset at stop_eq
    rw [callEnd?_eq_none_iff.mpr other, Option.getD_none] at stop_eq
    omega

/-- Behind the last scope of a call, a comment with a parenthesis of its own and a comma. -/
theorem close_covered_behind_comma :
    let doc := utf8 "WL.registerComponent('a', \x7b\x7d, \x7bb() \x7b\x7d\x7d /*)*/ , );c"
    let r : Registration := ⟨0, 49, utf8 "a", ⟨26, 27⟩, some ⟨30, 37⟩⟩
    registrations doc = .ok [r] ∧ groupEnd? doc 20 = some 47 ∧ callClosing doc r = 47 ∧
      47 ≤ r.span.stop := by
  intro doc r
  have surveyed : registrations doc = .ok [r] := by rfl
  have opens : (callOpening (ofOffset doc r.start)).offset = 20 := by rfl
  have closed : groupEnd? doc 20 = some 47 := by rfl
  have expected : callClosing doc r = 47 := by rfl
  have mem : r ∈ [r] := List.mem_cons_self
  obtain ⟨covered, -⟩ := close_covered_iff surveyed mem (opens.symm ▸ closed)
  rw [expected] at covered
  exact ⟨surveyed, closed, expected, covered.mpr (.inr rfl)⟩

/-- A call whose last argument is no object. -/
def furtherArgument : Text := utf8 "WL.registerComponent('a', \x7b\x7d, init);"

/-- Not every registration covers its call: an argument behind the last scope is left behind. -/
theorem furtherArgument_left_behind :
    ¬ ∀ (doc : Text) (found : List Registration), registrations doc = .ok found →
      ∀ r ∈ found, ∀ close,
        groupEnd? doc (callOpening (ofOffset doc r.start)).offset = some close →
          close ≤ r.span.stop := by
  intro covers
  have surveyed : registrations furtherArgument =
      .ok [⟨0, 28, utf8 "a", ⟨26, 27⟩, none⟩] := by rfl
  have closed : groupEnd? furtherArgument
      (callOpening (ofOffset furtherArgument 0)).offset = some 34 := by rfl
  have covered := covers _ _ surveyed _ List.mem_cons_self 34 closed
  exact absurd covered (by decide)

end Component

end ClassUpgrade
