/-
# Proofs.Component.Survey — where the survey of a document finds registrations

The survey is one walk with a counter of bytes to pass over. `Surveys c s`
restates it as rules, one for each thing that can stand at a place: the end of
the text, a literal, a byte that starts no word, a word that opens no
registration, a registration, a registration with an unmatched scope. What
holds of all surveys is proved by induction on these rules:

* the registrations found lie inside the text, none is empty, and each ends
  before the next one starts (`Surveys.bounds`, `Surveys.pairwise`);
* each starts and ends on the token walk (`Surveys.on_walk`), although a
  registration is read by scanners of its own for its name, its scopes, its
  trivia and its end;
* a survey without failure passes over no place of the walk where a
  registration opens (`Surveys.covers`).
-/
import Mathlib.Data.Option.Basic
import ClassUpgrade.Component.Registration
import ClassUpgrade.Proofs.Source.Walk

namespace ClassUpgrade.Component

set_option autoImplicit false

open Byte Source Source.Cursor

/-! ## The parts of a registration -/

/-- A string without its quote, a line feed or a backslash ends at the next quote. -/
theorem quotedTail_name (quote : UInt8) : ∀ (name rest : Text), quote ∉ name →
    lineFeed ∉ name → backslash ∉ name → quote ≠ backslash →
      quotedTail quote false (name ++ quote :: rest) = name.length + 1
  | [], rest, _, _, _, ne => by simp [quotedTail, ne]
  | b :: name, rest, noQuote, noLine, noEscape, ne => by
      simp only [List.mem_cons, not_or] at noQuote noLine noEscape
      have ih := quotedTail_name quote name rest noQuote.2 noLine.2 noEscape.2 ne
      simp [quotedTail, ih, Ne.symm noQuote.1, Ne.symm noLine.1, Ne.symm noEscape.1]

theorem ne_backslash_of_isQuote {b : UInt8} (quote : isQuote b = true) : b ≠ backslash := by
  rintro rfl
  exact absurd quote (by decide)

/-- The parts of a quoted name: the same quote on both sides of a name without a quote, a line feed
or a backslash. -/
theorem quotedName?_parts {c d : Cursor} {name : Text} (found : quotedName? c = some (name, d)) :
    ∃ quote rest, isQuote quote = true ∧ c.after = quote :: (name ++ quote :: rest) ∧
      d = c.advance (name.length + 2) ∧ quote ∉ name ∧ lineFeed ∉ name ∧ backslash ∉ name := by
  simp only [quotedName?, Option.bind_eq_bind, Option.bind_eq_some_iff, Option.guard_eq_some',
    Option.some.injEq, Prod.mk.injEq] at found
  obtain ⟨quote, front, -, isQuote, closed, closes, -, lawful, named, rfl⟩ := found
  obtain ⟨rest, after_eq⟩ := peek?_eq_some_iff.mp front
  obtain ⟨behind, rfl⟩ := expect?_eq_some_iff.mp closes
  have inside : (c.advance 1).after = rest := by rw [after_advance, after_eq]; rfl
  rw [inside] at lawful behind named ⊢
  have noQuote : quote ∉ name := by
    intro mem
    rw [← named] at mem
    have := List.all_eq_true.mp List.all_takeWhile quote mem
    simp at this
  rw [named] at lawful behind ⊢
  simp only [Bool.and_eq_true, Bool.not_eq_true', List.contains_eq_mem,
    decide_eq_false_iff_not] at lawful
  obtain ⟨tail, drop_eq⟩ := peek?_eq_some_iff.mp behind
  rw [after_advance, inside] at drop_eq
  have rest_eq : rest = name ++ quote :: tail := by
    have taken := List.prefix_iff_eq_take.mp (List.takeWhile_prefix (l := rest) (· != quote))
    rw [named] at taken
    rw [← List.take_append_drop name.length rest, ← taken, drop_eq]
  refine ⟨quote, tail, isQuote, by rw [after_eq, rest_eq], ?_, noQuote, lawful.1.2, lawful.2⟩
  rw [advance_advance, advance_advance]
  congr 1
  omega

/-- A quoted name is one literal, and the walk goes on behind its closing quote. -/
theorem quotedName?_walk {c d : Cursor} {name : Text} (found : quotedName? c = some (name, d)) :
    Walk c d := by
  obtain ⟨quote, rest, isQuote, after_eq, rfl, noQuote, noLine, noEscape⟩ := quotedName?_parts found
  have length_eq : c.literalLength = name.length + 2 := by
    have tail_length := quotedTail_name quote name rest noQuote noLine noEscape
      (ne_backslash_of_isQuote isQuote)
    unfold Cursor.literalLength
    rw [after_eq]
    simp only [Source.literalLength, isQuote, if_true, quotedLength, tail_length]
  rw [← length_eq]
  exact .literal c

theorem registrationHead?_walk {c brace : Cursor} {name : Text}
    (found : registrationHead? c = some (name, brace)) :
    Walk c brace ∧ c.offset < brace.offset := by
  simp only [registrationHead?, Option.bind_eq_bind, Option.bind_eq_some_iff, Option.guard_eq_some',
    Option.some.injEq, Prod.mk.injEq, beq_iff_eq] at found
  obtain ⟨-, object, c₁, dotted, -, function, c₂, opened, ⟨name', c₃⟩, quoted, c₄, comma, -, -, -,
    rfl⟩ := found
  have first : Walk c (c.advance registrationObject.length).skipSpace :=
    (object ▸ Walk.word c).trans (.skipSpace _)
  have lt : c.offset < c₁.offset := by
    obtain ⟨front, rfl⟩ := expect?_eq_some_iff.mp dotted
    have := first.offset_le
    rw [offset_advance_one front]
    omega
  have called : Walk c₁ c₂ :=
    ((Walk.skipSpace c₁).trans (function ▸ Walk.word c₁.skipSpace)).trans
      ((Walk.skipSpace _).trans (.expect? opened (by decide)))
  have last : Walk c₁ c₄.skipSpace :=
    ((called.trans (.skipSpace c₂)).trans (quotedName?_walk quoted)).trans
      (((Walk.skipSpace c₃).trans (.expect? comma (by decide))).trans (.skipSpace c₄))
  exact ⟨(first.trans (.expect? dotted (by decide))).trans last, by
    have := last.offset_le
    omega⟩

theorem skipSeparator_walk (c : Cursor) : Walk c (skipSeparator c) := by
  unfold skipSeparator
  split
  · rename_i d comma
    exact ((Walk.skipTrivia c).trans (.expect? comma (by decide))).trans (.skipTrivia d)
  · exact .skipTrivia c

/-- The end of a call opens with its parenthesis, and the walk from behind that comes by it. -/
theorem callEnd?_behind {c d : Cursor} (found : callEnd? c = some d) :
    c.peek? = some closeParen ∧ Walk (c.advance 1) d := by
  simp only [callEnd?, Option.bind_eq_bind, Option.bind_eq_some_iff, Option.some.injEq] at found
  obtain ⟨e, closed, rfl⟩ := found
  obtain ⟨front, rfl⟩ := expect?_eq_some_iff.mp closed
  have blanks : ∀ e : Cursor,
      Walk e (e.advance (e.after.takeWhile fun b => b == space || b == tab).length) :=
    Walk.takeWhile fun b blank => opensLiteral_of_isSpace (by simp [isSpace, blank])
  exact ⟨front, (blanks _).trans (.skipByte (by decide) _)⟩

theorem callEnd?_walk {c d : Cursor} (found : callEnd? c = some d) : Walk c d := by
  obtain ⟨front, behind⟩ := callEnd?_behind found
  exact (Walk.byte (literalLength_eq_zero_of_peek? front (by decide))).trans behind

theorem callEnd?_getD_walk {c d : Cursor} (walk : Walk c d) : Walk c ((callEnd? d).getD c) := by
  cases found : callEnd? d with
  | none => exact .here c
  | some e => exact walk.trans (callEnd?_walk found)

/-- A completed registration keeps its head's offset and type name, and ends on the walk behind
the brace of its properties. -/
theorem complete_walk {start : Nat} {typeName : Text} {brace : Cursor} {r : Registration}
    (completed : complete start typeName brace = .ok r) :
    r.start = start ∧ r.typeName = typeName ∧
      ∃ e, Walk brace e ∧ brace.offset ≤ e.offset ∧ e.offset = r.stop := by
  unfold complete at completed
  split at completed
  · cases completed
  · rename_i properties closed
    obtain ⟨-, -, -, past⟩ := scope_walk closed
    have next := skipSeparator_walk (brace.advance properties.length)
    dsimp only at completed
    split at completed
    · split at completed
      · cases completed
      · rename_i methods closed'
        obtain ⟨-, -, -, past'⟩ := scope_walk closed'
        cases completed
        have whole := (past.trans next).trans
          (past'.trans (callEnd?_getD_walk (skipSeparator_walk _)))
        exact ⟨rfl, rfl, _, whole, whole.offset_le, rfl⟩
    · cases completed
      have whole := past.trans (callEnd?_getD_walk next)
      exact ⟨rfl, rfl, _, whole, whole.offset_le, rfl⟩

/-- The scopes of a completed registration: that of the brace of its properties, and that of its
methods further on. It ends behind both. -/
theorem complete_scopes {start : Nat} {typeName : Text} {brace : Cursor} {r : Registration}
    (completed : complete start typeName brace = .ok r) :
    brace.scope = .ok r.properties ∧ r.properties.stop < r.stop ∧
      ∀ methods, r.methods = some methods →
        methods.stop < r.stop ∧ ∃ d, Walk brace d ∧ d.scope = .ok methods := by
  unfold complete at completed
  split at completed
  · cases completed
  · rename_i properties closed
    obtain ⟨-, -, -, past⟩ := scope_walk closed
    have next := skipSeparator_walk (brace.advance properties.length)
    have behind := offset_behind_scope closed
    dsimp only at completed
    split at completed
    · split at completed
      · cases completed
      · rename_i methods closed'
        obtain ⟨-, -, -, past'⟩ := scope_walk closed'
        have last := (callEnd?_getD_walk (skipSeparator_walk
          ((skipSeparator (brace.advance properties.length)).advance methods.length))).offset_le
        have behind' := offset_behind_scope closed'
        have onward := (next.trans past').offset_le
        cases completed
        refine ⟨closed, ?_, fun methods' same => ?_⟩
        · dsimp only
          omega
        · obtain rfl := Option.some.inj same
          refine ⟨?_, _, past.trans next, closed'⟩
          dsimp only
          omega
    · have last := (callEnd?_getD_walk next).offset_le
      cases completed
      refine ⟨closed, ?_, fun methods' none => nomatch none⟩
      dsimp only
      omega

/-- A place at which a registration opens: a word starts there outside literals, and a head is
read from it. -/
def OpensRegistration (c : Cursor) : Prop :=
  c.literalLength = 0 ∧ c.startsWord = true ∧ (registrationHead? c).isSome

/-- A whole registration: it starts where its head was found, is not empty, ends inside the text,
and the walk comes by its end. -/
theorem registration_walk {c brace : Cursor} {name : Text} {r : Registration}
    (head : registrationHead? c = some (name, brace))
    (completed : complete c.offset name brace = .ok r) :
    r.start = c.offset ∧ r.start < r.stop ∧ r.stop ≤ c.text.length ∧
      Walk c (c.advance (r.stop - r.start)) ∧ (c.advance (r.stop - r.start)).offset = r.stop := by
  obtain ⟨start_eq, -, e, rest, le, stop_eq⟩ := complete_walk completed
  obtain ⟨first, lt⟩ := registrationHead?_walk head
  have whole : Walk c e := first.trans rest
  have goes : c.advance (r.stop - r.start) = e := by
    rw [start_eq, ← stop_eq]
    exact whole.advance_sub
  have inside : e.offset ≤ c.text.length := whole.text_eq ▸ e.offset_le_length
  rw [goes, start_eq, ← stop_eq]
  exact ⟨rfl, by omega, inside, whole, rfl⟩

/-! ## The survey as rules -/

/-- What the survey from a place on comes to. -/
inductive Surveys : Cursor → Survey → Prop where
  | finish {c : Cursor} (done : c.after = []) : Surveys c ⟨[], none⟩
  | literal {c : Cursor} {s : Survey} (starts : c.literalLength ≠ 0)
      (rest : Surveys (c.advance c.literalLength) s) : Surveys c s
  | byte {c : Cursor} {s : Survey} (plain : c.literalLength = 0) (more : c.after ≠ [])
      (noWord : c.startsWord = false) (rest : Surveys (c.advance 1) s) : Surveys c s
  | word {c : Cursor} {s : Survey} (plain : c.literalLength = 0) (starts : c.startsWord = true)
      (noHead : registrationHead? c = none) (rest : Surveys (c.advance c.word.length) s) :
      Surveys c s
  | unmatched {c brace : Cursor} {name : Text} {e : UnmatchedScope} (plain : c.literalLength = 0)
      (starts : c.startsWord = true) (head : registrationHead? c = some (name, brace))
      (failed : complete c.offset name brace = .error e) : Surveys c ⟨[], some e⟩
  | registration {c brace : Cursor} {name : Text} {r : Registration} {s : Survey}
      (plain : c.literalLength = 0) (starts : c.startsWord = true)
      (head : registrationHead? c = some (name, brace))
      (completed : complete c.offset name brace = .ok r)
      (rest : Surveys (c.advance (r.stop - r.start)) s) :
      Surveys c { s with found := r :: s.found }

/-- The survey follows the rules, from the place where the bytes to pass over end. -/
theorem surveys_surveyFrom : ∀ (t before : Text) (skip : Nat),
    Surveys ((⟨before, t⟩ : Cursor).advance skip) (surveyFrom before skip t)
  | [], before, skip => by
      rw [advance_of_nil rfl]
      exact .finish rfl
  | b :: rest, before, skip + 1 => by
      rw [advance_cons]
      exact surveys_surveyFrom rest (b :: before) skip
  | b :: rest, before, 0 => by
      -- each branch hands over the length of what it passes, less the byte in front
      have onward : ∀ n, 0 < n → Surveys ((⟨before, b :: rest⟩ : Cursor).advance n)
          (surveyFrom (b :: before) (n - 1) rest) := by
        intro n pos
        obtain ⟨k, rfl⟩ : ∃ k, n = k + 1 := ⟨n - 1, by omega⟩
        rw [advance_cons]
        exact surveys_surveyFrom rest (b :: before) k
      unfold surveyFrom
      dsimp only
      split
      · rename_i n literal
        have length_eq : (⟨before, b :: rest⟩ : Cursor).literalLength = n + 1 := literal
        refine .literal (by simp [length_eq]) ?_
        rw [advance_zero, length_eq]
        exact onward (n + 1) (by omega)
      · rename_i plain
        split
        · rename_i starts
          split
          · rename_i noHead
            exact .word plain starts noHead (onward _ (word_length_pos starts))
          · rename_i name brace head
            split
            · rename_i e failed
              exact .unmatched plain starts head failed
            · rename_i r completed
              obtain ⟨-, lt, -⟩ := registration_walk head completed
              exact .registration plain starts head completed (onward _ (by omega))
        · rename_i noWord
          exact .byte plain (by simp) (by simpa using noWord) (onward 1 (by omega))

theorem surveys_survey (doc : Text) : Surveys (start doc) (survey doc) :=
  surveys_surveyFrom doc [] 0

/-! ## What a survey finds -/

namespace Surveys

theorem bounds {c : Cursor} {s : Survey} (surveyed : Surveys c s) :
    ∀ r ∈ s.found, c.offset ≤ r.start ∧ r.start < r.stop ∧ r.stop ≤ c.text.length := by
  induction surveyed with
  | finish | unmatched => simp
  | literal _ _ ih | byte _ _ _ _ ih | word _ _ _ _ ih =>
      intro r mem
      have := ih r mem
      rw [text_advance, offset_advance] at this
      exact ⟨by omega, this.2⟩
  | registration _ _ head completed _ ih =>
      obtain ⟨start_eq, lt, le, -, offset_eq⟩ := registration_walk head completed
      intro r' mem
      rcases List.mem_cons.mp mem with rfl | later
      · exact ⟨by omega, lt, le⟩
      · have := ih r' later
        rw [text_advance, offset_eq] at this
        exact ⟨by omega, this.2⟩

/-- Each registration ends before the next one starts. -/
theorem pairwise {c : Cursor} {s : Survey} (surveyed : Surveys c s) :
    s.found.Pairwise fun r r' => r.stop ≤ r'.start := by
  induction surveyed with
  | finish | unmatched => exact .nil
  | literal _ _ ih | byte _ _ _ _ ih | word _ _ _ _ ih => exact ih
  | registration _ _ head completed rest ih =>
      obtain ⟨-, -, -, -, offset_eq⟩ := registration_walk head completed
      refine List.pairwise_cons.mpr ⟨fun r' later => ?_, ih⟩
      have := (rest.bounds r' later).1
      omega

/-- Each registration was read at a place of the walk where a word starts, from its head. -/
theorem read_of_mem {c : Cursor} {s : Survey} (surveyed : Surveys c s) :
    ∀ r ∈ s.found, ∃ d brace name, Walk c d ∧ d.literalLength = 0 ∧ d.startsWord = true ∧
      registrationHead? d = some (name, brace) ∧ complete d.offset name brace = .ok r := by
  -- a place that is passed over leads to the registrations behind it
  have behind : ∀ {c c' : Cursor} {r : Registration}, Walk c c' →
      (∃ d brace name, Walk c' d ∧ d.literalLength = 0 ∧ d.startsWord = true ∧
        registrationHead? d = some (name, brace) ∧ complete d.offset name brace = .ok r) →
      ∃ d brace name, Walk c d ∧ d.literalLength = 0 ∧ d.startsWord = true ∧
        registrationHead? d = some (name, brace) ∧ complete d.offset name brace = .ok r := by
    rintro c c' r past ⟨d, brace, name, walk, facts⟩
    exact ⟨d, brace, name, past.trans walk, facts⟩
  induction surveyed with
  | finish | unmatched => simp
  | literal _ _ ih => exact fun r mem => behind (.literal _) (ih r mem)
  | byte plain _ _ _ ih => exact fun r mem => behind (.byte plain) (ih r mem)
  | word _ _ _ _ ih => exact fun r mem => behind (.word _) (ih r mem)
  | registration plain starts head completed _ ih =>
      obtain ⟨-, -, -, past, -⟩ := registration_walk head completed
      intro r' mem
      rcases List.mem_cons.mp mem with rfl | later
      · exact ⟨_, _, _, .here _, plain, starts, head, completed⟩
      · exact behind past (ih r' later)

/-- Each registration is a stretch of the walk, from a place where one opens to its end. -/
theorem on_walk {c : Cursor} {s : Survey} (surveyed : Surveys c s) :
    ∀ r ∈ s.found, ∃ d e, Walk c d ∧ OpensRegistration d ∧ d.offset = r.start ∧
      Walk d e ∧ e.offset = r.stop := by
  intro r mem
  obtain ⟨d, brace, name, walk, plain, starts, head, completed⟩ := surveyed.read_of_mem r mem
  obtain ⟨start_eq, -, -, past, offset_eq⟩ := registration_walk head completed
  exact ⟨d, _, walk, ⟨plain, starts, by simp [head]⟩, start_eq.symm, past, offset_eq⟩

/-- A survey without failure passes over no place of the walk where a registration opens, but for
those inside a registration that it found. -/
theorem covers {c : Cursor} {s : Survey} (surveyed : Surveys c s) (whole : s.failure = none) :
    ∀ d, Walk c d → OpensRegistration d →
      (∀ r ∈ s.found, r.start < d.offset → r.stop ≤ d.offset) →
        ∃ r ∈ s.found, r.start = d.offset := by
  induction surveyed with
  | finish done =>
      intro d walk opens
      have same : d = _ := walk.eq_of_nil done
      subst same
      have := word_length_pos opens.2.1
      simp [Cursor.word, done, Source.word] at this
  | unmatched => cases whole
  | literal starts _ ih =>
      intro d walk opens outside
      rcases walk.eq_or_pastToken with rfl | later
      · exact absurd opens.1 starts
      · rw [pastToken, Nat.max_eq_left (by omega)] at later
        exact ih whole d later opens outside
  | byte plain _ noWord _ ih =>
      intro d walk opens outside
      rcases walk.eq_or_pastToken with rfl | later
      · rw [opens.2.1] at noWord
        cases noWord
      · rw [pastToken, plain] at later
        exact ih whole d later opens outside
  | @word c s _ starts noHead _ ih =>
      intro d walk opens outside
      rcases walk.comparable (.word c) with before | later
      · -- a place inside the word starts no word
        have := walk.offset_le
        have := before.offset_le
        rw [offset_advance] at this
        by_cases first : d.offset = c.offset
        · rw [eq_of_text_offset walk.text_eq first] at opens
          simp [OpensRegistration, noHead] at opens
        · have inside := startsWord_behind_word (c := c) (k := d.offset - c.offset)
            (by omega) (by omega)
          rw [walk.advance_sub, opens.2.1] at inside
          cases inside
      · exact ih whole d later opens outside
  | @registration c brace name r s _ _ head completed _ ih =>
      obtain ⟨start_eq, lt, -, past, offset_eq⟩ := registration_walk head completed
      intro d walk opens outside
      have onward : Walk (c.advance (r.stop - r.start)) d →
          ∃ r' ∈ r :: s.found, r'.start = d.offset := by
        intro later
        obtain ⟨r', mem, same⟩ := ih whole d later opens
          fun r' mem => outside r' (List.mem_cons_of_mem _ mem)
        exact ⟨r', List.mem_cons_of_mem _ mem, same⟩
      rcases walk.comparable past with before | later
      · have := walk.offset_le
        have := before.offset_le
        by_cases first : d.offset = c.offset
        · exact ⟨r, List.mem_cons_self, by omega⟩
        · have := outside r List.mem_cons_self (by omega)
          rw [eq_of_text_offset before.text_eq (by omega)] at onward
          exact onward (.here d)
      · exact onward later

/-- Where no head is read, nothing is found and nothing fails. -/
theorem nothing {c : Cursor} {s : Survey} (surveyed : Surveys c s)
    (noHead : ∀ d, Walk c d → registrationHead? d = none) : s = ⟨[], none⟩ := by
  induction surveyed with
  | finish => rfl
  | literal _ _ ih => exact ih fun d walk => noHead d ((Walk.literal _).trans walk)
  | byte plain _ _ _ ih => exact ih fun d walk => noHead d ((Walk.byte plain).trans walk)
  | word _ _ _ _ ih => exact ih fun d walk => noHead d ((Walk.word _).trans walk)
  | unmatched _ _ head _ | registration _ _ head _ _ _ =>
      rw [noHead _ (.here _)] at head
      cases head

end Surveys

/-! ## The registrations of a document -/

theorem survey_of_registrations {doc : Text} {found : List Registration}
    (surveyed : registrations doc = .ok found) : survey doc = ⟨found, none⟩ := by
  unfold registrations at surveyed
  split at surveyed
  · rename_i found' survey_eq
    rw [survey_eq, Except.ok.inj surveyed]
  · cases surveyed

/-- The rules for a document whose survey did not fail. -/
theorem surveys_registrations {doc : Text} {found : List Registration}
    (surveyed : registrations doc = .ok found) : Surveys (start doc) ⟨found, none⟩ :=
  survey_of_registrations surveyed ▸ surveys_survey doc

theorem registration_bounds {doc : Text} {found : List Registration}
    (surveyed : registrations doc = .ok found) :
    ∀ r ∈ found, r.start < r.stop ∧ r.stop ≤ doc.length := by
  intro r mem
  have := (surveys_registrations surveyed).bounds r mem
  rw [text_start] at this
  exact this.2

theorem registrations_pairwise {doc : Text} {found : List Registration}
    (surveyed : registrations doc = .ok found) :
    found.Pairwise fun r r' => r.stop ≤ r'.start :=
  (surveys_registrations surveyed).pairwise

/-- Of two registrations the one that starts first ends before the other starts. -/
theorem stop_le_start_of_lt {doc : Text} {found : List Registration}
    (surveyed : registrations doc = .ok found) {r r' : Registration} (mem : r ∈ found)
    (mem' : r' ∈ found) (lt : r.start < r'.start) : r.stop ≤ r'.start := by
  have ordered := List.pairwise_iff_getElem.mp (registrations_pairwise surveyed)
  have nonempty := (registration_bounds surveyed r' mem').1
  obtain ⟨i, hi, rfl⟩ := List.mem_iff_getElem.mp mem
  obtain ⟨j, hj, rfl⟩ := List.mem_iff_getElem.mp mem'
  rcases Nat.lt_trichotomy i j with before | rfl | after
  · exact ordered i j hi hj before
  · omega
  · have := ordered j i hj hi after
    omega

/-- **One token walk finds the registrations.** They start exactly at the places of the walk from
the front of the document where a registration opens and that lie in no registration found before.
The walk comes by the place behind each of them, so the survey that goes on there neither reads a
literal again nor enters one in its middle. -/
theorem registration_starts_iff {doc : Text} {found : List Registration}
    (surveyed : registrations doc = .ok found) :
    (∀ p, (∃ r ∈ found, r.span.start = p) ↔
      ∃ c, Walk (start doc) c ∧ c.offset = p ∧ OpensRegistration c ∧
        ∀ r ∈ found, r.span.start < p → r.span.stop < p) ∧
    ∀ r ∈ found, ∃ c, Walk (start doc) c ∧ c.offset = r.span.stop + 1 := by
  have rules := surveys_registrations surveyed
  have bounds := registration_bounds surveyed
  refine ⟨fun p => ⟨?_, ?_⟩, ?_⟩
  · rintro ⟨r, mem, rfl⟩
    obtain ⟨c, -, walk, opens, start_eq, -, -⟩ := rules.on_walk r mem
    refine ⟨c, walk, start_eq, opens, fun r' mem' earlier => ?_⟩
    have := bounds r' mem'
    have := stop_le_start_of_lt surveyed mem' mem earlier
    simp only [Registration.span]
    omega
  · rintro ⟨c, walk, rfl, opens, outside⟩
    refine rules.covers rfl c walk opens fun r mem earlier => ?_
    have := outside r mem earlier
    have := bounds r mem
    simp only [Registration.span] at *
    omega
  · intro r mem
    obtain ⟨c, d, walk, -, -, onward, stop_eq⟩ := rules.on_walk r mem
    have := bounds r mem
    exact ⟨d, walk.trans onward, by simp only [Registration.span]; omega⟩

/-- A string with a comment mark before the registration, and a brace in a regular expression. -/
theorem registration_starts_behind_literals :
    let doc := utf8 "'//' WL.registerComponent('a', \x7bb: /\x7d/\x7d, \x7b\x7d) ;x"
    let found := [⟨5, 46, utf8 "a", ⟨31, 38⟩, some ⟨41, 42⟩⟩]
    registrations doc = .ok found ∧
      (∃ c, Walk (start doc) c ∧ c.offset = 5 ∧ OpensRegistration c) ∧
      ∃ c, Walk (start doc) c ∧ c.offset = 46 := by
  intro doc found
  have surveyed : registrations doc = .ok found := by rfl
  obtain ⟨starts, stops⟩ := registration_starts_iff surveyed
  obtain ⟨c, walk, offset_eq, opens, -⟩ := (starts 5).mp ⟨_, List.mem_cons_self, rfl⟩
  exact ⟨surveyed, ⟨c, walk, offset_eq, opens⟩, stops _ List.mem_cons_self⟩

end ClassUpgrade.Component
