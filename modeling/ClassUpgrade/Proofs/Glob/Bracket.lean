/-
# Proofs.Glob.Bracket — what makes a text a pattern

The parser can fail in two ways only: at a character that cannot be read, and in
brackets that do not close as they should. Everything else, braces included,
stands for something wherever it stands. So a text without a terminator is a
pattern exactly if its brackets close (`closes`, `parses_iff_closes`), whatever
was read before it.

What brackets hold is read up to the one that closes them, so that it does not
depend on what follows (`bracket_append`). Hence patterns that stand side by
side with a slash between them are a pattern (`isPattern_ofSegments`). The
converse fails: brackets may hold a slash, and cut there neither side need be a
pattern.
-/
import ClassUpgrade.Proofs.Glob.Token

namespace ClassUpgrade.Glob

set_option autoImplicit false

/-! ## Getting through a pattern -/

/-- Whether each bracket of a text is closed and each character that counts can be read; the first
`skip` characters belong to a bracket or an escape. -/
def closes : (skip : Nat) → List Char → Bool
  | _, [] => true
  | skip + 1, _ :: rest => closes skip rest
  | 0, c :: rest =>
    if c == Glyph.replacement then false
    else if c == '[' then
      match bracket rest with
      | .error _ => false
      | .ok (_, n) => closes n rest
    else if c == '\\' then rest.head? != some Glyph.replacement && closes 1 rest
    else closes 0 rest

theorem closes_plain {c : Char} {rest : List Char} (readable : ¬ (c == Glyph.replacement) = true)
    (noBracket : c ≠ '[') (noEscape : c ≠ '\\') : closes 0 (c :: rest) = closes 0 rest := by
  rw [closes, if_neg readable, if_neg (by simpa using noBracket), if_neg (by simpa using noEscape)]

/-- **A text without a terminator is a pattern** exactly if its brackets close, whatever was read
before it. -/
theorem parses_iff_closes {frames : List Frame} {current : Pattern} {inText : Bool} {skip : Nat}
    {cs : List Char} (lasting : terminator ∉ cs) :
    (∃ p, parseFrom frames current inText skip cs = .ok p) ↔ closes skip cs = true := by
  fun_induction parseFrom frames current inText skip cs with
  | case1 => simp [closes]
  | case2 _ _ _ _ _ _ ih =>
      rw [ih fun mem => lasting (List.mem_cons_of_mem _ mem), closes]
  | case3 _ _ _ _ _ unreadable => simp [closes, unreadable]
  | case4 _ _ _ _ _ ended | case5 _ _ _ _ _ _ ended =>
      exact absurd List.mem_cons_self (eq_of_beq ended ▸ lasting)
  | case6 _ _ _ _ readable _ ih | case7 _ _ _ _ _ readable _ ih | case8 _ _ _ _ _ readable _ ih
  | case11 _ _ _ _ readable _ ih | case13 _ _ _ _ _ readable _ ih =>
      rw [ih fun mem => lasting (List.mem_cons_of_mem _ mem),
        closes_plain readable (by decide) (by decide)]
  | case9 _ _ _ _ _ failed readable => simp [closes, readable, failed]
  | case10 _ _ _ _ _ _ closed readable _ ih =>
      simp [closes, readable, closed, ih fun mem => lasting (List.mem_cons_of_mem _ mem)]
  | case12 _ _ _ rest doubled readable _ ih =>
      obtain ⟨more, rfl⟩ := List.head?_eq_some_iff.mp doubled
      rw [ih fun mem => lasting (List.mem_cons_of_mem _ mem), closes,
        closes_plain readable (by decide) (by decide),
        closes_plain readable (by decide) (by decide)]
  | case14 _ _ _ readable _ ih => simp [closes, parseFrom, readable]
  | case15 _ _ _ c rest readable _ ended ih =>
      rw [List.mem_cons, List.mem_cons, not_or, not_or] at lasting
      have unreadable : c = Glyph.replacement := by
        simpa [atEnd, Ne.symm lasting.2.1] using ended
      rw [if_pos ended, ih (by simp [lasting.2]), unreadable]
      simp [closes, readable]
  | case16 _ _ _ c rest readable _ goes ih =>
      rw [List.mem_cons, List.mem_cons, not_or, not_or] at lasting
      have readable' : c ≠ Glyph.replacement := by
        simp only [atEnd, Bool.or_eq_true, beq_iff_eq, not_or] at goes
        exact goes.2
      rw [if_neg goes, ih (by simp [lasting.2])]
      simp [closes, readable, readable']
  | case17 frames _ _ c rest readable _ _ noBracket _ _ noEscape _ _ ih =>
      rw [ih fun mem => lasting (List.mem_cons_of_mem _ mem), closes_plain readable noBracket noEscape]

/-! ## Patterns side by side -/

theorem refuse_eq_ok_iff {α : Type} {refused : Prop} [Decidable refused] {e : PatternError}
    {x : Except PatternError α} {r : α} :
    (if refused then .error e else x) = .ok r ↔ ¬ refused ∧ x = .ok r := by
  split <;> simp [*]

/-- What follows the check for a closing bracket. -/
theorem expectClose_bind_eq_ok_iff {α : Type} {cs : List Char} {x : Except PatternError α} {r : α} :
    ((expectClose cs).bind fun _ => x) = .ok r ↔ cs.head? = some ']' ∧ x = .ok r := by
  unfold expectClose
  split
  · rename_i ended
    refine iff_of_false (fun failed => nomatch failed) ?_
    rintro ⟨front, -⟩
    obtain ⟨rest, rfl⟩ := List.head?_eq_some_iff.mp front
    cases ended
  · split
    · rename_i closing
      exact (and_iff_right (eq_of_beq closing)).symm
    · rename_i other
      exact iff_of_false (fun failed => nomatch failed) fun facts => other (beq_iff_eq.mpr facts.1)

/-- The characters listed up to a closing bracket do not depend on what follows. -/
theorem listed_append {escaped : Bool} {cs : List Char}
    (closed : cs[(listed escaped cs).2]? = some ']') (more : List Char) :
    listed escaped (cs ++ more) = listed escaped cs := by
  induction cs generalizing escaped with
  | nil => cases closed
  | cons c rest ih =>
      rw [List.cons_append]
      unfold listed at closed ⊢
      split_ifs at closed ⊢
      · rfl
      · rfl
      · rfl
      · rw [ih (by simpa using closed)]
      · rw [ih (by simpa using closed)]

/-- A list that is closed and names something takes up two characters. -/
theorem exists_two_of_listed {cs : List Char} (closed : cs[(listed false cs).2]? = some ']')
    (named : ¬ (listed false cs).1.isEmpty = true) : ∃ a b rest, cs = a :: b :: rest := by
  match cs, closed, named with
  | [a], closed, named =>
      obtain ⟨inside, front⟩ := List.getElem?_eq_some_iff.mp closed
      have first : (listed false [a]).2 = 0 := Nat.lt_one_iff.mp inside
      simp only [first, List.getElem_cons_zero] at front
      subst front
      exact absurd rfl named
  | a :: b :: rest, _, _ => exact ⟨a, b, rest, rfl⟩

theorem bracketBody_range (negated : Bool) (low high : Char) (after : List Char) :
    bracketBody negated (low :: '-' :: high :: after) =
      if (atEnd [low] || atEnd [high]) = true then .error .unexpectedEnd
      else (expectClose after).bind fun _ =>
        if high < low then .error (.reversedRange high low)
        else .ok (.range negated low high, 4) := rfl

theorem bracketBody_list {negated : Bool} {cs : List Char}
    (other : ∀ low rest, cs ≠ low :: '-' :: rest) : bracketBody negated cs =
      if atEnd cs = true then .error .unexpectedEnd
      else (expectClose (cs.drop (listed false cs).2)).bind fun _ =>
        if (cs.head? == some ']' && cs[1]? == some Glyph.replacement) = true then
          .error .unreadable
        else if (listed false cs).1.isEmpty = true then .error .emptyList
        else .ok (.list negated (listed false cs).1, (listed false cs).2 + 1) := by
  unfold bracketBody
  split
  · exact absurd rfl (other _ _)
  · rfl

/-- Brackets that close inside a text do not depend on what follows. -/
theorem bracketBody_append {negated : Bool} {cs : List Char} {p : Pattern} {n : Nat}
    (closed : bracketBody negated cs = .ok (p, n)) (more : List Char) :
    bracketBody negated (cs ++ more) = .ok (p, n) ∧ n ≤ cs.length := by
  by_cases range : ∃ low rest, cs = low :: '-' :: rest
  · obtain ⟨low, rest, rfl⟩ := range
    cases rest with
    | nil =>
        unfold bracketBody at closed
        simp [atEnd] at closed
    | cons high after =>
        rw [bracketBody_range, refuse_eq_ok_iff, expectClose_bind_eq_ok_iff, refuse_eq_ok_iff]
          at closed
        rw [List.cons_append, List.cons_append, List.cons_append, bracketBody_range,
          refuse_eq_ok_iff, expectClose_bind_eq_ok_iff, refuse_eq_ok_iff]
        obtain ⟨goes, front, ordered, read⟩ := closed
        obtain ⟨rest, rfl⟩ := List.head?_eq_some_iff.mp front
        refine ⟨⟨goes, rfl, ordered, read⟩, ?_⟩
        obtain ⟨-, rfl⟩ := Prod.mk.inj (Except.ok.inj read)
        simp
  · have other : ∀ low rest, cs ≠ low :: '-' :: rest := fun low rest same => range ⟨low, rest, same⟩
    rw [bracketBody_list other, refuse_eq_ok_iff, expectClose_bind_eq_ok_iff, refuse_eq_ok_iff,
      refuse_eq_ok_iff, List.head?_drop] at closed
    obtain ⟨goes, front, readable, named, read⟩ := closed
    have same := listed_append front more
    have inside : (listed false cs).2 < cs.length := (List.getElem?_eq_some_iff.mp front).1
    obtain ⟨a, b, rest, rfl⟩ := exists_two_of_listed front named
    have other' : ∀ low rest', a :: b :: rest ++ more ≠ low :: '-' :: rest' := by
      intro low rest' same
      obtain ⟨-, tail⟩ := List.cons.inj same
      obtain ⟨rfl, -⟩ := List.cons.inj tail
      exact other a rest rfl
    rw [bracketBody_list other', refuse_eq_ok_iff, expectClose_bind_eq_ok_iff, refuse_eq_ok_iff,
      refuse_eq_ok_iff, List.head?_drop, same, List.getElem?_append_left inside]
    refine ⟨⟨goes, front, readable, named, read⟩, ?_⟩
    obtain ⟨-, rfl⟩ := Prod.mk.inj (Except.ok.inj read)
    exact inside

theorem bracket_append {cs : List Char} {p : Pattern} {n : Nat}
    (closed : bracket cs = .ok (p, n)) (more : List Char) :
    bracket (cs ++ more) = .ok (p, n) ∧ n ≤ cs.length := by
  unfold bracket at closed ⊢
  split at closed
  · rename_i rest
    cases body : bracketBody true rest with
    | error e => rw [body] at closed; cases closed
    | ok found =>
        obtain ⟨q, k⟩ := found
        obtain ⟨body', inside⟩ := bracketBody_append body more
        rw [body] at closed
        simp only [List.cons_append, body']
        obtain ⟨-, rfl⟩ := Prod.mk.inj (Except.ok.inj closed)
        exact ⟨closed, Nat.succ_le_succ inside⟩
  · rename_i other
    cases cs with
    | nil => cases closed
    | cons c rest =>
        have mark : c ≠ '!' := fun same => other rest (same ▸ rfl)
        split
        · rename_i same
          exact absurd (List.cons.inj same).1 mark
        · exact bracketBody_append closed more

/-- **Patterns side by side** close their brackets with a separator between them. -/
theorem closes_append {skip : Nat} {cs more : List Char} (inside : skip ≤ cs.length)
    (first : closes skip cs = true) (second : closes 0 more = true) :
    closes skip (cs ++ separator :: more) = true := by
  fun_induction closes skip cs with
  | case1 skip =>
      obtain rfl := Nat.le_zero.mp inside
      exact (closes_plain (by decide) (by decide) (by decide)).trans second
  | case2 skip c rest ih =>
      rw [List.cons_append, closes]
      exact ih (Nat.le_of_succ_le_succ inside) first
  | case3 => cases first
  | case4 => cases first
  | case5 c rest readable opening p n closed ih =>
      obtain ⟨closed', inside'⟩ := bracket_append closed (separator :: more)
      rw [List.cons_append, closes, if_neg readable, if_pos opening, closed']
      exact ih inside' first
  | case6 c rest readable noBracket escape ih =>
      rw [List.cons_append, closes, if_neg readable, if_neg noBracket, if_pos escape]
      cases rest with
      | nil =>
          -- A backslash at the end takes the separator along.
          rw [List.nil_append, closes, second]
          rfl
      | cons d rest =>
          rw [Bool.and_eq_true] at first ⊢
          exact ⟨first.1, ih (Nat.succ_le_succ (Nat.zero_le _)) first.2⟩
  | case7 c rest readable noBracket noEscape ih =>
      rw [List.cons_append, closes, if_neg readable, if_neg noBracket, if_neg noEscape]
      exact ih (Nat.zero_le _) first

def IsPattern (t : Text) : Prop := ∃ p, parse t = .ok p

theorem isPattern_iff {t : Text} (lasting : 0 ∉ t) :
    IsPattern t ↔ closes 0 (Text.chars t) = true :=
  parses_iff_closes fun mem => lasting ((Text.mem_chars_iff (b := 0) (by decide)).mp mem)

theorem lasting_ofSegments {l : List Text} (lasting : ∀ s ∈ l, 0 ∉ s) : 0 ∉ Path.ofSegments l :=
  fun mem => (Path.mem_ofSegments mem).elim (by decide) fun ⟨s, mem_s, mem⟩ => lasting s mem_s mem

/-- **Segments that are patterns make up a pattern.** -/
theorem isPattern_ofSegments : ∀ {l : List Text}, (∀ s ∈ l, 0 ∉ s ∧ IsPattern s) →
    IsPattern (Path.ofSegments l)
  | [], _ => ⟨.empty, rfl⟩
  | [s], patterns => by
      rw [Path.ofSegments_singleton]
      exact (patterns s List.mem_cons_self).2
  | s :: t :: rest, patterns => by
      rw [isPattern_iff (lasting_ofSegments fun s mem => (patterns s mem).1),
        chars_ofSegments_cons s (List.cons_ne_nil t rest)]
      rw [List.forall_mem_cons] at patterns
      obtain ⟨⟨lasting, pattern⟩, others⟩ := patterns
      have lasting' := lasting_ofSegments fun s mem => (others s mem).1
      exact closes_append (Nat.zero_le _) ((isPattern_iff lasting).mp pattern)
        ((isPattern_iff lasting').mp (isPattern_ofSegments others))

/-- What stands behind a leading wildcard of a pattern is a pattern. -/
theorem isPattern_behind_leadingWildcard {t : Text} (lasting : 0 ∉ leadingWildcard ++ t)
    (pattern : IsPattern (leadingWildcard ++ t)) : IsPattern t := by
  have lasting' : 0 ∉ t := fun mem => lasting (List.mem_append_right _ mem)
  rw [isPattern_iff lasting, leadingWildcard_eq, List.append_assoc, List.singleton_append,
    Text.chars_append_ascii _ _ (by decide)] at pattern
  rw [isPattern_iff lasting', ← pattern]
  have chars_eq : Text.chars wildcard = ['*', '*'] := by rfl
  rw [chars_eq]
  exact ((closes_plain (by decide) (by decide) (by decide)).trans
    ((closes_plain (by decide) (by decide) (by decide)).trans
      (closes_plain (by decide) (by decide) (by decide)))).symm

/-! ## Patterns that compile -/

theorem exists_compile_iff_variants {t : Text} :
    (∃ matchers, compile t = .ok matchers) ↔ ∀ v ∈ variants t, IsPattern v := by
  have written : ∀ {texts : List Text} {matchers : List Pattern},
      List.Forall₂ (fun v p => parse v = .ok p) texts matchers → ∀ v ∈ texts, IsPattern v := by
    intro texts matchers parses
    induction parses with
    | nil => exact List.forall_mem_nil _
    | cons first _ ih => exact List.forall_mem_cons.mpr ⟨⟨_, first⟩, ih⟩
  exact ⟨fun ⟨_, compiled⟩ => written (parses_of_parseAll compiled), exists_parseAll t⟩

/-- **A pattern compiles** exactly if each of its forms is a pattern. -/
theorem exists_compile_iff {t : Text} : (∃ matchers, compile t = .ok matchers) ↔
    ∀ l ∈ forms (Path.segments t), IsPattern (Path.ofSegments l) := by
  rw [exists_compile_iff_variants]
  constructor
  · exact fun patterns l mem => patterns _ (mem_variants_iff.mpr ⟨l, mem, rfl⟩)
  · intro patterns v mem
    obtain ⟨l, tried, rfl⟩ := mem_variants_iff.mp mem
    exact patterns l tried

end ClassUpgrade.Glob
