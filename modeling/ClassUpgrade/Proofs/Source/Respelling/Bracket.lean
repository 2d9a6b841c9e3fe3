/-
# Proofs.Source.Respelling.Bracket — brackets of respelled texts

The search for a closing bracket comes to aligned places in two spellings of a
text. A literal is passed over in both, a byte of the text counts alike, and an
exchanged piece leaves the same brackets open (`Closes.append_iff`). So the
search from aligned places finds a bracket in both spellings or in neither
(`Aligned.closes`, read in both directions), and behind the bracket the texts go
on alike.
-/
import ClassUpgrade.Proofs.Source.Respelling.Literal

namespace ClassUpgrade.Source

set_option autoImplicit false

open Byte Cursor

/-! ## One byte, and many -/

section Plain

variable {kind : Bracket} {depth : Nat} {before t : Text} {b : UInt8} {d : Cursor}

/-- What a byte outside literals does to the search. -/
theorem closes_cons_iff (distinct : kind.closing ≠ kind.opening)
    (plain : literalLength before (b :: t) = 0) :
    Closes kind depth ⟨before, b :: t⟩ d ↔
      if b = kind.opening then Closes kind (depth + 1) ⟨b :: before, t⟩ d
      else if b = kind.closing then
        (depth = 0 ∧ d = ⟨before, b :: t⟩) ∨
          ∃ n, depth = n + 1 ∧ Closes kind n ⟨b :: before, t⟩ d
      else Closes kind depth ⟨b :: before, t⟩ d := by
  have step : (⟨before, b :: t⟩ : Cursor).advance 1 = ⟨b :: before, t⟩ := rfl
  have front : (⟨before, b :: t⟩ : Cursor).peek? = some b := rfl
  constructor
  · intro closes
    cases closes with
    | here _ closing =>
        obtain rfl : b = kind.closing := Option.some.inj closing
        rw [if_neg distinct, if_pos rfl]
        exact .inl ⟨rfl, rfl⟩
    | literal starts _ => exact absurd plain starts
    | opening _ opening rest =>
        rw [if_pos (Option.some.inj opening)]
        exact rest
    | @closing n _ _ _ closing rest =>
        obtain rfl : b = kind.closing := Option.some.inj closing
        rw [if_neg distinct, if_pos rfl]
        exact .inr ⟨n, rfl, rest⟩
    | byte _ _ noOpening noClosing rest =>
        rw [if_neg fun same => noOpening (congrArg some same),
          if_neg fun same => noClosing (congrArg some same)]
        exact rest
  · split
    · rename_i opens
      exact fun rest => .opening plain (congrArg some opens) rest
    · rename_i noOpening
      split
      · rename_i closing
        rintro (⟨rfl, rfl⟩ | ⟨n, rfl, rest⟩)
        · exact .here plain (congrArg some closing)
        · exact .closing plain (congrArg some closing) rest
      · rename_i noClosing
        exact fun rest => .byte plain (List.cons_ne_nil _ _) (by simpa [peek?] using noOpening)
          (by simpa [peek?] using noClosing) rest

/-- The search passes over bytes that are no structure but brackets, and goes on with as many
brackets open as these leave. -/
theorem Closes.append_iff (distinct : kind.closing ≠ kind.opening) : ∀ {x before : Text}
    {depth depth' : Nat}, (∀ b ∈ x, isInert b = true) → depthBehind kind x depth = some depth' →
      (Closes kind depth ⟨before, x ++ t⟩ d ↔ Closes kind depth' ⟨x.reverse ++ before, t⟩ d)
  | [], before, depth, depth', _, behind => by
      obtain rfl := Option.some.inj behind
      exact Iff.rfl
  | b :: x, before, depth, depth', inert, behind => by
      have plain : literalLength before (b :: (x ++ t)) = 0 :=
        literalLength_eq_zero (by simpa using opensLiteral_of_isInert (inert b List.mem_cons_self))
      have onward : ∀ {n : Nat}, depthBehind kind x n = some depth' →
          (Closes kind n ⟨b :: before, x ++ t⟩ d ↔
            Closes kind depth' ⟨(b :: x).reverse ++ before, t⟩ d) := by
        intro n behind'
        rw [List.reverse_cons, List.append_assoc]
        exact append_iff distinct (fun a mem => inert a (List.mem_cons_of_mem _ mem)) behind'
      rw [List.cons_append, closes_cons_iff distinct plain]
      simp only [depthBehind] at behind
      split
      · rename_i opens
        rw [if_pos opens] at behind
        exact onward behind
      · rename_i noOpening
        rw [if_neg noOpening] at behind
        split
        · rename_i closing
          rw [if_pos closing] at behind
          cases depth with
          | zero => cases behind
          | succ n =>
              rw [← onward behind]
              simp
        · rename_i noClosing
          rw [if_neg noClosing] at behind
          exact onward behind

end Plain

/-! ## Aligned searches -/

section Search

variable {gap : Exchange} {kind : Bracket}

theorem distinct_of_known (known : kind = .paren ∨ kind = .brace) : kind.closing ≠ kind.opening := by
  rcases known with rfl | rfl <;> decide

/-- **From aligned places the search for a closing bracket comes to aligned places.** Behind the
bracket that it finds, the texts go on alike. -/
theorem Aligned.closes (lawful : Lawful gap) (known : kind = .paren ∨ kind = .brace) {m depth : Nat}
    {c c' d : Cursor} (length : c.after.length = m) (aligned : Aligned gap c c')
    (closes : Closes kind depth c d) :
    ∃ d', Closes kind depth c' d' ∧ Aligned gap (d.advance 1) (d'.advance 1) := by
  have distinct := distinct_of_known known
  induction m using Nat.strongRecOn generalizing c c' depth with
  | _ m ih =>
    have shorter : ∀ n, 0 < n → c.after ≠ [] → (c.advance n).after.length < m :=
      fun n pos more => length ▸ length_after_lt pos more
    have literal := aligned.literal lawful
    by_cases starts : c.literalLength = 0
    · have starts' := literal.zero_iff.mp starts
      obtain ⟨before, after⟩ := c
      obtain ⟨before', after'⟩ := c'
      have looks := aligned.looks
      have respelled := aligned.respelled
      dsimp only at respelled length
      cases respelled with
      | nil => cases closes with
          | here _ front => cases front
          | literal starts _ => exact absurd rfl starts
          | opening _ front _ => cases front
          | closing _ front _ => cases front
          | byte _ more _ _ _ => exact absurd rfl more
      | @byte b t t' other rest =>
          have onward : Aligned gap ⟨b :: before, t⟩ ⟨b :: before', t'⟩ :=
            ⟨rest, .inr ((looks_of_byte other looks).cons b)⟩
          have less := shorter 1 Nat.one_pos (List.cons_ne_nil b t)
          rw [closes_cons_iff distinct starts] at closes
          split at closes
          · rename_i opens
            obtain ⟨d', closes', behind⟩ := ih _ less rfl onward closes
            exact ⟨d', .opening starts' (congrArg some opens) closes', behind⟩
          · rename_i noOpening
            split at closes
            · rename_i closing
              rcases closes with ⟨rfl, rfl⟩ | ⟨n, rfl, closes⟩
              · exact ⟨_, .here starts' (congrArg some closing), onward⟩
              · obtain ⟨d', closes', behind⟩ := ih _ less rfl onward closes
                exact ⟨d', .closing starts' (congrArg some closing) closes', behind⟩
            · rename_i noClosing
              obtain ⟨d', closes', behind⟩ := ih _ less rfl onward closes
              refine ⟨d', (closes_cons_iff distinct starts').mpr ?_, behind⟩
              rwa [if_neg noOpening, if_neg noClosing]
      | @piece x x' t t' here rest =>
          obtain ⟨depth', behind, behind'⟩ := here.depth lawful known depth
          have onward : Aligned gap ⟨x.reverse ++ before, t⟩ ⟨x'.reverse ++ before', t'⟩ :=
            ⟨rest, .inr (here.looks lawful looks)⟩
          have less := shorter x.length (List.length_pos_iff.mpr (here.ne_nil lawful))
            (List.append_ne_nil_of_left_ne_nil (here.ne_nil lawful) t)
          rw [advance_append] at less
          rw [Closes.append_iff distinct (here.inert lawful) behind] at closes
          obtain ⟨d', closes', aligned'⟩ := ih _ less rfl onward closes
          exact ⟨d', (Closes.append_iff distinct (here.inert' lawful) behind').mpr closes', aligned'⟩
    · have more : c.after ≠ [] := by
        intro done
        apply starts
        rw [Cursor.literalLength, done]
        rfl
      have less := shorter c.literalLength (by omega) more
      cases closes with
      | here plain _ => exact absurd plain starts
      | literal _ rest =>
          obtain ⟨d', closes', behind⟩ := ih _ less rfl literal.aligned rest
          exact ⟨d', .literal (mt literal.zero_iff.mpr starts) closes', behind⟩
      | opening plain _ _ => exact absurd plain starts
      | closing plain _ _ => exact absurd plain starts
      | byte plain _ _ _ _ => exact absurd plain starts

/-- Behind the bracket that a search from an opening one has come to. -/
theorem Closes.advance_eq {c e : Cursor} (plain : opensLiteral kind.opening = false)
    (front : c.peek? = some kind.opening) (closes : Closes kind 0 (c.advance 1) e) :
    c.advance (e.offset + 1 - c.offset) = e.advance 1 := by
  have entered : Walk c (c.advance 1) := Walk.byte (literalLength_eq_zero_of_peek? front plain)
  have past : Walk c (e.advance 1) :=
    entered.trans (closes.walk.trans (Walk.byte closes.front.1))
  have goes := past.advance_sub
  rwa [offset_advance_one closes.front.2] at goes

section Opened

variable {c c' : Cursor}

/-- What the searches from two opening brackets come to: both fail, or both find a bracket behind
which the texts go on alike. -/
theorem closeOf?_respelled (lawful : Lawful gap) (known : kind = .paren ∨ kind = .brace)
    (front : c.peek? = some kind.opening) (front' : c'.peek? = some kind.opening)
    (inside : Aligned gap (c.advance 1) (c'.advance 1)) :
    (c.closeOf? kind = none ∧ c'.closeOf? kind = none) ∨
      ∃ n n', c.closeOf? kind = some n ∧ c'.closeOf? kind = some n' ∧
        Aligned gap (c.advance (n + 1 - c.offset)) (c'.advance (n' + 1 - c'.offset)) := by
  have distinct := distinct_of_known known
  have plain : opensLiteral kind.opening = false := by
    rcases known with rfl | rfl <;> decide
  cases closed : c.closeOf? kind with
  | some n =>
      obtain ⟨-, e, closes, rfl⟩ := (closeOf?_eq_some_iff distinct).mp closed
      obtain ⟨e', closes', aligned⟩ := inside.closes lawful known rfl closes
      have closed' := (closeOf?_eq_some_iff distinct).mpr ⟨front', e', closes', rfl⟩
      refine .inr ⟨_, _, rfl, closed', ?_⟩
      rwa [closes.advance_eq plain front, closes'.advance_eq plain front']
  | none =>
      refine .inl ⟨rfl, ?_⟩
      cases closed' : c'.closeOf? kind with
      | none => rfl
      | some n =>
          obtain ⟨-, e', closes', rfl⟩ := (closeOf?_eq_some_iff distinct).mp closed'
          obtain ⟨e, closes, -⟩ := inside.symm.closes lawful.flip known rfl closes'
          rw [(closeOf?_eq_some_iff distinct).mpr ⟨front, e, closes, rfl⟩] at closed
          cases closed

/-- Two scopes: neither is closed, or the texts go on alike behind them. -/
theorem scope_respelled (lawful : Lawful gap) (front : c.peek? = some openBrace)
    (front' : c'.peek? = some openBrace) (inside : Aligned gap (c.advance 1) (c'.advance 1)) :
    (∃ e e', c.scope = .error e ∧ c'.scope = .error e') ∨
      ∃ span span', c.scope = .ok span ∧ c'.scope = .ok span' ∧
        Aligned gap (c.advance (span.stop + 1 - c.offset)) (c'.advance (span'.stop + 1 - c'.offset)) := by
  unfold Cursor.scope
  rcases closeOf?_respelled lawful (.inr rfl) front front' inside with
    ⟨fails, fails'⟩ | ⟨n, n', found, found', aligned⟩
  · exact .inl ⟨⟨c.offset⟩, ⟨c'.offset⟩, by rw [fails], by rw [fails']⟩
  · exact .inr ⟨⟨c.offset, n⟩, ⟨c'.offset, n'⟩, by rw [found], by rw [found'], aligned⟩

end Opened

end Search

end ClassUpgrade.Source
