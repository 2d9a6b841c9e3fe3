/-
# Proofs.Source.Bracket — the search for a closing bracket as rules

The search counts brackets of one kind along the token walk. `Closes kind depth
c e` restates it as rules, one for each thing that can stand at a place: the
bracket looked for, a literal, an opening bracket, a closing one of a bracket
opened on the way, any other byte. The search answers exactly what the rules
derive (`closeFrom_eq_some_iff`), so that what holds of all searches is proved
by induction on them, or token by token (`Closes.literal_iff` to
`Closes.byte_iff`):

* a search goes on unchanged from every place of the walk that it comes by
  (`Closes.of_walk`);
* with fewer brackets to close it stops earlier (`Closes.earlier`), so a scope
  opened inside another ends inside it (`scope_inside`).
-/
import ClassUpgrade.Proofs.Source.Walk

namespace ClassUpgrade.Source

set_option autoImplicit false

open Byte Cursor

/-- The walk from the first place comes to the second, where the innermost bracket opened before
the walk is closed; `depth` brackets opened on the way have to be closed before. -/
inductive Closes (kind : Bracket) : Nat → Cursor → Cursor → Prop where
  | here {c : Cursor} (plain : c.literalLength = 0) (front : c.peek? = some kind.closing) :
      Closes kind 0 c c
  | literal {depth : Nat} {c e : Cursor} (starts : c.literalLength ≠ 0)
      (rest : Closes kind depth (c.advance c.literalLength) e) : Closes kind depth c e
  | opening {depth : Nat} {c e : Cursor} (plain : c.literalLength = 0)
      (front : c.peek? = some kind.opening) (rest : Closes kind (depth + 1) (c.advance 1) e) :
      Closes kind depth c e
  | closing {depth : Nat} {c e : Cursor} (plain : c.literalLength = 0)
      (front : c.peek? = some kind.closing) (rest : Closes kind depth (c.advance 1) e) :
      Closes kind (depth + 1) c e
  | byte {depth : Nat} {c e : Cursor} (plain : c.literalLength = 0) (more : c.after ≠ [])
      (noOpening : c.peek? ≠ some kind.opening) (noClosing : c.peek? ≠ some kind.closing)
      (rest : Closes kind depth (c.advance 1) e) : Closes kind depth c e

/-! ## The search follows the rules -/

theorem closes_of_closeFrom {kind : Bracket} : ∀ (t before : Text) (skip depth n : Nat),
    closeFrom kind before skip depth t = some n →
      ∃ e, Closes kind depth ((⟨before, t⟩ : Cursor).advance skip) e ∧ e.offset = n
  | [], before, skip, depth, n, found => by simp [closeFrom] at found
  | b :: rest, before, skip + 1, depth, n, found => by
      unfold closeFrom at found
      rw [advance_cons]
      exact closes_of_closeFrom rest (b :: before) skip depth n found
  | b :: rest, before, 0, depth, n, found => by
      unfold closeFrom at found
      dsimp only at found
      rw [advance_zero]
      split at found
      · rename_i k literal
        have length_eq : (⟨before, b :: rest⟩ : Cursor).literalLength = k + 1 := literal
        obtain ⟨e, closes, offset_eq⟩ := closes_of_closeFrom rest (b :: before) k depth n found
        refine ⟨e, .literal (by omega) ?_, offset_eq⟩
        rw [length_eq, advance_cons]
        exact closes
      · rename_i plain
        have onward : ∀ depth', closeFrom kind (b :: before) 0 depth' rest = some n →
            ∃ e, Closes kind depth' ((⟨before, b :: rest⟩ : Cursor).advance 1) e ∧
              e.offset = n :=
          fun depth' found' => closes_of_closeFrom rest (b :: before) 0 depth' n found'
        split at found
        · rename_i opens
          obtain ⟨e, closes, offset_eq⟩ := onward _ found
          exact ⟨e, .opening plain (congrArg some opens) closes, offset_eq⟩
        · rename_i noOpening
          split at found
          · rename_i front
            split at found
            · exact ⟨_, .here plain (congrArg some front), Option.some.inj found⟩
            · obtain ⟨e, closes, offset_eq⟩ := onward _ found
              exact ⟨e, .closing plain (congrArg some front) closes, offset_eq⟩
          · rename_i noClosing
            obtain ⟨e, closes, offset_eq⟩ := onward _ found
            exact ⟨e, .byte plain (by simp) (by simpa [peek?] using noOpening)
              (by simpa [peek?] using noClosing) closes, offset_eq⟩

/-- Bytes to pass over are passed over before anything is counted. -/
theorem closeFrom_skip (kind : Bracket) (depth : Nat) : ∀ (t before : Text) (skip : Nat),
    closeFrom kind before skip depth t =
      closeFrom kind ((⟨before, t⟩ : Cursor).advance skip).before 0 depth
        ((⟨before, t⟩ : Cursor).advance skip).after
  | t, before, 0 => rfl
  | [], before, skip + 1 => by rw [advance_of_nil rfl]; rfl
  | b :: rest, before, skip + 1 => by
      rw [advance_cons, ← closeFrom_skip kind depth rest (b :: before) skip, closeFrom]

theorem closeFrom_of_closes {kind : Bracket} (distinct : kind.closing ≠ kind.opening)
    {depth : Nat} {c e : Cursor} (closes : Closes kind depth c e) :
    closeFrom kind c.before 0 depth c.after = some e.offset := by
  induction closes with
  | @here c plain front =>
      obtain ⟨before, after⟩ := c
      obtain ⟨rest, rfl⟩ := peek?_eq_some_iff.mp front
      have plain' : literalLength before (kind.closing :: rest) = 0 := plain
      simp [closeFrom, plain', distinct, offset]
  | @literal depth c e starts _ ih =>
      obtain ⟨before, after⟩ := c
      cases after with
      | nil => exact absurd rfl starts
      | cons b rest =>
          obtain ⟨k, length_eq⟩ := Nat.exists_eq_succ_of_ne_zero starts
          have length_eq' : literalLength before (b :: rest) = k + 1 := length_eq
          rw [length_eq, advance_cons, ← closeFrom_skip] at ih
          simp [closeFrom, length_eq', ih]
  | @opening depth c e plain front _ ih =>
      obtain ⟨before, after⟩ := c
      obtain ⟨rest, rfl⟩ := peek?_eq_some_iff.mp front
      have plain' : literalLength before (kind.opening :: rest) = 0 := plain
      rw [advance_cons, advance_zero] at ih
      simpa [closeFrom, plain'] using ih
  | @closing depth c e plain front _ ih =>
      obtain ⟨before, after⟩ := c
      obtain ⟨rest, rfl⟩ := peek?_eq_some_iff.mp front
      have plain' : literalLength before (kind.closing :: rest) = 0 := plain
      rw [advance_cons, advance_zero] at ih
      simpa [closeFrom, plain', distinct] using ih
  | @byte depth c e plain more noOpening noClosing _ ih =>
      obtain ⟨before, after⟩ := c
      cases after with
      | nil => exact absurd rfl more
      | cons b rest =>
          have plain' : literalLength before (b :: rest) = 0 := plain
          have noOpening' : b ≠ kind.opening := by simpa [peek?] using noOpening
          have noClosing' : b ≠ kind.closing := by simpa [peek?] using noClosing
          rw [advance_cons, advance_zero] at ih
          simpa [closeFrom, plain', noOpening', noClosing'] using ih

/-- **The search for a closing bracket answers what the rules derive.** -/
theorem closeFrom_eq_some_iff {kind : Bracket} (distinct : kind.closing ≠ kind.opening)
    {depth n : Nat} {c : Cursor} :
    closeFrom kind c.before 0 depth c.after = some n ↔
      ∃ e, Closes kind depth c e ∧ e.offset = n := by
  constructor
  · exact closes_of_closeFrom c.after c.before 0 depth n
  · rintro ⟨e, closes, rfl⟩
    exact closeFrom_of_closes distinct closes

theorem closeOf?_eq_some_iff {kind : Bracket} (distinct : kind.closing ≠ kind.opening)
    {n : Nat} {c : Cursor} :
    c.closeOf? kind = some n ↔
      c.peek? = some kind.opening ∧ ∃ e, Closes kind 0 (c.advance 1) e ∧ e.offset = n := by
  simp only [closeOf?, Option.bind_eq_bind, Option.bind_eq_some_iff, expect?_eq_some_iff]
  constructor
  · rintro ⟨inside, ⟨front, rfl⟩, found⟩
    exact ⟨front, (closeFrom_eq_some_iff distinct).mp found⟩
  · rintro ⟨front, closes⟩
    exact ⟨_, ⟨front, rfl⟩, (closeFrom_eq_some_iff distinct).mpr closes⟩

/-! ## Along the walk -/

namespace Cursor

theorem pastToken_of_plain {c : Cursor} (plain : c.literalLength = 0) :
    c.pastToken = c.advance 1 := by
  rw [pastToken, plain]
  rfl

theorem pastToken_of_literal {c : Cursor} (starts : c.literalLength ≠ 0) :
    c.pastToken = c.advance c.literalLength := by
  rw [pastToken, Nat.max_eq_left (by omega)]

end Cursor

namespace Closes

variable {kind : Bracket} {depth : Nat} {c e : Cursor}

theorem walk (closes : Closes kind depth c e) : Walk c e := by
  induction closes with
  | here => exact .here _
  | literal _ _ ih => exact (Walk.literal _).trans ih
  | opening plain _ _ ih => exact (Walk.byte plain).trans ih
  | closing plain _ _ ih => exact (Walk.byte plain).trans ih
  | byte plain _ _ _ _ ih => exact (Walk.byte plain).trans ih

/-- The place that the search comes to has the closing bracket in front, outside literals. -/
theorem front (closes : Closes kind depth c e) :
    e.literalLength = 0 ∧ e.peek? = some kind.closing := by
  induction closes with
  | here plain front => exact ⟨plain, front⟩
  | literal _ _ ih => exact ih
  | opening _ _ _ ih => exact ih
  | closing _ _ _ ih => exact ih
  | byte _ _ _ _ _ ih => exact ih

/-- From every place of the walk that it comes by, the search goes on to the same bracket. -/
theorem of_walk {d : Cursor} (closes : Closes kind depth c e) (walk : Walk c d)
    (before : d.offset ≤ e.offset) : ∃ depth', Closes kind depth' d e := by
  induction closes with
  | here plain front =>
      rcases walk.eq_or_pastToken with rfl | later
      · exact ⟨_, .here plain front⟩
      · have := later.offset_le
        rw [pastToken_of_plain plain, offset_advance_one front] at this
        omega
  | literal starts rest ih =>
      rcases walk.eq_or_pastToken with rfl | later
      · exact ⟨_, .literal starts rest⟩
      · exact ih (pastToken_of_literal starts ▸ later) before
  | opening plain front rest ih =>
      rcases walk.eq_or_pastToken with rfl | later
      · exact ⟨_, .opening plain front rest⟩
      · exact ih (pastToken_of_plain plain ▸ later) before
  | closing plain front rest ih =>
      rcases walk.eq_or_pastToken with rfl | later
      · exact ⟨_, .closing plain front rest⟩
      · exact ih (pastToken_of_plain plain ▸ later) before
  | byte plain more noOpening noClosing rest ih =>
      rcases walk.eq_or_pastToken with rfl | later
      · exact ⟨_, .byte plain more noOpening noClosing rest⟩
      · exact ih (pastToken_of_plain plain ▸ later) before

/-- With fewer brackets to close the search stops at an earlier one. -/
theorem earlier {needed : Nat} (closes : Closes kind needed c e) :
    ∀ depth < needed, ∃ e', Closes kind depth c e' ∧ e'.offset < e.offset := by
  induction closes with
  | here => exact fun depth fewer => absurd fewer (by omega)
  | literal starts _ ih =>
      intro depth fewer
      obtain ⟨e', closes', lt⟩ := ih depth fewer
      exact ⟨e', .literal starts closes', lt⟩
  | opening plain front _ ih =>
      intro depth fewer
      obtain ⟨e', closes', lt⟩ := ih (depth + 1) (by omega)
      exact ⟨e', .opening plain front closes', lt⟩
  | closing plain front rest ih =>
      intro depth fewer
      cases depth with
      | zero =>
          refine ⟨_, .here plain front, ?_⟩
          have := rest.walk.offset_le
          rw [offset_advance_one front] at this
          omega
      | succ depth =>
          obtain ⟨e', closes', lt⟩ := ih depth (by omega)
          exact ⟨e', .closing plain front closes', lt⟩
  | byte plain more noOpening noClosing _ ih =>
      intro depth fewer
      obtain ⟨e', closes', lt⟩ := ih depth fewer
      exact ⟨e', .byte plain more noOpening noClosing closes', lt⟩

/-! ## Token by token -/

theorem ne_nil (closes : Closes kind depth c e) : c.after ≠ [] := by
  intro done
  cases closes with
  | here _ front => exact ne_nil_of_peek? front done
  | literal starts _ => exact starts (by rw [Cursor.literalLength, done]; rfl)
  | opening _ front _ => exact ne_nil_of_peek? front done
  | closing _ front _ => exact ne_nil_of_peek? front done
  | byte _ more _ _ _ => exact more done

theorem literal_iff (starts : c.literalLength ≠ 0) :
    Closes kind depth c e ↔ Closes kind depth (c.advance c.literalLength) e := by
  refine ⟨fun closes => ?_, .literal starts⟩
  cases closes with
  | literal _ rest => exact rest
  | here plain _ => exact absurd plain starts
  | opening plain _ _ => exact absurd plain starts
  | closing plain _ _ => exact absurd plain starts
  | byte plain _ _ _ _ => exact absurd plain starts

theorem opening_iff (distinct : kind.closing ≠ kind.opening) (plain : c.literalLength = 0)
    (front : c.peek? = some kind.opening) :
    Closes kind depth c e ↔ Closes kind (depth + 1) (c.advance 1) e := by
  have noClosing : c.peek? ≠ some kind.closing := by simp [front, distinct.symm]
  refine ⟨fun closes => ?_, .opening plain front⟩
  cases closes with
  | opening _ _ rest => exact rest
  | literal starts _ => exact absurd plain starts
  | here _ closing => exact absurd closing noClosing
  | closing _ closing _ => exact absurd closing noClosing
  | byte _ _ noOpening _ _ => exact absurd front noOpening

theorem here_iff (distinct : kind.closing ≠ kind.opening) (plain : c.literalLength = 0)
    (front : c.peek? = some kind.closing) : Closes kind 0 c e ↔ e = c := by
  have noOpening : c.peek? ≠ some kind.opening := by simp [front, distinct]
  constructor
  · intro closes
    cases closes with
    | here _ _ => rfl
    | literal starts _ => exact absurd plain starts
    | opening _ opening _ => exact absurd opening noOpening
    | byte _ _ _ noClosing _ => exact absurd front noClosing
  · rintro rfl
    exact .here plain front

theorem closing_iff (distinct : kind.closing ≠ kind.opening) (plain : c.literalLength = 0)
    (front : c.peek? = some kind.closing) :
    Closes kind (depth + 1) c e ↔ Closes kind depth (c.advance 1) e := by
  have noOpening : c.peek? ≠ some kind.opening := by simp [front, distinct]
  refine ⟨fun closes => ?_, .closing plain front⟩
  cases closes with
  | closing _ _ rest => exact rest
  | literal starts _ => exact absurd plain starts
  | opening _ opening _ => exact absurd opening noOpening
  | byte _ _ _ noClosing _ => exact absurd front noClosing

theorem byte_iff {b : UInt8} (plain : c.literalLength = 0) (front : c.peek? = some b)
    (noOpening : b ≠ kind.opening) (noClosing : b ≠ kind.closing) :
    Closes kind depth c e ↔ Closes kind depth (c.advance 1) e := by
  have noOpening : c.peek? ≠ some kind.opening := by simpa [front] using noOpening
  have noClosing : c.peek? ≠ some kind.closing := by simpa [front] using noClosing
  refine ⟨fun closes => ?_, .byte plain (ne_nil_of_peek? front) noOpening noClosing⟩
  cases closes with
  | byte _ _ _ _ rest => exact rest
  | here _ closing => exact absurd closing noClosing
  | literal starts _ => exact absurd plain starts
  | opening _ opening _ => exact absurd opening noOpening
  | closing _ closing _ => exact absurd closing noClosing

end Closes

/-! ## Scopes -/

theorem scope_eq_ok_iff {c : Cursor} {span : Span} :
    c.scope = .ok span ↔ c.peek? = some openBrace ∧
      ∃ e, Closes .brace 0 (c.advance 1) e ∧ span = ⟨c.offset, e.offset⟩ := by
  have found : ∀ n, c.closeOf? .brace = some n ↔
      c.peek? = some openBrace ∧ ∃ e, Closes .brace 0 (c.advance 1) e ∧ e.offset = n :=
    fun n => closeOf?_eq_some_iff (by decide)
  unfold Cursor.scope
  constructor
  · intro closed
    split at closed
    · rename_i stop stop_eq
      obtain ⟨front, e, closes, rfl⟩ := (found stop).mp stop_eq
      exact ⟨front, e, closes, (Except.ok.inj closed).symm⟩
    · cases closed
  · rintro ⟨front, e, closes, rfl⟩
    rw [(found e.offset).mpr ⟨front, e, closes, rfl⟩]

/-- **A scope opened inside another ends inside it.** -/
theorem scope_inside {c d : Cursor} {outer : Span} (closed : c.scope = .ok outer)
    (walk : Walk (c.advance 1) d) (inside : d.offset < outer.stop) (plain : d.literalLength = 0)
    (front : d.peek? = some openBrace) :
    ∃ inner, d.scope = .ok inner ∧ inner.stop < outer.stop := by
  obtain ⟨-, e, closes, rfl⟩ := scope_eq_ok_iff.mp closed
  obtain ⟨depth, onward⟩ := closes.of_walk walk (Nat.le_of_lt inside)
  -- the search from `d` has the bracket in front of `d` to close before its own
  have behind : Closes .brace (depth + 1) (d.advance 1) e := by
    cases onward with
    | here _ closing => rw [front] at closing; cases closing
    | literal starts _ => exact absurd plain starts
    | opening _ _ rest => exact rest
    | closing _ closing _ => rw [front] at closing; cases closing
    | byte _ _ noOpening _ _ => exact absurd front noOpening
  obtain ⟨e', closes', lt⟩ := behind.earlier 0 (by omega)
  exact ⟨_, scope_eq_ok_iff.mpr ⟨front, e', closes', rfl⟩, lt⟩

end ClassUpgrade.Source
