/-
# Proofs.Component.Extract — what is cut out of a document is read as in place

The properties and the methods of a registration are cut out of the document
and then scanned by themselves. The text between the braces of a scope loses
nothing by that: what stands before its first byte is an opening brace, which
speaks for an expression as the front of a text does, and no literal of its walk
reaches the closing brace (`inner_walk`, and `walk_of_inner` for the way back).

As every brace outside literals inside a scope is closed inside it
(`scope_inside`), it is closed in the text cut out too; so a scan of that text
for method entries always succeeds (`exists_methodEntries_inner`).
-/
import ClassUpgrade.Proofs.Component.Survey
import ClassUpgrade.Proofs.Source.Balance
import ClassUpgrade.Proofs.Source.Method
import ClassUpgrade.Proofs.Source.Within
import ClassUpgrade.Proofs.Text.Part

namespace ClassUpgrade.Source

set_option autoImplicit false

open Byte Cursor

/-- The surroundings of the inner text of a scope are brackets. -/
theorem exists_gap {c : Cursor} {span : Span} (closed : c.scope = .ok span) :
    ∃ gap : Cursor, gap.Bracketed ∧ gap.after ≠ [] ∧
      (start (span.inner c.text)).within gap = c.advance 1 ∧ gap.offset = c.offset + 1 ∧
      gap.offset + (span.inner c.text).length = span.stop := by
  obtain ⟨front, e, closes, rfl⟩ := scope_eq_ok_iff.mp closed
  have forward := closes.walk.offset_le
  rw [offset_advance_one front] at forward
  have same : e.text = c.text := closes.walk.text_eq.trans (text_advance c 1)
  have short : e.offset ≤ c.text.length := same ▸ e.offset_le_length
  have inside_after : (c.advance 1).after = c.text.drop (c.offset + 1) := by
    conv_lhs => rw [← ofOffset_offset c, advance_ofOffset]
    rfl
  have e_after : e.after = c.text.drop e.offset := by
    conv_lhs => rw [← ofOffset_offset e, same]
    rfl
  obtain ⟨rest, brace⟩ := peek?_eq_some_iff.mp front
  obtain ⟨rest', closer⟩ := peek?_eq_some_iff.mp closes.front.2
  have gap_offset : (⟨(c.advance 1).before, e.after⟩ : Cursor).offset = c.offset + 1 :=
    offset_advance_one front
  refine ⟨⟨(c.advance 1).before, e.after⟩, ⟨?_, ?_⟩, by simp [closer], ?_, gap_offset, ?_⟩
  · simp [EndsOperator, advance, brace]
    decide
  · simp [OpensClosing, closer]
    decide
  · simp only [within, start, List.nil_append, Span.inner, e_after]
    rw [Text.slice_append_drop _ forward, ← inside_after]
  · rw [gap_offset, Span.inner, Text.length_slice c.text short]
    exact Nat.add_sub_cancel' forward

section Inner

variable {c : Cursor} {span : Span}

/-- The walk of a scope comes by its closing brace. -/
theorem scope_stop_walk (closed : c.scope = .ok span) :
    ∃ e, Walk (c.advance 1) e ∧ e.offset = span.stop := by
  obtain ⟨-, e, closes, rfl⟩ := scope_eq_ok_iff.mp closed
  exact ⟨e, closes.walk, rfl⟩

/-- A token of the walk of a scope ends in front of its closing brace. -/
theorem pastToken_le_stop (closed : c.scope = .ok span) {d : Cursor} (walk : Walk (c.advance 1) d)
    (inside : d.offset < span.stop) : d.pastToken.offset ≤ span.stop := by
  obtain ⟨e, whole, stop_eq⟩ := scope_stop_walk closed
  rcases walk.comparable whole with onward | back
  · rcases onward.eq_or_pastToken with rfl | later
    · omega
    · exact stop_eq ▸ later.offset_le
  · have := back.offset_le
    omega

/-- **The inner text of a scope is read by itself as it is read in place**: the walk comes by the
same places, and at each of them the same literal starts. -/
theorem inner_walk (closed : c.scope = .ok span) {d : Cursor} (walk : Walk (c.advance 1) d)
    (inside : d.offset < span.stop) :
    Walk (start (span.inner c.text)) (ofOffset (span.inner c.text) (d.offset - (c.offset + 1))) ∧
      (ofOffset (span.inner c.text) (d.offset - (c.offset + 1))).literalLength =
        d.literalLength := by
  obtain ⟨gap, bracketed, bounded, entered, gap_offset, stop_eq⟩ := exists_gap closed
  have near := pastToken_le_stop closed walk inside
  rw [← entered] at walk
  obtain ⟨e, rfl, text_eq, moved⟩ := walk.moved bracketed bracketed_start bounded _ rfl
    (by rw [text_start]; omega) (.inl rfl)
  rw [within_start, within_start] at moved
  rw [text_start] at text_eq
  have place : ofOffset (span.inner c.text) ((e.within gap).offset - (c.offset + 1)) = e := by
    rw [offset_within, gap_offset, Nat.add_sub_cancel, ← text_eq, ofOffset_offset]
  rw [place]
  refine ⟨moved, ?_⟩
  have fits : max (e.within gap).literalLength 1 ≤ e.after.length :=
    le_of_advance_within bounded (by rw [text_eq, stop_eq]; exact near)
  rw [← literalLength_within bracketed bracketed_start bounded (by omega) (.inl rfl), within_start]

/-- Every place of the walk of the inner text is one of the walk in place. -/
theorem walk_of_inner {gap : Cursor} (bracketed : gap.Bracketed) (bounded : gap.after ≠ [])
    {p d : Cursor} (walk : Walk p d) : ∀ e : Cursor, p = e.within gap →
      d.offset = gap.offset + e.text.length →
        ∀ e', Walk e e' → Walk (e.within gap) (e'.within gap) := by
  induction walk with
  | here p =>
      rintro e rfl at_end e' inner
      have done : e.after = [] := by
        have := e.offset_add_length
        rw [offset_within] at at_end
        exact List.eq_nil_of_length_eq_zero (by omega)
      obtain rfl := inner.eq_of_nil done
      exact .here _
  | @token p d more rest ih =>
      rintro e rfl at_end e' inner
      obtain ⟨past, past', same, -⟩ := advance_moved bracketed bracketed_start bounded (.inl rfl)
        (Nat.le_max_left _ 1) (by omega) (at_end ▸ rest.offset_le)
      rw [within_start] at same past'
      have token : e.pastToken = e.advance (max (e.within gap).literalLength 1) := by
        rw [pastToken, same]
      rcases inner.eq_or_pastToken with rfl | later
      · exact .here _
      · rw [token] at later
        refine .token more ?_
        rw [pastToken, past]
        exact ih _ past (by rwa [text_advance]) e' later

/-- A brace outside literals of the inner text is closed in it. -/
theorem exists_scope_inner (closed : c.scope = .ok span) {e : Cursor}
    (walk : Walk (start (span.inner c.text)) e) (plain : e.literalLength = 0)
    (front : e.peek? = some openBrace) : ∃ inner, e.scope = .ok inner := by
  obtain ⟨gap, bracketed, bounded, entered, gap_offset, stop_eq⟩ := exists_gap closed
  obtain ⟨last, whole, last_eq⟩ := scope_stop_walk closed
  rw [← entered] at whole
  have in_place := walk_of_inner bracketed bounded whole _ rfl (by rw [text_start]; omega) e walk
  rw [entered] at in_place
  have text_eq : e.text = span.inner c.text := walk.text_eq.trans (text_start _)
  have short := offset_lt_of_peek? front
  have more := ne_nil_of_peek? front
  have before_stop : (e.within gap).offset < span.stop := by
    rw [offset_within]
    rw [text_eq] at short
    omega
  have plain' : (e.within gap).literalLength = 0 := by
    rw [← (inner_walk closed in_place before_stop).2, offset_within, gap_offset,
      Nat.add_sub_cancel, ← text_eq, ofOffset_offset, plain]
  obtain ⟨inner, scope_eq, lt⟩ := scope_inside closed in_place before_stop plain'
    ((peek?_within more gap).trans front)
  obtain ⟨-, f, closes, rfl⟩ := scope_eq_ok_iff.mp scope_eq
  rw [advance_within (List.length_pos_iff.mpr more)] at closes
  obtain ⟨f', -, -, closes'⟩ := closes.moved bracketed bracketed_start bounded (e.advance 1) rfl
    (.inl (by rw [text_advance, text_eq, stop_eq]; exact lt)) (.inl rfl)
  rw [within_start, within_start] at closes'
  exact ⟨_, scope_eq_ok_iff.mpr ⟨front, f', closes', rfl⟩⟩

/-- **The inner text of a scope has its method entries listed**, whatever it holds. -/
theorem exists_methodEntries_inner (closed : c.scope = .ok span) :
    ∃ entries, methodEntries (span.inner c.text) = .ok entries := by
  obtain ⟨matches_, ok⟩ := (lists_methodMatches (span.inner c.text)).exists_ok
    fun e walk plain front => exists_scope_inner closed walk plain front
  exact ⟨_, by rw [methodEntries, ok]; rfl⟩

end Inner

end ClassUpgrade.Source

namespace ClassUpgrade.Component

set_option autoImplicit false

open Byte Source Source.Cursor

/-- The methods of a registration of a document have their entries listed. -/
theorem exists_methodEntries {doc : Text} {found : List Registration}
    (surveyed : registrations doc = .ok found) {r : Registration} (mem : r ∈ found) :
    ∃ entries, methodEntries (r.definition doc).methods = .ok entries := by
  obtain ⟨d, brace, name, walk, -, -, head, completed⟩ :=
    (surveys_registrations surveyed).read_of_mem r mem
  obtain ⟨-, -, scopes⟩ := complete_scopes completed
  cases methods_eq : r.methods with
  | none =>
      exact ⟨[], by simp [Registration.definition, methods_eq]; rfl⟩
  | some span =>
      obtain ⟨-, e, onward, closed⟩ := scopes span methods_eq
      have text_eq : e.text = doc := by
        rw [onward.text_eq, (registrationHead?_walk head).1.text_eq, walk.text_eq, text_start]
      have listed := exists_methodEntries_inner closed
      rw [text_eq] at listed
      simpa [Registration.definition, methods_eq] using listed

/-- **What is cut out of a document is read as it is in place.** From behind the opening brace of a
scope to its closing brace, the walk of the inner text by itself comes by the place of each place
of the walk in the document, and the literal that starts there ends at the same byte. So a scan
of the inner text for method entries never fails, and none fails for the methods of a
registration. -/
theorem extracted_alike (doc : Text) :
    (∀ (start : Int) (stop : Nat), scopeEnd doc start = .ok stop →
      let first := start.toNat + 1
      let inner := doc.slice first stop
      (∀ d, Walk (ofOffset doc first) d → d.offset < stop →
        let e := ofOffset inner (d.offset - first)
        Walk (Cursor.start inner) e ∧
          e.offset + e.literalLength + first = d.offset + d.literalLength) ∧
      ∃ entries, methodEntries inner = .ok entries) ∧
    ∀ found, registrations doc = .ok found → ∀ r ∈ found,
      ∃ entries, methodEntries (r.definition doc).methods = .ok entries := by
  refine ⟨fun start stop found => ?_, fun found surveyed r mem => exists_methodEntries surveyed mem⟩
  intro first inner
  have closed := scope_of_scopeEnd found
  have offset_eq : (ofOffset doc start.toNat).offset = start.toNat := (scope_walk closed).1.symm
  have inner_eq : (⟨start.toNat, stop⟩ : Span).inner (ofOffset doc start.toNat).text = inner := by
    rw [text_ofOffset]
    rfl
  refine ⟨fun d walk inside => ?_, inner_eq ▸ exists_methodEntries_inner closed⟩
  rw [← advance_ofOffset] at walk
  obtain ⟨alike, same⟩ := inner_walk closed walk inside
  rw [inner_eq, offset_eq] at alike same
  refine ⟨alike, ?_⟩
  have entered : first ≤ d.offset := by
    have := walk.offset_le
    rw [offset_advance_one (scope_eq_ok_iff.mp closed).1, offset_eq] at this
    exact this
  have inner_length : inner.length = stop - first := by
    have short := (scope_walk closed).2.2.1
    rw [text_ofOffset] at short
    exact Text.length_slice doc (Nat.le_of_lt short)
  have place : (ofOffset inner (d.offset - first)).offset = d.offset - first := by
    rw [offset_ofOffset]
    omega
  rw [place, same]
  omega

/-- In the methods, a parameter group that holds a brace of its own, and a slash right behind an
opening brace that starts a regular expression. -/
theorem methods_extracted_alike :
    let doc := utf8 "WL.registerComponent('a', \x7b\x7d, \x7bb: function(c = \x7b\x7d) \x7b/\x7d/\x7d\x7d)"
    scopeEnd doc 30 = .ok 56 ∧
      (∃ e, Walk (Cursor.start (doc.slice 31 56)) e ∧ e.offset + e.literalLength + 31 = 55) ∧
      ∃ found, registrations doc = .ok found ∧ ∃ r ∈ found,
        ∃ entries, methodEntries (r.definition doc).methods = .ok entries := by
  intro doc
  have closed : scopeEnd doc 30 = .ok 56 := by rfl
  have surveyed : registrations doc = .ok [⟨0, 58, utf8 "a", ⟨26, 27⟩, some ⟨30, 56⟩⟩] := by rfl
  obtain ⟨scopes, methods⟩ := extracted_alike doc
  obtain ⟨alike, -⟩ := scopes 30 56 closed
  have walk : Walk (ofOffset doc 31) ((ofOffset doc 31).advance 21) :=
    Walk.plainRun 21 _ fun b mem => by
      have plain : ((ofOffset doc 31).after.take 21).all (fun b => !opensLiteral b) = true := by
        decide
      simpa using List.all_eq_true.mp plain b mem
  obtain ⟨onward, ends⟩ := alike _ walk (by decide)
  exact ⟨closed, ⟨_, onward, ends.trans (by rfl)⟩, _, surveyed, _, List.mem_cons_self,
    methods _ surveyed _ List.mem_cons_self⟩

end ClassUpgrade.Component
