/-
# Proofs.Component.Symbol — symbol rules keep to whole words

A rule is applied in one walk over a text. `Applies r c out` restates it as
rules, one for each thing that can happen at a place: the end of the text, an
occurrence that is replaced, a byte that is copied.

The rules of this library are fenced (`Fenced`): an occurrence starts where a
word starts, and where it ends either the word in the text has ended or what is
put in its place ends with no word byte. So a rule makes a word neither longer
nor shorter on its way past it (`Applies.word_kept`), and a word that occurs
neither in a text nor in what the rule puts in occurs nowhere in the result
(`Applies.keeps_out`).
-/
import ClassUpgrade.Component.Symbol
import ClassUpgrade.Proofs.Source.Cursor
import ClassUpgrade.Proofs.Text.Part

namespace ClassUpgrade.Component

set_option autoImplicit false

open Byte Source Source.Cursor

/-! ## Word bytes on a side -/

theorem facesWord_eq_false_iff {side : Text} :
    facesWord side = false ↔ ∀ b ∈ side.head?, isSymbolByte b = false := by
  cases side <;> simp [facesWord]

theorem facesWord_append {x : Text} (ne_nil : x ≠ []) (y : Text) :
    facesWord (x ++ y) = facesWord x := by
  obtain ⟨b, rest, rfl⟩ := List.exists_cons_of_ne_nil ne_nil
  rfl

theorem ne_nil_of_facesWord {t : Text} (faces : facesWord t = true) : t ≠ [] := by
  rintro rfl
  cases faces

/-! ## Matches -/

section Match

variable {c : Cursor} {n : Nat} {captured : Text}

theorem match?_edge_iff : Atom.edge.match? c = some (n, captured) ↔
    (facesWord c.before ≠ facesWord c.after) ∧ n = 0 ∧ captured = [] := by
  simp only [Atom.match?, bne_iff_ne, ne_eq]
  split <;> simp_all [eq_comm]

theorem match?_exact_iff {t : Text} : (Atom.exact t).match? c = some (n, captured) ↔
    t <+: c.after ∧ n = t.length ∧ captured = [] := by
  simp only [Atom.match?, Text.startsWith, List.isPrefixOf_iff_prefix]
  split <;> simp_all [eq_comm]

theorem match?_oneOf {names : List Text}
    (found : (Atom.oneOf names).match? c = some (n, captured)) :
    captured ∈ names ∧ captured <+: c.after ∧ n = captured.length := by
  simp only [Atom.match?, Option.map_eq_some_iff, Prod.mk.injEq] at found
  obtain ⟨name, first, rfl, rfl⟩ := found
  have leads := List.find?_some first
  exact ⟨List.mem_of_find?_eq_some first, List.isPrefixOf_iff_prefix.mp leads, rfl⟩

theorem match?_word (found : Atom.word.match? c = some (n, captured)) :
    captured = c.after.takeWhile isSymbolByte := by
  simp only [Atom.match?] at found
  split at found
  · cases found
  · exact (Prod.mk.inj (Option.some.inj found)).2.symm

theorem match?_blanks {least : Nat} (found : (Atom.blanks least).match? c = some (n, captured)) :
    captured = [] := by
  simp only [Atom.match?] at found
  split at found
  · exact (Prod.mk.inj (Option.some.inj found)).2.symm
  · cases found

/-- A match of a pattern is a match of its first atom and one of the others behind it. -/
theorem matchPattern?_cons_iff {atom : Atom} {rest : List Atom} :
    matchPattern? c (atom :: rest) = some (n, captured) ↔
      ∃ first last, ∃ taken more, atom.match? c = some (first, taken) ∧
        matchPattern? (c.advance first) rest = some (last, more) ∧
        n = first + last ∧ captured = taken ++ more := by
  simp only [matchPattern?, Option.bind_eq_bind, Option.bind_eq_some_iff, Option.some.injEq,
    Prod.mk.injEq, Prod.exists]
  constructor
  · rintro ⟨first, taken, found, last, more, found', rfl, rfl⟩
    exact ⟨first, last, taken, more, found, found', rfl, rfl⟩
  · rintro ⟨first, last, taken, more, found, found', rfl, rfl⟩
    exact ⟨first, taken, found, last, more, found', rfl, rfl⟩

def Atom.isSilent : Atom → Bool
  | .edge | .exact _ | .blanks _ => true
  | .oneOf _ | .word => false

theorem match?_silent {atom : Atom} (silent : atom.isSilent = true)
    (found : atom.match? c = some (n, captured)) : captured = [] := by
  cases atom with
  | edge => exact (match?_edge_iff.mp found).2.2
  | exact t => exact (match?_exact_iff.mp found).2.2
  | blanks least => exact match?_blanks found
  | oneOf names => cases silent
  | word => cases silent

theorem captured_of_silent : ∀ {pattern : List Atom} {c : Cursor} {n : Nat} {captured : Text},
    (∀ atom ∈ pattern, atom.isSilent = true) → matchPattern? c pattern = some (n, captured) →
      captured = []
  | [], c, n, captured, _, found => (Prod.mk.inj (Option.some.inj found)).2.symm
  | atom :: rest, c, n, captured, silent, found => by
      obtain ⟨_, _, taken, more, first, later, -, rfl⟩ := matchPattern?_cons_iff.mp found
      rw [match?_silent (silent atom List.mem_cons_self) first,
        captured_of_silent (fun a mem => silent a (List.mem_cons_of_mem _ mem)) later]
      rfl

/-- A pattern with one atom that is not silent captures what that atom does, further on. -/
theorem captured_between : ∀ (front : List Atom) (atom : Atom) (back : List Atom) {c : Cursor}
    {n : Nat} {captured : Text}, (∀ a ∈ front ++ back, a.isSilent = true) →
      matchPattern? c (front ++ atom :: back) = some (n, captured) →
        ∃ m k, atom.match? (c.advance m) = some (k, captured)
  | [], atom, back, c, n, captured, silent, found => by
      obtain ⟨k, _, taken, more, first, later, -, rfl⟩ := matchPattern?_cons_iff.mp found
      rw [captured_of_silent silent later, List.append_nil]
      exact ⟨0, k, first⟩
  | a :: front, atom, back, c, n, captured, silent, found => by
      obtain ⟨m, _, taken, more, first, later, -, rfl⟩ := matchPattern?_cons_iff.mp found
      obtain ⟨m', k, here⟩ := captured_between front atom back
        (fun a mem => silent a (List.mem_cons_of_mem _ mem)) later
      rw [match?_silent (silent a List.mem_cons_self) first, List.nil_append]
      exact ⟨m + m', k, by rwa [← advance_advance]⟩

end Match

/-! ## The application of a rule as rules -/

/-- What applying a rule from a place on comes to. -/
inductive Applies (r : SymbolRule) : Cursor → Text × List Import → Prop where
  | finish {c : Cursor} (done : c.after = []) : Applies r c ([], [])
  | replace {c : Cursor} {n : Nat} {captured text : Text} {imports : List Import}
      (more : c.after ≠ []) (found : matchPattern? c r.pattern = some (n, captured))
      (rest : Applies r (c.advance (max n 1)) (text, imports)) :
      Applies r c (r.replacement.expand captured ++ text, r.importsOf captured ++ imports)
  | copy {c : Cursor} {b : UInt8} {text : Text} {imports : List Import}
      (front : c.peek? = some b) (other : matchPattern? c r.pattern = none)
      (rest : Applies r (c.advance 1) (text, imports)) : Applies r c (b :: text, imports)

/-- A rule is applied by these rules, from the place where the bytes to leave out end. -/
theorem applies_applyFrom (r : SymbolRule) : ∀ (t before : Text) (skip : Nat),
    Applies r ((⟨before, t⟩ : Cursor).advance skip) (r.applyFrom before skip t)
  | [], before, skip => by
      rw [advance_of_nil rfl]
      exact .finish rfl
  | b :: rest, before, skip + 1 => by
      rw [advance_cons]
      exact applies_applyFrom r rest (b :: before) skip
  | b :: rest, before, 0 => by
      rw [advance_zero]
      unfold SymbolRule.applyFrom
      dsimp only
      split
      · rename_i n captured found
        refine .replace (by simp) found ?_
        rw [show max n 1 = n - 1 + 1 by omega, advance_cons]
        exact applies_applyFrom r rest (b :: before) (n - 1)
      · rename_i other
        exact .copy rfl other (applies_applyFrom r rest (b :: before) 0)

theorem applies_apply (r : SymbolRule) (t : Text) : Applies r (start t) (r.apply t) :=
  applies_applyFrom r t [] 0

/-! ## Fences -/

/-- A rule is fenced when each occurrence starts where a word starts, and where it ends either the
word in the text has ended or what is put in its place ends with no word byte. -/
structure SymbolRule.Fenced (r : SymbolRule) : Prop where
  starts : ∀ {c : Cursor} {n : Nat} {captured : Text},
    matchPattern? c r.pattern = some (n, captured) →
      0 < n ∧ facesWord c.before = false ∧ facesWord c.after = true
  ends : ∀ {c : Cursor} {n : Nat} {captured : Text},
    matchPattern? c r.pattern = some (n, captured) →
      facesWord (r.replacement.expand captured).reverse = false ∨
        facesWord (c.advance n).after = false

namespace Applies

variable {r : SymbolRule} {c : Cursor} {out : Text × List Import}

/-- Where no word is in front, none is put there. -/
theorem facesWord_eq_false (fenced : r.Fenced) (applies : Applies r c out)
    (none : facesWord c.after = false) : facesWord out.1 = false := by
  cases applies with
  | finish => rfl
  | replace _ found _ =>
      rw [(fenced.starts found).2.2] at none
      cases none
  | copy front _ _ =>
      obtain ⟨rest, after_eq⟩ := peek?_eq_some_iff.mp front
      rw [after_eq] at none
      exact none

/-- Inside a word, the rest of the word is copied and not made longer. -/
theorem word_kept (fenced : r.Fenced) (applies : Applies r c out) :
    facesWord c.before = true → ∀ p : Text, (∀ b ∈ p, isSymbolByte b = true) → p <+: out.1 →
      p <+: c.after := by
  induction applies with
  | finish => exact fun _ p _ leads => List.prefix_nil.mp leads ▸ List.nil_prefix
  | replace _ found _ _ =>
      intro inside
      rw [(fenced.starts found).2.1] at inside
      cases inside
  | @copy c b text imports front _ _ ih =>
      intro _ p symbols leads
      obtain ⟨rest, after_eq⟩ := peek?_eq_some_iff.mp front
      rw [after_eq]
      cases p with
      | nil => exact List.nil_prefix
      | cons a p =>
          obtain ⟨rfl, leads'⟩ := List.cons_prefix_cons.mp leads
          have inside : facesWord (c.advance 1).before = true := by
            simp [advance, after_eq, facesWord, symbols a List.mem_cons_self]
          have kept := ih inside p (fun x mem => symbols x (List.mem_cons_of_mem _ mem)) leads'
          rw [after_advance, after_eq] at kept
          exact List.cons_prefix_cons.mpr ⟨rfl, kept⟩

/-- **A word stays out of a text**: where it occurs neither in the text nor in what a fenced rule
puts in, it does not occur in the result. -/
theorem keeps_out {part : Text} (symbols : ∀ b ∈ part, isSymbolByte b = true) (ne_nil : part ≠ [])
    (fenced : r.Fenced)
    (absent : ∀ {c : Cursor} {n : Nat} {captured : Text},
      matchPattern? c r.pattern = some (n, captured) → ¬ part <:+: c.after →
        ¬ part <:+: r.replacement.expand captured)
    (applies : Applies r c out) : ¬ part <:+: c.after → ¬ part <:+: out.1 := by
  induction applies with
  | finish => exact fun _ inside => ne_nil (List.infix_nil.mp inside)
  | @replace c n captured text imports _ found rest ih =>
      intro free inside
      obtain ⟨pos, -, -⟩ := fenced.starts found
      rw [Nat.max_eq_left pos] at rest ih
      have later : ¬ part <:+: text :=
        ih fun behind => free (behind.trans (List.drop_suffix n c.after).isInfix)
      have seam : (∀ b ∈ (r.replacement.expand captured).getLast?, isSymbolByte b = false) ∨
          ∀ b ∈ text.head?, isSymbolByte b = false := by
        refine (fenced.ends found).imp (fun last => ?_) fun ended => ?_
        · rwa [facesWord_eq_false_iff, List.head?_reverse] at last
        · exact facesWord_eq_false_iff.mp (rest.facesWord_eq_false fenced ended)
      rcases Text.infix_of_seam symbols seam inside with new | old
      · exact absent found free new
      · exact later old
  | @copy c b text imports front _ rest ih =>
      intro free inside
      obtain ⟨tail, after_eq⟩ := peek?_eq_some_iff.mp front
      have tail_eq : (c.advance 1).after = tail := by simp [after_advance, after_eq]
      rw [tail_eq] at ih
      rcases List.infix_cons_iff.mp inside with leads | behind
      · obtain ⟨a, p, rfl⟩ := List.exists_cons_of_ne_nil ne_nil
        obtain ⟨rfl, leads'⟩ := List.cons_prefix_cons.mp leads
        have inWord : facesWord (c.advance 1).before = true := by
          simp [advance, after_eq, facesWord, symbols a List.mem_cons_self]
        have kept := rest.word_kept fenced inWord p
          (fun x mem => symbols x (List.mem_cons_of_mem _ mem)) leads'
        rw [tail_eq] at kept
        rw [after_eq] at free
        exact free (List.cons_prefix_cons.mpr ⟨rfl, kept⟩).isInfix
      · exact ih (fun inside' => free (after_eq ▸ List.infix_cons inside')) behind

end Applies

/-! ## The rules are fenced -/

section Rules

variable {c : Cursor} {n : Nat} {captured : Text}

/-- A pattern that opens with an edge and a word starts where a word starts. -/
theorem starts_of_word {t : Text} {rest : List Atom} (word : facesWord t = true)
    (found : matchPattern? c (.edge :: .exact t :: rest) = some (n, captured)) :
    0 < n ∧ facesWord c.before = false ∧ facesWord c.after = true := by
  obtain ⟨_, _, _, _, edge, found', rfl, -⟩ := matchPattern?_cons_iff.mp found
  obtain ⟨differ, rfl, -⟩ := match?_edge_iff.mp edge
  obtain ⟨_, _, _, _, exact, -, rfl, -⟩ := matchPattern?_cons_iff.mp found'
  obtain ⟨⟨y, after_eq⟩, rfl, -⟩ := match?_exact_iff.mp exact
  have ne_nil := ne_nil_of_facesWord word
  have after : facesWord c.after = true := by
    rw [← advance_zero c, ← after_eq, facesWord_append ne_nil, word]
  rw [after] at differ
  refine ⟨?_, by simpa using differ, after⟩
  have := List.length_pos_iff.mpr ne_nil
  omega

/-- An edge behind the last byte of a word is the end of the word. -/
theorem ends_of_edge {t : Text} {k : Nat} {captured : Text} (word : facesWord t.reverse = true)
    (leads : t <+: c.after) (edge : Atom.edge.match? (c.advance t.length) = some (k, captured)) :
    facesWord (c.advance t.length).after = false := by
  obtain ⟨y, after_eq⟩ := leads
  obtain ⟨differ, -⟩ := match?_edge_iff.mp edge
  have before : facesWord (c.advance t.length).before = true := by
    have : (c.advance t.length).before = t.reverse ++ c.before := by simp [advance, ← after_eq]
    rw [this, facesWord_append (ne_nil_of_facesWord word), word]
  rw [before] at differ
  simpa using differ

/-- A rule for a whole word is fenced. -/
theorem fenced_wholeWord {r : SymbolRule} {t : Text}
    (pattern_eq : r.pattern = [.edge, .exact t, .edge])
    (first : facesWord t = true) (last : facesWord t.reverse = true) : r.Fenced where
  starts found := starts_of_word first (pattern_eq ▸ found)
  ends := by
    intro c n captured found
    rw [pattern_eq] at found
    obtain ⟨_, _, _, _, edge, found₁, rfl, -⟩ := matchPattern?_cons_iff.mp found
    obtain ⟨-, rfl, -⟩ := match?_edge_iff.mp edge
    obtain ⟨_, _, _, _, exact, found₂, rfl, -⟩ := matchPattern?_cons_iff.mp found₁
    obtain ⟨leads, rfl, -⟩ := match?_exact_iff.mp exact
    obtain ⟨_, _, _, _, edge', found₃, rfl, -⟩ := matchPattern?_cons_iff.mp found₂
    obtain ⟨-, rfl, -⟩ := match?_edge_iff.mp edge'
    obtain ⟨rfl, -⟩ := Prod.mk.inj (Option.some.inj found₃)
    rw [advance_zero] at leads edge'
    refine .inr ?_
    simpa using ends_of_edge last leads edge'

/-- A rule that puts no word byte last is fenced. -/
theorem fenced_of_trail {r : SymbolRule} {t : Text} {rest : List Atom}
    (pattern_eq : r.pattern = .edge :: .exact t :: rest) (first : facesWord t = true)
    (ne_nil : r.replacement.trail ≠ []) (last : facesWord r.replacement.trail.reverse = false) :
    r.Fenced where
  starts found := starts_of_word first (pattern_eq ▸ found)
  ends := by
    intro c n captured found
    refine .inl ?_
    rw [Template.expand, List.reverse_append, facesWord_append (by simpa using ne_nil), last]

theorem fenced_globalRule : globalRule.Fenced where
  starts found := starts_of_word (by decide) found
  ends := by
    intro c n captured found
    obtain ⟨_, _, _, _, edge, found₁, rfl, -⟩ := matchPattern?_cons_iff.mp found
    obtain ⟨-, rfl, -⟩ := match?_edge_iff.mp edge
    obtain ⟨_, _, _, _, exact, found₂, rfl, -⟩ := matchPattern?_cons_iff.mp found₁
    obtain ⟨leads, rfl, -⟩ := match?_exact_iff.mp exact
    obtain ⟨_, _, name, _, oneOf, found₃, rfl, -⟩ := matchPattern?_cons_iff.mp found₂
    obtain ⟨mem, leads', rfl⟩ := match?_oneOf oneOf
    obtain ⟨_, _, _, _, edge', found₄, rfl, -⟩ := matchPattern?_cons_iff.mp found₃
    obtain ⟨-, rfl, -⟩ := match?_edge_iff.mp edge'
    obtain ⟨rfl, -⟩ := Prod.mk.inj (Option.some.inj found₄)
    rw [advance_zero] at leads leads' edge'
    have word : ∀ name ∈ engineGlobals, facesWord (utf8 "WL." ++ name).reverse = true := by decide
    have whole : utf8 "WL." ++ name <+: c.after := by
      obtain ⟨y, after_eq⟩ := leads
      rw [after_advance, ← after_eq, List.drop_left] at leads'
      rw [← after_eq]
      exact (List.prefix_append_right_inj _).mpr leads'
    rw [advance_advance, ← List.length_append] at edge'
    refine .inr ?_
    have ended := ends_of_edge (word name mem) whole edge'
    simpa [Nat.add_assoc] using ended

theorem fenced_propertyTypeRule : propertyTypeRule.Fenced where
  starts found := starts_of_word (by decide) found
  ends := by
    intro c n captured found
    rw [captured_of_silent (by decide) found]
    exact .inl rfl

/-- The rules for method bodies are fenced. -/
theorem fenced_of_mem {r : SymbolRule} (mem : r ∈ defaultSymbolTable) : r.Fenced := by
  simp only [defaultSymbolTable, List.mem_cons, List.not_mem_nil, or_false] at mem
  rcases mem with rfl | rfl | rfl | rfl | rfl | rfl | rfl | rfl | rfl | rfl
  · exact fenced_of_trail rfl (by decide) (by decide) (by decide)
  · exact fenced_of_trail rfl (by decide) (by decide) (by decide)
  · exact fenced_of_trail rfl (by decide) (by decide) (by decide)
  · exact fenced_globalRule
  all_goals exact fenced_wholeWord rfl (by decide) (by decide)

end Rules

theorem mem_of_mem_ordered {table : SymbolTable} {r : SymbolRule} (mem : r ∈ table.ordered) :
    r ∈ table := by
  simp only [SymbolTable.ordered, List.mem_flatMap, List.mem_filter] at mem
  obtain ⟨_, _, here, _⟩ := mem
  exact here

end ClassUpgrade.Component
