/-
# Proofs.Component.Exchange — rules that exchange whole words

Most rules put one text in the place of another that stands as a whole word, be
it a chain of members as `WL.scene` or a single name (`SymbolRule.Exchanges`).
What such a rule puts in is listed with what it is put in for, so that whether it
fits in is a property of the list (`Exchangeable`), and whether a word could be
made of it too.

A rule that fits in leaves a word with a dot behind it only where one was
(`SymbolRule.KeepsDots`): it puts a single name only in the place of one.
-/
import ClassUpgrade.Proofs.Component.Residue
import ClassUpgrade.Proofs.Source.Within

namespace ClassUpgrade.Component

set_option autoImplicit false

open Byte Source Source.Cursor

/-! ## Words with a dot -/

/-- A word with a dot behind it is in front. -/
def Dotted (t : Text) : Prop :=
  ∃ w y, w ≠ [] ∧ (∀ b ∈ w, isSymbolByte b = true) ∧ t = w ++ dot :: y

/-- A rule leaves a word with a dot in front only where there was one. -/
def SymbolRule.KeepsDots (r : SymbolRule) : Prop :=
  ∀ {c : Cursor} {n : Nat} {captured : Text} {out : Text × List Import},
    matchPattern? c r.pattern = some (n, captured) → Applies r (c.advance n) out →
      Dotted (r.replacement.expand captured ++ out.1) → Dotted c.after

theorem Applies.dotted {r : SymbolRule} (fitted : r.Fitted) (keeps : r.KeepsDots) {c : Cursor}
    {out : Text × List Import} (applies : Applies r c out) (found : Dotted out.1) :
    Dotted c.after := by
  cases applies with
  | finish done =>
      obtain ⟨w, y, -, -, out_eq⟩ := found
      cases List.append_eq_nil_iff.mp out_eq.symm |>.2
  | replace more match_eq rest =>
      rw [Nat.max_eq_left (fitted.fenced.starts match_eq).1] at rest
      exact keeps match_eq rest found
  | @copy _ b text imports front other rest =>
      obtain ⟨w, y, ne_nil, word, out_eq⟩ := found
      obtain ⟨a, w, rfl⟩ := List.exists_cons_of_ne_nil ne_nil
      obtain ⟨rfl, text_eq⟩ := List.cons_eq_cons.mp out_eq
      obtain ⟨tail, after_eq⟩ := peek?_eq_some_iff.mp front
      have word' : ∀ x ∈ w, isSymbolByte x = true :=
        fun x mem => word x (List.mem_cons_of_mem _ mem)
      have inWord : facesWord (c.advance 1).before = true := by
        simp [advance, after_eq, facesWord, word b List.mem_cons_self]
      have none_starts : wordStarts (facesWord (c.advance 1).before) (w ++ [dot]) = [] := by
        rw [inWord, wordStarts_of_word _ word']
        rfl
      have leads : w ++ [dot] <+: text := ⟨y, by rw [text_eq]; simp⟩
      obtain ⟨⟨z, kept⟩, -⟩ := rest.reads (w ++ [dot]) fitted leads
        (fun x _ s mem => by rw [none_starts] at mem; cases mem)
      refine ⟨b :: w, z, List.cons_ne_nil _ _, word, ?_⟩
      have tail_eq : (c.advance 1).after = tail := by simp [after_advance, after_eq]
      rw [after_eq, ← tail_eq, ← kept]
      simp

/-! ## Whole words -/

/-- A text is in front, and no word goes on at either end of it. -/
structure WordAt (w : Text) (c : Cursor) : Prop where
  outside : facesWord c.before = false
  leads : w <+: c.after
  ended : facesWord (c.advance w.length).after = false

/-- A text occurs as a whole word. -/
def HasWord (w t : Text) : Prop := ∃ c : Cursor, c.text = t ∧ WordAt w c

/-- A whole word found in the result of a rule was found in the original. -/
theorem hasWord_back {r : SymbolRule} (fitted : r.Fitted) {t w : Text}
    (spares : ∀ x ∈ captures r.pattern t, r.Spares w x) (starts : facesWord w = true)
    (occurs : HasWord w (r.apply t).1) :
    ∃ c, c.text = t ∧ WordAt w c ∧ matchPattern? c r.pattern = none := by
  obtain ⟨d, text_eq, outside, leads, ended⟩ := occurs
  obtain ⟨c, out, text_eq', outside', kept, other, applies, after_eq⟩ :=
    fitted.read_back spares text_eq outside starts leads
  refine ⟨c, text_eq', ⟨outside', kept, ?_⟩, other⟩
  rw [← applies.facesWord_eq fitted]
  rwa [after_advance, after_eq, List.drop_left] at ended

/-- A rule that exchanges whole words for texts, by this list. -/
structure SymbolRule.Exchanges (r : SymbolRule) (pairs : List (Text × Text)) : Prop where
  found : ∀ {c : Cursor} {n : Nat} {captured : Text},
    matchPattern? c r.pattern = some (n, captured) → ∃ pair ∈ pairs, WordAt pair.1 c ∧
      n = pair.1.length ∧ r.replacement.expand captured = pair.2
  finds : ∀ {c : Cursor}, ∀ pair ∈ pairs, WordAt pair.1 c →
    (matchPattern? c r.pattern).isSome = true

/-- Two words that may be exchanged: both start and end with a word byte, and where the first has no
dot behind its first word the second has none at all. -/
structure Exchangeable (pair : Text × Text) : Prop where
  starts : facesWord pair.1 = true
  ends : facesWord pair.1.reverse = true
  opens : facesWord pair.2 = true
  closes : facesWord pair.2.reverse = true
  dots : Dotted pair.1 ∨ (∀ b ∈ pair.1, isSymbolByte b = true) ∧ ∀ b ∈ pair.2, isSymbolByte b = true

section Exchanges

variable {r : SymbolRule} {pairs : List (Text × Text)}

theorem WordAt.facesWord_after {w : Text} {c : Cursor} (here : WordAt w c)
    (starts : facesWord w = true) : facesWord c.after = true := by
  obtain ⟨y, after_eq⟩ := here.leads
  rw [← after_eq, facesWord_append (ne_nil_of_facesWord starts), starts]

theorem fitted_of_exchanges (exchanges : r.Exchanges pairs)
    (able : ∀ pair ∈ pairs, Exchangeable pair) : r.Fitted where
  fenced :=
    { starts := by
        intro c n captured found
        obtain ⟨pair, listed, here, rfl, -⟩ := exchanges.found found
        have starts := (able pair listed).starts
        exact ⟨List.length_pos_iff.mpr (ne_nil_of_facesWord starts), here.outside,
          here.facesWord_after starts⟩
      ends := by
        intro c n captured found
        obtain ⟨pair, -, here, rfl, -⟩ := exchanges.found found
        exact .inr here.ended }
  opens := by
    intro c n captured found
    obtain ⟨pair, listed, -, -, expand_eq⟩ := exchanges.found found
    rw [expand_eq, (able pair listed).opens]
  closes := by
    intro c n captured found
    obtain ⟨pair, listed, here, rfl, expand_eq⟩ := exchanges.found found
    have ends := (able pair listed).ends
    have before_eq : (c.advance pair.1.length).before = pair.1.reverse ++ c.before := by
      simp [advance, take_of_leads here.leads]
    rw [expand_eq, (able pair listed).closes, before_eq,
      facesWord_append (ne_nil_of_facesWord ends), ends]

theorem keepsDots_of_exchanges (exchanges : r.Exchanges pairs)
    (able : ∀ pair ∈ pairs, Exchangeable pair) : r.KeepsDots := by
  intro c n captured out match_eq applies found
  obtain ⟨pair, listed, here, rfl, expand_eq⟩ := exchanges.found match_eq
  obtain ⟨y, after_eq⟩ := here.leads
  rcases (able pair listed).dots with ⟨w, z, ne_nil, word, old_eq⟩ | ⟨word, word'⟩
  · exact ⟨w, z ++ y, ne_nil, word, by rw [← after_eq, old_eq]; simp⟩
  · obtain ⟨w, z, ne_nil, symbols, out_eq⟩ := found
    have stops : facesWord out.1 = false := by
      rw [applies.facesWord_eq (fitted_of_exchanges exchanges able), here.ended]
    have first : w = pair.2 := by
      have words := congrArg (List.takeWhile isSymbolByte) out_eq
      have whole : pair.2.takeWhile isSymbolByte = pair.2 := by
        rw [← List.append_nil pair.2, List.takeWhile_append_of_pos word', List.takeWhile_nil]
      rw [expand_eq, takeWhile_append_of_stop (facesWord_eq_false_iff.mp stops), whole,
        List.takeWhile_append_of_pos symbols] at words
      simpa [show isSymbolByte dot = false from rfl] using words.symm
    rw [expand_eq, first] at out_eq
    -- the dot is none of a word that is put in, so it has been copied
    have dotted : [dot] <+: out.1 := ⟨z, (List.append_cancel_left out_eq).symm⟩
    obtain ⟨⟨rest, rest_eq⟩, -⟩ := applies.reads [dot] (fitted_of_exchanges exchanges able) dotted
      fun x _ s mem => by
        rw [wordStarts_of_plain _ (by decide +kernel)] at mem
        cases mem
    refine ⟨pair.1, rest, ne_nil_of_facesWord (able pair listed).starts, word, ?_⟩
    rw [after_advance, ← after_eq, List.drop_left] at rest_eq
    rw [← after_eq, ← rest_eq]
    rfl

/-! ## The patterns of whole words -/

theorem match?_edge_start {c : Cursor} (outside : facesWord c.before = false)
    (starts : facesWord c.after = true) : Atom.edge.match? c = some (0, []) :=
  match?_edge_iff.mpr ⟨by rw [outside, starts]; exact Bool.false_ne_true, rfl, rfl⟩

theorem match?_edge_end {c : Cursor} {w : Text} (here : WordAt w c)
    (ends : facesWord w.reverse = true) :
    Atom.edge.match? (c.advance w.length) = some (0, []) := by
  have before_eq : (c.advance w.length).before = w.reverse ++ c.before := by
    simp [advance, take_of_leads here.leads]
  refine match?_edge_iff.mpr ⟨?_, rfl, rfl⟩
  rw [here.ended, before_eq, facesWord_append (ne_nil_of_facesWord ends), ends]
  decide

/-- A choice of names none of which is the front of another finds the one in front. -/
theorem match?_oneOf_of_leads {c : Cursor} {names : List Text} {name : Text}
    (unlike : ∀ a ∈ names, ∀ b ∈ names, a <+: b → a = b) (listed : name ∈ names)
    (leads : name <+: c.after) : (Atom.oneOf names).match? c = some (name.length, name) := by
  have present : (names.find? (Text.startsWith c.after)).isSome = true :=
    List.find?_isSome.mpr ⟨name, listed, List.isPrefixOf_iff_prefix.mpr leads⟩
  obtain ⟨name', first⟩ := Option.isSome_iff_exists.mp present
  have found : Text.startsWith c.after name' = true := List.find?_some first
  have leads' : name' <+: c.after := List.isPrefixOf_iff_prefix.mp found
  have listed' := List.mem_of_find?_eq_some first
  have same : name' = name := by
    rcases List.prefix_or_prefix_of_prefix leads' leads with short | long
    · exact unlike _ listed' _ listed short
    · exact (unlike _ listed _ listed' long).symm
  rw [Atom.match?, first, same]
  rfl

/-- A pattern for a text as a whole word exchanges this text. -/
theorem exchanges_word {t : Text} (pattern_eq : r.pattern = [.edge, .exact t, .edge])
    (starts : facesWord t = true) (ends : facesWord t.reverse = true) :
    r.Exchanges [(t, r.replacement.expand [])] where
  found := by
    intro c n captured found
    rw [pattern_eq] at found
    have outside := (starts_of_word starts found).2.1
    obtain ⟨_, _, _, _, edge, found₁, rfl, rfl⟩ := matchPattern?_cons_iff.mp found
    obtain ⟨-, rfl, rfl⟩ := match?_edge_iff.mp edge
    obtain ⟨_, _, _, _, exact, found₂, rfl, rfl⟩ := matchPattern?_cons_iff.mp found₁
    obtain ⟨leads, rfl, rfl⟩ := match?_exact_iff.mp exact
    obtain ⟨_, _, _, _, edge', found₃, rfl, rfl⟩ := matchPattern?_cons_iff.mp found₂
    obtain ⟨-, rfl, rfl⟩ := match?_edge_iff.mp edge'
    obtain ⟨rfl, rfl⟩ := Prod.mk.inj (Option.some.inj found₃)
    rw [advance_zero] at leads edge'
    exact ⟨_, List.mem_singleton_self _, ⟨outside, leads, ends_of_edge ends leads edge'⟩,
      by simp, rfl⟩
  finds := by
    intro c pair listed here
    obtain rfl := List.mem_singleton.mp listed
    have edge := match?_edge_start here.outside (here.facesWord_after starts)
    have found : matchPattern? c [.edge, .exact t, .edge] = some (t.length, []) :=
      matchPattern?_cons_iff.mpr ⟨0, t.length, [], [], edge, matchPattern?_cons_iff.mpr
        ⟨t.length, 0, [], [], match?_exact_iff.mpr ⟨here.leads, rfl, rfl⟩,
          matchPattern?_cons_iff.mpr ⟨0, 0, [], [], match?_edge_end here ends, rfl, rfl, rfl⟩,
          rfl, rfl⟩, by omega, rfl⟩
    rw [pattern_eq, found]
    rfl

/-- A pattern for a choice of members exchanges each of them, as a whole word. -/
theorem exchanges_members {t : Text} {names : List Text}
    (pattern_eq : r.pattern = [.edge, .exact t, .oneOf names, .edge]) (starts : facesWord t = true)
    (ends : ∀ name ∈ names, facesWord (t ++ name).reverse = true)
    (unlike : ∀ a ∈ names, ∀ b ∈ names, a <+: b → a = b) :
    r.Exchanges (names.map fun name => (t ++ name, r.replacement.expand name)) where
  found := by
    intro c n captured found
    rw [pattern_eq] at found
    have outside := (starts_of_word starts found).2.1
    obtain ⟨_, _, _, _, edge, found₁, rfl, rfl⟩ := matchPattern?_cons_iff.mp found
    obtain ⟨-, rfl, rfl⟩ := match?_edge_iff.mp edge
    obtain ⟨_, _, _, _, exact, found₂, rfl, rfl⟩ := matchPattern?_cons_iff.mp found₁
    obtain ⟨⟨y, after_eq⟩, rfl, rfl⟩ := match?_exact_iff.mp exact
    obtain ⟨_, _, name, _, oneOf, found₃, rfl, rfl⟩ := matchPattern?_cons_iff.mp found₂
    obtain ⟨listed, leads, rfl⟩ := match?_oneOf oneOf
    obtain ⟨_, _, _, _, edge', found₄, rfl, rfl⟩ := matchPattern?_cons_iff.mp found₃
    obtain ⟨-, rfl, rfl⟩ := match?_edge_iff.mp edge'
    obtain ⟨rfl, rfl⟩ := Prod.mk.inj (Option.some.inj found₄)
    rw [advance_zero] at after_eq leads edge'
    have whole : t ++ name <+: c.after := by
      rw [after_advance, ← after_eq, List.drop_left] at leads
      rw [← after_eq]
      exact (List.prefix_append_right_inj _).mpr leads
    rw [advance_advance, ← List.length_append] at edge'
    refine ⟨_, List.mem_map.mpr ⟨name, listed, rfl⟩,
      ⟨outside, whole, ends_of_edge (ends name listed) whole edge'⟩, ?_, by simp⟩
    simp
  finds := by
    intro c pair listed here
    obtain ⟨name, listed', rfl⟩ := List.mem_map.mp listed
    have starts' : facesWord (t ++ name) = true := by
      rw [facesWord_append (ne_nil_of_facesWord starts), starts]
    have edge := match?_edge_start here.outside (here.facesWord_after starts')
    have lead : t <+: c.after := (List.prefix_append t name).trans here.leads
    have rest : name <+: (c.advance t.length).after := by
      obtain ⟨y, after_eq⟩ := here.leads
      rw [after_advance, ← after_eq, List.append_assoc, List.drop_left]
      exact List.prefix_append _ _
    have edge' := match?_edge_end here (ends name listed')
    rw [List.length_append, ← advance_advance] at edge'
    have found : matchPattern? c [.edge, .exact t, .oneOf names, .edge] =
        some (t.length + name.length, name) :=
      matchPattern?_cons_iff.mpr ⟨0, _, [], _, edge, matchPattern?_cons_iff.mpr
        ⟨t.length, name.length, [], name, match?_exact_iff.mpr ⟨lead, rfl, rfl⟩,
          matchPattern?_cons_iff.mpr ⟨name.length, 0, name, [],
            match?_oneOf_of_leads unlike listed' rest, matchPattern?_cons_iff.mpr
              ⟨0, 0, [], [], edge', rfl, rfl, rfl⟩, rfl, by simp⟩,
          rfl, rfl⟩, by omega, rfl⟩
    rw [pattern_eq, found]
    rfl

end Exchanges

/-! ## The rules for whole words -/

/-- The whole words that a rule exchanges, each with what takes its place. -/
def SymbolRule.pairs (r : SymbolRule) : List (Text × Text) :=
  match r.pattern with
  | [.edge, .exact t, .edge] => [(t, r.replacement.expand [])]
  | [.edge, .exact t, .oneOf names, .edge] =>
    names.map fun name => (t ++ name, r.replacement.expand name)
  | _ => []

def wordRules : SymbolTable := defaultSymbolTable.drop 3

/-- The words that these rules exchange. -/
def legacyWords : List Text := wordRules.flatMap fun r => r.pairs.map Prod.fst

theorem dotted_iff {t : Text} : Dotted t ↔
    t.takeWhile isSymbolByte ≠ [] ∧ (t.dropWhile isSymbolByte).head? = some dot := by
  constructor
  · rintro ⟨w, y, ne_nil, word, rfl⟩
    have taken : (w ++ dot :: y).takeWhile isSymbolByte = w := by
      rw [List.takeWhile_append_of_pos word]
      exact List.append_nil w
    have dropped : (w ++ dot :: y).dropWhile isSymbolByte = dot :: y := by
      rw [List.dropWhile_append_of_pos word]
      rfl
    rw [taken, dropped]
    exact ⟨ne_nil, rfl⟩
  · rintro ⟨ne_nil, front⟩
    obtain ⟨y, rest_eq⟩ := List.head?_eq_some_iff.mp front
    exact ⟨_, y, ne_nil, fun b mem => List.all_eq_true.mp List.all_takeWhile b mem,
      by rw [← rest_eq, List.takeWhile_append_dropWhile]⟩

instance (t : Text) : Decidable (Dotted t) := decidable_of_iff _ dotted_iff.symm

theorem exchangeable_iff {pair : Text × Text} : Exchangeable pair ↔
    (facesWord pair.1 = true ∧ facesWord pair.1.reverse = true) ∧
      (facesWord pair.2 = true ∧ facesWord pair.2.reverse = true) ∧
        (Dotted pair.1 ∨ pair.1.all isSymbolByte = true ∧ pair.2.all isSymbolByte = true) := by
  simp only [List.all_eq_true]
  exact ⟨fun ⟨starts, ends, opens, closes, dots⟩ => ⟨⟨starts, ends⟩, ⟨opens, closes⟩, dots⟩,
    fun ⟨⟨starts, ends⟩, ⟨opens, closes⟩, dots⟩ => ⟨starts, ends, opens, closes, dots⟩⟩

instance (pair : Text × Text) : Decidable (Exchangeable pair) :=
  decidable_of_iff _ exchangeable_iff.symm

theorem exchanges_of_mem {r : SymbolRule} (mem : r ∈ wordRules) : r.Exchanges r.pairs := by
  simp only [wordRules, defaultSymbolTable, List.drop_succ_cons, List.drop_zero, List.mem_cons,
    List.not_mem_nil, or_false] at mem
  rcases mem with rfl | rfl | rfl | rfl | rfl | rfl | rfl
  · exact exchanges_members rfl (by decide) (by decide) (by decide)
  all_goals exact exchanges_word rfl (by decide) (by decide)

theorem exchangeable_of_mem : ∀ r ∈ wordRules, ∀ pair ∈ r.pairs, Exchangeable pair := by
  decide +kernel

end ClassUpgrade.Component
