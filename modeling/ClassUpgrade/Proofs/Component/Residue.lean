/-
# Proofs.Component.Residue — what a rule leaves behind was there before

A rule copies and puts in, and what it puts in stands next to what it copies. So
a text may be found in the result that neither was in the original nor was put
in: it lies across a seam. Seams lie at word starts only. A text that starts a
word is read off the result from there on, and as long as no word of it could
be the front of something put in (`SymbolRule.Spares`), every byte of it has
been copied (`Applies.reads`); that the place itself lies inside something put
in is looked for likewise (`Applies.origin`).

Main statement: `SymbolRule.Fitted.read_back`. What is found in the result was
found in the original, and the rule did not see an occurrence there.
-/
import ClassUpgrade.Proofs.Component.Capture

namespace ClassUpgrade.Component

set_option autoImplicit false

open Byte Source Source.Cursor

/-! ## Starts of words -/

/-- The ends of a text from each place on where a word starts; `inWord` says whether a word byte
stands before the text. -/
def wordStarts (inWord : Bool) : Text → List Text
  | [] => []
  | b :: rest =>
    if !inWord && isSymbolByte b then (b :: rest) :: wordStarts true rest
    else wordStarts (isSymbolByte b) rest

/-- The ends of a text from each place on where a word starts, the front of the text aside. -/
def innerStarts : Text → List Text
  | [] => []
  | b :: rest => wordStarts (isSymbolByte b) rest

theorem wordStarts_subset (inWord : Bool) (b : UInt8) (rest : Text) :
    wordStarts (isSymbolByte b) rest ⊆ wordStarts inWord (b :: rest) := by
  intro s later
  rw [wordStarts]
  split
  · rename_i starts
    have symbol : isSymbolByte b = true := (Bool.and_eq_true_iff.mp starts).2
    exact List.mem_cons_of_mem _ (symbol ▸ later)
  · exact later

theorem mem_wordStarts : ∀ (u : Text) {s : Text} (near : Text), facesWord s = true →
    facesWord (u.reverse ++ near) = false → s ∈ wordStarts (facesWord near) (u ++ s)
  | [], s, near, starts, outside => by
      obtain ⟨b, rest, rfl⟩ := List.exists_cons_of_ne_nil (ne_nil_of_facesWord starts)
      have symbol : isSymbolByte b = true := starts
      have outside' : facesWord near = false := outside
      simp [wordStarts, outside', symbol]
  | a :: u, s, near, starts, outside => by
      rw [List.reverse_cons, List.append_assoc] at outside
      have later : s ∈ wordStarts (isSymbolByte a) (u ++ s) :=
        mem_wordStarts u (a :: near) starts outside
      exact wordStarts_subset _ a _ later

theorem mem_innerStarts {u s : Text} (ne_nil : u ≠ []) (starts : facesWord s = true)
    (outside : facesWord u.reverse = false) : s ∈ innerStarts (u ++ s) := by
  obtain ⟨a, u, rfl⟩ := List.exists_cons_of_ne_nil ne_nil
  rw [List.reverse_cons] at outside
  exact mem_wordStarts u [a] starts outside

theorem wordStarts_of_plain : ∀ {t : Text} (inWord : Bool), (∀ b ∈ t, isSymbolByte b = false) →
    wordStarts inWord t = []
  | [], _, _ => rfl
  | b :: t, inWord, plain => by
      have other : isSymbolByte b = false := plain b List.mem_cons_self
      rw [wordStarts, other, Bool.and_false]
      exact wordStarts_of_plain false fun x mem => plain x (List.mem_cons_of_mem _ mem)

theorem wordStarts_append_plain : ∀ {x : Text} (inWord : Bool) (t : Text), x ≠ [] →
    (∀ b ∈ x, isSymbolByte b = false) → wordStarts inWord (x ++ t) = wordStarts false t
  | [], _, _, ne_nil, _ => absurd rfl ne_nil
  | b :: x, inWord, t, _, plain => by
      have other : isSymbolByte b = false := plain b List.mem_cons_self
      have goes : wordStarts inWord (b :: x ++ t) = wordStarts false (x ++ t) := by
        rw [List.cons_append, wordStarts, other, Bool.and_false]
        rfl
      cases x with
      | nil => exact goes
      | cons a x =>
          rw [goes]
          exact wordStarts_append_plain false t (List.cons_ne_nil a x)
            fun y mem => plain y (List.mem_cons_of_mem _ mem)

/-- Inside a word no word starts, up to the byte behind it. -/
theorem wordStarts_of_word : ∀ {w : Text} (t : Text), (∀ b ∈ w, isSymbolByte b = true) →
    wordStarts true (w ++ t) = wordStarts true t
  | [], _, _ => rfl
  | b :: w, t, symbols => by
      have symbol : isSymbolByte b = true := symbols b List.mem_cons_self
      rw [List.cons_append, wordStarts, symbol]
      exact wordStarts_of_word t fun x mem => symbols x (List.mem_cons_of_mem _ mem)

/-! ## Texts that do not meet -/

/-- The first text is not the front of the second, whatever follows that. -/
def Apart (s e : Text) : Prop := ∀ y, ¬ s <+: e ++ y

theorem apart_iff {s e : Text} : Apart s e ↔ ¬ s <+: e ∧ ¬ e <+: s := by
  constructor
  · refine fun apart => ⟨fun leads => apart [] (by simpa using leads), fun leads => ?_⟩
    obtain ⟨y, rfl⟩ := leads
    exact apart y List.prefix_rfl
  · rintro ⟨noFront, noEnd⟩ y leads
    rcases List.prefix_or_prefix_of_prefix leads (List.prefix_append e y) with short | long
    · exact noFront short
    · exact noEnd long

instance (s e : Text) : Decidable (Apart s e) := decidable_of_iff _ apart_iff.symm

theorem apart_cons {a b : UInt8} (differ : a ≠ b) (s e : Text) : Apart (a :: s) (b :: e) :=
  fun _ leads => differ (List.cons_prefix_cons.mp leads).1

/-- Two texts that open with words of different lengths, or with different words, or go on
differently behind them, do not meet. -/
theorem eq_of_words {w x : Text} {a b : UInt8} {s y : Text}
    (word : ∀ c ∈ w, isSymbolByte c = true) (word' : ∀ c ∈ x, isSymbolByte c = true)
    (ends : isSymbolByte a = false) (ends' : isSymbolByte b = false)
    (leads : w ++ a :: s <+: x ++ b :: y) : w = x ∧ a = b := by
  obtain ⟨z, same⟩ := leads
  have words := congrArg (List.takeWhile isSymbolByte) same
  simp only [List.append_assoc, List.cons_append, List.takeWhile_append_of_pos word,
    List.takeWhile_append_of_pos word', List.takeWhile_cons, ends, ends', Bool.false_eq_true,
    if_false, List.append_nil] at words
  subst words
  simp only [List.append_assoc, List.append_cancel_left_eq, List.cons_append,
    List.cons.injEq] at same
  exact ⟨rfl, same.1⟩

/-! ## Rules that fit in -/

/-- A fenced rule fits in when what it puts in starts with a word, as the occurrence does, and ends
inside or outside a word as the occurrence does. -/
structure SymbolRule.Fitted (r : SymbolRule) : Prop where
  fenced : r.Fenced
  opens : ∀ {c : Cursor} {n : Nat} {captured : Text},
    matchPattern? c r.pattern = some (n, captured) →
      facesWord (r.replacement.expand captured) = true
  closes : ∀ {c : Cursor} {n : Nat} {captured : Text},
    matchPattern? c r.pattern = some (n, captured) →
      facesWord (r.replacement.expand captured).reverse = facesWord (c.advance n).before

/-- Where a place comes from at which a word starts in the result of a rule, with `v` in front: from
a place that the rule came by, or from inside something that it put in. -/
inductive Origin (r : SymbolRule) (c : Cursor) (v : Text) : Prop
  | passed (k : Nat) (out : Text × List Import) (applies : Applies r (c.advance k) out)
      (rest_eq : out.1 = v) (outside : facesWord (c.advance k).before = false)
      (fewer : capturesAt r.pattern (c.advance k) ⊆ capturesAt r.pattern c)
  | inside (x e : Text) (mem : x ∈ capturesAt r.pattern c)
      (inner : e ∈ innerStarts (r.replacement.expand x)) (leads : e <+: v)

theorem Origin.further {r : SymbolRule} {c : Cursor} {v : Text} {n : Nat}
    (fewer : capturesAt r.pattern (c.advance n) ⊆ capturesAt r.pattern c)
    (origin : Origin r (c.advance n) v) : Origin r c v := by
  cases origin with
  | passed k out applies rest_eq outside fewer' =>
      rw [advance_advance] at applies outside fewer'
      exact .passed (n + k) out applies rest_eq outside fun _ mem => fewer (fewer' mem)
  | inside x e mem inner leads => exact .inside x e (fewer mem) inner leads

namespace Applies

variable {r : SymbolRule} {c : Cursor} {out : Text × List Import}

/-- A word is in front of the result exactly when one is in front of the text. -/
theorem facesWord_eq (fitted : r.Fitted) (applies : Applies r c out) :
    facesWord out.1 = facesWord c.after := by
  cases applies with
  | finish done => rw [done]
  | replace _ found _ =>
      have opens := fitted.opens found
      rw [facesWord_append (ne_nil_of_facesWord opens), opens, (fitted.fenced.starts found).2.2]
  | copy front _ _ =>
      obtain ⟨rest, after_eq⟩ := peek?_eq_some_iff.mp front
      rw [after_eq]
      rfl

theorem origin (fitted : r.Fitted) (applies : Applies r c out) : ∀ {u v : Text} (near : Text),
    facesWord near = facesWord c.before → out.1 = u ++ v →
      facesWord (u.reverse ++ near) = false → facesWord v = true → Origin r c v := by
  induction applies with
  | @finish c done =>
      intro u v near _ out_eq _ starts
      obtain ⟨-, rfl⟩ := List.append_eq_nil_iff.mp out_eq.symm
      cases starts
  | @replace c n captured text imports more found rest ih =>
      intro u v near same out_eq outside starts
      obtain ⟨pos, -, -⟩ := fitted.fenced.starts found
      have opens := fitted.opens found
      have captures_eq := capturesAt_of_found more found
      by_cases front : u = []
      · subst front
        exact .passed 0 _ (.replace more found rest) out_eq (same.symm.trans outside)
          (fun _ mem => mem)
      have beyond : ∀ u', u = r.replacement.expand captured ++ u' → text = u' ++ v →
          Origin r c v := by
        rintro u' rfl text_eq
        have same' : facesWord ((r.replacement.expand captured).reverse ++ near) =
            facesWord (c.advance (max n 1)).before := by
          rw [facesWord_append (by simpa using ne_nil_of_facesWord opens), fitted.closes found,
            Nat.max_eq_left pos]
        refine .further ?_ (ih _ same' text_eq (by simpa using outside) starts)
        rw [captures_eq]
        exact List.subset_cons_self _ _
      rcases List.append_eq_append_iff.mp out_eq with ⟨u', u_eq, text_eq⟩ | ⟨e, expand_eq, v_eq⟩
      · exact beyond u' u_eq text_eq
      · cases e with
        | nil => exact beyond [] (by simpa using expand_eq.symm) v_eq.symm
        | cons b e =>
            have ended : facesWord u.reverse = false := by
              rwa [facesWord_append (by simpa using front)] at outside
            have starts' : facesWord (b :: e) = true := by
              rwa [v_eq, facesWord_append (List.cons_ne_nil b e)] at starts
            refine .inside captured (b :: e) ?_ ?_ ⟨text, v_eq.symm⟩
            · rw [captures_eq]
              exact List.mem_cons_self
            · rw [expand_eq]
              exact mem_innerStarts front starts' ended
  | @copy c b text imports front other rest ih =>
      intro u v near same out_eq outside starts
      cases u with
      | nil =>
          exact .passed 0 _ (.copy front other rest) out_eq (same.symm.trans outside)
            (fun _ mem => mem)
      | cons a u =>
          obtain ⟨rfl, text_eq⟩ := List.cons_eq_cons.mp out_eq
          obtain ⟨tail, after_eq⟩ := peek?_eq_some_iff.mp front
          have same' : facesWord (b :: near) = facesWord (c.advance 1).before := by
            simp [advance, after_eq, facesWord]
          refine .further ?_ (ih _ same' text_eq (by simpa using outside) starts)
          rw [capturesAt_of_none other]
          exact fun _ mem => mem

/-- **A text that nothing put in can take part in has been copied.** It is in front of the result, no
word of it can be the front of something put in, so it is in front of the text. -/
theorem reads : ∀ (p : Text) {c : Cursor} {out : Text × List Import}, r.Fitted → Applies r c out →
    p <+: out.1 →
      (∀ x ∈ capturesAt r.pattern c, ∀ s ∈ wordStarts (facesWord c.before) p,
        Apart s (r.replacement.expand x)) →
        p <+: c.after ∧ (p ≠ [] → matchPattern? c r.pattern = none) ∧
          ∃ out', Applies r (c.advance p.length) out' ∧ out.1 = p ++ out'.1
  | [], c, out, _, applies, _, _ =>
      ⟨List.nil_prefix, fun ne_nil => absurd rfl ne_nil, out, applies, rfl⟩
  | b :: p, c, out, fitted, applies, leads, apart => by
      cases applies with
      | finish done => cases List.prefix_nil.mp leads
      | @replace _ n captured text imports more found rest =>
          exfalso
          have outside := (fitted.fenced.starts found).2.1
          have opens := fitted.opens found
          have starts : facesWord (b :: p) = true := by
            obtain ⟨z, text_eq⟩ := leads
            have front := facesWord_append (List.cons_ne_nil b p) z
            rwa [text_eq, facesWord_append (ne_nil_of_facesWord opens), opens, eq_comm] at front
          have mem : captured ∈ capturesAt r.pattern c := by
            rw [capturesAt_of_found more found]
            exact List.mem_cons_self
          have first : b :: p ∈ wordStarts (facesWord c.before) (b :: p) :=
            mem_wordStarts [] _ starts outside
          exact apart captured mem _ first text leads
      | @copy _ a text imports front other rest =>
          obtain ⟨tail, after_eq⟩ := peek?_eq_some_iff.mp front
          obtain ⟨rfl, leads'⟩ := List.cons_prefix_cons.mp leads
          have before_eq : facesWord (c.advance 1).before = isSymbolByte b := by
            simp [advance, after_eq, facesWord]
          obtain ⟨kept, -, out', applies', text_eq⟩ := reads p fitted rest leads' (by
            intro x mem s later
            rw [before_eq] at later
            exact apart x (capturesAt_of_none other ▸ mem) s (wordStarts_subset _ b p later))
          refine ⟨?_, fun _ => other, out', ?_, congrArg _ text_eq⟩
          · rw [after_eq, List.cons_prefix_cons]
            exact ⟨rfl, by simpa [after_advance, after_eq] using kept⟩
          · rwa [List.length_cons, Nat.add_comm, ← advance_advance]

end Applies

/-! ## Back to the original -/

/-- What a rule puts in for a capture cannot take part in a text: no word of the text could be its
front, and the text could not start at a word further on in it. -/
structure SymbolRule.Spares (r : SymbolRule) (p x : Text) : Prop where
  front : ∀ s ∈ wordStarts false p, Apart s (r.replacement.expand x)
  inner : ∀ e ∈ innerStarts (r.replacement.expand x), Apart p e

/-- **What is found in the result of a rule was found in the original**, at a place that the rule came
by and where it saw no occurrence; and what follows there is what the rule has made of what followed.
-/
theorem SymbolRule.Fitted.read_back {r : SymbolRule} (fitted : r.Fitted) {t p : Text}
    (spares : ∀ x ∈ captures r.pattern t, r.Spares p x) {d : Cursor}
    (text_eq : d.text = (r.apply t).1) (outside : facesWord d.before = false)
    (starts : facesWord p = true) (leads : p <+: d.after) :
    ∃ c out, c.text = t ∧ facesWord c.before = false ∧ p <+: c.after ∧
      matchPattern? c r.pattern = none ∧ Applies r (c.advance p.length) out ∧
      d.after = p ++ out.1 := by
  have ne_nil := ne_nil_of_facesWord starts
  have starts' : facesWord d.after = true := by
    obtain ⟨z, after_eq⟩ := leads
    rwa [← after_eq, facesWord_append ne_nil]
  have whole : (r.apply t).1 = d.before.reverse ++ d.after := text_eq.symm
  have origin := (applies_apply r t).origin fitted [] rfl whole
    (by simpa using outside) starts'
  cases origin with
  | passed k out applies rest_eq outside' fewer =>
      have apart : ∀ x ∈ capturesAt r.pattern ((start t).advance k),
          ∀ s ∈ wordStarts (facesWord ((start t).advance k).before) p,
            Apart s (r.replacement.expand x) := by
        intro x mem s mem'
        rw [outside'] at mem'
        exact (spares x (fewer mem)).front s mem'
      obtain ⟨kept, other, out', applies', out_eq⟩ :=
        applies.reads p fitted (rest_eq ▸ leads) apart
      exact ⟨_, out', by simp, outside', kept, other ne_nil, applies', by rw [← rest_eq, out_eq]⟩
  | inside x e mem inner leads' =>
      obtain ⟨y, after_eq⟩ := leads'
      exact absurd (after_eq ▸ leads) ((spares x mem).inner e inner y)

end ClassUpgrade.Component
