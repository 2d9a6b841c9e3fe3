/-
# Proofs.Component.Capture — what the rules record is what the original text has

A rule asks for imports while it replaces, and it runs on the text that the
rules before it have left. What it records is here said of a text alone: the
captures of a pattern are those of its occurrences from the left without
overlap (`captures`), and a rule asks for one import for each of them
(`apply_snd`).

The rules for constructors run before the one for the math library. An
occurrence of theirs opens with the word `new` and a blank, and so does what
takes its place, while an occurrence of the math pattern has no blank and ends
with a dot. So no occurrence of the one cuts an occurrence of the other
(`Applies.passes`), and the captures of the math pattern are the same before
and after (`captures_math_applied`).

* `mem_upgradeMethods_engine`, `mem_upgradeMethods_math`, `mem_propertyTypeRule_iff`:
  the imports that methods and properties ask for, by their original texts.
-/
import ClassUpgrade.Component.Method
import ClassUpgrade.Proofs.Component.Symbol

namespace ClassUpgrade.Component

set_option autoImplicit false

open Byte Source Source.Cursor

/-! ## Occurrences from the left -/

/-- The captures of a pattern from a place on: `skip` bytes of an occurrence are still to be
passed over. -/
def capturesFrom (pattern : List Atom) (before : Text) (skip : Nat) : Text → List Text
  | [] => []
  | b :: rest =>
    match skip with
    | skip + 1 => capturesFrom pattern (b :: before) skip rest
    | 0 =>
      match matchPattern? ⟨before, b :: rest⟩ pattern with
      | some (n, captured) => captured :: capturesFrom pattern (b :: before) (n - 1) rest
      | none => capturesFrom pattern (b :: before) 0 rest

def capturesAt (pattern : List Atom) (c : Cursor) : List Text :=
  capturesFrom pattern c.before 0 c.after

/-- What the occurrences of a pattern capture, found from the left and without overlap. -/
def captures (pattern : List Atom) (t : Text) : List Text := capturesAt pattern (start t)

/-- A pattern has a match at some place of a text. -/
def Occurs (pattern : List Atom) (t : Text) : Prop :=
  ∃ c : Cursor, c.text = t ∧ (matchPattern? c pattern).isSome = true

section Captures

variable {pattern : List Atom} {c : Cursor}

theorem capturesFrom_skip (pattern : List Atom) : ∀ (skip : Nat) (before t : Text),
    capturesFrom pattern before skip t =
      capturesAt pattern ((⟨before, t⟩ : Cursor).advance skip)
  | skip, before, [] => by
      rw [advance_of_nil rfl]
      rfl
  | 0, before, b :: rest => rfl
  | skip + 1, before, b :: rest => by
      rw [advance_cons, ← capturesFrom_skip pattern skip (b :: before) rest]
      rfl

theorem capturesAt_of_nil (done : c.after = []) : capturesAt pattern c = [] := by
  simp [capturesAt, capturesFrom, done]

theorem capturesAt_of_found {n : Nat} {captured : Text} (more : c.after ≠ [])
    (found : matchPattern? c pattern = some (n, captured)) :
    capturesAt pattern c = captured :: capturesAt pattern (c.advance (max n 1)) := by
  obtain ⟨before, after⟩ := c
  obtain ⟨b, rest, rfl⟩ := List.exists_cons_of_ne_nil more
  have tail := capturesFrom_skip pattern (n - 1) (b :: before) rest
  rw [← advance_cons, show n - 1 + 1 = max n 1 by omega] at tail
  rw [← tail]
  simp [capturesAt, capturesFrom, found]

theorem capturesAt_of_none (other : matchPattern? c pattern = none) :
    capturesAt pattern c = capturesAt pattern (c.advance 1) := by
  obtain ⟨before, after⟩ := c
  cases after with
  | nil => rw [advance_of_nil rfl]
  | cons b rest => simp [capturesAt, capturesFrom, other, advance]

/-- Bytes at which no match starts are passed over. -/
theorem capturesAt_advance : ∀ (n : Nat) (c : Cursor),
    (∀ i < n, matchPattern? (c.advance i) pattern = none) →
      capturesAt pattern c = capturesAt pattern (c.advance n)
  | 0, c, _ => rfl
  | n + 1, c, free => by
      have later : ∀ i < n, matchPattern? ((c.advance 1).advance i) pattern = none := by
        intro i less
        rw [advance_advance]
        exact free (1 + i) (by omega)
      have first : matchPattern? c pattern = none := free 0 (by omega)
      rw [capturesAt_of_none first, capturesAt_advance n _ later, advance_advance, Nat.add_comm]

/-- Each capture from a place on is that of a match further on. -/
theorem match_of_mem_capturesAt {captured : Text} {m : Nat} (length : c.after.length = m)
    (mem : captured ∈ capturesAt pattern c) :
    ∃ k n, matchPattern? (c.advance k) pattern = some (n, captured) := by
  induction m using Nat.strong_induction_on generalizing c with
  | _ m ih =>
    by_cases done : c.after = []
    · rw [capturesAt_of_nil done] at mem
      cases mem
    · have further : ∀ n, 0 < n → captured ∈ capturesAt pattern (c.advance n) →
          ∃ k l, matchPattern? (c.advance k) pattern = some (l, captured) := by
        intro n pos mem'
        obtain ⟨k, l, found⟩ := ih _ (length ▸ length_after_lt pos done) rfl mem'
        exact ⟨n + k, l, by rwa [← advance_advance]⟩
      cases found : matchPattern? c pattern with
      | none => exact further 1 (by omega) (capturesAt_of_none found ▸ mem)
      | some first =>
          obtain ⟨n, taken⟩ := first
          rw [capturesAt_of_found done found] at mem
          rcases List.mem_cons.mp mem with rfl | later
          · exact ⟨0, n, found⟩
          · exact further (max n 1) (by omega) later

/-- Where nothing is captured from a place on, no match starts further on. -/
theorem match_eq_none_of_capturesAt (empty : capturesAt pattern c = []) : ∀ k : Nat,
    (c.advance k).after ≠ [] → matchPattern? (c.advance k) pattern = none := by
  have here : ∀ d : Cursor, capturesAt pattern d = [] → d.after ≠ [] →
      matchPattern? d pattern = none := by
    intro d empty' more
    cases found : matchPattern? d pattern with
    | none => rfl
    | some first =>
        rw [capturesAt_of_found more found] at empty'
        cases empty'
  intro k more
  refine here _ ?_ more
  induction k with
  | zero => exact empty
  | succ k ih =>
      have more' : (c.advance k).after ≠ [] := by
        intro done
        apply more
        rw [← advance_advance, advance_of_nil done, done]
      have empty' := ih more'
      rwa [capturesAt_of_none (here _ empty' more'), advance_advance] at empty'

end Captures

/-- A fenced rule has captures exactly where its pattern occurs. -/
theorem captures_ne_nil_iff {r : SymbolRule} (fenced : r.Fenced) {t : Text} :
    captures r.pattern t ≠ [] ↔ Occurs r.pattern t := by
  constructor
  · intro some_captured
    obtain ⟨captured, rest, captures_eq⟩ := List.exists_cons_of_ne_nil some_captured
    have mem : captured ∈ captures r.pattern t := by
      rw [captures_eq]
      exact List.mem_cons_self
    obtain ⟨k, n, found⟩ := match_of_mem_capturesAt rfl mem
    exact ⟨(start t).advance k, by simp, by simp [found]⟩
  · rintro ⟨c, rfl, found⟩ empty
    obtain ⟨⟨n, captured⟩, found⟩ := Option.isSome_iff_exists.mp found
    have more : c.after ≠ [] := ne_nil_of_facesWord (fenced.starts found).2.2
    have place : (start c.text).advance c.offset = c := advance_sub (by simp) (Nat.zero_le _)
    have other := match_eq_none_of_capturesAt (c := start c.text) empty c.offset (by rwa [place])
    rw [place, found] at other
    cases other

/-! ## Rules record captures -/

/-- **A rule asks for one import for each occurrence.** -/
theorem Applies.snd_eq {r : SymbolRule} {c : Cursor} {out : Text × List Import}
    (applies : Applies r c out) : out.2 = (capturesAt r.pattern c).flatMap r.importsOf := by
  induction applies with
  | finish done =>
      rw [capturesAt_of_nil done]
      rfl
  | replace more found _ ih => rw [capturesAt_of_found more found, List.flatMap_cons, ← ih]
  | copy front other _ ih => rw [capturesAt_of_none other, ← ih]

theorem apply_snd (r : SymbolRule) (t : Text) :
    (r.apply t).2 = (captures r.pattern t).flatMap r.importsOf := (applies_apply r t).snd_eq

/-- A rule whose pattern does not occur leaves the text as it is. -/
theorem Applies.fst_of_captures {r : SymbolRule} {c : Cursor} {out : Text × List Import}
    (applies : Applies r c out) (empty : capturesAt r.pattern c = []) : out.1 = c.after := by
  induction applies with
  | finish done => exact done.symm
  | replace more found _ _ =>
      rw [capturesAt_of_found more found] at empty
      cases empty
  | copy front other _ ih =>
      rw [capturesAt_of_none other] at empty
      obtain ⟨rest, after_eq⟩ := peek?_eq_some_iff.mp front
      have rest_eq := ih empty
      rw [after_advance, after_eq] at rest_eq
      rw [after_eq]
      exact congrArg _ rest_eq

/-! ## The bytes of a match -/

/-- Whatever an atom takes has bytes of one kind only. -/
def Atom.keeps (kind : UInt8 → Bool) : Atom → Bool
  | .edge => true
  | .exact t => t.all kind
  | .blanks _ => [space, tab, lineFeed, formFeed, carriageReturn].all kind
  | .oneOf names => names.all (·.all kind)
  | .word => false

section Bytes

variable {c : Cursor} {n : Nat} {captured : Text}

theorem mem_blanks {b : UInt8} (blank : isPatternBlank b = true) :
    b ∈ [space, tab, lineFeed, formFeed, carriageReturn] := by
  simp only [isPatternBlank, isSpace, Bool.or_eq_true, beq_iff_eq] at blank
  rcases blank with (((rfl | rfl) | rfl) | rfl) | rfl <;> decide

theorem take_of_leads {t x : Text} (leads : t <+: x) : x.take t.length = t := by
  obtain ⟨y, rfl⟩ := leads
  exact List.take_left

theorem match?_keeps {kind : UInt8 → Bool} {atom : Atom} (keeps : atom.keeps kind = true)
    (found : atom.match? c = some (n, captured)) : ∀ b ∈ c.after.take n, kind b = true := by
  intro b mem
  cases atom with
  | edge =>
      obtain ⟨-, rfl, -⟩ := match?_edge_iff.mp found
      cases mem
  | exact t =>
      obtain ⟨leads, rfl, -⟩ := match?_exact_iff.mp found
      rw [take_of_leads leads] at mem
      exact List.all_eq_true.mp keeps b mem
  | blanks least =>
      simp only [Atom.match?] at found
      split at found
      · obtain ⟨rfl, -⟩ := Prod.mk.inj (Option.some.inj found)
        rw [take_of_leads (List.takeWhile_prefix _)] at mem
        exact List.all_eq_true.mp keeps b
          (mem_blanks (List.all_eq_true.mp List.all_takeWhile b mem))
      · cases found
  | oneOf names =>
      obtain ⟨listed, leads, rfl⟩ := match?_oneOf found
      rw [take_of_leads leads] at mem
      exact List.all_eq_true.mp (List.all_eq_true.mp keeps _ listed) b mem
  | word => cases keeps

/-- A match of a pattern has bytes of one kind only when its atoms take no others. -/
theorem matchPattern?_keeps {kind : UInt8 → Bool} : ∀ {pattern : List Atom} {c : Cursor} {n : Nat}
    {captured : Text}, (∀ atom ∈ pattern, atom.keeps kind = true) →
      matchPattern? c pattern = some (n, captured) → ∀ b ∈ c.after.take n, kind b = true
  | [], c, n, captured, _, found => by
      obtain ⟨rfl, -⟩ := Prod.mk.inj (Option.some.inj found)
      simp
  | atom :: rest, c, n, captured, keeps, found => by
      obtain ⟨first, last, _, _, here, later, rfl, -⟩ := matchPattern?_cons_iff.mp found
      intro b mem
      rw [List.take_add, List.mem_append] at mem
      rcases mem with front | back
      · exact match?_keeps (keeps _ List.mem_cons_self) here b front
      · exact matchPattern?_keeps (fun a mem => keeps a (List.mem_cons_of_mem _ mem)) later b back

/-- A pattern that closes with a text has that text right before the end of each match. -/
theorem matchPattern?_closes {t : Text} : ∀ (front : List Atom) {c : Cursor} {n : Nat}
    {captured : Text}, matchPattern? c (front ++ [.exact t]) = some (n, captured) →
      ∃ before, (c.advance n).before = t.reverse ++ before
  | [], c, n, captured, found => by
      obtain ⟨_, _, _, _, exact, last, rfl, -⟩ := matchPattern?_cons_iff.mp found
      obtain ⟨rfl, -⟩ := Prod.mk.inj (Option.some.inj last)
      obtain ⟨leads, rfl, -⟩ := match?_exact_iff.mp exact
      exact ⟨c.before, by simp [advance, take_of_leads leads]⟩
  | atom :: front, c, n, captured, found => by
      obtain ⟨_, _, _, _, -, later, rfl, -⟩ := matchPattern?_cons_iff.mp found
      rw [← advance_advance]
      exact matchPattern?_closes front later

end Bytes

/-! ## Constructors and the math library -/

/-- A text opens with the word `new` and a blank. -/
def OpensNew (t : Text) : Prop := ∃ b y, isPatternBlank b = true ∧ t = utf8 "new" ++ b :: y

/-- A text without blanks that ends with a dot. -/
def Unbroken (t : Text) : Prop := (∀ b ∈ t, isPatternBlank b = false) ∧ ∀ b ∈ t.getLast?, b = dot

theorem OpensNew.append {t : Text} (opens : OpensNew t) (y : Text) : OpensNew (t ++ y) := by
  obtain ⟨b, x, blank, rfl⟩ := opens
  exact ⟨b, x ++ y, blank, by simp⟩

/-- No text that opens with `new` and a blank starts inside, nor goes on behind the end. -/
def Clear (t : Text) : Prop := ∀ s, s <:+ t → s ≠ [] → ∀ y, OpensNew y → ¬ s <+: y

theorem Clear.tail {b : UInt8} {t : Text} (clear : Clear (b :: t)) : Clear t :=
  fun s behind => clear s (behind.trans (List.suffix_cons b t))

/-- The word `new` with a blank behind it stands neither in an unbroken text nor across its end. -/
theorem Unbroken.not_prefix {p t : Text} (unbroken : Unbroken p) (ne_nil : p ≠ [])
    (opens : OpensNew t) : ¬ p <+: t := by
  obtain ⟨b, y, blank, rfl⟩ := opens
  obtain ⟨solid, dotted⟩ := unbroken
  intro leads
  rcases Nat.lt_or_ge p.length 4 with short | long
  · have within : p <+: utf8 "new" := by
      refine List.prefix_of_prefix_length_le leads (List.prefix_append _ _) ?_
      show p.length ≤ 3
      omega
    have last := List.getLast_mem ne_nil
    rw [dotted _ (List.getLast?_eq_some_getLast ne_nil)] at last
    exact absurd (within.subset last) (by decide)
  · have through : utf8 "new" ++ [b] <+: p := by
      have front : utf8 "new" ++ [b] <+: utf8 "new" ++ b :: y := ⟨y, by simp⟩
      exact List.prefix_of_prefix_length_le front leads long
    have solid' := solid b (through.subset (by simp))
    rw [blank] at solid'
    cases solid'

theorem Unbroken.clear {t : Text} (unbroken : Unbroken t) : Clear t := by
  obtain ⟨solid, dotted⟩ := unbroken
  rintro s ⟨front, rfl⟩ ne_nil y opens
  have unbroken' : Unbroken s := by
    refine ⟨fun b mem => solid b (List.mem_append_right _ mem), fun b last => dotted b ?_⟩
    rwa [List.getLast?_append_of_ne_nil _ ne_nil]
  exact unbroken'.not_prefix ne_nil opens

theorem clear_of_free {t : Text} (free : (0x6e : UInt8) ∉ t) : Clear t := by
  rintro s behind ne_nil y ⟨a, z, -, rfl⟩ leads
  obtain ⟨b, s, rfl⟩ := List.exists_cons_of_ne_nil ne_nil
  obtain rfl : b = 0x6e := (List.cons_prefix_cons.mp leads).1
  exact free (behind.subset List.mem_cons_self)

/-- A rule that puts a text opening with `new` in the place of such texts. -/
structure SymbolRule.Renews (r : SymbolRule) : Prop where
  occurrence : ∀ {c : Cursor} {n : Nat} {captured : Text},
    matchPattern? c r.pattern = some (n, captured) →
      0 < n ∧ OpensNew c.after ∧ (∀ b ∈ c.after.take n, (b != 0x67) = true) ∧
        facesWord (c.advance n).before = false
  replacement : ∀ {c : Cursor} {n : Nat} {captured : Text},
    matchPattern? c r.pattern = some (n, captured) →
      OpensNew (r.replacement.expand captured) ∧
        (∀ i < (r.replacement.expand captured).length, ∀ y,
          ¬ utf8 "glMatrix." <+: (r.replacement.expand captured).drop i ++ y) ∧
        facesWord (r.replacement.expand captured).reverse = false

/-- A clear text is copied as a whole: it is in front before the rule is applied exactly when it is
in front afterwards. -/
theorem Applies.passes {r : SymbolRule} (renews : r.Renews) : ∀ (p : Text) {c : Cursor}
    {out : Text × List Import}, Clear p → Applies r c out → (p <+: c.after ∨ p <+: out.1) →
      p <+: c.after ∧ ∃ out', Applies r (c.advance p.length) out' ∧ out.1 = p ++ out'.1
  | [], c, out, _, applies, _ => ⟨List.nil_prefix, out, applies, rfl⟩
  | b :: p, c, out, clear, applies, leads => by
      have ne_nil : b :: p ≠ [] := by simp
      cases applies with
      | finish done =>
          rw [done] at leads
          rcases leads with leads | leads <;> cases List.prefix_nil.mp leads
      | replace more found rest =>
          exfalso
          rcases leads with leads | leads
          · exact clear _ List.suffix_rfl ne_nil _ (renews.occurrence found).2.1 leads
          · exact clear _ List.suffix_rfl ne_nil _ ((renews.replacement found).1.append _) leads
      | @copy _ a text imports front other rest =>
          obtain ⟨tail, after_eq⟩ := peek?_eq_some_iff.mp front
          have tail_eq : (c.advance 1).after = tail := by simp [after_advance, after_eq]
          rw [after_eq, List.cons_prefix_cons, List.cons_prefix_cons] at leads
          obtain rfl : b = a := leads.elim And.left And.left
          obtain ⟨leads', out', rest', text_eq⟩ := passes renews p clear.tail rest
            (leads.imp (fun facts => tail_eq ▸ facts.2) And.right)
          refine ⟨?_, out', ?_, ?_⟩
          · rw [after_eq, List.cons_prefix_cons]
            exact ⟨rfl, tail_eq ▸ leads'⟩
          · rwa [List.length_cons, Nat.add_comm, ← advance_advance]
          · exact congrArg _ text_eq

theorem match?_word_iff {c : Cursor} {n : Nat} {x : Text} : Atom.word.match? c = some (n, x) ↔
    x = c.after.takeWhile isSymbolByte ∧ x ≠ [] ∧ n = x.length := by
  simp only [Atom.match?, List.isEmpty_iff]
  split
  · rename_i none
    rw [none]
    refine iff_of_false (by simp) ?_
    rintro ⟨rfl, ne_nil, -⟩
    exact ne_nil rfl
  · rename_i some_byte
    rw [Option.some.injEq, Prod.mk.injEq]
    constructor
    · rintro ⟨rfl, rfl⟩
      exact ⟨rfl, some_byte, rfl⟩
    · rintro ⟨rfl, -, rfl⟩
      exact ⟨rfl, rfl⟩

/-- A member of the math library as the original text has it. -/
def mathMember (x : Text) : Text := utf8 "glMatrix." ++ x ++ utf8 "."

theorem mathMember_append (x y : Text) :
    mathMember x ++ y = utf8 "glMatrix." ++ (x ++ dot :: y) := by
  rw [mathMember, List.append_assoc, List.append_assoc]
  rfl

theorem mathMember_ne_nil (x y : Text) : mathMember x ++ y ≠ [] := List.cons_ne_nil _ _

theorem facesWord_mathMember (x before : Text) :
    facesWord ((mathMember x).reverse ++ before) = false := by
  simp only [mathMember, List.reverse_append]
  rfl

theorem unbroken_mathMember {x : Text} (symbols : ∀ b ∈ x, isSymbolByte b = true) :
    Unbroken (mathMember x) := by
  have solid : ∀ b, isSymbolByte b = true → isPatternBlank b = false := by
    intro b symbol
    by_contra blank
    rw [Bool.not_eq_false] at blank
    have all : [space, tab, lineFeed, formFeed, carriageReturn].all (!isSymbolByte ·) = true := by
      decide
    have other := List.all_eq_true.mp all b (mem_blanks blank)
    rw [symbol] at other
    cases other
  constructor
  · intro b mem
    simp only [mathMember, List.mem_append] at mem
    rcases mem with (library | name) | dotted
    · have plain : (utf8 "glMatrix.").all (!isPatternBlank ·) = true := by decide
      simpa using List.all_eq_true.mp plain b library
    · exact solid b (symbols b name)
    · obtain rfl : b = dot := List.mem_singleton.mp dotted
      rfl
  · intro b last
    rw [mathMember, List.getLast?_append_of_ne_nil _ (by decide)] at last
    exact (Option.some.inj last).symm

/-- A match of the math pattern is a member of the library that is not behind a word byte. -/
theorem matchPattern?_math_iff {c : Cursor} {n : Nat} {x : Text} :
    matchPattern? c mathRule.pattern = some (n, x) ↔
      facesWord c.before = false ∧ (x ≠ [] ∧ ∀ b ∈ x, isSymbolByte b = true) ∧
        mathMember x <+: c.after ∧ n = (mathMember x).length := by
  have pattern_eq : mathRule.pattern =
      [.edge, .exact (utf8 "glMatrix."), .word, .exact (utf8 ".")] := rfl
  rw [pattern_eq]
  constructor
  · intro found
    have starts := starts_of_word (by decide) found
    obtain ⟨_, _, _, _, edge, found₁, rfl, rfl⟩ := matchPattern?_cons_iff.mp found
    obtain ⟨-, rfl, rfl⟩ := match?_edge_iff.mp edge
    obtain ⟨_, _, _, _, library, found₂, rfl, rfl⟩ := matchPattern?_cons_iff.mp found₁
    obtain ⟨⟨y, after_eq⟩, rfl, rfl⟩ := match?_exact_iff.mp library
    obtain ⟨_, _, name, _, word, found₃, rfl, rfl⟩ := matchPattern?_cons_iff.mp found₂
    obtain ⟨name_eq, ne_nil, rfl⟩ := match?_word_iff.mp word
    obtain ⟨_, _, _, _, dotted, found₄, rfl, rfl⟩ := matchPattern?_cons_iff.mp found₃
    obtain ⟨leads, rfl, rfl⟩ := match?_exact_iff.mp dotted
    obtain ⟨rfl, rfl⟩ := Prod.mk.inj (Option.some.inj found₄)
    rw [advance_zero] at after_eq name_eq leads
    rw [after_advance, after_advance, ← after_eq, List.drop_left] at leads
    rw [after_advance, ← after_eq, List.drop_left] at name_eq
    have y_eq : name ++ y.drop name.length = y := by
      rw [name_eq]
      exact (List.prefix_append_drop (List.takeWhile_prefix _)).symm
    refine ⟨starts.2.1, ?_, ?_, ?_⟩
    · simp only [List.append_nil, List.nil_append]
      exact ⟨ne_nil, fun b mem => List.all_eq_true.mp List.all_takeWhile b (name_eq ▸ mem)⟩
    · simp only [List.append_nil, List.nil_append]
      rw [← after_eq, mathMember, List.append_assoc, List.prefix_append_right_inj, ← y_eq,
        List.prefix_append_right_inj]
      exact leads
    · simp [mathMember]
  · rintro ⟨outside, ⟨ne_nil, symbols⟩, ⟨y, after_eq⟩, rfl⟩
    obtain ⟨before, after⟩ := c
    dsimp only at outside after_eq
    subst after_eq
    have word_eq : (x ++ (utf8 "." ++ y)).takeWhile isSymbolByte = x := by
      rw [List.takeWhile_append_of_pos symbols]
      exact List.append_nil x
    have member_eq : mathMember x ++ y = utf8 "glMatrix." ++ (x ++ (utf8 "." ++ y)) :=
      mathMember_append x y
    have differ : facesWord before ≠ facesWord (utf8 "glMatrix." ++ (x ++ (utf8 "." ++ y))) := by
      rw [outside]
      exact Bool.false_ne_true
    rw [member_eq]
    refine matchPattern?_cons_iff.mpr
      ⟨0, _, [], _, match?_edge_iff.mpr ⟨differ, rfl, rfl⟩, ?_, (Nat.zero_add _).symm, rfl⟩
    refine matchPattern?_cons_iff.mpr
      ⟨_, x.length + 1, [], _, match?_exact_iff.mpr ⟨List.prefix_append _ _, rfl, rfl⟩, ?_, ?_, rfl⟩
    · rw [advance_zero, advance_append]
      refine matchPattern?_cons_iff.mpr
        ⟨_, 1, x, [], match?_word_iff.mpr ⟨word_eq.symm, ne_nil, rfl⟩, ?_, rfl,
          (List.append_nil x).symm⟩
      rw [advance_append]
      rfl
    · rw [mathMember, List.append_assoc, List.length_append, List.length_append]
      rfl

theorem math_eq_none {c : Cursor} (other : ¬ utf8 "glMatrix." <+: c.after) :
    matchPattern? c mathRule.pattern = none := by
  by_contra found
  obtain ⟨⟨n, x⟩, found⟩ := Option.ne_none_iff_exists'.mp found
  obtain ⟨-, -, leads, -⟩ := matchPattern?_math_iff.mp found
  refine other (List.IsPrefix.trans ?_ leads)
  rw [mathMember, List.append_assoc]
  exact List.prefix_append _ _

/-- **The math library is captured alike before and after a constructor rule.** -/
theorem captures_math_applied {r : SymbolRule} (renews : r.Renews) {m : Nat} {c : Cursor}
    {out : Text × List Import} {before' : Text} (length : c.after.length = m)
    (applies : Applies r c out) (same : facesWord before' = facesWord c.before) :
    capturesAt mathRule.pattern ⟨before', out.1⟩ = capturesAt mathRule.pattern c := by
  induction m using Nat.strong_induction_on generalizing c out before' with
  | _ m ih =>
    have shorter : ∀ n, 0 < n → c.after ≠ [] → (c.advance n).after.length < m :=
      fun n pos more => length ▸ length_after_lt pos more
    cases found : matchPattern? c mathRule.pattern with
    | some first =>
        -- The member is copied as a whole, and behind its dot no word goes on.
        obtain ⟨n, x⟩ := first
        obtain ⟨outside, named, leads, rfl⟩ := matchPattern?_math_iff.mp found
        obtain ⟨-, out', applies', out_eq⟩ :=
          applies.passes renews _ (unbroken_mathMember named.2).clear (.inl leads)
        have more : c.after ≠ [] := by
          rintro done
          rw [done] at leads
          cases List.prefix_nil.mp leads
        have found' : matchPattern? ⟨before', out.1⟩ mathRule.pattern =
            some ((mathMember x).length, x) := by
          refine matchPattern?_math_iff.mpr ⟨same.trans outside, named, ?_, rfl⟩
          rw [out_eq]
          exact List.prefix_append _ _
        have more' : (⟨before', out.1⟩ : Cursor).after ≠ [] := by
          show out.1 ≠ []
          exact out_eq ▸ mathMember_ne_nil x out'.1
        have pos : 0 < (mathMember x).length := Nat.zero_lt_succ _
        rw [capturesAt_of_found more found, capturesAt_of_found more' found', Nat.max_eq_left pos]
        have behind : (⟨before', out.1⟩ : Cursor).advance (mathMember x).length =
            ⟨(mathMember x).reverse ++ before', out'.1⟩ := by
          rw [out_eq, advance_append]
        have dotted : facesWord ((mathMember x).reverse ++ before') =
            facesWord (c.advance (mathMember x).length).before := by
          have before_eq : (c.advance (mathMember x).length).before =
              (mathMember x).reverse ++ c.before := by
            simp only [advance, take_of_leads leads]
          rw [before_eq, facesWord_mathMember, facesWord_mathMember]
        rw [behind, ih _ (shorter _ pos more) rfl applies' dotted]
    | none =>
        cases applies with
        | finish done => rw [capturesAt_of_nil done, capturesAt_of_nil rfl]
        | @replace _ n captured text imports more found' rest =>
            -- No member starts inside the occurrence, nor inside what takes its place.
            obtain ⟨pos, -, noMember, noWord⟩ := renews.occurrence found'
            obtain ⟨opens', noMember', noWord'⟩ := renews.replacement found'
            rw [Nat.max_eq_left pos] at rest
            have passed : capturesAt mathRule.pattern c =
                capturesAt mathRule.pattern (c.advance n) := by
              refine capturesAt_advance n c fun i less => math_eq_none ?_
              intro leads
              have mem : (0x67 : UInt8) ∈ c.after.take n := by
                obtain ⟨y, after_eq⟩ := leads
                have byte : c.after[i]? = some 0x67 := by
                  rw [← List.head?_drop]
                  exact (congrArg List.head? after_eq).symm
                rw [← List.getElem?_take_of_lt less] at byte
                exact List.mem_of_getElem? byte
              exact absurd (noMember _ mem) (by decide)
            have passed' : capturesAt mathRule.pattern
                  ⟨before', r.replacement.expand captured ++ text⟩ =
                capturesAt mathRule.pattern
                  ((⟨before', r.replacement.expand captured ++ text⟩ : Cursor).advance
                    (r.replacement.expand captured).length) := by
              refine capturesAt_advance _ _ fun i less => math_eq_none ?_
              rw [after_advance, List.drop_append_of_le_length (Nat.le_of_lt less)]
              exact noMember' i less text
            have face : facesWord ((r.replacement.expand captured).reverse ++ before') =
                facesWord (c.advance n).before := by
              obtain ⟨b, y, -, expand_eq⟩ := opens'
              have ne_nil : (r.replacement.expand captured).reverse ≠ [] := by
                rw [expand_eq]
                simp
              rw [facesWord_append ne_nil, noWord', noWord]
            rw [passed, passed', advance_append]
            exact ih _ (shorter n pos more) rfl rest face
        | @copy _ b text imports front other rest =>
            obtain ⟨tail, after_eq⟩ := peek?_eq_some_iff.mp front
            have more := ne_nil_of_peek? front
            have none' : matchPattern? ⟨before', b :: text⟩ mathRule.pattern = none := by
              by_contra found'
              obtain ⟨⟨n, x⟩, found'⟩ := Option.ne_none_iff_exists'.mp found'
              obtain ⟨outside, named, leads, rfl⟩ := matchPattern?_math_iff.mp found'
              have copied := (Applies.copy front other rest).passes renews _
                (unbroken_mathMember named.2).clear (.inr leads)
              have found'' := matchPattern?_math_iff.mpr
                ⟨same.symm.trans outside, named, copied.1, rfl⟩
              rw [found] at found''
              cases found''
            rw [capturesAt_of_none found, capturesAt_of_none none']
            have face : facesWord (b :: before') = facesWord (c.advance 1).before := by
              simp [advance, after_eq, facesWord]
            exact ih _ (shorter 1 Nat.one_pos more) rfl rest face

/-! ## The rules for constructors -/

section Constructors

variable {c : Cursor} {n : Nat} {captured : Text} {rest : List Atom}

/-- A pattern that goes on behind another one matches only where that one does. -/
theorem matchPattern?_append_isSome : ∀ {front : List Atom} {c : Cursor},
    (matchPattern? c (front ++ rest)).isSome = true → (matchPattern? c front).isSome = true
  | [], c, _ => rfl
  | atom :: front, c, found => by
      obtain ⟨⟨n, captured⟩, found⟩ := Option.isSome_iff_exists.mp found
      obtain ⟨first, _, taken, _, here, later, -, -⟩ := matchPattern?_cons_iff.mp found
      have shorter := matchPattern?_append_isSome (Option.isSome_iff_exists.mpr ⟨_, later⟩)
      obtain ⟨⟨last, more⟩, found'⟩ := Option.isSome_iff_exists.mp shorter
      exact Option.isSome_iff_exists.mpr
        ⟨_, matchPattern?_cons_iff.mpr ⟨first, last, taken, more, here, found', rfl, rfl⟩⟩

theorem opensNew_of_call (found : matchPattern? c (constructorCall ++ rest) = some (n, captured)) :
    OpensNew c.after := by
  obtain ⟨_, _, _, _, edge, found₁, -, -⟩ := matchPattern?_cons_iff.mp found
  obtain ⟨-, rfl, -⟩ := match?_edge_iff.mp edge
  obtain ⟨_, _, _, _, word, found₂, -, -⟩ := matchPattern?_cons_iff.mp found₁
  obtain ⟨⟨y, after_eq⟩, rfl, -⟩ := match?_exact_iff.mp word
  obtain ⟨_, _, _, _, blanks, -, -, -⟩ := matchPattern?_cons_iff.mp found₂
  rw [advance_zero] at after_eq blanks
  simp only [Atom.match?, after_advance, ← after_eq, List.drop_left] at blanks
  split at blanks
  · rename_i least
    cases y with
    | nil => simp at least
    | cons b y =>
        refine ⟨b, y, ?_, after_eq.symm⟩
        by_contra other
        simp [List.takeWhile_cons_of_neg other] at least
  · cases blanks

/-- The only constructor is that of textures. -/
theorem captured_of_call (silent : ∀ a ∈ rest, a.isSilent = true)
    (found : matchPattern? c (constructorCall ++ rest) = some (n, captured)) :
    captured = utf8 "Texture" := by
  have silent' : ∀ a ∈ [.edge, .exact (utf8 "new"), .blanks 1, .exact (utf8 "WL.")] ++
      ([Atom.blanks 0, .exact (utf8 "(")] ++ rest), a.isSilent = true := by
    intro a mem
    rcases List.mem_append.mp mem with front | back
    · exact (by decide : ∀ a ∈ [Atom.edge, .exact (utf8 "new"), .blanks 1, .exact (utf8 "WL.")],
        a.isSilent = true) a front
    · rcases List.mem_append.mp back with close | rest
      · exact (by decide : ∀ a ∈ [Atom.blanks 0, .exact (utf8 "(")], a.isSilent = true) a close
      · exact silent a rest
  obtain ⟨m, k, name⟩ := captured_between _ (.oneOf engineConstructors) _ silent' found
  exact List.mem_singleton.mp (match?_oneOf name).1

/-- A text that is put in starts no text that neither leads nor follows a part of it. -/
theorem not_leads_of_apart {p e : Text}
    (apart : ∀ i < e.length, ¬ p <+: e.drop i ∧ ¬ e.drop i <+: p) :
    ∀ i < e.length, ∀ y, ¬ p <+: e.drop i ++ y := by
  intro i less y leads
  rcases List.prefix_or_prefix_of_prefix leads (List.prefix_append _ y) with short | long
  · exact (apart i less).1 short
  · exact (apart i less).2 long

theorem renews_bareConstructorRule : bareConstructorRule.Renews where
  occurrence found := by
    refine ⟨(starts_of_word (by decide) found).1, opensNew_of_call found,
      matchPattern?_keeps (by decide) found, ?_⟩
    obtain ⟨before, before_eq⟩ :=
      matchPattern?_closes (constructorCall ++ [.blanks 0]) found
    rw [before_eq]
    rfl
  replacement found := by
    rw [captured_of_call (by decide) found]
    exact ⟨⟨space, _, rfl, rfl⟩, not_leads_of_apart (by decide), by decide⟩

theorem renews_constructorRule : constructorRule.Renews where
  occurrence found := by
    have found' : matchPattern? _ (constructorCall ++ []) = _ := found
    refine ⟨(starts_of_word (by decide) found).1, opensNew_of_call found',
      matchPattern?_keeps (by decide) found, ?_⟩
    obtain ⟨before, before_eq⟩ := matchPattern?_closes constructorCall.dropLast found
    rw [before_eq]
    rfl
  replacement found := by
    have found' : matchPattern? _ (constructorCall ++ []) = _ := found
    rw [captured_of_call (by decide) found']
    exact ⟨⟨space, _, rfl, rfl⟩, not_leads_of_apart (by decide), by decide⟩

end Constructors

/-! ## The imports of methods and properties -/

theorem applyAll_snd_of_silent : ∀ {table : SymbolTable} (t : Text),
    (∀ r ∈ table, r.imported = none) → (SymbolTable.applyAll table t).2 = []
  | [], t, _ => rfl
  | r :: rest, t, silent => by
      have none_here : (r.apply t).2 = [] := by
        rw [apply_snd]
        simp [SymbolRule.importsOf, silent r List.mem_cons_self]
      have none_later := applyAll_snd_of_silent (r.apply t).1
        fun r' mem => silent r' (List.mem_cons_of_mem _ mem)
      show (r.apply t).2 ++ (SymbolTable.applyAll rest (r.apply t).1).2 = []
      rw [none_here, none_later]
      rfl

/-- The imports that a methods object asks for: those of the rules for constructors, and those of
the rule for the math library on the text that these have left. -/
theorem upgradeMethods_snd (methods : Text) :
    (upgradeMethods methods).2 = (bareConstructorRule.apply methods).2 ++
      ((constructorRule.apply (bareConstructorRule.apply methods).1).2 ++
        (mathRule.apply (constructorRule.apply (bareConstructorRule.apply methods).1).1).2) := by
  have ordered : defaultSymbolTable.ordered =
      bareConstructorRule :: constructorRule :: mathRule :: defaultSymbolTable.drop 3 := by
    decide
  show (SymbolTable.applyAll defaultSymbolTable.ordered methods).2 = _
  rw [ordered]
  simp only [SymbolTable.applyAll]
  rw [applyAll_snd_of_silent _ (by decide), List.append_nil]

/-- A rule that imports what it captures asks for its captures. -/
theorem mem_apply_snd {r : SymbolRule} {l l' : Library} {t x : Text}
    (imported : r.imported = some (l, ⟨[], []⟩)) :
    (⟨l', x⟩ : Import) ∈ (r.apply t).2 ↔ l' = l ∧ x ∈ captures r.pattern t := by
  simp [apply_snd, SymbolRule.importsOf, imported, Template.expand, and_comm]

theorem eq_texture_of_mem {r : SymbolRule} {rest : List Atom} {t x : Text}
    (pattern_eq : r.pattern = constructorCall ++ rest) (silent : ∀ a ∈ rest, a.isSilent = true)
    (mem : x ∈ captures r.pattern t) : x = utf8 "Texture" := by
  obtain ⟨k, n, found⟩ := match_of_mem_capturesAt rfl mem
  exact captured_of_call silent (pattern_eq ▸ found)

theorem captures_math_apply {r : SymbolRule} (renews : r.Renews) (t : Text) :
    captures mathRule.pattern (r.apply t).1 = captures mathRule.pattern t :=
  captures_math_applied renews rfl (applies_apply r t) rfl

theorem apply_fst_of_captures {r : SymbolRule} {t : Text} (empty : captures r.pattern t = []) :
    (r.apply t).1 = t := (applies_apply r t).fst_of_captures empty

theorem fenced_constructors : bareConstructorRule.Fenced ∧ constructorRule.Fenced :=
  ⟨fenced_of_mem (by decide), fenced_of_mem (by decide)⟩

theorem occurs_call_of_bare {t : Text} (occurs : Occurs bareConstructorRule.pattern t) :
    Occurs constructorCall t := by
  obtain ⟨c, text_eq, found⟩ := occurs
  exact ⟨c, text_eq, matchPattern?_append_isSome found⟩

/-- A rule for constructors asks for the one class whose constructor takes the engine, when it
finds an occurrence. -/
theorem mem_constructors_iff {r : SymbolRule} {rest : List Atom} {t x : Text} (fenced : r.Fenced)
    (pattern_eq : r.pattern = constructorCall ++ rest) (silent : ∀ a ∈ rest, a.isSilent = true) :
    x ∈ captures r.pattern t ↔ x = utf8 "Texture" ∧ Occurs r.pattern t := by
  rw [← captures_ne_nil_iff fenced]
  constructor
  · intro mem
    exact ⟨eq_texture_of_mem pattern_eq silent mem, List.ne_nil_of_mem mem⟩
  · rintro ⟨rfl, some_captured⟩
    obtain ⟨y, more, captures_eq⟩ := List.exists_cons_of_ne_nil some_captured
    have mem : y ∈ captures r.pattern t := by
      rw [captures_eq]
      exact List.mem_cons_self
    rwa [eq_texture_of_mem pattern_eq silent mem] at mem

/-- **The engine symbols of methods** are those of the constructors called in the original. -/
theorem mem_upgradeMethods_engine {methods x : Text} :
    ⟨.engine, x⟩ ∈ (upgradeMethods methods).2 ↔
      x = utf8 "Texture" ∧ Occurs constructorCall methods := by
  have bare : x ∈ captures bareConstructorRule.pattern methods ↔ _ :=
    mem_constructors_iff fenced_constructors.1 rfl (by decide)
  have call : x ∈ captures constructorRule.pattern (bareConstructorRule.apply methods).1 ↔ _ :=
    mem_constructors_iff fenced_constructors.2 (List.append_nil _).symm (by decide)
  rw [upgradeMethods_snd, List.mem_append, List.mem_append, mem_apply_snd rfl, mem_apply_snd rfl,
    mem_apply_snd rfl, bare, call]
  by_cases empty : captures bareConstructorRule.pattern methods = []
  · have none : ¬ Occurs bareConstructorRule.pattern methods := by
      rw [← captures_ne_nil_iff fenced_constructors.1, not_not]
      exact empty
    rw [apply_fst_of_captures empty]
    simp [none, constructorRule]
  · have found := (captures_ne_nil_iff fenced_constructors.1).mp empty
    have called := occurs_call_of_bare found
    simp only [found, called, and_true, true_and]
    constructor
    · rintro (texture | ⟨texture, -⟩ | ⟨other, -⟩)
      · exact texture
      · exact texture
      · cases other
    · exact .inl

/-- **The math symbols of methods** are those captured in the original. -/
theorem mem_upgradeMethods_math {methods x : Text} :
    ⟨.math, x⟩ ∈ (upgradeMethods methods).2 ↔ x ∈ captures mathRule.pattern methods := by
  rw [upgradeMethods_snd, List.mem_append, List.mem_append, mem_apply_snd rfl, mem_apply_snd rfl,
    mem_apply_snd rfl, captures_math_apply renews_constructorRule,
    captures_math_apply renews_bareConstructorRule]
  simp

/-- **The symbols of properties**: the namespace of types is imported when a type has lost it. -/
theorem mem_propertyTypeRule_iff {properties x : Text} {l : Library} :
    ⟨l, x⟩ ∈ (propertyTypeRule.apply properties).2 ↔
      l = .engine ∧ x = utf8 "Type" ∧ Occurs propertyTypeRule.pattern properties := by
  rw [apply_snd, ← captures_ne_nil_iff fenced_propertyTypeRule]
  have silent : ∀ y ∈ captures propertyTypeRule.pattern properties,
      propertyTypeRule.importsOf y = [⟨.engine, utf8 "Type"⟩] := by
    intro y mem
    obtain ⟨k, n, found⟩ := match_of_mem_capturesAt rfl mem
    rw [captured_of_silent (by decide) found]
    rfl
  rw [List.mem_flatMap]
  constructor
  · rintro ⟨y, mem, asked⟩
    rw [silent y mem, List.mem_singleton] at asked
    obtain ⟨rfl, rfl⟩ := Import.mk.inj asked
    exact ⟨rfl, rfl, List.ne_nil_of_mem mem⟩
  · rintro ⟨rfl, rfl, some_captured⟩
    obtain ⟨y, more, captures_eq⟩ := List.exists_cons_of_ne_nil some_captured
    have mem : y ∈ captures propertyTypeRule.pattern properties := by
      rw [captures_eq]
      exact List.mem_cons_self
    exact ⟨y, mem, by rw [silent y mem]; exact List.mem_singleton_self _⟩

end ClassUpgrade.Component
