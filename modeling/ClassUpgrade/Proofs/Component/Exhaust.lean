/-
# Proofs.Component.Exhaust — one pass of the symbol rules leaves nothing to rewrite

Each rule takes every occurrence of its pattern out of a text. What could put one
back, in its own result or in that of a later rule, is that something put in
takes part in a new occurrence; `SymbolRule.Spares` rules it out, pair by pair:

* a call of a constructor has three words that something put in could be the
  front of, and they differ from all of those (`occurs_call_back`);
* a member of the math library is the name of the library and a word with a dot
  behind it. The rules leave a word with a dot only where there was one
  (`SymbolRule.KeepsDots`), so it is the name that matters (`occurs_math_back`);
* all later rules exchange whole words for others, and none of the words they look
  for can be made of one they put in (`legacyWords_apart`).

The rule for the math library puts in what it captures. If that is the name of
one of the globals, a new occurrence may arise, so the captures `WL` and
`glMatrix` are excluded in the main statement, `defaultSymbolTable_exhausts`.
-/
import ClassUpgrade.Proofs.Component.Exchange
import ClassUpgrade.Proofs.Component.Respelling.Constructor

namespace ClassUpgrade.Component

set_option autoImplicit false

open Byte Source Source.Cursor

/-! ## Calls of constructors -/

theorem not_symbol_of_blank {b : UInt8} (blank : isPatternBlank b = true) :
    isSymbolByte b = false := by
  have all : [space, tab, lineFeed, formFeed, carriageReturn].all (!isSymbolByte ·) = true := by
    decide
  simpa using List.all_eq_true.mp all b (mem_blanks blank)

/-- The words of a call. -/
theorem wordStarts_callText {b₁ b₂ : Text} (blanks : CallBlanks b₁ b₂) :
    wordStarts false (callText b₁ b₂) = [callText b₁ b₂, utf8 "WL.Texture" ++ (b₂ ++ [openParen]),
      utf8 "Texture" ++ (b₂ ++ [openParen])] := by
  have behind : wordStarts true (b₂ ++ [openParen]) = [] := by
    refine wordStarts_of_plain true fun b mem => ?_
    rcases List.mem_append.mp mem with blank | paren
    · exact not_symbol_of_blank (blanks.front b blank)
    · obtain rfl := List.mem_singleton.mp paren
      rfl
  have names : wordStarts false (utf8 "WL.Texture" ++ (b₂ ++ [openParen])) =
      (utf8 "WL.Texture" ++ (b₂ ++ [openParen])) :: (utf8 "Texture" ++ (b₂ ++ [openParen])) ::
        wordStarts true (b₂ ++ [openParen]) := rfl
  have keyword : wordStarts false (callText b₁ b₂) = callText b₁ b₂ ::
      wordStarts true (b₁ ++ (utf8 "WL.Texture" ++ (b₂ ++ [openParen]))) := rfl
  rw [keyword, wordStarts_append_plain true _ blanks.more
    fun b mem => not_symbol_of_blank (blanks.behind b mem), names, behind]

/-- A call found in the result of a rule was found in the original. -/
theorem occurs_call_back {r : SymbolRule} (fitted : r.Fitted) {t : Text}
    (spares : ∀ x ∈ captures r.pattern t, ∀ b₁ b₂, CallBlanks b₁ b₂ → r.Spares (callText b₁ b₂) x)
    (occurs : Occurs constructorCall (r.apply t).1) :
    ∃ c, c.text = t ∧ (matchPattern? c constructorCall).isSome = true ∧
      matchPattern? c r.pattern = none := by
  obtain ⟨d, text_eq, found⟩ := occurs
  obtain ⟨⟨n, x⟩, found⟩ := Option.isSome_iff_exists.mp found
  obtain ⟨outside, -, b₁, b₂, blanks, leads, -⟩ := matchPattern?_call_iff.mp found
  obtain ⟨c, -, text_eq', outside', kept, other, -, -⟩ := fitted.read_back
    (fun y mem => spares y mem b₁ b₂ blanks) text_eq outside rfl leads
  have found' := matchPattern?_call_iff.mpr ⟨outside', rfl, b₁, b₂, blanks, kept, rfl⟩
  exact ⟨c, text_eq', by rw [found']; rfl, other⟩

/-! ## Members of the math library -/

/-- A member found in the result of a rule was found in the original. -/
theorem occurs_math_back {r : SymbolRule} (fitted : r.Fitted) (keeps : r.KeepsDots) {t : Text}
    (spares : ∀ x ∈ captures r.pattern t, r.Spares (utf8 "glMatrix.") x)
    (occurs : Occurs mathRule.pattern (r.apply t).1) :
    ∃ c, c.text = t ∧ (matchPattern? c mathRule.pattern).isSome = true ∧
      matchPattern? c r.pattern = none := by
  obtain ⟨d, text_eq, found⟩ := occurs
  obtain ⟨⟨n, x⟩, found⟩ := Option.isSome_iff_exists.mp found
  obtain ⟨outside, ⟨ne_nil, word⟩, ⟨z, member⟩, -⟩ := matchPattern?_math_iff.mp found
  rw [mathMember_append] at member
  have leads : utf8 "glMatrix." <+: d.after := ⟨_, member⟩
  obtain ⟨c, out, text_eq', outside', kept, other, applies, after_eq⟩ :=
    fitted.read_back spares text_eq outside rfl leads
  have out_eq : x ++ dot :: z = out.1 := by
    rw [← member] at after_eq
    exact List.append_cancel_left after_eq
  have dotted : Dotted out.1 := ⟨x, z, ne_nil, word, out_eq.symm⟩
  obtain ⟨w, y, w_ne_nil, word', after_eq'⟩ := applies.dotted fitted keeps dotted
  obtain ⟨rest, rest_eq⟩ := kept
  rw [after_advance, ← rest_eq, List.drop_left] at after_eq'
  have member' : mathMember w <+: c.after := ⟨y, by rw [← rest_eq, after_eq', mathMember_append]⟩
  have found' := matchPattern?_math_iff.mpr ⟨outside', ⟨w_ne_nil, word'⟩, member', rfl⟩
  exact ⟨c, text_eq', by rw [found']; rfl, other⟩

/-! ## What cannot be made of a word that is put in -/

/-- No legacy word can be made of what takes the place of another. -/
theorem legacyWords_apart : ∀ r ∈ wordRules, ∀ pair ∈ r.pairs, ∀ w ∈ legacyWords,
    (∀ s ∈ wordStarts false w, Apart s pair.2) ∧ ∀ e ∈ innerStarts pair.2, Apart w e := by
  decide +kernel

/-- Nor can the library of a member, nor what a call starts with. -/
theorem globals_apart : ∀ r ∈ wordRules, ∀ pair ∈ r.pairs,
    ((∀ s ∈ wordStarts false (utf8 "glMatrix."), Apart s pair.2) ∧
      ∀ e ∈ innerStarts pair.2, Apart (utf8 "glMatrix.") e) ∧
    (∀ a ∈ utf8 "nWT", pair.2.head?.any (· != a) = true) ∧
      ∀ e ∈ innerStarts pair.2, e.head?.any (· != 0x6e) = true := by
  decide +kernel

/-! ## What takes the place of a call, a member and a word -/

theorem apart_of_head? {s e : Text} {a : UInt8} (front : s.head? = some a)
    (other : e.head?.any (· != a) = true) : Apart s e := by
  obtain ⟨s, rfl⟩ := List.head?_eq_some_iff.mp front
  cases e with
  | nil => cases other
  | cons b e =>
      have differ : b ≠ a := by simpa using other
      exact apart_cons differ.symm s e

theorem spares_call {r : SymbolRule} {x b₁ b₂ : Text} (blanks : CallBlanks b₁ b₂)
    (keyword : Apart (callText b₁ b₂) (r.replacement.expand x))
    (owner : Apart (utf8 "WL.Texture" ++ (b₂ ++ [openParen])) (r.replacement.expand x))
    (name : Apart (utf8 "Texture" ++ (b₂ ++ [openParen])) (r.replacement.expand x))
    (inner : ∀ e ∈ innerStarts (r.replacement.expand x), e.head?.any (· != 0x6e) = true) :
    r.Spares (callText b₁ b₂) x where
  front := by
    intro s mem
    rw [wordStarts_callText blanks] at mem
    simp only [List.mem_cons, List.not_mem_nil, or_false] at mem
    rcases mem with rfl | rfl | rfl
    · exact keyword
    · exact owner
    · exact name
  inner := fun e mem => apart_of_head? rfl (inner e mem)

/-- The call that is put in has no namespace. -/
theorem spares_constructorRule {x b₁ b₂ : Text} {t : Text}
    (mem : x ∈ captures constructorRule.pattern t) (blanks : CallBlanks b₁ b₂) :
    constructorRule.Spares (callText b₁ b₂) x := by
  obtain rfl : x = utf8 "Texture" :=
    eq_texture_of_mem (List.append_nil constructorCall).symm (by decide) mem
  refine spares_call blanks (fun y leads => ?_) (apart_of_head? rfl rfl) (apart_of_head? rfl rfl)
    (by decide)
  have leads' : b₁ ++ (utf8 "WL.Texture" ++ (b₂ ++ [openParen])) <+:
      space :: (utf8 "Texture(this.engine, " ++ y) :=
    (List.prefix_append_right_inj (utf8 "new")).mp leads
  obtain ⟨a, b, rfl⟩ := List.exists_cons_of_ne_nil blanks.more
  obtain ⟨-, behind⟩ := List.cons_prefix_cons.mp leads'
  cases b with
  | nil => exact absurd (List.cons_prefix_cons.mp behind).1 (by decide)
  | cons a' b =>
      have name : a' = 0x54 := (List.cons_prefix_cons.mp behind).1
      have blank := blanks.behind a' (by simp)
      rw [name] at blank
      cases blank

theorem word_of_mem_math {t x : Text} (mem : x ∈ captures mathRule.pattern t) :
    facesWord x = true ∧ ∀ b ∈ x, isSymbolByte b = true := by
  obtain ⟨k, n, found⟩ := match_of_mem_capturesAt rfl mem
  obtain ⟨-, ⟨ne_nil, symbols⟩, -, -⟩ := matchPattern?_math_iff.mp found
  obtain ⟨b, y, rfl⟩ := List.exists_cons_of_ne_nil ne_nil
  exact ⟨symbols b List.mem_cons_self, symbols⟩

/-- A name of the math library has no further words. -/
theorem innerStarts_member {x : Text} (starts : facesWord x = true)
    (symbols : ∀ b ∈ x, isSymbolByte b = true) : innerStarts (x ++ [dot]) = [] := by
  obtain ⟨b, y, rfl⟩ := List.exists_cons_of_ne_nil (ne_nil_of_facesWord starts)
  have first : isSymbolByte b = true := starts
  rw [List.cons_append, innerStarts, first,
    wordStarts_of_word _ fun a mem => symbols a (List.mem_cons_of_mem _ mem)]
  rfl

theorem expand_mathRule (x : Text) : mathRule.replacement.expand x = x ++ [dot] := rfl

/-- A name that is put in with a dot behind it is no word with another byte behind it, and no other
word. -/
theorem apart_member {x w s : Text} {a : UInt8} (symbols : ∀ b ∈ x, isSymbolByte b = true)
    (word : ∀ b ∈ w, isSymbolByte b = true) (ends : isSymbolByte a = false)
    (other : w ≠ x ∨ a ≠ dot) : Apart (w ++ a :: s) (x ++ [dot]) := by
  intro y leads
  rw [List.append_assoc] at leads
  obtain ⟨same, dotted⟩ := eq_of_words word symbols ends rfl leads
  exact other.elim (absurd same) (absurd dotted)

theorem spares_mathRule_call {x b₁ b₂ t : Text} (mem : x ∈ captures mathRule.pattern t)
    (other : x ≠ utf8 "WL") (blanks : CallBlanks b₁ b₂) :
    mathRule.Spares (callText b₁ b₂) x := by
  obtain ⟨starts, symbols⟩ := word_of_mem_math mem
  have not_dot : ∀ {a : UInt8}, isPatternBlank a = true → isSymbolByte a = false ∧ a ≠ dot := by
    intro a blank
    refine ⟨not_symbol_of_blank blank, ?_⟩
    rintro rfl
    cases blank
  refine spares_call blanks ?_ ?_ ?_ (by
    rw [expand_mathRule, innerStarts_member starts symbols]
    simp)
  · obtain ⟨a, b, rfl⟩ := List.exists_cons_of_ne_nil blanks.more
    obtain ⟨ends, noDot⟩ := not_dot (blanks.behind a List.mem_cons_self)
    exact apart_member symbols (by decide +kernel) ends (.inr noDot)
  · exact apart_member (w := utf8 "WL") symbols (by decide +kernel) rfl (.inl other.symm)
  · cases b₂ with
    | nil => exact apart_member symbols (by decide +kernel) rfl (.inr (by decide))
    | cons a b =>
        obtain ⟨ends, noDot⟩ := not_dot (blanks.front a List.mem_cons_self)
        exact apart_member symbols (by decide +kernel) ends (.inr noDot)

theorem spares_mathRule_member {x t : Text} (mem : x ∈ captures mathRule.pattern t)
    (other : x ≠ utf8 "glMatrix") : mathRule.Spares (utf8 "glMatrix.") x := by
  obtain ⟨starts, symbols⟩ := word_of_mem_math mem
  refine ⟨fun s mem' => ?_, fun e mem' => ?_⟩
  · obtain rfl := List.mem_singleton.mp (show s ∈ [utf8 "glMatrix."] from mem')
    exact apart_member (w := utf8 "glMatrix") symbols (by decide +kernel) rfl (.inl other.symm)
  · rw [expand_mathRule, innerStarts_member starts symbols] at mem'
    cases mem'

/-- What a rule for whole words puts in is listed. -/
theorem expand_of_mem_wordRules {r : SymbolRule} (listed : r ∈ wordRules) {t x : Text}
    (mem : x ∈ captures r.pattern t) : ∃ pair ∈ r.pairs, r.replacement.expand x = pair.2 := by
  obtain ⟨k, n, found⟩ := match_of_mem_capturesAt rfl mem
  obtain ⟨pair, listed', -, -, expand_eq⟩ := (exchanges_of_mem listed).found found
  exact ⟨pair, listed', expand_eq⟩

section WordRules

variable {r : SymbolRule} (listed : r ∈ wordRules) {t x : Text} (mem : x ∈ captures r.pattern t)

include listed mem

theorem spares_wordRules_call {b₁ b₂ : Text} (blanks : CallBlanks b₁ b₂) :
    r.Spares (callText b₁ b₂) x := by
  obtain ⟨pair, listed', expand_eq⟩ := expand_of_mem_wordRules listed mem
  obtain ⟨-, front, inner⟩ := globals_apart r listed pair listed'
  refine spares_call blanks ?_ ?_ ?_ (expand_eq ▸ inner)
  all_goals
    rw [expand_eq]
    exact apart_of_head? rfl (front _ (by decide))

theorem spares_wordRules_member : r.Spares (utf8 "glMatrix.") x := by
  obtain ⟨pair, listed', expand_eq⟩ := expand_of_mem_wordRules listed mem
  obtain ⟨⟨front, inner⟩, -⟩ := globals_apart r listed pair listed'
  exact ⟨expand_eq ▸ front, expand_eq ▸ inner⟩

theorem spares_wordRules_word {w : Text} (legacy : w ∈ legacyWords) : r.Spares w x := by
  obtain ⟨pair, listed', expand_eq⟩ := expand_of_mem_wordRules listed mem
  obtain ⟨front, inner⟩ := legacyWords_apart r listed pair listed' w legacy
  exact ⟨expand_eq ▸ front, expand_eq ▸ inner⟩

end WordRules

/-! ## One pass -/

/-- Nothing is left for the rules of constructors and of the math library, nor any of these words. -/
structure Rid (words : List Text) (t : Text) : Prop where
  call : ¬ Occurs constructorCall t
  member : ¬ Occurs mathRule.pattern t
  word : ∀ w ∈ words, ¬ HasWord w t

theorem fitted_constructorRule : constructorRule.Fitted where
  fenced := fenced_constructors.2
  opens found := by
    obtain ⟨⟨b, y, -, expand_eq⟩, -⟩ := renews_constructorRule.replacement found
    rw [expand_eq]
    rfl
  closes found := by
    rw [(renews_constructorRule.replacement found).2.2,
      (renews_constructorRule.occurrence found).2.2.2]

theorem fitted_mathRule : mathRule.Fitted where
  fenced := fenced_of_mem (by decide)
  opens := by
    intro c n x found
    obtain ⟨-, ⟨ne_nil, symbols⟩, -⟩ := matchPattern?_math_iff.mp found
    obtain ⟨b, y, rfl⟩ := List.exists_cons_of_ne_nil ne_nil
    exact symbols b List.mem_cons_self
  closes := by
    intro c n x found
    obtain ⟨-, -, leads, rfl⟩ := matchPattern?_math_iff.mp found
    have before_eq : (c.advance (mathMember x).length).before =
        (mathMember x).reverse ++ c.before := by
      simp [advance, take_of_leads leads]
    rw [before_eq, facesWord_mathMember, expand_mathRule, List.reverse_append]
    rfl

theorem keepsDots_mathRule : mathRule.KeepsDots := by
  intro c n x out found _ _
  obtain ⟨-, -, ⟨y, after_eq⟩, -⟩ := matchPattern?_math_iff.mp found
  refine ⟨utf8 "glMatrix", x ++ dot :: y, by decide, by decide +kernel, ?_⟩
  rw [← after_eq, mathMember_append]
  rfl

/-- The rule for constructors leaves none of their calls. -/
theorem not_occurs_call (t : Text) : ¬ Occurs constructorCall (constructorRule.apply t).1 := by
  intro occurs
  obtain ⟨c, -, found, other⟩ := occurs_call_back fitted_constructorRule
    (fun x mem b₁ b₂ blanks => spares_constructorRule mem blanks) occurs
  rw [show constructorRule.pattern = constructorCall from rfl] at other
  rw [other] at found
  cases found

/-- The rule for the math library leaves none of its members, and makes no call. -/
theorem rid_mathRule {t : Text} (absent : ¬ Occurs constructorCall t)
    (noGlobal : utf8 "WL" ∉ captures mathRule.pattern t)
    (noLibrary : utf8 "glMatrix" ∉ captures mathRule.pattern t) : Rid [] (mathRule.apply t).1 where
  call occurs := by
    obtain ⟨c, text_eq, found, -⟩ := occurs_call_back fitted_mathRule (fun x mem b₁ b₂ blanks =>
      spares_mathRule_call mem (fun same => noGlobal (same ▸ mem)) blanks) occurs
    exact absent ⟨c, text_eq, found⟩
  member occurs := by
    obtain ⟨c, -, found, other⟩ := occurs_math_back fitted_mathRule keepsDots_mathRule
      (fun x mem => spares_mathRule_member mem fun same => noLibrary (same ▸ mem)) occurs
    rw [other] at found
    cases found
  word := by simp

/-- A rule for whole words adds its words to those that are gone. -/
theorem Rid.apply {r : SymbolRule} (listed : r ∈ wordRules) {words : List Text} {t : Text}
    (legacy : words ⊆ legacyWords) (rid : Rid words t) :
    Rid (words ++ r.pairs.map Prod.fst) (r.apply t).1 := by
  have exchanges := exchanges_of_mem listed
  have able := exchangeable_of_mem r listed
  have fitted := fitted_of_exchanges exchanges able
  refine ⟨fun occurs => ?_, fun occurs => ?_, fun w gone occurs => ?_⟩
  · obtain ⟨c, text_eq, found, -⟩ := occurs_call_back fitted
      (fun x mem b₁ b₂ blanks => spares_wordRules_call listed mem blanks) occurs
    exact rid.call ⟨c, text_eq, found⟩
  · obtain ⟨c, text_eq, found, -⟩ := occurs_math_back fitted
      (keepsDots_of_exchanges exchanges able) (fun x mem => spares_wordRules_member listed mem) occurs
    exact rid.member ⟨c, text_eq, found⟩
  · have own : ∀ pair ∈ r.pairs, pair.1 ∈ legacyWords := fun pair listed' =>
      List.mem_flatMap.mpr ⟨r, listed, List.mem_map_of_mem listed'⟩
    have known : w ∈ legacyWords := by
      rcases List.mem_append.mp gone with before | now
      · exact legacy before
      · obtain ⟨pair, listed', rfl⟩ := List.mem_map.mp now
        exact own pair listed'
    have starts : ∀ w ∈ legacyWords, facesWord w = true := by decide +kernel
    obtain ⟨c, text_eq, here, other⟩ := hasWord_back fitted
      (fun x mem => spares_wordRules_word listed mem known) (starts w known) occurs
    rcases List.mem_append.mp gone with before | now
    · exact rid.word w before ⟨c, text_eq, here⟩
    · obtain ⟨pair, listed', rfl⟩ := List.mem_map.mp now
      have found := exchanges.finds pair listed' here
      rw [other] at found
      cases found

theorem Rid.applyAll : ∀ (table : SymbolTable) {words : List Text} {t : Text},
    table ⊆ wordRules → words ⊆ legacyWords → Rid words t →
      Rid (words ++ table.flatMap fun r => r.pairs.map Prod.fst) (SymbolTable.applyAll table t).1
  | [], words, t, _, _, rid => by
      show Rid (words ++ []) t
      rwa [List.append_nil]
  | r :: rest, words, t, listed, legacy, rid => by
      have here : r ∈ wordRules := listed List.mem_cons_self
      have once := rid.apply here legacy
      have legacy' : words ++ r.pairs.map Prod.fst ⊆ legacyWords := by
        refine List.append_subset.mpr ⟨legacy, fun w mem => ?_⟩
        exact List.mem_flatMap.mpr ⟨r, here, mem⟩
      have run := once.applyAll rest (fun r' mem => listed (List.mem_cons_of_mem _ mem)) legacy'
      rwa [List.append_assoc] at run

theorem mem_defaultSymbolTable_iff {r : SymbolRule} : r ∈ defaultSymbolTable ↔
    r = bareConstructorRule ∨ r = constructorRule ∨ r = mathRule ∨ r ∈ wordRules := by
  rw [show defaultSymbolTable =
    bareConstructorRule :: constructorRule :: mathRule :: wordRules from rfl]
  simp only [List.mem_cons]

theorem Rid.not_occurs {t : Text} (rid : Rid legacyWords t) {r : SymbolRule}
    (listed : r ∈ defaultSymbolTable) : ¬ Occurs r.pattern t := by
  rcases mem_defaultSymbolTable_iff.mp listed with rfl | rfl | rfl | listed
  · exact fun occurs => rid.call (occurs_call_of_bare occurs)
  · exact rid.call
  · exact rid.member
  · rintro ⟨c, text_eq, found⟩
    obtain ⟨⟨n, x⟩, found⟩ := Option.isSome_iff_exists.mp found
    obtain ⟨pair, listed', here, -, -⟩ := (exchanges_of_mem listed).found found
    exact rid.word pair.1 (List.mem_flatMap.mpr ⟨r, listed, List.mem_map_of_mem listed'⟩)
      ⟨c, text_eq, here⟩

/-- Rules whose patterns do not occur leave the text as it is, and ask for nothing. -/
theorem applyAll_of_not_occurs : ∀ {table : SymbolTable} {t : Text}, (∀ r ∈ table, r.Fenced) →
    (∀ r ∈ table, ¬ Occurs r.pattern t) → SymbolTable.applyAll table t = (t, [])
  | [], t, _, _ => rfl
  | r :: rest, t, fenced, absent => by
      have empty : captures r.pattern t = [] := by
        have iff_occurs := captures_ne_nil_iff (fenced r List.mem_cons_self) (t := t)
        exact Classical.not_not.mp fun some_captured =>
          absent r List.mem_cons_self (iff_occurs.mp some_captured)
      have once : r.apply t = (t, []) := by
        refine Prod.ext (apply_fst_of_captures empty) ?_
        rw [apply_snd, empty]
        rfl
      have later := applyAll_of_not_occurs (fun r' mem => fenced r' (List.mem_cons_of_mem _ mem))
        (fun r' mem => absent r' (List.mem_cons_of_mem _ mem))
      rw [SymbolTable.applyAll, once]
      dsimp only
      rw [later]
      rfl

theorem apply_of_not_occurs {t : Text} (absent : ∀ r ∈ defaultSymbolTable, ¬ Occurs r.pattern t) :
    defaultSymbolTable.apply t = (t, []) :=
  applyAll_of_not_occurs (fun _ mem => fenced_of_mem (mem_of_mem_ordered mem))
    fun r mem => absent r (mem_of_mem_ordered mem)

/-- The constructors and the math library come first. -/
theorem ordered_eq_wordRules : defaultSymbolTable.ordered =
    bareConstructorRule :: constructorRule :: mathRule :: wordRules := by decide

/-- After one pass all rules have done their work. -/
theorem rid_apply {t : Text} (noGlobal : utf8 "WL" ∉ captures mathRule.pattern t)
    (noLibrary : utf8 "glMatrix" ∉ captures mathRule.pattern t) :
    Rid legacyWords (defaultSymbolTable.apply t).1 := by
  have kept : captures mathRule.pattern (constructorRule.apply (bareConstructorRule.apply t).1).1 =
      captures mathRule.pattern t := by
    rw [captures_math_apply renews_constructorRule, captures_math_apply renews_bareConstructorRule]
  have rid := rid_mathRule (not_occurs_call (bareConstructorRule.apply t).1) (kept ▸ noGlobal)
    (kept ▸ noLibrary)
  rw [SymbolTable.apply, ordered_eq_wordRules, applyAll_cons_fst, applyAll_cons_fst,
    applyAll_cons_fst]
  exact rid.applyAll wordRules (List.Subset.refl _) (List.nil_subset _)

/-- **One pass leaves nothing to rewrite.** When the pattern of the math library captures neither the
name of the former global nor that of the library itself, no pattern of any of the rules matches
anywhere in the text that the table leaves; so applying the table again gives the same text and asks
for no import. -/
theorem defaultSymbolTable_exhausts (t : Text) (noGlobal : utf8 "WL" ∉ captures mathRule.pattern t)
    (noLibrary : utf8 "glMatrix" ∉ captures mathRule.pattern t) :
    (∀ r ∈ defaultSymbolTable, ¬ Occurs r.pattern (defaultSymbolTable.apply t).1) ∧
      defaultSymbolTable.apply (defaultSymbolTable.apply t).1 =
        ((defaultSymbolTable.apply t).1, []) := by
  have absent : ∀ r ∈ defaultSymbolTable, ¬ Occurs r.pattern (defaultSymbolTable.apply t).1 :=
    fun r listed => (rid_apply noGlobal noLibrary).not_occurs listed
  exact ⟨absent, apply_of_not_occurs absent⟩

/-- A call, a member of the math library and a global in one line. -/
theorem defaultSymbolTable_exhausts_call :
    let t := utf8 "new WL.Texture(glMatrix.vec3.x, WL.scene)"
    let out := utf8 "new Texture(this.engine, vec3.x, this.engine.scene)"
    captures mathRule.pattern t = [utf8 "vec3"] ∧ (defaultSymbolTable.apply t).1 = out ∧
      (∀ r ∈ defaultSymbolTable, ¬ Occurs r.pattern out) ∧
        defaultSymbolTable.apply out = (out, []) := by
  intro t out
  have captured : captures mathRule.pattern t = [utf8 "vec3"] := by decide +kernel
  have once : (defaultSymbolTable.apply t).1 = out := by decide +kernel
  have exhausted :=
    defaultSymbolTable_exhausts t (by rw [captured]; decide) (by rw [captured]; decide)
  rw [once] at exhausted
  exact ⟨captured, once, exhausted⟩

/-- A global that is captured makes a call, when the rules for calls have run. -/
example : (defaultSymbolTable.apply (utf8 "new glMatrix.WL.Texture()")).1 =
    utf8 "new WL.Texture()" := by decide +kernel

end ClassUpgrade.Component
