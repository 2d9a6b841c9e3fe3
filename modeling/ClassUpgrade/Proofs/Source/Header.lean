/-
# Proofs.Source.Header — the grammar of method headers

A header reads `[async] name [: [async] [function]] (params) {`, with blanks
between its parts. Here it is written from its parts (`HeaderForm`), and
`HeaderForm.Derives` says that a text reads so at an offset. The reader of
headers commits to each keyword that it sees and never goes back; still it
finds a header exactly where one is derived, and answers with the parts of the
derivation (`methodHeader?_iff_derives`):

* `HeaderForm.reads`: a header in front is read as it is written;
* `exists_derives`: what is read is written so, part by part (`Cursor.Passes`);
* `Derives.unique`: a text is taken apart in one way only, because each part
  ends where the next one can start.
-/
import ClassUpgrade.Proofs.Source.Entry

namespace ClassUpgrade.Source

set_option autoImplicit false

open Byte Cursor

/-! ## The parts of a header -/

/-- A keyword with the blanks behind it, or nothing. -/
def keywordText (keyword : Text) : Option Blanks → Text
  | none => []
  | some gap => keyword ++ gap.text

/-- What stands behind a name and a colon: the keywords `async` and `function`. Both are whole words,
so that there are blanks between the two. -/
structure HeaderMarker where
  before : Blanks
  mark : Option Blanks
  keyword : Option Blanks
  apart : ∀ gap, mark = some gap → keyword ≠ none → gap.text ≠ []

def HeaderMarker.keywords (m : HeaderMarker) : Text :=
  keywordText (utf8 "async") m.mark ++ keywordText (utf8 "function") m.keyword

def markerText : Option HeaderMarker → Text
  | none => []
  | some m => colon :: (m.before.text ++ m.keywords)

/-- A method header from its parts. -/
structure HeaderForm where
  modifier : Option Spacing
  name : MethodName
  gap : Blanks
  marker : Option HeaderMarker
  params : Text
  last : Blanks

namespace HeaderForm

/-- The text in front of the name. -/
def modifierText (f : HeaderForm) : Text := markText f.modifier

/-- The text in front of the parameters. -/
def lead (f : HeaderForm) : Text :=
  f.modifierText ++ (f.name.text ++ (f.gap.text ++ markerText f.marker))

/-- The text in front of the brace of the body. -/
def text (f : HeaderForm) : Text := f.lead ++ (Bracket.paren.wrap f.params ++ f.last.text)

def header (f : HeaderForm) : MethodHeader where
  name := f.name.text
  isAsync := f.modifier.isSome || f.marker.any (·.mark.isSome)
  params := f.params

/-- From an offset on a text reads as a header and the brace of its body, and the parenthesis that
closes the parameters is the one that matches. -/
structure Derives (f : HeaderForm) (t : Text) (i : Nat) : Prop where
  written : f.text ++ [openBrace] <+: t.drop i
  closes : groupEnd? t (i + f.lead.length) = some (i + f.lead.length + f.params.length + 1)

end HeaderForm

/-! ## Reading a header -/

theorem opensPlain_of_head {z : Text} {b : UInt8} (front : z.head? = some b)
    (plain : isSpace b = false ∧ isWordPart b = false) : OpensPlain z := by
  intro a mem
  rw [front] at mem
  exact Option.some.inj mem ▸ plain

/-- A text does not lead with a keyword when it does not lead with its first byte. -/
theorem not_prefix_of_head {keyword z : Text} {b : UInt8} (front : z.head? = some b)
    (other : ∃ a, keyword.head? = some a ∧ a ≠ b) : ¬ keyword <+: z := by
  rintro ⟨y, rfl⟩
  obtain ⟨a, first, ne⟩ := other
  obtain ⟨k, rfl⟩ := List.head?_eq_some_iff.mp first
  exact ne (by simpa using front)

theorem head?_keywordText {keyword : Text} {a : UInt8} (first : keyword.head? = some a)
    (k : Option Blanks) (z : Text) :
    (keywordText keyword k ++ z).head? = if k.isSome then some a else z.head? := by
  obtain ⟨rest, rfl⟩ := List.head?_eq_some_iff.mp first
  cases k <;> rfl

/-- An optional keyword in front is read with the blanks behind it. -/
theorem optionalKeyword_keywordText (before keyword : Text) (k : Option Blanks) {z : Text}
    (other : ¬ keyword <+: z) (stop : ∀ b ∈ z.head?, isSpace b = false)
    (ends : ∀ gap, k = some gap → ∀ b ∈ (gap.text ++ z).head?, isWordPart b = false) :
    optionalKeyword ⟨before, keywordText keyword k ++ z⟩ keyword =
      (k.isSome, ⟨(keywordText keyword k).reverse ++ before, z⟩) := by
  cases k with
  | none =>
      have absent : (⟨before, z⟩ : Cursor).hasKeyword keyword ≠ true :=
        fun found => other (hasKeyword_leads found)
      exact if_neg absent
  | some gap =>
      rw [keywordText, List.append_assoc, optionalKeyword_here before keyword gap (ends gap rfl) stop]
      simp

section Lead

variable {z : Text} (front : z.head? = some openParen)

include front

/-- What may stand in front of the parameters of a marker opens with a letter or with them. -/
theorem head?_keywords (m : HeaderMarker) : ∃ b, (m.keywords ++ z).head? = some b ∧
    isSpace b = false := by
  rw [HeaderMarker.keywords, List.append_assoc, head?_keywordText (a := 0x61) rfl,
    head?_keywordText (a := 0x66) rfl, front]
  cases m.mark <;> cases m.keyword <;> exact ⟨_, rfl, by decide⟩

theorem opensPlain_markerText (marker : Option HeaderMarker) :
    OpensPlain (markerText marker ++ z) := by
  cases marker with
  | none => exact opensPlain_of_head front (by decide)
  | some m => exact opensPlain_of_head (b := colon) rfl (by decide)

/-- The marker of a header is read as it is written. -/
theorem methodMarker_markerText (before : Text) (marker : Option HeaderMarker) :
    methodMarker ⟨before, markerText marker ++ z⟩ =
      (marker.any (·.mark.isSome), ⟨(markerText marker).reverse ++ before, z⟩) := by
  cases marker with
  | none => exact methodMarker_of_ne (by rw [peek?, markerText, List.nil_append, front]; decide)
  | some m =>
      have opens : OpensPlain z := opensPlain_of_head front (by decide)
      have keyword : ∀ near,
          optionalKeyword ⟨near, keywordText (utf8 "function") m.keyword ++ z⟩ (utf8 "function") =
            (m.keyword.isSome, ⟨(keywordText (utf8 "function") m.keyword).reverse ++ near, z⟩) :=
        fun near => optionalKeyword_keywordText near _ m.keyword
          (not_prefix_of_head front ⟨0x66, rfl, by decide⟩) (fun b mem => (opens b mem).1)
          fun gap _ => noWordPart_of_blanks gap opens
      have mark : ∀ near, optionalKeyword ⟨near, m.keywords ++ z⟩ (utf8 "async") =
          (m.mark.isSome, ⟨(keywordText (utf8 "async") m.mark).reverse ++ near,
            keywordText (utf8 "function") m.keyword ++ z⟩) := by
        intro near
        have first : (keywordText (utf8 "function") m.keyword ++ z).head? =
            if m.keyword.isSome then some 0x66 else z.head? := head?_keywordText rfl m.keyword z
        rw [HeaderMarker.keywords, List.append_assoc]
        refine optionalKeyword_keywordText near _ m.mark ?_ ?_ ?_
        · cases some_eq : m.keyword with
          | none => exact not_prefix_of_head front ⟨0x61, rfl, by decide⟩
          | some gap =>
              rw [some_eq] at first
              exact not_prefix_of_head first ⟨0x61, rfl, by decide⟩
        · intro b mem
          rw [first, front] at mem
          cases some_eq : m.keyword <;> rw [some_eq] at mem <;> cases mem <;> rfl
        · intro gap mark_eq
          -- between two keywords there is a blank
          by_cases alone : m.keyword = none
          · rw [alone]
            exact noWordPart_of_blanks gap opens
          · exact (Spacing.mk gap (m.apart gap mark_eq alone)).noWordPart _
      obtain ⟨b, head_eq, noSpace⟩ := head?_keywords front m
      have stop : ∀ b ∈ (m.keywords ++ z).head?, isSpace b = false := by
        intro b' mem
        rw [head_eq] at mem
        exact Option.some.inj mem ▸ noSpace
      have entered : (⟨before, markerText (some m) ++ z⟩ : Cursor).expect? colon =
          some ⟨colon :: before, m.before.text ++ (m.keywords ++ z)⟩ := by
        rw [markerText, List.cons_append, List.append_assoc]
        rfl
      rw [methodMarker, entered]
      dsimp only
      rw [skipSpace_blanks _ m.before stop, mark]
      dsimp only
      rw [keyword]
      simp [markerText, HeaderMarker.keywords]

/-- A header in front is read as it is written, up to its parameters. -/
theorem HeaderForm.reads (f : HeaderForm) (before : Text) :
    let c : Cursor := ⟨before, f.lead ++ z⟩
    (methodName c).1 = f.name.text ∧
      ((methodName c).2.1 || (methodMarker (methodName c).2.2.skipSpace).1) = f.header.isAsync ∧
      groupOf c = ⟨f.lead.reverse ++ before, z⟩ := by
  have opens := opensPlain_markerText front f.marker
  have noSpace : ∀ b ∈ (markerText f.marker ++ z).head?, isSpace b = false :=
    fun b mem => (opens b mem).1
  have split : f.lead ++ z =
      markText f.modifier ++ (f.name.text ++ (f.gap.text ++ (markerText f.marker ++ z))) := by
    simp [HeaderForm.lead, HeaderForm.modifierText]
  intro c
  have named : methodName c =
      (f.name.text, f.modifier.isSome, ⟨(markText f.modifier ++ f.name.text).reverse ++ before,
        f.gap.text ++ (markerText f.marker ++ z)⟩) := by
    simp only [c, split]
    cases f.modifier with
    | none => exact methodName_lone before f.name f.gap opens
    | some gap =>
        rw [markText, List.append_assoc, methodName_marked before gap f.name f.gap opens]
        simp
  unfold groupOf
  rw [named]
  dsimp only
  rw [skipSpace_blanks _ f.gap noSpace, methodMarker_markerText front]
  refine ⟨rfl, rfl, ?_⟩
  simp [HeaderForm.lead, HeaderForm.modifierText]

end Lead

/-- The parts of a text that reads as a header, at a place. -/
theorem HeaderForm.Derives.exists_rest {f : HeaderForm} {c : Cursor}
    (derives : f.Derives c.text c.offset) :
    ∃ rest, c.after = f.lead ++ (Bracket.paren.wrap f.params ++ (f.last.text ++ openBrace :: rest)) := by
  obtain ⟨rest, same⟩ := derives.written
  exact ⟨rest, by rw [after_eq_drop, ← same]; simp [HeaderForm.text]⟩

/-- **A header that is derived is read.** -/
theorem methodHeader?_of_derives {c : Cursor} {f : HeaderForm}
    (derives : f.Derives c.text c.offset) :
    methodHeader? c = some (f.header, c.advance f.text.length) := by
  obtain ⟨rest, after_eq⟩ := derives.exists_rest
  have front : (Bracket.paren.wrap f.params ++ (f.last.text ++ openBrace :: rest)).head? =
      some openParen := rfl
  obtain ⟨before, after⟩ := c
  subst after_eq
  obtain ⟨name_eq, mark_eq, group_eq⟩ := f.reads front before
  have wrap_length : (Bracket.paren.wrap f.params).length = f.params.length + 2 := by
    simp [Bracket.wrap]
  -- the group is the one that the derivation speaks of
  have closes : (groupOf ⟨before, f.lead ++ (Bracket.paren.wrap f.params ++
      (f.last.text ++ openBrace :: rest))⟩).closeOf? .paren =
        some (before.length + f.lead.length + f.params.length + 1) := by
    have found := derives.closes
    rwa [groupEnd?, ← advance_ofOffset, ofOffset_offset, advance_append, ← group_eq] at found
  rw [methodHeader?_eq_some_iff, name_eq, mark_eq]
  refine ⟨f.name.free, _, closes, ?_, ?_, ?_⟩
  · rw [group_eq]
    have inside : before.length + f.lead.length + f.params.length + 1 -
        (⟨f.lead.reverse ++ before, Bracket.paren.wrap f.params ++
          (f.last.text ++ openBrace :: rest)⟩ : Cursor).offset = f.params.length + 1 := by
      simp only [offset, List.length_append, List.length_reverse]
      omega
    rw [inside]
    simp [HeaderForm.header, Bracket.wrap, Text.slice]
  · rw [group_eq]
    have past : before.length + f.lead.length + f.params.length + 1 + 1 -
        (⟨f.lead.reverse ++ before, Bracket.paren.wrap f.params ++
          (f.last.text ++ openBrace :: rest)⟩ : Cursor).offset =
            (Bracket.paren.wrap f.params).length := by
      simp only [offset, List.length_append, List.length_reverse, wrap_length]
      omega
    have noSpace : ∀ b ∈ (openBrace :: rest).head?, isSpace b = false :=
      fun b mem => Option.some.inj mem ▸ rfl
    have whole := advance_append before f.text (openBrace :: rest)
    simp only [HeaderForm.text, List.append_assoc] at whole
    rw [past, advance_append, skipSpace_blanks _ f.last noSpace, HeaderForm.text, whole]
    simp
  · have whole := advance_append before f.text (openBrace :: rest)
    simp only [HeaderForm.text, List.append_assoc] at whole
    rw [HeaderForm.text, whole]
    rfl

/-! ## A header that is read is written -/

/-- From one place, past a text, to another. -/
def Cursor.Passes (c : Cursor) (x : Text) (d : Cursor) : Prop :=
  c.after = x ++ d.after ∧ d = c.advance x.length

namespace Cursor.Passes

theorem of_eq {c : Cursor} {x y : Text} (after_eq : c.after = x ++ y) :
    c.Passes x (c.advance x.length) :=
  ⟨by rw [after_advance, after_eq, List.drop_left], rfl⟩

theorem trans {c d e : Cursor} {x y : Text} (first : c.Passes x d) (last : d.Passes y e) :
    c.Passes (x ++ y) e := by
  obtain ⟨after_eq, rfl⟩ := first
  obtain ⟨after_eq', rfl⟩ := last
  exact ⟨by rw [after_eq, after_eq', List.append_assoc],
    by rw [advance_advance, List.length_append]⟩

theorem nothing (c : Cursor) : c.Passes [] c := ⟨rfl, rfl⟩

theorem word (c : Cursor) : c.Passes c.word (c.advance c.word.length) := ⟨c.after_word, rfl⟩

theorem expect? {c d : Cursor} {b : UInt8} (found : c.expect? b = some d) : c.Passes [b] d :=
  ⟨after_of_expect? found, (expect?_eq_some_iff.mp found).2⟩

/-- Blanks are passed over up to something else. -/
theorem skipSpace (c : Cursor) : ∃ gap : Blanks, c.Passes gap.text c.skipSpace ∧
    gap.text.length = spaceLength c.after :=
  ⟨⟨c.after.takeWhile isSpace, List.all_takeWhile⟩,
    of_eq List.takeWhile_append_dropWhile.symm, rfl⟩

theorem offset_eq {c d : Cursor} {x : Text} (passes : c.Passes x d) :
    d.offset = c.offset + x.length := by
  obtain ⟨after_eq, rfl⟩ := passes
  have := congrArg List.length after_eq
  rw [List.length_append] at this
  rw [offset_advance]
  omega

end Cursor.Passes

/-- The name of a header with the modifier in front of it. -/
theorem exists_name {c : Cursor} (word : c.word ≠ []) (free : (methodName c).1 ∉ reservedWords) :
    ∃ (modifier : Option Spacing) (name : MethodName),
      (methodName c).1 = name.text ∧ (methodName c).2.1 = modifier.isSome ∧
        c.Passes (markText modifier ++ name.text) (methodName c).2.2 := by
  have first := Passes.word c
  obtain ⟨gap, spaced, length_eq⟩ := Passes.skipSpace (c.advance c.word.length)
  -- without a modifier the word in front is the name
  have lone : c.word ∉ reservedWords → ∃ (modifier : Option Spacing) (name : MethodName),
      c.word = name.text ∧ false = modifier.isSome ∧
        c.Passes (markText modifier ++ name.text) (c.advance c.word.length) :=
    fun free => ⟨none, ⟨c.word, word_word c.after, word, free⟩, rfl, rfl, first⟩
  unfold methodName at free ⊢
  dsimp only at free ⊢
  split at free
  · rename_i async
    split at free
    · rename_i marked
      rw [if_pos async, if_pos marked]
      have ne_nil : gap.text ≠ [] := by
        rw [← List.length_pos_iff, length_eq]
        exact Nat.pos_of_ne_zero marked.1
      refine ⟨some ⟨gap, ne_nil⟩, ⟨_, word_word _, marked.2, free⟩, rfl, rfl, ?_⟩
      rw [markText, ← async, List.append_assoc]
      exact first.trans (spaced.trans (Passes.word _))
    · rename_i plain
      rw [if_pos async, if_neg plain]
      exact lone free
  · rename_i other
    rw [if_neg other]
    exact lone free

/-- An optional keyword with the blanks behind it. A keyword that is read is a whole word. -/
theorem exists_keyword (keyword : Text) (parts : keyword.all isWordPart = true) (c : Cursor) :
    ∃ k : Option Blanks, (optionalKeyword c keyword).1 = k.isSome ∧
      c.Passes (keywordText keyword k) (optionalKeyword c keyword).2 ∧
        ∀ gap, k = some gap →
          ∀ b ∈ (gap.text ++ (optionalKeyword c keyword).2.after).head?, isWordPart b = false := by
  unfold optionalKeyword
  split
  · rename_i found
    have whole := (hasKeyword_iff parts).mp found
    have after_eq : c.after = keyword ++ c.after.dropWhile isWordPart := by
      rw [← whole, List.takeWhile_append_dropWhile]
    have first := Passes.of_eq after_eq
    obtain ⟨gap, spaced, -⟩ := Passes.skipSpace (c.advance keyword.length)
    refine ⟨some gap, rfl, first.trans spaced, fun gap' same b front => ?_⟩
    obtain rfl := Option.some.inj same
    have other := List.head?_dropWhile_not isWordPart c.after
    have rest_eq : (c.advance keyword.length).after = c.after.dropWhile isWordPart :=
      List.append_cancel_left (first.1.symm.trans after_eq)
    rw [← rest_eq, spaced.1, front] at other
    simpa using other
  · exact ⟨none, rfl, .nothing c, fun gap none => nomatch none⟩

theorem exists_marker (c : Cursor) : ∃ marker : Option HeaderMarker,
    (methodMarker c).1 = marker.any (·.mark.isSome) ∧
      c.Passes (markerText marker) (methodMarker c).2 := by
  unfold methodMarker
  split
  · exact ⟨none, rfl, .nothing c⟩
  · rename_i d colon
    obtain ⟨before, spaced, -⟩ := Passes.skipSpace d
    obtain ⟨mark, mark_eq, marked, ends⟩ :=
      exists_keyword (utf8 "async") (by decide) d.skipSpace
    obtain ⟨keyword, -, last, -⟩ := exists_keyword (utf8 "function") (by decide)
      (optionalKeyword d.skipSpace (utf8 "async")).2
    refine ⟨some ⟨before, mark, keyword, fun gap same some_keyword none => ?_⟩, mark_eq, ?_⟩
    · -- without a blank the two keywords are one word
      obtain ⟨gap', rfl⟩ := Option.ne_none_iff_exists'.mp some_keyword
      have front := ends gap same 0x66 (by rw [none, List.nil_append, last.1]; rfl)
      cases front
    · exact (Passes.expect? colon).trans (spaced.trans (marked.trans last))

/-- The parameters at a place, through their closing parenthesis. -/
theorem exists_params {c : Cursor} {n : Nat} (closed : c.closeOf? .paren = some n) :
    ∃ params, c.Passes (Bracket.paren.wrap params) (c.advance (n + 1 - c.offset)) ∧
      params = c.after.slice 1 (n - c.offset) ∧ n = c.offset + params.length + 1 := by
  obtain ⟨e, closes, rfl, -, past, goes⟩ := closeOf?_walk (by decide) (by decide) closed
  obtain ⟨front, -⟩ := (closeOf?_eq_some_iff (by decide)).mp closed
  obtain ⟨params, inner⟩ := closes.walk.exists_after
  have opened : c.Passes [openParen] (c.advance 1) :=
    Passes.expect? (expect?_eq_some_iff.mpr ⟨front, rfl⟩)
  have shut : e.Passes [closeParen] (e.advance 1) :=
    Passes.expect? (expect?_eq_some_iff.mpr ⟨closes.front.2, rfl⟩)
  have inside : (c.advance 1).Passes params e := by
    refine ⟨inner, eq_of_text_offset ?_ ?_⟩
    · rw [closes.walk.text_eq, text_advance (c.advance 1)]
    · have := congrArg List.length inner
      have := (c.advance 1).offset_add_length
      have := e.offset_add_length
      have := congrArg List.length closes.walk.text_eq
      rw [List.length_append] at *
      rw [offset_advance (c.advance 1)]
      omega
  have whole : c.Passes (Bracket.paren.wrap params) (e.advance 1) := opened.trans (inside.trans shut)
  have n_eq : e.offset = c.offset + params.length + 1 := by
    rw [inside.offset_eq, opened.offset_eq, List.length_singleton]
    omega
  refine ⟨params, goes ▸ whole, ?_, n_eq⟩
  rw [whole.1, n_eq, show c.offset + params.length + 1 - c.offset = params.length + 1 by omega]
  simp [Bracket.wrap, Text.slice]

/-- **A header that is read is derived.** -/
theorem exists_derives {c brace : Cursor} {header : MethodHeader} (word : c.word ≠ [])
    (read : methodHeader? c = some (header, brace)) :
    ∃ f : HeaderForm, f.Derives c.text c.offset := by
  obtain ⟨free, n, closed, -, brace_eq, front⟩ := methodHeader?_eq_some_iff.mp read
  obtain ⟨modifier, name, -, -, named⟩ := exists_name word free
  obtain ⟨gap, spaced, -⟩ := Passes.skipSpace (methodName c).2.2
  obtain ⟨marker, -, marked⟩ := exists_marker (methodName c).2.2.skipSpace
  obtain ⟨params, grouped, -, n_eq⟩ := exists_params closed
  obtain ⟨last, ended, -⟩ := Passes.skipSpace ((groupOf c).advance (n + 1 - (groupOf c).offset))
  rw [← brace_eq] at ended
  let f : HeaderForm := ⟨modifier, name, gap, marker, params, last⟩
  have lead : c.Passes f.lead (groupOf c) := by
    have passed := named.trans (spaced.trans marked)
    rwa [List.append_assoc] at passed
  have whole : c.Passes f.text brace := lead.trans (grouped.trans ended)
  obtain ⟨rest, after_eq⟩ := peek?_eq_some_iff.mp front
  refine ⟨f, ⟨rest, ?_⟩, ?_⟩
  · rw [← after_eq_drop, whole.1, after_eq, List.append_assoc, List.singleton_append]
  · have same : (groupOf c).text = c.text := (groupOf_walk c).text_eq
    rw [groupEnd?, ← lead.offset_eq, ← same, ofOffset_offset, closed, n_eq]

/-! ## A text is taken apart in one way -/

theorem Blanks.append_inj {gap gap' : Blanks} {x x' : Text}
    (stop : ∀ b ∈ x.head?, isSpace b = false) (stop' : ∀ b ∈ x'.head?, isSpace b = false)
    (same : gap.text ++ x = gap'.text ++ x') : gap = gap' ∧ x = x' := by
  have text_eq : gap.text = gap'.text := by
    rw [← takeWhile_blanks gap stop, same, takeWhile_blanks gap' stop']
  obtain ⟨text, blank⟩ := gap
  obtain ⟨text', blank'⟩ := gap'
  obtain rfl : text = text' := text_eq
  exact ⟨rfl, List.append_cancel_left same⟩

theorem MethodName.append_inj {name name' : MethodName} {x x' : Text}
    (stop : ∀ b ∈ x.head?, isWordPart b = false) (stop' : ∀ b ∈ x'.head?, isWordPart b = false)
    (same : name.text ++ x = name'.text ++ x') : name = name' ∧ x = x' := by
  have text_eq : name.text = name'.text := by
    rw [← word_append name.ne_nil name.word stop, same, word_append name'.ne_nil name'.word stop']
  obtain ⟨text, word, ne_nil, free⟩ := name
  obtain ⟨text', word', ne_nil', free'⟩ := name'
  obtain rfl : text = text' := text_eq
  exact ⟨rfl, List.append_cancel_left same⟩

theorem keywordText_append_inj {keyword : Text} {a : UInt8} (first : keyword.head? = some a)
    {k k' : Option Blanks} {x x' : Text} (other : x.head? ≠ some a) (other' : x'.head? ≠ some a)
    (stop : ∀ b ∈ x.head?, isSpace b = false) (stop' : ∀ b ∈ x'.head?, isSpace b = false)
    (same : keywordText keyword k ++ x = keywordText keyword k' ++ x') : k = k' ∧ x = x' := by
  have heads := congrArg List.head? same
  rw [head?_keywordText first, head?_keywordText first] at heads
  cases k with
  | none =>
      cases k' with
      | none => exact ⟨rfl, same⟩
      | some gap' => exact absurd heads other
  | some gap =>
      cases k' with
      | none => exact absurd heads.symm other'
      | some gap' =>
          rw [keywordText, keywordText, List.append_assoc, List.append_assoc] at same
          obtain ⟨rfl, rest⟩ := Blanks.append_inj stop stop' (List.append_cancel_left same)
          exact ⟨rfl, rest⟩

/-- The modifier `async` in front of a name is not a name in front of something else. -/
theorem modifier_not_name {gap : Spacing} {name name' : MethodName} {gap' : Blanks} {y w : Text}
    (opens : OpensPlain w) :
    markText (some gap) ++ (name.text ++ y) ≠ markText none ++ (name'.text ++ (gap'.text ++ w)) := by
  intro same
  rw [markText, markText, List.nil_append, List.append_assoc] at same
  have name_eq : utf8 "async" = name'.text := by
    rw [← word_append (by decide) word_async (gap.noWordPart (name.text ++ y)), same,
      word_append name'.ne_nil name'.word (noWordPart_of_blanks gap' opens)]
  rw [name_eq] at same
  obtain ⟨-, rest⟩ := Blanks.append_inj (name.noSpace y) (fun b mem => (opens b mem).1)
    (List.append_cancel_left same)
  -- a name opens with a word byte, and `w` does not
  obtain ⟨b, tail, text_eq⟩ := List.exists_cons_of_ne_nil name.ne_nil
  have part : isWordPart b = true :=
    isWordPart_of_mem_word (name.word.symm ▸ text_eq ▸ List.mem_cons_self)
  rw [← rest, text_eq] at opens
  rw [(opens b rfl).2] at part
  cases part

section Unique

variable {z z' : Text} (front : z.head? = some openParen) (front' : z'.head? = some openParen)

include front front'

theorem HeaderMarker.keywords_append_inj {m m' : HeaderMarker}
    (same : m.keywords ++ z = m'.keywords ++ z') :
    m.mark = m'.mark ∧ m.keyword = m'.keyword ∧ z = z' := by
  rw [keywords, keywords, List.append_assoc, List.append_assoc] at same
  -- the second keyword opens with another letter than the first, and so do the parameters
  have second : ∀ (k : Option Blanks) {y : Text}, y.head? = some openParen →
      ∃ b, (keywordText (utf8 "function") k ++ y).head? = some b ∧ isSpace b = false ∧ b ≠ 0x61 := by
    intro k y opens
    rw [head?_keywordText (a := 0x66) rfl, opens]
    cases k <;> exact ⟨_, rfl, by decide, by decide⟩
  obtain ⟨b, head_eq, noSpace, other⟩ := second m.keyword front
  obtain ⟨b', head_eq', noSpace', other'⟩ := second m'.keyword front'
  obtain ⟨mark_eq, rest⟩ := keywordText_append_inj (a := 0x61) rfl (by simpa [head_eq] using other)
    (by simpa [head_eq'] using other') (by simpa [head_eq] using noSpace)
    (by simpa [head_eq'] using noSpace') same
  obtain ⟨keyword_eq, z_eq⟩ := keywordText_append_inj (a := 0x66) rfl (by rw [front]; decide)
    (by rw [front']; decide) (by rw [front]; rintro b ⟨rfl⟩; rfl) (by rw [front']; rintro b ⟨rfl⟩; rfl) rest
  exact ⟨mark_eq, keyword_eq, z_eq⟩

theorem markerText_append_inj {marker marker' : Option HeaderMarker}
    (same : markerText marker ++ z = markerText marker' ++ z') : marker = marker' ∧ z = z' := by
  have heads := congrArg List.head? same
  cases marker with
  | none =>
      cases marker' with
      | none => exact ⟨rfl, same⟩
      | some m' =>
          rw [markerText, List.nil_append, front] at heads
          cases heads
  | some m =>
      cases marker' with
      | none =>
          rw [markerText, markerText, List.nil_append, front'] at heads
          cases heads
      | some m' =>
          simp only [markerText, List.cons_append, List.append_assoc, List.cons.injEq,
            true_and] at same
          obtain ⟨b, head_eq, noSpace⟩ := head?_keywords front m
          obtain ⟨b', head_eq', noSpace'⟩ := head?_keywords front' m'
          obtain ⟨before_eq, rest⟩ := Blanks.append_inj (by simpa [head_eq] using noSpace)
            (by simpa [head_eq'] using noSpace') same
          obtain ⟨mark_eq, keyword_eq, z_eq⟩ := HeaderMarker.keywords_append_inj front front' rest
          obtain ⟨before, mark, keyword, apart⟩ := m
          obtain ⟨before', mark', keyword', apart'⟩ := m'
          obtain rfl : before = before' := before_eq
          obtain rfl : mark = mark' := mark_eq
          obtain rfl : keyword = keyword' := keyword_eq
          exact ⟨rfl, z_eq⟩

/-- In front of the parameters a header has one modifier, name and marker. -/
theorem HeaderForm.lead_append_inj {f f' : HeaderForm} (same : f.lead ++ z = f'.lead ++ z') :
    f.modifier = f'.modifier ∧ f.name = f'.name ∧ f.gap = f'.gap ∧ f.marker = f'.marker ∧ z = z' := by
  have opens := opensPlain_markerText front f.marker
  have opens' := opensPlain_markerText front' f'.marker
  have stop := noWordPart_of_blanks f.gap opens
  have stop' := noWordPart_of_blanks f'.gap opens'
  -- behind the name there is one way to go on
  have named : f.name.text ++ (f.gap.text ++ (markerText f.marker ++ z)) =
      f'.name.text ++ (f'.gap.text ++ (markerText f'.marker ++ z')) →
        f.name = f'.name ∧ f.gap = f'.gap ∧ f.marker = f'.marker ∧ z = z' := by
    intro same
    obtain ⟨name_eq, rest⟩ := MethodName.append_inj stop stop' same
    obtain ⟨gap_eq, rest⟩ := Blanks.append_inj (fun b mem => (opens b mem).1)
      (fun b mem => (opens' b mem).1) rest
    exact ⟨name_eq, gap_eq, markerText_append_inj front front' rest⟩
  simp only [HeaderForm.lead, HeaderForm.modifierText, List.append_assoc] at same
  cases modifier_eq : f.modifier with
  | none =>
      cases modifier_eq' : f'.modifier with
      | none =>
          rw [modifier_eq, modifier_eq'] at same
          exact ⟨rfl, named same⟩
      | some gap' =>
          rw [modifier_eq, modifier_eq'] at same
          exact absurd same.symm (modifier_not_name opens)
  | some gap =>
      cases modifier_eq' : f'.modifier with
      | none =>
          rw [modifier_eq, modifier_eq'] at same
          exact absurd same (modifier_not_name opens')
      | some gap' =>
          rw [modifier_eq, modifier_eq', markText, markText, List.append_assoc,
            List.append_assoc] at same
          obtain ⟨gap_eq, rest⟩ := Blanks.append_inj (f.name.noSpace _) (f'.name.noSpace _)
            (List.append_cancel_left same)
          obtain ⟨gap, ne_nil⟩ := gap
          obtain ⟨gap', ne_nil'⟩ := gap'
          obtain rfl : gap = gap' := gap_eq
          exact ⟨rfl, named rest⟩

end Unique

/-- **A text reads as a header in at most one way.** -/
theorem HeaderForm.Derives.unique {t : Text} {i : Nat} {f f' : HeaderForm} (derives : f.Derives t i)
    (derives' : f'.Derives t i) : f = f' := by
  obtain ⟨rest, after_eq⟩ := derives.written
  obtain ⟨rest', after_eq'⟩ := derives'.written
  have same : f.lead ++ (Bracket.paren.wrap f.params ++ (f.last.text ++ openBrace :: rest)) =
      f'.lead ++ (Bracket.paren.wrap f'.params ++ (f'.last.text ++ openBrace :: rest')) := by
    simpa [HeaderForm.text] using after_eq.trans after_eq'.symm
  obtain ⟨modifier_eq, name_eq, gap_eq, marker_eq, tail_eq⟩ :=
    HeaderForm.lead_append_inj rfl rfl same
  have lead_eq : f.lead = f'.lead := by
    rw [lead, lead, modifierText, modifierText, modifier_eq, name_eq, gap_eq, marker_eq]
  -- the parameters are closed at one place
  have length_eq : f.params.length = f'.params.length := by
    have closes := derives.closes
    rw [lead_eq, derives'.closes, Option.some.injEq] at closes
    omega
  simp only [Bracket.wrap, List.cons_append, List.append_assoc, List.cons.injEq, true_and] at tail_eq
  obtain ⟨params_eq, tail_eq⟩ := List.append_inj tail_eq length_eq
  have brace : ∀ rest : Text, ∀ b ∈ (openBrace :: rest).head?, isSpace b = false :=
    fun rest b mem => Option.some.inj mem ▸ rfl
  obtain ⟨last_eq, -⟩ := Blanks.append_inj (brace rest) (brace rest') (List.cons.inj tail_eq).2
  obtain ⟨modifier, name, gap, marker, params, last⟩ := f
  obtain ⟨modifier', name', gap', marker', params', last'⟩ := f'
  obtain rfl : modifier = modifier' := modifier_eq
  obtain rfl : name = name' := name_eq
  obtain rfl : gap = gap' := gap_eq
  obtain rfl : marker = marker' := marker_eq
  obtain rfl : params = params' := params_eq
  obtain rfl : last = last' := last_eq
  rfl

/-- The name of a header that is derived is the whole word in its place. -/
theorem HeaderForm.Derives.word_eq {t : Text} {i : Nat} {f : HeaderForm} (derives : f.Derives t i) :
    word (t.drop (i + f.modifierText.length)) = f.name.text := by
  obtain ⟨rest, after_eq⟩ := derives.written
  have opens := opensPlain_markerText
    (z := Bracket.paren.wrap f.params ++ (f.last.text ++ openBrace :: rest)) rfl f.marker
  rw [← List.drop_drop, ← after_eq, HeaderForm.text, HeaderForm.lead]
  simp only [List.append_assoc, List.drop_left, List.singleton_append]
  exact word_append f.name.ne_nil f.name.word (noWordPart_of_blanks f.gap opens)

/-- **The reader of headers finds a header exactly where one is derived, and answers with its parts.**
For every text and every offset at which an identifier starts a word: a header is read there exactly
when the text reads `[async] name [: [async] [function]] (params) {` from there on, with blanks
between the parts and behind the first `async`, whole keywords, a name that is not reserved, and
the parenthesis that matches. The text reads so in one way only. The name is the whole word in
its place, and name, mark, parameters and the brace of the body are those of the derivation. -/
theorem methodHeader?_iff_derives (t : Text) (i : Nat)
    (starts : (ofOffset t i).startsWord = true) :
    ((methodHeader? (ofOffset t i)).isSome ↔ ∃ f : HeaderForm, f.Derives t i) ∧
      (∀ f f' : HeaderForm, f.Derives t i → f'.Derives t i → f = f') ∧
      ∀ f : HeaderForm, f.Derives t i →
        word (t.drop (i + f.modifierText.length)) = f.name.text ∧
          ∃ brace, methodHeader? (ofOffset t i) = some (f.header, brace) ∧
            brace.text = t ∧ brace.offset = i + f.text.length ∧ brace.peek? = some openBrace := by
  have word : (ofOffset t i).word ≠ [] := List.length_pos_iff.mp (word_length_pos starts)
  have inside : i < t.length := by
    by_contra outside
    refine word ?_
    rw [Cursor.word, ofOffset, List.drop_eq_nil_of_le (by omega)]
    rfl
  have offset_eq : (ofOffset t i).offset = i := by
    rw [offset_ofOffset]
    omega
  have here : ∀ f : HeaderForm, f.Derives t i →
      f.Derives (ofOffset t i).text (ofOffset t i).offset := by
    intro f derives
    rwa [text_ofOffset, offset_eq]
  refine ⟨⟨?_, ?_⟩, fun f f' derives => derives.unique, ?_⟩
  · intro read
    obtain ⟨⟨header, brace⟩, read⟩ := Option.isSome_iff_exists.mp read
    have derives := exists_derives word read
    rwa [text_ofOffset, offset_eq] at derives
  · rintro ⟨f, derives⟩
    rw [methodHeader?_of_derives (here f derives)]
    rfl
  · intro f derives
    have read := methodHeader?_of_derives (here f derives)
    obtain ⟨-, -, front⟩ := methodHeader?_walk read
    refine ⟨derives.word_eq, _, read, by rw [text_advance, text_ofOffset], ?_, front⟩
    have written := (derives.written).length_le
    rw [List.length_append, List.length_drop] at written
    rw [offset_advance, offset_eq]
    show i + min f.text.length (t.drop i).length = _
    rw [List.length_drop]
    omega

theorem async_ne_nil : utf8 "async" ≠ [] := by decide

theorem async_free : utf8 "async" ∉ reservedWords := by decide

/-- The header `async async : async function(p, ')') {` of a method named `async`. -/
def asyncThrice : HeaderForm where
  modifier := some ⟨⟨utf8 " ", rfl⟩, by decide⟩
  name := ⟨utf8 "async", word_async, async_ne_nil, async_free⟩
  gap := ⟨utf8 " ", rfl⟩
  marker := some ⟨⟨utf8 " ", rfl⟩, some ⟨utf8 " ", rfl⟩, some ⟨[], rfl⟩, by
    rintro gap ⟨rfl⟩ -
    decide⟩
  params := utf8 "p, ')'"
  last := ⟨utf8 "\n", rfl⟩

/-- It is read behind another entry; and `async` in front of a reserved word is neither a modifier nor
a name. -/
theorem methodHeader?_iff_derives_asyncThrice :
    let t := utf8 "a: 1, async async : async function(p, ')')\n\x7b \x7d"
    let t' := utf8 "async function(x) \x7b \x7d"
    ((ofOffset t 6).startsWord = true ∧ asyncThrice.Derives t 6 ∧
      ∃ brace, methodHeader? (ofOffset t 6) = some (⟨utf8 "async", true, utf8 "p, ')'"⟩, brace) ∧
        brace.offset = 43) ∧
    (ofOffset t' 0).startsWord = true ∧ ¬ ∃ f : HeaderForm, f.Derives t' 0 := by
  intro t t'
  have starts : (ofOffset t 6).startsWord = true := by rfl
  have starts' : (ofOffset t' 0).startsWord = true := by rfl
  have derives : asyncThrice.Derives t 6 := ⟨by decide, by rfl⟩
  obtain ⟨-, -, reads⟩ := methodHeader?_iff_derives t 6 starts
  obtain ⟨read_iff, -⟩ := methodHeader?_iff_derives t' 0 starts'
  obtain ⟨-, brace, read, -, offset_eq, -⟩ := reads asyncThrice derives
  have unread : (methodHeader? (ofOffset t' 0)).isSome = false := by rfl
  refine ⟨⟨starts, derives, brace, read, offset_eq⟩, starts', fun derived => ?_⟩
  rw [read_iff.mpr derived] at unread
  cases unread

end ClassUpgrade.Source
