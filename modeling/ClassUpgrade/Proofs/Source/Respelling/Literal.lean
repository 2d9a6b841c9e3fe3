/-
# Proofs.Source.Respelling.Literal — literals of respelled texts

A literal starts at a place of a text exactly when one starts at the aligned
place of the text that is spelled otherwise, and the two end at aligned places
(`Aligned.literal`). An exchanged piece has no byte that ends a literal, so it
is passed over as a whole. The flags of a regular expression are the one part of
a literal that is made of name bytes: they end with the run behind the closing
slash, or in front of the first dot in it (`Respelled.flags`).
-/
import ClassUpgrade.Proofs.Source.Respelling.Text

namespace ClassUpgrade.Source

set_option autoImplicit false

open Byte Cursor

/-! ## Past bytes that end no literal -/

theorem opensLiteral_of_isInert {b : UInt8} (inert : isInert b = true) : opensLiteral b = false := by
  cases opens : opensLiteral b with
  | false => rfl
  | true =>
      simp only [opensLiteral, isQuote, Bool.or_eq_true, beq_iff_eq] at opens
      rcases opens with ((rfl | rfl) | rfl) | rfl <;> exact absurd inert (by decide)

section Inert

variable {x : Text}

theorem quotedTail_inert {quote : UInt8} (quotes : isQuote quote = true) (t : Text) : ∀ {x : Text},
    (∀ b ∈ x, isInert b = true) → quotedTail quote false (x ++ t) = x.length + quotedTail quote false t
  | [], _ => by simp
  | b :: x, inert => by
      have here := inert b List.mem_cons_self
      have noQuote : b ≠ quote := by
        simp only [isQuote, Bool.or_eq_true, beq_iff_eq] at quotes
        rcases quotes with (rfl | rfl) | rfl <;> exact ne_of_isInert here (by decide)
      have noEscape : b ≠ backslash := ne_of_isInert here (by decide)
      have noLine : b ≠ lineFeed := ne_of_isInert here (by decide)
      rw [List.cons_append, quotedTail, if_neg noEscape, if_neg noQuote,
        if_neg fun line => noLine line.1,
        quotedTail_inert quotes t fun a mem => inert a (List.mem_cons_of_mem _ mem)]
      simp only [List.length_cons]
      omega

/-- A quoted text goes on behind bytes that do not end it, an escape in front of them or not. -/
theorem quotedTail_escaped {quote : UInt8} (quotes : isQuote quote = true)
    (inert : ∀ b ∈ x, isInert b = true) (ne_nil : x ≠ []) (t : Text) (escaped : Bool) :
    quotedTail quote escaped (x ++ t) = x.length + quotedTail quote false t := by
  cases escaped with
  | false => exact quotedTail_inert quotes t inert
  | true =>
      obtain ⟨b, y, rfl⟩ := List.exists_cons_of_ne_nil ne_nil
      rw [List.cons_append, quotedTail,
        quotedTail_inert quotes t fun a mem => inert a (List.mem_cons_of_mem _ mem)]
      simp only [List.length_cons]
      omega

theorem line_inert (inert : ∀ b ∈ x, isInert b = true) (t : Text) :
    (Text.line (x ++ t)).length = x.length + (Text.line t).length := by
  have kept : ∀ b ∈ x, (b != lineFeed) = true := fun b mem => by
    simpa using ne_of_isInert (inert b mem) (by decide : isInert lineFeed = false)
  rw [Text.line, List.takeWhile_append_of_pos kept, List.length_append]
  rfl

theorem blockTail_inert (t : Text) : ∀ {x : Text}, (∀ b ∈ x, isInert b = true) →
    blockTail (x ++ t) = x.length + blockTail t
  | [], _ => by simp
  | b :: x, inert => by
      have noStar : b ≠ star := ne_of_isInert (inert b List.mem_cons_self) (by decide)
      rw [List.cons_append, blockTail, if_neg fun closes => noStar closes.1,
        blockTail_inert t fun a mem => inert a (List.mem_cons_of_mem _ mem)]
      simp only [List.length_cons]
      omega

theorem regexTail_inert (inClass : Bool) (t : Text) : ∀ {x : Text}, (∀ b ∈ x, isInert b = true) →
    regexTail false inClass (x ++ t) = (regexTail false inClass t).map (· + x.length)
  | [], _ => by simp
  | b :: x, inert => by
      have here := inert b List.mem_cons_self
      have noEscape : b ≠ backslash := ne_of_isInert here (by decide)
      have noOpening : b ≠ openBracket := ne_of_isInert here (by decide)
      have noClosing : b ≠ closeBracket := ne_of_isInert here (by decide)
      have noSlash : b ≠ slash := ne_of_isInert here (by decide)
      have noLine : b ≠ lineFeed := ne_of_isInert here (by decide)
      have noReturn : b ≠ carriageReturn := ne_of_isInert here (by decide)
      rw [List.cons_append, regexTail, if_neg noEscape, if_neg noOpening, if_neg noClosing,
        if_neg fun ends => noSlash ends.1, if_neg (by simp [noLine, noReturn]),
        regexTail_inert inClass t fun a mem => inert a (List.mem_cons_of_mem _ mem), Option.map_map]
      rfl

/-- A regular expression goes on behind bytes that do not end it, an escape in front of them or
not. -/
theorem regexTail_escaped (inert : ∀ b ∈ x, isInert b = true) (ne_nil : x ≠ []) (t : Text)
    (escaped inClass : Bool) :
    regexTail escaped inClass (x ++ t) = (regexTail false inClass t).map (· + x.length) := by
  cases escaped with
  | false => exact regexTail_inert inClass t inert
  | true =>
      obtain ⟨b, y, rfl⟩ := List.exists_cons_of_ne_nil ne_nil
      rw [List.cons_append, regexTail,
        regexTail_inert inClass t fun a mem => inert a (List.mem_cons_of_mem _ mem), Option.map_map]
      rfl

end Inert

/-! ## Tails of literals -/

/-- Lengths from two places on that lead to aligned places; both are zero or neither is. -/
structure LengthAlike (gap : Exchange) (c : Cursor) (n : Nat) (c' : Cursor) (n' : Nat) : Prop where
  zero_iff : n = 0 ↔ n' = 0
  aligned : Aligned gap (c.advance n) (c'.advance n')

theorem advance_append_add (before x y : Text) (n : Nat) :
    (⟨before, x ++ y⟩ : Cursor).advance (x.length + n) =
      (⟨x.reverse ++ before, y⟩ : Cursor).advance n := by
  rw [← advance_advance, advance_append]

section Tails

variable {gap : Exchange} {t t' : Text}

theorem Respelled.quotedTail (lawful : Lawful gap) {quote : UInt8} (quotes : isQuote quote = true)
    (respelled : Respelled gap t t') : ∀ {before before' : Text} (escaped : Bool),
      Looks before before' →
        Aligned gap ((⟨before, t⟩ : Cursor).advance (quotedTail quote escaped t))
          ((⟨before', t'⟩ : Cursor).advance (Source.quotedTail quote escaped t')) := by
  induction respelled with
  | nil =>
      intro before before' escaped looks
      rw [advance_of_nil rfl, advance_of_nil rfl]
      exact ⟨.nil, .inr looks⟩
  | @byte b t t' other rest ih =>
      intro before before' escaped looks
      cases escaped with
      | true =>
          rw [Source.quotedTail, Source.quotedTail, advance_cons, advance_cons]
          exact ih false (looks.cons b)
      | false =>
          rw [Source.quotedTail, Source.quotedTail]
          by_cases escapes : b = backslash
          · rw [if_pos escapes, if_pos escapes, advance_cons, advance_cons]
            exact ih true (looks.cons b)
          rw [if_neg escapes, if_neg escapes]
          by_cases ends : b = quote
          · rw [if_pos ends, if_pos ends, advance_cons, advance_cons]
            exact ⟨rest, .inr (looks.cons b)⟩
          rw [if_neg ends, if_neg ends]
          by_cases line : b = lineFeed ∧ quote ≠ backtick
          · rw [if_pos line, if_pos line]
            exact ⟨.byte other rest, .inr looks⟩
          · rw [if_neg line, if_neg line, advance_cons, advance_cons]
            exact ih false (looks.cons b)
  | @piece x x' t t' here rest ih =>
      intro before before' escaped looks
      rw [quotedTail_escaped quotes (here.inert lawful) (here.ne_nil lawful),
        quotedTail_escaped quotes (here.inert' lawful) (here.ne_nil' lawful), advance_append_add,
        advance_append_add]
      exact ih false (here.looks lawful (.inr looks))

theorem Respelled.line (lawful : Lawful gap) (respelled : Respelled gap t t') :
    ∀ {before before' : Text}, Looks before before' →
      Aligned gap ((⟨before, t⟩ : Cursor).advance (Text.line t).length)
        ((⟨before', t'⟩ : Cursor).advance (Text.line t').length) := by
  induction respelled with
  | nil =>
      intro before before' looks
      exact ⟨.nil, .inr looks⟩
  | @byte b t t' other rest ih =>
      intro before before' looks
      by_cases line : b = lineFeed
      · have ends : ∀ y, Text.line (b :: y) = [] := fun y => by simp [Text.line, line]
        rw [ends, ends]
        exact ⟨.byte other rest, .inr looks⟩
      · have goesOn : ∀ y, Text.line (b :: y) = b :: Text.line y := fun y => by
          simp [Text.line, line]
        rw [goesOn, goesOn, List.length_cons, List.length_cons, advance_cons, advance_cons]
        exact ih (looks.cons b)
  | @piece x x' t t' here rest ih =>
      intro before before' looks
      rw [line_inert (here.inert lawful), line_inert (here.inert' lawful), advance_append_add,
        advance_append_add]
      exact ih (here.looks lawful (.inr looks))

/-- A byte with a meaning to the scanners is in no piece that is exchanged. -/
theorem Respelled.uncons (lawful : Lawful gap) (respelled : Respelled gap t t') {b : UInt8}
    (structural : isInert b = false) (front : t.head? = some b) :
    ∃ u u', t = b :: u ∧ t' = b :: u' ∧ Respelled gap u u' := by
  cases respelled with
  | nil => cases front
  | @byte a u u' other rest =>
      obtain rfl : a = b := by simpa using front
      exact ⟨u, u', rfl, rfl, rest⟩
  | @piece x x' t t' here rest =>
      obtain ⟨a, y, rfl⟩ := List.exists_cons_of_ne_nil (here.ne_nil lawful)
      obtain rfl : a = b := by simpa using front
      rw [here.inert lawful a List.mem_cons_self] at structural
      cases structural

theorem Respelled.head_iff (lawful : Lawful gap) (respelled : Respelled gap t t') {b : UInt8}
    (structural : isInert b = false) : t.head? = some b ↔ t'.head? = some b := by
  constructor
  · intro front
    obtain ⟨u, u', -, rfl, -⟩ := respelled.uncons lawful structural front
    rfl
  · intro front
    obtain ⟨u, u', -, rfl, -⟩ := respelled.symm.uncons lawful.flip structural front
    rfl

theorem Respelled.blockTail (lawful : Lawful gap) (respelled : Respelled gap t t') :
    ∀ {before before' : Text}, Looks before before' →
      Aligned gap ((⟨before, t⟩ : Cursor).advance (blockTail t))
        ((⟨before', t'⟩ : Cursor).advance (Source.blockTail t')) := by
  induction respelled with
  | nil =>
      intro before before' looks
      exact ⟨.nil, .inr looks⟩
  | @byte b t t' other rest ih =>
      intro before before' looks
      have slash_iff := rest.head_iff lawful (by decide : isInert slash = false)
      rw [Source.blockTail, Source.blockTail]
      by_cases closes : b = star ∧ t.head? = some slash
      · rw [if_pos closes, if_pos ⟨closes.1, slash_iff.mp closes.2⟩]
        obtain ⟨u, u', rfl, rfl, rest'⟩ := rest.uncons lawful (by decide) closes.2
        exact ⟨rest', .inr ((looks.cons b).cons slash)⟩
      · rw [if_neg closes, if_neg fun closes' => closes ⟨closes'.1, slash_iff.mpr closes'.2⟩,
          advance_cons, advance_cons]
        exact ih (looks.cons b)
  | @piece x x' t t' here rest ih =>
      intro before before' looks
      rw [blockTail_inert _ (here.inert lawful), blockTail_inert _ (here.inert' lawful),
        advance_append_add, advance_append_add]
      exact ih (here.looks lawful (.inr looks))

/-- A name is taken up to what no name goes on with. -/
theorem takeWhile_name {w : Text} (chain : ∀ b ∈ w, isChain b = true) (noDot : dot ∉ w)
    (stop : ∀ b ∈ t.head?, isWordPart b = false) : (w ++ t).takeWhile isWordPart = w := by
  have parts : ∀ b ∈ w, isWordPart b = true := fun b mem =>
    isWordPart_of_isChain (chain b mem) fun same => noDot (same ▸ mem)
  have none : t.takeWhile isWordPart = [] := takeWhile_append_of_stop stop []
  rw [List.takeWhile_append_of_pos parts, none, List.append_nil]

theorem StopsChain.noWordPart (stops : StopsChain t) : ∀ b ∈ t.head?, isWordPart b = false := by
  intro b front
  have other := stops b front
  simp only [isChain, Bool.or_eq_false_iff] at other
  exact other.1

/-- The flags of a regular expression end at aligned places: behind the run in front, or in front of
its first dot. -/
theorem Respelled.flags (lawful : Lawful gap) (respelled : Respelled gap t t')
    {before before' : Text} (looks : Looks before before') :
    Aligned gap ((⟨before, t⟩ : Cursor).advance (t.takeWhile isWordPart).length)
      ((⟨before', t'⟩ : Cursor).advance (t'.takeWhile isWordPart).length) := by
  have none_taken : ∀ {b : UInt8} {y : Text}, isChain b = false →
      (b :: y).takeWhile isWordPart = [] := by
    intro b y other
    simp only [isChain, Bool.or_eq_false_iff] at other
    rw [List.takeWhile_cons_of_neg (by simp [other.1])]
  cases respelled with
  | nil => exact ⟨.nil, .inr looks⟩
  | byte other rest =>
      rw [none_taken other, none_taken other]
      exact ⟨.byte other rest, .inr looks⟩
  | @piece x x' t t' here rest =>
      cases here with
      | stretch here =>
          obtain ⟨b, y, old_eq, other⟩ := (lawful.old here).opens
          obtain ⟨b', y', new_eq, other'⟩ := (lawful.new here).opens
          have whole := Respelled.piece (.stretch here) rest
          rw [old_eq, new_eq, List.cons_append, List.cons_append] at whole ⊢
          rw [none_taken other, none_taken other']
          exact ⟨whole, .inr looks⟩
      | run alike more ends ends' =>
          by_cases dotted : dot ∈ x
          · have stop : ∀ y : Text, ∀ b ∈ (dot :: y).head?, isWordPart b = false := by
              simp [isWordPart_dot]
            obtain ⟨w, m, rfl, noDot⟩ := List.eq_append_cons_of_mem dotted
            obtain ⟨w', m', rfl, noDot'⟩ := List.eq_append_cons_of_mem (alike.dot_iff.mp dotted)
            have whole := Respelled.piece (.run alike.behind (List.cons_ne_nil _ _) ends ends') rest
            rw [List.cons_append, List.cons_append] at whole
            rw [List.append_assoc, List.append_assoc, List.cons_append, List.cons_append,
              takeWhile_name (fun b mem => alike.chain b (List.mem_append_left _ mem)) noDot (stop _),
              takeWhile_name (fun b mem => alike.chain' b (List.mem_append_left _ mem)) noDot' (stop _),
              advance_append, advance_append]
            exact ⟨whole, .inl ⟨rfl, rfl⟩⟩
          · have noDot' := mt alike.dot_iff.mpr dotted
            rw [takeWhile_name alike.chain dotted ends.noWordPart, takeWhile_name alike.chain' noDot' ends'.noWordPart,
              advance_append, advance_append]
            exact ⟨rest, .inr (alike.looks more (.inr looks))⟩

/-- A regular expression closes in both spellings or in neither, and its end is aligned. -/
theorem Respelled.regexTail (lawful : Lawful gap) (respelled : Respelled gap t t') :
    ∀ {before before' : Text} (escaped inClass : Bool), Looks before before' →
      (regexTail escaped inClass t = none ∧ Source.regexTail escaped inClass t' = none) ∨
        ∃ n n', Source.regexTail escaped inClass t = some n ∧
          Source.regexTail escaped inClass t' = some n' ∧
          Aligned gap ((⟨before, t⟩ : Cursor).advance n) ((⟨before', t'⟩ : Cursor).advance n') := by
  induction respelled with
  | nil => exact fun _ _ _ => .inl ⟨by simp [Source.regexTail], by simp [Source.regexTail]⟩
  | @byte b t t' other rest ih =>
      intro before before' escaped inClass looks
      obtain ⟨escaped', inClass', -, step⟩ | ends | fails := regexTail_cons escaped inClass b
      · rw [step, step]
        rcases ih escaped' inClass' (looks.cons b) with ⟨fails, fails'⟩ | ⟨n, n', found, found', aligned⟩
        · exact .inl ⟨by rw [fails]; rfl, by rw [fails']; rfl⟩
        · refine .inr ⟨n + 1, n' + 1, by rw [found]; rfl, by rw [found']; rfl, ?_⟩
          rwa [advance_cons, advance_cons]
      · refine .inr ⟨_, _, ends t, ends t', ?_⟩
        rw [advance_cons, advance_cons]
        exact rest.flags lawful (looks.cons b)
      · exact .inl ⟨fails t, fails t'⟩
  | @piece x x' t t' here rest ih =>
      intro before before' escaped inClass looks
      rw [regexTail_escaped (here.inert lawful) (here.ne_nil lawful),
        regexTail_escaped (here.inert' lawful) (here.ne_nil' lawful)]
      rcases ih false inClass (here.looks lawful (.inr looks)) with
        ⟨fails, fails'⟩ | ⟨n, n', found, found', aligned⟩
      · exact .inl ⟨by rw [fails]; rfl, by rw [fails']; rfl⟩
      · refine .inr ⟨n + x.length, n' + x'.length, by rw [found]; rfl, by rw [found']; rfl, ?_⟩
        rwa [Nat.add_comm n, Nat.add_comm n', advance_append_add, advance_append_add]

end Tails

/-! ## Literals -/

section Literals

variable {gap : Exchange} {t t' before before' : Text}

/-- A comment opens in both spellings or in neither. -/
theorem Respelled.comment (lawful : Lawful gap) (respelled : Respelled gap t t')
    (looks : Looks before before') :
    (commentLength (slash :: t) = 0 ∧ commentLength (slash :: t') = 0) ∨
      ∃ n n', commentLength (slash :: t) = n + 1 ∧ commentLength (slash :: t') = n' + 1 ∧
        Aligned gap ((⟨before, slash :: t⟩ : Cursor).advance (n + 1))
          ((⟨before', slash :: t'⟩ : Cursor).advance (n' + 1)) := by
  by_cases line : t.head? = some slash
  · obtain ⟨u, u', rfl, rfl, rest⟩ := respelled.uncons lawful (by decide) line
    refine .inr ⟨_, _, rfl, rfl, ?_⟩
    rw [advance_cons, advance_cons, advance_cons, advance_cons]
    exact rest.line lawful ((looks.cons slash).cons slash)
  by_cases block : t.head? = some star
  · obtain ⟨u, u', rfl, rfl, rest⟩ := respelled.uncons lawful (by decide) block
    refine .inr ⟨_, _, rfl, rfl, ?_⟩
    rw [advance_cons, advance_cons, advance_cons, advance_cons]
    exact rest.blockTail lawful ((looks.cons slash).cons star)
  · have line' := mt (respelled.head_iff lawful (by decide : isInert slash = false)).mpr line
    have block' := mt (respelled.head_iff lawful (by decide : isInert star = false)).mpr block
    have noComment : ∀ y : Text, y.head? ≠ some slash → y.head? ≠ some star →
        commentLength (slash :: y) = 0 := by
      intro y noLine noBlock
      cases y with
      | nil => rfl
      | cons b y =>
          have noLine' : b ≠ slash := by simpa using noLine
          have noBlock' : b ≠ star := by simpa using noBlock
          simp [commentLength, noLine', noBlock']
    exact .inl ⟨noComment t line block, noComment t' line' block'⟩

/-- A slash that opens no comment opens a regular expression in both spellings or in neither. -/
theorem Respelled.regexLength (lawful : Lawful gap) (respelled : Respelled gap t t')
    (looks : Looks before before') :
    LengthAlike gap ⟨before, slash :: t⟩ (regexLength (slash :: t))
      ⟨before', slash :: t'⟩ (regexLength (slash :: t')) := by
  rcases respelled.regexTail lawful false false (looks.cons slash) with
    ⟨fails, fails'⟩ | ⟨n, n', found, found', aligned⟩
  · simp only [Source.regexLength, fails, fails']
    exact ⟨Iff.rfl, .byte (by decide) respelled, .inr looks⟩
  · simp only [Source.regexLength, found, found']
    refine ⟨by simp, ?_⟩
    rwa [advance_cons, advance_cons]

/-- **A literal starts in both spellings or in neither, and its ends are aligned.** -/
theorem Aligned.literal (lawful : Lawful gap) {c c' : Cursor} (aligned : Aligned gap c c') :
    LengthAlike gap c c.literalLength c' c'.literalLength := by
  obtain ⟨before, after⟩ := c
  obtain ⟨before', after'⟩ := c'
  have unmoved : literalLength before after = 0 → literalLength before' after' = 0 →
      LengthAlike gap ⟨before, after⟩ (literalLength before after) ⟨before', after'⟩
        (literalLength before' after') := by
    intro plain plain'
    rw [plain, plain']
    exact ⟨Iff.rfl, aligned⟩
  obtain ⟨respelled, looks⟩ := aligned
  dsimp only at respelled
  cases respelled with
  | nil => exact unmoved rfl rfl
  | piece here rest =>
      have plain : ∀ {y : Text}, (∀ b ∈ y, isInert b = true) → y ≠ [] → ∀ z u : Text,
          literalLength z (y ++ u) = 0 := by
        intro y inert ne_nil z u
        obtain ⟨b, y, rfl⟩ := List.exists_cons_of_ne_nil ne_nil
        refine literalLength_eq_zero ?_
        simpa using opensLiteral_of_isInert (inert b List.mem_cons_self)
      exact unmoved (plain (here.inert lawful) (here.ne_nil lawful) _ _)
        (plain (here.inert' lawful) (here.ne_nil' lawful) _ _)
  | @byte b t t' other rest =>
      have looks' := looks_of_byte other looks
      by_cases quotes : isQuote b = true
      · simp only [Source.literalLength, Cursor.literalLength, if_pos quotes, quotedLength]
        refine ⟨by simp, ?_⟩
        rw [advance_cons, advance_cons]
        exact rest.quotedTail lawful quotes false (looks'.cons b)
      by_cases opens : b = slash
      · subst opens
        simp only [Cursor.literalLength, Source.literalLength, if_neg quotes, if_true,
          ← looks'.regex]
        rcases rest.comment lawful looks' with ⟨none, none'⟩ | ⟨n, n', some_eq, some_eq', aligned⟩
        · simp only [none, none', ne_eq, not_true_eq_false, if_false]
          split
          · exact rest.regexLength lawful looks'
          · exact ⟨Iff.rfl, .byte other rest, .inr looks'⟩
        · simp only [some_eq, some_eq', ne_eq, Nat.succ_ne_zero, not_false_eq_true, if_true]
          exact ⟨by simp, aligned⟩
      · exact unmoved (by simp [Source.literalLength, quotes, opens])
          (by simp [Source.literalLength, quotes, opens])

end Literals

end ClassUpgrade.Source
