/-
# Proofs.Source.Respelling.Header — method headers of respelled texts

A header is read over blanks, from a name to the brace of a body. Where the
blanks end the two spellings of a text meet in one of three ways (`Meets`): at
a byte of the text that a header can go on with, at a name, or at a place that
bars every header (`Barred`), such as a chain of members or an exchanged
stretch. What a stretch has to satisfy for that, in its surroundings, is a law
about the exchange (`Barring`).

* `Aligned.meets`: from aligned places, blanks end where the spellings meet;
* `NameAlike.header`: a header is read in both spellings or in neither, marked
  alike, up to aligned braces.
-/
import ClassUpgrade.Proofs.Source.Entry
import ClassUpgrade.Proofs.Source.Respelling.Bracket

namespace ClassUpgrade.Source

set_option autoImplicit false

open Byte Cursor

/-! ## The tail of a header -/

/-- The parameters at a place and the brace of the body behind them. -/
def groupTail? (g : Cursor) : Option Cursor := do
  let close ← g.closeOf? .paren
  let brace := (g.advance (close + 1 - g.offset)).skipSpace
  if brace.peek? = some openBrace then some brace else none

/-- The rest of a header behind its name: whether it is marked, and the brace of the body. -/
def headerTail? (d : Cursor) : Option (Bool × Cursor) :=
  (groupTail? (methodMarker d.skipSpace).2).map ((methodMarker d.skipSpace).1, ·)

/-- A header is a name that is not reserved and a tail. -/
theorem methodHeader?_tail (c : Cursor) :
    (methodHeader? c).map (fun head => (head.1.isAsync, head.2)) =
      if reservedWords.contains (methodName c).1 then none
      else (headerTail? (methodName c).2.2).map fun tail => ((methodName c).2.1 || tail.1, tail.2) := by
  unfold methodHeader? headerTail? groupTail?
  dsimp only
  split
  · rfl
  · cases (methodMarker (methodName c).2.2.skipSpace).2.closeOf? .paren with
    | none => rfl
    | some close =>
        simp only [Option.bind_eq_bind, Option.bind_some]
        split
        · rfl
        · rfl

theorem groupTail?_of_ne {g : Cursor} (noGroup : g.peek? ≠ some openParen) : groupTail? g = none := by
  have noGroup' : g.peek? ≠ some Bracket.paren.opening := noGroup
  have none : g.closeOf? .paren = none := by
    rw [closeOf?, expect?, if_neg noGroup']
    rfl
  rw [groupTail?, none]
  rfl

/-- A group has no body behind it when no search for its end comes to a place in front of one. -/
theorem groupTail?_eq_none_iff {g : Cursor} (front : g.peek? = some openParen) :
    groupTail? g = none ↔
      ∀ e, Closes .paren 0 (g.advance 1) e → (e.advance 1).skipSpace.peek? ≠ some openBrace := by
  have opened : g.peek? = some Bracket.paren.opening := front
  have distinct : Bracket.paren.closing ≠ Bracket.paren.opening := by decide
  unfold groupTail?
  constructor
  · intro none_read e closes brace
    rw [(closeOf?_eq_some_iff distinct).mpr ⟨opened, e, closes, rfl⟩, Option.bind_eq_bind,
      Option.bind_some, closes.advance_eq (by decide) opened, if_pos brace] at none_read
    cases none_read
  · intro noBody
    cases closed : g.closeOf? .paren with
    | none => rfl
    | some n =>
        obtain ⟨-, e, closes, rfl⟩ := (closeOf?_eq_some_iff distinct).mp closed
        rw [Option.bind_eq_bind, Option.bind_some, closes.advance_eq (by decide) opened,
          if_neg (noBody e closes)]

/-- A place where blanks have ended and no header goes on: no mark of a header is in front, nor
behind the word or the keywords in front. -/
structure Barred (g : Cursor) : Prop where
  noColon : g.peek? ≠ some colon
  noGroup : g.peek? ≠ some openParen
  noBrace : g.peek? ≠ some openBrace
  word : headerTail? (g.advance g.word.length) = none
  function : (optionalKeyword g (utf8 "function")).2.peek? ≠ some openParen
  async : (optionalKeyword (optionalKeyword g (utf8 "async")).2 (utf8 "function")).2.peek? ≠
    some openParen

theorem methodMarker_of_ne_colon {g : Cursor} (noColon : g.peek? ≠ some colon) :
    methodMarker g = (false, g) := by
  rw [methodMarker, expect?, if_neg noColon]

theorem headerTail?_of_ne {d : Cursor} (noColon : d.skipSpace.peek? ≠ some colon)
    (noGroup : d.skipSpace.peek? ≠ some openParen) : headerTail? d = none := by
  rw [headerTail?, methodMarker_of_ne_colon noColon, groupTail?_of_ne noGroup]
  rfl

theorem Barred.headerTail?_eq {d : Cursor} (barred : Barred d.skipSpace) : headerTail? d = none :=
  headerTail?_of_ne barred.noColon barred.noGroup

/-! ## Places that bar a header -/

theorem skipSpace_of_ne {g : Cursor} (noSpace : ∀ b ∈ g.peek?, isSpace b = false) :
    g.skipSpace = g := by
  have none : g.after.takeWhile isSpace = [] := takeWhile_append_of_stop noSpace []
  rw [skipSpace, spaceLength, none]
  rfl

theorem optionalKeyword_of_noWord {g : Cursor} {keyword : Text} (noWord : g.word = [])
    (leads : (keyword.head?.any isWordStart) = true) : optionalKeyword g keyword = (false, g) := by
  have other : g.hasKeyword keyword = false := by
    cases found : g.hasKeyword keyword with
    | false => rfl
    | true =>
        obtain ⟨y, after_eq⟩ := hasKeyword_leads found
        cases keyword with
        | nil => cases leads
        | cons b keyword =>
            have starts : isWordStart b = true := leads
            rw [Cursor.word, ← after_eq, List.cons_append, Source.word, if_pos starts] at noWord
            cases noWord
  rw [optionalKeyword, other]
  rfl

/-- Where no word is in front, a header goes on with its marks only. -/
theorem barred_of_noWord {g : Cursor} (noWord : g.word = []) (noColon : g.peek? ≠ some colon)
    (noGroup : g.peek? ≠ some openParen) (noBrace : g.peek? ≠ some openBrace)
    (noSpace : ∀ b ∈ g.peek?, isSpace b = false) : Barred g where
  noColon := noColon
  noGroup := noGroup
  noBrace := noBrace
  word := by
    have same := skipSpace_of_ne noSpace
    rw [noWord]
    show headerTail? g = none
    exact headerTail?_of_ne (same.symm ▸ noColon) (same.symm ▸ noGroup)
  function := by
    rw [optionalKeyword_of_noWord noWord (by decide)]
    exact noGroup
  async := by
    rw [optionalKeyword_of_noWord noWord (by decide), optionalKeyword_of_noWord noWord (by decide)]
    exact noGroup

/-- A name of a run, up to what stops it, is the word in front. -/
theorem word_name {w t : Text} (chain : ∀ b ∈ w, isChain b = true) (noDot : dot ∉ w)
    (starts : w.head?.any isWordStart = true) (stop : ∀ b ∈ t.head?, isWordPart b = false) :
    Source.word (w ++ t) = w := by
  have whole := takeWhile_name chain noDot stop
  cases w with
  | nil => cases starts
  | cons b w =>
      have starts' : isWordStart b = true := starts
      have part : isWordPart b = true := by simp [isWordPart, starts']
      rw [List.cons_append, List.takeWhile_cons_of_pos part] at whole
      rw [List.cons_append, Source.word, if_pos starts', whole]

theorem word_eq_nil {t : Text} (other : t.head?.any isWordStart = false) : Source.word t = [] := by
  cases t with
  | nil => rfl
  | cons b t =>
      have noStart : isWordStart b = false := other
      rw [Source.word, if_neg (by simp [noStart])]

theorem isChain_facts {b : UInt8} (chain : isChain b = true) :
    b ≠ colon ∧ b ≠ openParen ∧ b ≠ openBrace ∧ isSpace b = false := by
  have other : ∀ {x : UInt8}, isChain x = false → b ≠ x := by
    rintro x noChain rfl
    rw [chain] at noChain
    cases noChain
  refine ⟨other (by decide), other (by decide), other (by decide), ?_⟩
  simp [isSpace, other (show isChain space = false by decide),
    other (show isChain tab = false by decide), other (show isChain lineFeed = false by decide),
    other (show isChain carriageReturn = false by decide)]

/-- In front of a chain byte stands no mark of a header and no blank. -/
theorem chain_facts {g : Cursor} {b : UInt8} {y : Text} (after_eq : g.after = b :: y)
    (chain : isChain b = true) : g.peek? ≠ some colon ∧ g.peek? ≠ some openParen ∧
      g.peek? ≠ some openBrace ∧ ∀ a ∈ g.peek?, isSpace a = false := by
  obtain ⟨noColon, noGroup, noBrace, noSpace⟩ := isChain_facts chain
  simp [peek?, after_eq, noColon, noGroup, noBrace, noSpace]

theorem isChain_dot : isChain dot = true := by decide

/-- A chain of members bars every header: a dot stands behind its first name. -/
theorem barred_of_dotted {g : Cursor} {w y : Text} (after_eq : g.after = w ++ dot :: y)
    (chain : ∀ b ∈ w, isChain b = true) (noDot : dot ∉ w) : Barred g := by
  have front : ∃ b z, g.after = b :: z ∧ isChain b = true := by
    cases w with
    | nil => exact ⟨dot, y, after_eq, isChain_dot⟩
    | cons b w => exact ⟨b, w ++ dot :: y, after_eq, chain b List.mem_cons_self⟩
  obtain ⟨b, z, after_cons, chain_b⟩ := front
  obtain ⟨noColon, noGroup, noBrace, noSpace⟩ := chain_facts after_cons chain_b
  have stop : ∀ a ∈ (dot :: y).head?, isWordPart a = false := by simp [isWordPart_dot]
  by_cases starts : w.head?.any isWordStart = true
  · have word_eq : g.word = w := by rw [Cursor.word, after_eq, word_name chain noDot starts stop]
    have behind : (g.advance w.length).after = dot :: y := by
      rw [after_advance, after_eq, List.drop_left]
    obtain ⟨noColon', noGroup', -, noSpace'⟩ := chain_facts behind isChain_dot
    have same := skipSpace_of_ne noSpace'
    -- a keyword in front is the whole word, and leads to the dot
    have keyword : ∀ k : Text, k.all isWordPart = true →
        (optionalKeyword g k).2 = g ∨ (optionalKeyword g k).2 = g.advance w.length := by
      intro k parts
      rw [optionalKeyword]
      split
      · rename_i found
        have whole := (hasKeyword_iff parts).mp found
        rw [after_eq, takeWhile_name chain noDot stop] at whole
        subst whole
        exact .inr same
      · exact .inl rfl
    have atDot : ∀ k : Text, (k.head?.any isWordStart) = true →
        (optionalKeyword (g.advance w.length) k).2 = g.advance w.length := by
      intro k leads
      rw [optionalKeyword_of_noWord _ leads]
      rw [Cursor.word, behind]
      exact word_eq_nil rfl
    refine ⟨noColon, noGroup, noBrace, ?_, ?_, ?_⟩
    · rw [word_eq]
      exact headerTail?_of_ne (same.symm ▸ noColon') (same.symm ▸ noGroup')
    · rcases keyword (utf8 "function") (by decide) with stays | goes
      · rwa [stays]
      · rwa [goes]
    · rcases keyword (utf8 "async") (by decide) with stays | goes
      · rw [stays]
        rcases keyword (utf8 "function") (by decide) with stays | goes
        · rwa [stays]
        · rwa [goes]
      · rw [goes, atDot _ (by decide)]
        exact noGroup'
  · have noWord : g.word = [] := by
      rw [Cursor.word, after_eq]
      refine word_eq_nil ?_
      cases w with
      | nil => rfl
      | cons b w => simpa using starts
    exact barred_of_noWord noWord noColon noGroup noBrace noSpace

/-! ## Where blanks end -/

/-- Across an exchanged stretch no header is read, whatever is in front, when the texts behind it
are spelled alike. -/
structure Barring (gap : Exchange) : Prop where
  old : ∀ {old new t t' : Text}, gap old new t t' → Respelled gap t t' → ∀ before,
    Barred (⟨before, old ++ t⟩ : Cursor).skipSpace
  new : ∀ {old new t t' : Text}, gap old new t t' → Respelled gap t t' → ∀ before,
    Barred (⟨before, new ++ t'⟩ : Cursor).skipSpace

/-- A name in front of two places, read alike and ending alike. -/
structure NameAlike (gap : Exchange) (g g' : Cursor) (r r' : Text) : Prop where
  alike : RunAlike r r'
  noDot : dot ∉ r
  starts : r.head?.any isWordStart = true
  ends : ∃ t, g.after = r ++ t ∧ StopsChain t
  ends' : ∃ t', g'.after = r' ++ t' ∧ StopsChain t'
  behind : Aligned gap (g.advance r.length) (g'.advance r'.length)

/-- How two spellings meet where blanks have ended. -/
inductive Meets (gap : Exchange) (g g' : Cursor) : Prop
  | barred (here : Barred g) (here' : Barred g')
  | mark {b : UInt8} (listed : b ∈ [colon, openParen, openBrace]) (front : g.peek? = some b)
      (front' : g'.peek? = some b) (behind : Aligned gap (g.advance 1) (g'.advance 1))
  | name {r r' : Text} (here : NameAlike gap g g' r r')

section Meet

variable {gap : Exchange}

theorem skipSpace_cons {before t : Text} {b : UInt8} (blank : isSpace b = true) :
    (⟨before, b :: t⟩ : Cursor).skipSpace = (⟨b :: before, t⟩ : Cursor).skipSpace := by
  simp only [skipSpace, spaceLength, List.takeWhile_cons_of_pos blank, List.length_cons,
    advance_cons]

theorem skipSpace_run {r before t : Text} (chain : ∀ b ∈ r, isChain b = true) (more : r ≠ []) :
    (⟨before, r ++ t⟩ : Cursor).skipSpace = ⟨before, r ++ t⟩ := by
  obtain ⟨b, y, rfl⟩ := List.exists_cons_of_ne_nil more
  exact skipSpace_of_ne (chain_facts rfl (chain b List.mem_cons_self)).2.2.2

theorem barred_of_run {r : Text} (chain : ∀ b ∈ r, isChain b = true) (dotted : dot ∈ r)
    (before t : Text) : Barred ⟨before, r ++ t⟩ := by
  obtain ⟨w, m, rfl, noDot⟩ := List.eq_append_cons_of_mem dotted
  exact barred_of_dotted (List.append_assoc w (dot :: m) t)
    (fun b mem => chain b (List.mem_append_left _ mem)) noDot

/-- A run that opens with a digit is no name. -/
theorem barred_of_digit {r : Text} (chain : ∀ b ∈ r, isChain b = true) (more : r ≠ [])
    (noStart : ¬ r.head?.any isWordStart = true) (before t : Text) : Barred ⟨before, r ++ t⟩ := by
  obtain ⟨b, y, rfl⟩ := List.exists_cons_of_ne_nil more
  obtain ⟨noColon, noGroup, noBrace, noSpace⟩ :=
    chain_facts (g := ⟨before, b :: y ++ t⟩) rfl (chain b List.mem_cons_self)
  exact barred_of_noWord (word_eq_nil (by simpa using noStart)) noColon noGroup noBrace noSpace

/-- No brace opens behind the blanks of a text of plain bytes. -/
theorem noBrace_of_solid {t : Text} : ∀ {x before : Text}, (∀ b ∈ x, isInert b = true) →
    (∃ b ∈ x, isSpace b = false) → (⟨before, x ++ t⟩ : Cursor).skipSpace.peek? ≠ some openBrace
  | [], _, _, ⟨_, mem, _⟩ => by cases mem
  | b :: x, before, inert, ⟨a, mem, solid⟩ => by
      by_cases blank : isSpace b = true
      · rw [List.cons_append, skipSpace_cons blank]
        refine noBrace_of_solid (fun y mem => inert y (List.mem_cons_of_mem _ mem)) ⟨a, ?_, solid⟩
        refine (List.mem_cons.mp mem).resolve_left ?_
        rintro rfl
        rw [blank] at solid
        cases solid
      · rw [skipSpace_of_ne (by simpa [peek?] using blank)]
        have noBrace : b ≠ openBrace := ne_of_isInert (inert b List.mem_cons_self) (by decide)
        simpa [peek?] using noBrace

theorem Piece.solid (lawful : Lawful gap) {x x' t t' : Text} (piece : Piece gap x x' t t') :
    ∃ b ∈ x, isSpace b = false := by
  cases piece with
  | run alike more =>
      obtain ⟨b, y, rfl⟩ := List.exists_cons_of_ne_nil more
      exact ⟨b, List.mem_cons_self, (isChain_facts (alike.chain b List.mem_cons_self)).2.2.2⟩
  | stretch here => exact (lawful.old here).solid

/-- Behind blanks, a brace opens in both spellings or in neither. -/
theorem Respelled.brace_iff (lawful : Lawful gap) {t t' : Text} (respelled : Respelled gap t t')
    (before before' : Text) : (⟨before, t⟩ : Cursor).skipSpace.peek? = some openBrace ↔
      (⟨before', t'⟩ : Cursor).skipSpace.peek? = some openBrace := by
  induction respelled generalizing before before' with
  | nil => exact Iff.rfl
  | @byte b t t' _ rest ih =>
      by_cases blank : isSpace b = true
      · rw [skipSpace_cons blank, skipSpace_cons blank]
        exact ih _ _
      · have stays : ∀ near y : Text, (⟨near, b :: y⟩ : Cursor).skipSpace = ⟨near, b :: y⟩ :=
          fun near y => skipSpace_of_ne (by simpa [peek?] using blank)
        rw [stays, stays]
        exact Iff.rfl
  | piece here rest ih =>
      exact iff_of_false (noBrace_of_solid (here.inert lawful) (here.solid lawful))
        (noBrace_of_solid (here.inert' lawful) (here.symm.solid lawful.flip))

/-- From aligned places, blanks end where the spellings meet. -/
theorem Aligned.meets (barring : Barring gap) {c c' : Cursor}
    (aligned : Aligned gap c c') : Meets gap c.skipSpace c'.skipSpace := by
  obtain ⟨before, t⟩ := c
  obtain ⟨before', t'⟩ := c'
  obtain ⟨respelled, looks⟩ := aligned
  dsimp only at respelled looks
  induction respelled generalizing before before' with
  | nil =>
      have barred : ∀ near : Text, Barred (⟨near, []⟩ : Cursor).skipSpace := fun near =>
        barred_of_noWord rfl (by simp [skipSpace, peek?, spaceLength, advance])
          (by simp [skipSpace, peek?, spaceLength, advance])
          (by simp [skipSpace, peek?, spaceLength, advance])
          (by simp [skipSpace, peek?, spaceLength, advance])
      exact .barred (barred before) (barred before')
  | @byte b t t' other rest ih =>
      have looks' := looks_of_byte other looks
      by_cases blank : isSpace b = true
      · rw [skipSpace_cons blank, skipSpace_cons blank]
        exact ih _ _ (.inr (looks'.cons b))
      · have stays : ∀ near y : Text, (⟨near, b :: y⟩ : Cursor).skipSpace = ⟨near, b :: y⟩ :=
          fun near y => skipSpace_of_ne (by simpa [peek?] using blank)
        rw [stays, stays]
        by_cases listed : b ∈ [colon, openParen, openBrace]
        · exact .mark listed rfl rfl ⟨rest, .inr (looks'.cons b)⟩
        · have noStart : isWordStart b = false := by
            simp only [isChain, isWordPart, Bool.or_eq_false_iff] at other
            exact other.1.1
          simp only [List.mem_cons, List.not_mem_nil, or_false, not_or] at listed
          have barred : ∀ near y : Text, Barred ⟨near, b :: y⟩ := fun near y =>
            barred_of_noWord (word_eq_nil noStart) (by simpa [peek?] using listed.1)
              (by simpa [peek?] using listed.2.1) (by simpa [peek?] using listed.2.2)
              (by simpa [peek?] using blank)
          exact .barred (barred before t) (barred before' t')
  | @piece x x' t t' here rest ih =>
      cases here with
      | stretch here => exact .barred (barring.old here rest before) (barring.new here rest before')
      | run alike more ends ends' =>
          rw [skipSpace_run alike.chain more, skipSpace_run alike.chain' (mt alike.nil_iff.mpr more)]
          by_cases dotted : dot ∈ x
          · exact .barred (barred_of_run alike.chain dotted before t)
              (barred_of_run alike.chain' (alike.dot_iff.mp dotted) before' t')
          by_cases starts : x.head?.any isWordStart = true
          · have looks' := looks_of_noDot more dotted looks
            refine .name ⟨alike, dotted, starts, ⟨t, rfl, ends⟩, ⟨t', rfl, ends'⟩, ?_⟩
            rw [advance_append, advance_append]
            exact ⟨rest, .inr (alike.looks more (.inr looks'))⟩
          · have starts' : ¬ x'.head?.any isWordStart = true := alike.starts dotted ▸ starts
            exact .barred (barred_of_digit alike.chain more starts before t)
              (barred_of_digit alike.chain' (mt alike.nil_iff.mpr more) starts' before' t')

end Meet

/-! ## Headers in two spellings -/

section Header

variable {gap : Exchange} {g g' c c' : Cursor}

/-- What two spellings of a part of a header come to: both are none, or both end at the brace of a
body, behind which the texts go on alike. -/
inductive BodyAlike {α : Type} (gap : Exchange) : Option (α × Cursor) → Option (α × Cursor) → Prop
  | none : BodyAlike gap none none
  | some (a : α) {brace brace' : Cursor} (front : brace.peek? = some openBrace)
      (front' : brace'.peek? = some openBrace)
      (inside : Aligned gap (brace.advance 1) (brace'.advance 1)) :
      BodyAlike gap (some (a, brace)) (some (a, brace'))

theorem BodyAlike.map {α β : Type} (f : α → β) {x x' : Option (α × Cursor)}
    (alike : BodyAlike gap x x') :
    BodyAlike gap (x.map fun body => (f body.1, body.2)) (x'.map fun body => (f body.1, body.2)) := by
  cases alike with
  | none => exact .none
  | some a front front' inside => exact .some (f a) front front' inside

theorem NameAlike.peek_ne {r r' : Text} (name : NameAlike gap g g' r r') :
    (∃ b y, g.after = b :: y ∧ isChain b = true) ∧ ∃ b y, g'.after = b :: y ∧ isChain b = true := by
  obtain ⟨t, after_eq, -⟩ := name.ends
  obtain ⟨t', after_eq', -⟩ := name.ends'
  have more : r ≠ [] := by
    rintro rfl
    cases name.starts
  obtain ⟨b, y, rfl⟩ := List.exists_cons_of_ne_nil more
  obtain ⟨b', y', rfl⟩ := List.exists_cons_of_ne_nil (mt name.alike.nil_iff.mpr more)
  exact ⟨⟨b, y ++ t, after_eq, name.alike.chain b List.mem_cons_self⟩,
    ⟨b', y' ++ t', after_eq', name.alike.chain' b' List.mem_cons_self⟩⟩

/-- Where spellings meet without an opening parenthesis, neither has a group. -/
theorem groupTail_alike (lawful : Lawful gap) (barring : Barring gap) {α : Type} (a : α)
    (meets : Meets gap g g') :
    BodyAlike gap ((groupTail? g).map (a, ·)) ((groupTail? g').map (a, ·)) := by
  have nothing : ∀ {d d' : Cursor}, d.peek? ≠ some openParen → d'.peek? ≠ some openParen →
      BodyAlike gap ((groupTail? d).map (a, ·)) ((groupTail? d').map (a, ·)) := by
    intro d d' noGroup noGroup'
    rw [groupTail?_of_ne noGroup, groupTail?_of_ne noGroup']
    exact .none
  cases meets with
  | barred here here' => exact nothing here.noGroup here'.noGroup
  | name here =>
      obtain ⟨⟨b, y, after_eq, chain⟩, ⟨b', y', after_eq', chain'⟩⟩ := here.peek_ne
      exact nothing (chain_facts after_eq chain).2.1 (chain_facts after_eq' chain').2.1
  | @mark b listed front front' behind =>
      by_cases opens : b = openParen
      · subst opens
        unfold groupTail?
        rcases closeOf?_respelled lawful (.inl rfl) front front' behind with
          ⟨fails, fails'⟩ | ⟨n, n', found, found', aligned⟩
        · rw [fails, fails']
          exact .none
        · rw [found, found']
          simp only [Option.bind_eq_bind, Option.bind_some]
          have noBody : ∀ {d d' : Cursor}, d.peek? ≠ some openBrace → d'.peek? ≠ some openBrace →
              BodyAlike gap ((if d.peek? = some openBrace then some d else none).map (a, ·))
                ((if d'.peek? = some openBrace then some d' else none).map (a, ·)) := by
            intro d d' noBrace noBrace'
            rw [if_neg noBrace, if_neg noBrace']
            exact .none
          cases aligned.meets barring with
          | barred here here' => exact noBody here.noBrace here'.noBrace
          | name here =>
              obtain ⟨⟨b, y, after_eq, chain⟩, ⟨b', y', after_eq', chain'⟩⟩ := here.peek_ne
              exact noBody (chain_facts after_eq chain).2.2.1 (chain_facts after_eq' chain').2.2.1
          | @mark b _ front front' inside =>
              by_cases brace : b = openBrace
              · subst brace
                rw [if_pos front, if_pos front']
                exact .some a front front' inside
              · exact noBody (by simpa [front] using brace) (by simpa [front'] using brace)
      · exact nothing (by simpa [front] using opens) (by simpa [front'] using opens)

theorem NameAlike.wordAlike {r r' : Text} (name : NameAlike gap g g' r r') : WordAlike r r' := by
  have word := name.alike.word
  rwa [wordBefore_reverse name.alike.chain name.noDot,
    wordBefore_reverse name.alike.chain' (mt name.alike.dot_iff.mpr name.noDot)] at word

/-- The name is the word in front, and the whole run of word bytes there. -/
theorem NameAlike.word_eq {r r' : Text} (name : NameAlike gap g g' r r') :
    (g.word = r ∧ g.after.takeWhile isWordPart = r) ∧
      (g'.word = r' ∧ g'.after.takeWhile isWordPart = r') := by
  obtain ⟨t, after_eq, ends⟩ := name.ends
  obtain ⟨t', after_eq', ends'⟩ := name.ends'
  have noDot' := mt name.alike.dot_iff.mpr name.noDot
  have starts' := name.alike.starts name.noDot ▸ name.starts
  rw [Cursor.word, Cursor.word, after_eq, after_eq',
    word_name name.alike.chain name.noDot name.starts ends.noWordPart,
    word_name name.alike.chain' noDot' starts' ends'.noWordPart,
    takeWhile_name name.alike.chain name.noDot ends.noWordPart,
    takeWhile_name name.alike.chain' noDot' ends'.noWordPart]
  exact ⟨⟨rfl, rfl⟩, rfl, rfl⟩

theorem word_eq_nil_of_mark {b : UInt8} (listed : b ∈ [colon, openParen, openBrace])
    (front : g.peek? = some b) : g.word = [] := by
  rw [Cursor.word]
  refine word_eq_nil ?_
  rw [show g.after.head? = some b from front]
  simp only [List.mem_cons, List.not_mem_nil, or_false] at listed
  rcases listed with rfl | rfl | rfl <;> rfl

/-- A keyword is read in both spellings or in neither, unless a header is barred. -/
theorem optionalKeyword_alike (barring : Barring gap) (keyword : Text)
    (meaningful : keyword ∈ meaningfulWords) (parts : keyword.all isWordPart = true)
    (leads : (keyword.head?.any isWordStart) = true) (meets : Meets gap g g') :
    (Barred g ∧ Barred g') ∨
      ((optionalKeyword g keyword).1 = (optionalKeyword g' keyword).1 ∧
        Meets gap (optionalKeyword g keyword).2 (optionalKeyword g' keyword).2) := by
  cases meets with
  | barred here here' => exact .inl ⟨here, here'⟩
  | mark listed front front' behind =>
      rw [optionalKeyword_of_noWord (word_eq_nil_of_mark listed front) leads,
        optionalKeyword_of_noWord (word_eq_nil_of_mark listed front') leads]
      exact .inr ⟨rfl, .mark listed front front' behind⟩
  | @name r r' here =>
      obtain ⟨⟨-, whole⟩, -, whole'⟩ := here.word_eq
      have found_iff : g.hasKeyword keyword = true ↔ g'.hasKeyword keyword = true := by
        rw [Cursor.hasKeyword, Cursor.hasKeyword, hasKeyword_iff parts, hasKeyword_iff parts, whole,
          whole']
        exact here.wordAlike.eq_iff meaningful
      refine .inr ?_
      unfold optionalKeyword
      by_cases found : g.hasKeyword keyword = true
      · have same := (hasKeyword_iff parts).mp found
        have same' := (hasKeyword_iff parts).mp (found_iff.mp found)
        rw [if_pos found, if_pos (found_iff.mp found)]
        rw [whole] at same
        rw [whole'] at same'
        subst same
        have behind := here.behind
        rw [same'] at behind
        exact ⟨rfl, behind.meets barring⟩
      · rw [if_neg found, if_neg (mt found_iff.mpr found)]
        exact ⟨rfl, .name here⟩

theorem methodMarker_of_colon (front : g.peek? = some colon) :
    methodMarker g = ((optionalKeyword (g.advance 1).skipSpace (utf8 "async")).1,
      (optionalKeyword (optionalKeyword (g.advance 1).skipSpace (utf8 "async")).2
        (utf8 "function")).2) := by
  rw [methodMarker, expect?, if_pos front]

/-- Behind a name, both spellings have the tail of a header or neither has. -/
theorem headerTail_alike (lawful : Lawful gap) (barring : Barring gap) {d d' : Cursor}
    (meets : Meets gap d.skipSpace d'.skipSpace) :
    BodyAlike gap (headerTail? d) (headerTail? d') := by
  cases meets with
  | barred here here' =>
      rw [here.headerTail?_eq, here'.headerTail?_eq]
      exact .none
  | name here =>
      obtain ⟨⟨b, y, after_eq, chain⟩, ⟨b', y', after_eq', chain'⟩⟩ := here.peek_ne
      have facts := chain_facts after_eq chain
      have facts' := chain_facts after_eq' chain'
      rw [headerTail?_of_ne facts.1 facts.2.1, headerTail?_of_ne facts'.1 facts'.2.1]
      exact .none
  | @mark b listed front front' behind =>
      unfold headerTail?
      by_cases marked : b = colon
      · subst marked
        rw [methodMarker_of_colon front, methodMarker_of_colon front']
        dsimp only
        rcases optionalKeyword_alike barring (utf8 "async") (by decide) (by decide) (by decide)
            (behind.meets barring) with ⟨here, here'⟩ | ⟨same, meets⟩
        · rw [groupTail?_of_ne here.async, groupTail?_of_ne here'.async]
          exact .none
        rcases optionalKeyword_alike barring (utf8 "function") (by decide) (by decide) (by decide)
            meets with
          ⟨here, here'⟩ | ⟨-, meets'⟩
        · rw [groupTail?_of_ne here.function, groupTail?_of_ne here'.function]
          exact .none
        · rw [same]
          exact groupTail_alike lawful barring _ meets'
      · have noColon : d.skipSpace.peek? ≠ some colon := by simpa [front] using marked
        have noColon' : d'.skipSpace.peek? ≠ some colon := by simpa [front'] using marked
        rw [methodMarker_of_ne_colon noColon, methodMarker_of_ne_colon noColon']
        exact groupTail_alike lawful barring _ (.mark listed front front' behind)

theorem methodName_of_ne (other : c.word ≠ utf8 "async") :
    methodName c = (c.word, false, c.advance c.word.length) := by
  rw [methodName, if_neg other]

/-- The word `async` with no word behind it is itself the name. -/
theorem methodName_of_noWord (alone : (c.advance c.word.length).skipSpace.word = []) :
    methodName c = (c.word, false, c.advance c.word.length) := by
  rw [methodName]
  dsimp only
  split
  · rw [if_neg fun named => named.2 alone]
  · rfl

theorem methodName_of_async (async : c.word = utf8 "async")
    (apart : spaceLength (c.advance c.word.length).after ≠ 0)
    (named : (c.advance c.word.length).skipSpace.word ≠ []) :
    methodName c = ((c.advance c.word.length).skipSpace.word, true,
      (c.advance c.word.length).skipSpace.advance
        (c.advance c.word.length).skipSpace.word.length) := by
  rw [methodName, if_pos async]
  dsimp only
  rw [if_pos ⟨apart, named⟩]

/-- Blanks stand between a word and the chain that is met behind it. -/
theorem spaceLength_ne_zero {w t : Text} (after_eq : c.after = w ++ t) (stops : StopsChain t)
    (front : ∃ b y, (c.advance w.length).skipSpace.after = b :: y ∧ isChain b = true) :
    spaceLength (c.advance w.length).after ≠ 0 := by
  obtain ⟨b, y, met, chain⟩ := front
  intro none
  have behind : (c.advance w.length).after = t := by rw [after_advance, after_eq, List.drop_left]
  rw [skipSpace, none, advance_zero, behind] at met
  have other := stops b (by rw [met]; rfl)
  rw [chain] at other
  cases other

/-- Behind a word, a place that bars a header bars that of the word as well. -/
theorem Barred.methodName_tail (barred : Barred (c.advance c.word.length).skipSpace) :
    headerTail? (methodName c).2.2 = none := by
  unfold methodName
  dsimp only
  split
  · split
    · exact barred.word
    · exact barred.headerTail?_eq
  · exact barred.headerTail?_eq

/-- What a header comes to, as far as it does not depend on names. -/
def headerBody? (c : Cursor) : Option (Bool × Cursor) :=
  (methodHeader? c).map fun head => (head.1.isAsync, head.2)

/-- Names that are both reserved or both not, with tails that are read alike. -/
theorem headerBody_alike_of_tail {n n' : Text} {marked : Bool} {d d' : Cursor}
    (name : methodName c = (n, marked, d)) (name' : methodName c' = (n', marked, d'))
    (alike : WordAlike n n') (tails : BodyAlike gap (headerTail? d) (headerTail? d')) :
    BodyAlike gap (headerBody? c) (headerBody? c') := by
  have reserved : reservedWords.contains n = reservedWords.contains n' :=
    alike.contains_eq fun _ mem => List.mem_append_left _ (List.mem_append_right _ mem)
  rw [headerBody?, headerBody?, methodHeader?_tail, methodHeader?_tail, name, name']
  dsimp only
  rw [reserved]
  split
  · exact .none
  · exact tails.map (marked || ·)

theorem headerBody?_of_tail (none_behind : headerTail? (methodName c).2.2 = none) :
    headerBody? c = none := by
  rw [headerBody?, methodHeader?_tail, none_behind]
  simp

/-- **A header is read in both spellings or in neither.** -/
theorem NameAlike.header (lawful : Lawful gap) (barring : Barring gap) {r r' : Text}
    (name : NameAlike gap c c' r r') : BodyAlike gap (headerBody? c) (headerBody? c') := by
  obtain ⟨⟨word_eq, -⟩, word_eq', -⟩ := name.word_eq
  have meets := name.behind.meets barring
  rw [← word_eq, ← word_eq'] at meets
  have alone : methodName c = (c.word, false, c.advance c.word.length) →
      methodName c' = (c'.word, false, c'.advance c'.word.length) →
        BodyAlike gap (headerBody? c) (headerBody? c') := by
    intro name_eq name_eq'
    refine headerBody_alike_of_tail name_eq name_eq' ?_ (headerTail_alike lawful barring meets)
    rw [word_eq, word_eq']
    exact name.wordAlike
  have async_iff : c.word = utf8 "async" ↔ c'.word = utf8 "async" := by
    rw [word_eq, word_eq']
    exact name.wordAlike.eq_iff (by decide)
  by_cases async : c.word = utf8 "async"
  · have async' := async_iff.mp async
    cases meets with
    | barred here here' =>
        rw [headerBody?_of_tail here.methodName_tail, headerBody?_of_tail here'.methodName_tail]
        exact .none
    | mark listed front front' behind =>
        exact alone (methodName_of_noWord (word_eq_nil_of_mark listed front))
          (methodName_of_noWord (word_eq_nil_of_mark listed front'))
    | @name n n' here =>
        obtain ⟨⟨word, -⟩, word', -⟩ := here.word_eq
        obtain ⟨front, front'⟩ := here.peek_ne
        obtain ⟨t, after_eq, ends⟩ := name.ends
        obtain ⟨t', after_eq', ends'⟩ := name.ends'
        have nonempty : n ≠ [] ∧ n' ≠ [] := by
          have more : n ≠ [] := by
            rintro rfl
            cases here.starts
          exact ⟨more, mt here.alike.nil_iff.mpr more⟩
        have name_eq := methodName_of_async async
          (spaceLength_ne_zero (word_eq.symm ▸ after_eq) ends front) (word.symm ▸ nonempty.1)
        have name_eq' := methodName_of_async async'
          (spaceLength_ne_zero (word_eq'.symm ▸ after_eq') ends' front') (word'.symm ▸ nonempty.2)
        rw [word] at name_eq
        rw [word'] at name_eq'
        exact headerBody_alike_of_tail name_eq name_eq' here.wordAlike
          (headerTail_alike lawful barring (here.behind.meets barring))
  · exact alone (methodName_of_ne async) (methodName_of_ne (mt async_iff.mpr async))

end Header

end ClassUpgrade.Source
