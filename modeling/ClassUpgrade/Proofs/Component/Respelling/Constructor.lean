/-
# Proofs.Component.Respelling.Constructor — constructor calls in two spellings

The rules for constructors hand the engine to the call, and on the way write one
space for the blanks behind `new` and none for those in front of the parenthesis.
A reader of the structure notices this in two cases: when the blanks have held a
line break, which may have ended a comment, and when a block stands behind the
call, which then looks like a method, since its name has lost the namespace.

Otherwise the call is an exchanged stretch (`Engaged`): the parentheses that it
leaves open are the same, and so is what a slash behind it opens. The scan for
entries passes over it in both spellings; in the new one because no block stands
behind the call in the old one (`Hands.noBody`).
-/
import ClassUpgrade.Proofs.Component.Respelling.Rule

namespace ClassUpgrade.Component

set_option autoImplicit false

open Byte Source Source.Cursor

/-! ## A call in two spellings -/

/-- A blank that breaks no line. -/
def isGap (b : UInt8) : Bool := b == space || b == tab || b == formFeed

/-- What stands between the parenthesis of a call and its further arguments, without the engine
and with it. -/
inductive Hands : Text → Text → Prop
  | first : Hands [] (utf8 "this.engine, ")
  | only {b : Text} (gap : ∀ a ∈ b, isGap a = true) :
      Hands (b ++ [closeParen]) (utf8 "this.engine" ++ [closeParen])

/-- The call of a constructor behind its keyword, on one line and with no block behind it. -/
inductive Engaged : Exchange
  | call {b₁ b₂ z z' t t' before : Text} (more : b₁ ≠ []) (gap₁ : ∀ a ∈ b₁, isGap a = true)
      (gap₂ : ∀ a ∈ b₂, isGap a = true) (hands : Hands z z')
      (noBody : groupTail? ⟨before, openParen :: (z ++ t)⟩ = none) :
      Engaged (b₁ ++ (utf8 "WL.Texture" ++ (b₂ ++ openParen :: z)))
        (space :: (utf8 "Texture" ++ openParen :: z')) t t'

/-! ## The exchange is lawful -/

theorem gap_facts {b : UInt8} (gap : isGap b = true) :
    isInert b = true ∧ isIdle b = true ∧ isChain b = false ∧
      b ≠ openParen ∧ b ≠ closeParen := by
  simp only [isGap, Bool.or_eq_true, beq_iff_eq] at gap
  rcases gap with (rfl | rfl) | rfl <;> decide

theorem chain_legacy : ∀ b ∈ utf8 "WL.Texture", isChain b = true := List.all_eq_true.mp (by decide)

theorem chain_texture : ∀ b ∈ utf8 "Texture", isChain b = true := List.all_eq_true.mp (by decide)

theorem chain_engine : ∀ b ∈ utf8 "this.engine", isChain b = true :=
  List.all_eq_true.mp (by decide)

section Hands

variable {z z' t t' : Text}

theorem Hands.inert (hands : Hands z z') :
    (∀ b ∈ z, isInert b = true) ∧ ∀ b ∈ z', isInert b = true := by
  cases hands with
  | first => exact ⟨by simp, List.all_eq_true.mp (by decide)⟩
  | only gap =>
      refine ⟨fun b mem => ?_, List.all_eq_true.mp (by decide)⟩
      rcases List.mem_append.mp mem with blank | closing
      · exact (gap_facts (gap b blank)).1
      · obtain rfl := List.mem_singleton.mp closing
        rfl

/-- Behind the engine a slash opens what it opens behind the parenthesis. -/
theorem Hands.looks (hands : Hands z z') (y y' : Text) :
    Looks (z.reverse ++ openParen :: y) (z'.reverse ++ openParen :: y') := by
  cases hands with
  | first => exact ⟨.inl rfl, rfl, rfl⟩
  | only gap =>
      rw [List.reverse_append, List.reverse_append]
      exact ⟨.inl rfl, rfl, rfl⟩

/-- The call leaves as many parentheses open. -/
theorem Hands.depth (hands : Hands z z') (depth : Nat) : ∃ depth',
    depthBehind .paren (openParen :: z) depth = some depth' ∧
      depthBehind .paren (openParen :: z') depth = some depth' := by
  cases hands with
  | first => exact ⟨depth + 1, rfl, rfl⟩
  | only gap =>
      refine ⟨depth, ?_, rfl⟩
      show depthBehind .paren (_ ++ [closeParen]) (depth + 1) = some depth
      rw [depthBehind_append _ fun b mem => (gap_facts (gap b mem)).2.2.2]
      rfl

end Hands

theorem lawful_engaged : Lawful Engaged where
  old here := by
    obtain ⟨more, gap₁, gap₂, hands, -⟩ := here
    rename_i b₁ b₂ z z' _
    refine ⟨?_, ?_, ?_⟩
    · intro b mem
      simp only [List.mem_append, List.mem_cons] at mem
      rcases mem with blank | name | blank | rfl | argument
      · exact (gap_facts (gap₁ b blank)).1
      · exact isInert_of_isChain (chain_legacy b name)
      · exact (gap_facts (gap₂ b blank)).1
      · rfl
      · exact hands.inert.1 b argument
    · obtain ⟨b, y, rfl⟩ := List.exists_cons_of_ne_nil more
      exact ⟨b, _, rfl, (gap_facts (gap₁ b List.mem_cons_self)).2.2.1⟩
    · exact ⟨openParen, by simp, rfl⟩
  new here := by
    obtain ⟨-, -, -, hands, -⟩ := here
    refine ⟨?_, ⟨space, _, rfl, rfl⟩, ⟨openParen, by simp, rfl⟩⟩
    intro b mem
    simp only [List.mem_append, List.mem_cons] at mem
    rcases mem with rfl | name | rfl | argument
    · rfl
    · exact isInert_of_isChain (chain_texture b name)
    · rfl
    · exact hands.inert.2 b argument
  looks here before before' := by
    obtain ⟨-, -, -, hands, -⟩ := here
    simp only [List.reverse_append, List.reverse_cons, List.append_assoc, List.cons_append,
      List.nil_append]
    exact hands.looks _ _
  depth here depth := by
    obtain ⟨-, gap₁, gap₂, hands, -⟩ := here
    obtain ⟨depth', open_old, open_new⟩ := hands.depth depth
    refine ⟨depth', ?_, open_new⟩
    rw [depthBehind_append _ fun b mem => (gap_facts (gap₁ b mem)).2.2.2,
      depthBehind_append _ fun b mem => noParen_of_isChain (chain_legacy b mem),
      depthBehind_append _ fun b mem => (gap_facts (gap₂ b mem)).2.2.2]
    exact open_old

/-! ## No body behind the call -/

/-- Where the search for the end of a call comes to in the new spelling, it comes to in the old
one. -/
theorem Hands.closes {z z' t t' : Text} (hands : Hands z z') (rest : Respelled Engaged t t')
    (before : Text) {before' : Text} {e' : Cursor}
    (closes : Closes .paren 0 ⟨openParen :: before', z' ++ t'⟩ e') :
    ∃ e, Closes .paren 0 ⟨openParen :: before, z ++ t⟩ e ∧
      Respelled Engaged (e.advance 1).after (e'.advance 1).after := by
  have distinct : Bracket.paren.closing ≠ Bracket.paren.opening := by decide
  cases hands with
  | first =>
      have aligned : Aligned Engaged.flip
          ⟨(utf8 "this.engine, ").reverse ++ openParen :: before', t'⟩ ⟨openParen :: before, t⟩ :=
        ⟨rest.symm, .inr (Hands.first.looks before before').symm⟩
      rw [Closes.append_iff distinct Hands.first.inert.2 rfl] at closes
      obtain ⟨e, closes', behind⟩ := aligned.closes lawful_engaged.flip (.inl rfl) rfl closes
      exact ⟨e, closes', behind.symm.respelled⟩
  | @only b gap =>
      have ends : ∀ {x near y : Text} {d : Cursor}, (∀ a ∈ x, isInert a = true) →
          depthBehind .paren x 0 = some 0 →
            (Closes .paren 0 ⟨near, x ++ (closeParen :: y)⟩ d ↔
              d = ⟨x.reverse ++ near, closeParen :: y⟩) := by
        intro x near y d inert behind
        have plain : literalLength (x.reverse ++ near) (closeParen :: y) = 0 :=
          Source.literalLength_eq_zero (by simp; decide)
        have closing : closeParen = Bracket.paren.closing := rfl
        rw [Closes.append_iff distinct inert behind, closes_cons_iff distinct plain,
          if_neg (by decide), if_pos closing]
        simp
      rw [List.append_assoc] at closes ⊢
      have at_end := (ends (fun a mem => isInert_of_isChain (chain_engine a mem)) rfl).mp closes
      refine ⟨_, (ends (fun a mem => (gap_facts (gap a mem)).1) ?_).mpr rfl, ?_⟩
      · exact depthBehind_of_free fun a mem => (gap_facts (gap a mem)).2.2.2
      · rw [at_end]
        exact rest

/-- **No block stands behind the call in the new spelling** when none stands there in the old. -/
theorem Hands.noBody {z z' t t' before : Text} (hands : Hands z z') (rest : Respelled Engaged t t')
    (noBody : groupTail? ⟨before, openParen :: (z ++ t)⟩ = none) (before' : Text) :
    groupTail? ⟨before', openParen :: (z' ++ t')⟩ = none := by
  rw [groupTail?_eq_none_iff rfl] at noBody ⊢
  intro e' closes' brace
  obtain ⟨e, closes, behind⟩ := hands.closes rest before closes'
  refine noBody e closes ?_
  exact (behind.brace_iff lawful_engaged _ _).mpr brace

/-! ## The exchange bars headers -/

/-- Behind blanks that break no line, a chain of members bars every header. -/
theorem barred_behind_gap {y : Text} (barred : ∀ before, Barred (⟨before, y⟩ : Cursor).skipSpace) :
    ∀ {b : Text} (before : Text), (∀ a ∈ b, isGap a = true) →
      Barred (⟨before, b ++ y⟩ : Cursor).skipSpace
  | [], before, _ => barred before
  | a :: b, before, gap => by
      by_cases blank : isSpace a = true
      · rw [List.cons_append, skipSpace_cons blank]
        exact barred_behind_gap barred _ fun x mem => gap x (List.mem_cons_of_mem _ mem)
      · have feed : a = formFeed := by
          have listed := gap a List.mem_cons_self
          simp only [isGap, Bool.or_eq_true, beq_iff_eq] at listed
          rcases listed with (rfl | rfl) | rfl
          · exact absurd rfl blank
          · exact absurd rfl blank
          · rfl
        subst feed
        rw [skipSpace_of_ne (by simpa [peek?] using blank)]
        exact barred_of_noWord (word_eq_nil rfl) (by simp [peek?]; decide)
          (by simp [peek?]; decide) (by simp [peek?]; decide)
          (by simpa [peek?] using blank)

/-- A group without a body is no tail of a header. -/
theorem headerTail?_of_noBody {before y : Text}
    (noBody : groupTail? ⟨before, openParen :: y⟩ = none) :
    headerTail? ⟨before, openParen :: y⟩ = none := by
  have stays : (⟨before, openParen :: y⟩ : Cursor).skipSpace = ⟨before, openParen :: y⟩ :=
    skipSpace_of_ne (by simp [peek?]; decide)
  rw [headerTail?, stays, methodMarker_of_ne_colon (by simp [peek?]; decide), noBody]
  rfl

theorem word_texture (before y : Text) :
    (⟨before, utf8 "Texture" ++ openParen :: y⟩ : Cursor).word = utf8 "Texture" :=
  word_name chain_texture (by decide) rfl (by simp; decide)

/-- A call without a body bars every header. -/
theorem barred_of_call {y : Text} (noBody : ∀ before, groupTail? ⟨before, openParen :: y⟩ = none)
    (before : Text) : Barred ⟨before, utf8 "Texture" ++ openParen :: y⟩ := by
  have whole : (utf8 "Texture" ++ openParen :: y).takeWhile isWordPart = utf8 "Texture" :=
    takeWhile_name chain_texture (by decide) (by simp; decide)
  have stays : ∀ keyword : Text, keyword.all isWordPart = true → keyword ≠ utf8 "Texture" →
      optionalKeyword ⟨before, utf8 "Texture" ++ openParen :: y⟩ keyword =
        (false, ⟨before, utf8 "Texture" ++ openParen :: y⟩) := by
    intro keyword parts other
    rw [optionalKeyword, if_neg]
    intro found
    rw [Cursor.hasKeyword, hasKeyword_iff parts, whole] at found
    exact other found.symm
  obtain ⟨noColon, noGroup, noBrace, -⟩ :=
    chain_facts (g := ⟨before, utf8 "Texture" ++ openParen :: y⟩) rfl (by decide)
  refine ⟨noColon, noGroup, noBrace, ?_, ?_, ?_⟩
  · rw [word_texture, advance_append]
    exact headerTail?_of_noBody (noBody _)
  · rw [stays _ (by decide) (by decide)]
    exact noGroup
  · rw [stays _ (by decide) (by decide), stays _ (by decide) (by decide)]
    exact noGroup

theorem barring_engaged : Barring Engaged where
  old here rest before := by
    obtain ⟨-, gap₁, -, -, -⟩ := here
    rw [List.append_assoc]
    refine barred_behind_gap (fun near => ?_) before gap₁
    rw [List.append_assoc, skipSpace_run chain_legacy (List.cons_ne_nil _ _)]
    exact barred_of_run chain_legacy (by decide) near _
  new here rest before := by
    obtain ⟨-, -, -, hands, noBody⟩ := here
    rw [List.cons_append, skipSpace_cons rfl, List.append_assoc,
      skipSpace_run chain_texture (List.cons_ne_nil _ _)]
    exact barred_of_call (hands.noBody rest noBody) _

/-! ## The scan passes over the exchange -/

theorem Hands.passes {z z' : Text} (hands : Hands z z') (t : Text) :
    (∀ b ∈ z, isIdle b = true) ∧ Passes z' t := by
  have engine : ∀ y, Passes (utf8 "this.engine") y := fun y before =>
    flagsAt_run chain_engine (List.cons_ne_nil _ _) (.inl (by decide))
  cases hands with
  | first =>
      have comma_space : Passes (utf8 ", ") t := passes_idle (List.all_eq_true.mp (by decide))
      exact ⟨by simp, (engine _).append comma_space⟩
  | only gap =>
      have closing_idle : ∀ b ∈ [closeParen], isIdle b = true := List.all_eq_true.mp (by decide)
      refine ⟨fun b mem => ?_, (engine _).append (passes_idle closing_idle)⟩
      rcases List.mem_append.mp mem with blank | closing
      · exact (gap_facts (gap b blank)).2.1
      · exact closing_idle b closing

/-- The name of a call without a body is passed over, whether a word starts with it or not. -/
theorem passes_call {y : Text} (noBody : ∀ before, groupTail? ⟨before, openParen :: y⟩ = none) :
    Passes (utf8 "Texture") (openParen :: y) := by
  intro before
  have word_eq := word_texture before y
  by_cases starts : (⟨before, utf8 "Texture" ++ openParen :: y⟩ : Cursor).startsWord = true
  · have noHeader : headerBody? ⟨before, utf8 "Texture" ++ openParen :: y⟩ = none := by
      apply headerBody?_of_tail
      rw [methodName_of_ne (by rw [word_eq]; decide), word_eq, advance_append]
      exact headerTail?_of_noBody (noBody _)
    have plain : (⟨before, utf8 "Texture" ++ openParen :: y⟩ : Cursor).literalLength = 0 :=
      literalLength_eq_zero_of_peek? rfl (by decide)
    rw [flagsAt_of_word plain starts, noHeader, word_eq, advance_append]
  · exact flagsAt_run chain_texture (List.cons_ne_nil _ _) (.inr (by simpa using starts))

theorem passable_engaged : Passable Engaged where
  old here rest := by
    obtain ⟨-, gap₁, gap₂, hands, -⟩ := here
    have name : ∀ y, Passes (utf8 "WL.Texture") y := fun y before =>
      flagsAt_run chain_legacy (List.cons_ne_nil _ _) (.inl (by decide))
    refine .append (passes_idle fun b mem => (gap_facts (gap₁ b mem)).2.1) ?_
    refine (name _).append (passes_idle fun b mem => ?_)
    simp only [List.mem_append, List.mem_cons] at mem
    rcases mem with blank | rfl | argument
    · exact (gap_facts (gap₂ b blank)).2.1
    · rfl
    · exact (hands.passes []).1 b argument
  new here rest := by
    obtain ⟨-, -, -, hands, noBody⟩ := here
    rename_i t t' _ _ _ _ _
    have byte : ∀ b ∈ [space, openParen], ∀ y, Passes [b] y := by
      intro b mem y
      refine passes_idle fun a here => ?_
      obtain rfl := List.mem_singleton.mp here
      exact List.all_eq_true.mp (by decide : [space, openParen].all isIdle = true) a mem
    have group := (byte openParen (by simp) _).append (hands.passes t').2
    exact (byte space (by simp) _).append ((passes_call (hands.noBody rest noBody)).append group)

/-! ## Occurrences of a call -/

/-- The text of a call up to its parenthesis, with these blanks. -/
def callText (b₁ b₂ : Text) : Text :=
  utf8 "new" ++ (b₁ ++ (utf8 "WL.Texture" ++ (b₂ ++ [openParen])))

structure CallBlanks (b₁ b₂ : Text) : Prop where
  more : b₁ ≠ []
  behind : ∀ a ∈ b₁, isPatternBlank a = true
  front : ∀ a ∈ b₂, isPatternBlank a = true

/-- The pattern spells the texts of calls, and captures the name of the class. -/
theorem spells_call {x captured : Text} (spells : Spells constructorCall x captured) :
    captured = utf8 "Texture" ∧ ∃ b₁ b₂, CallBlanks b₁ b₂ ∧ x = callText b₁ b₂ := by
  obtain ⟨_, _, _, _, ⟨rfl, rfl⟩, ⟨_, _, _, _, ⟨rfl, rfl⟩, ⟨b₁, _, _, _, ⟨blank₁, least, rfl⟩,
    ⟨_, _, _, _, ⟨rfl, rfl⟩, ⟨_, _, name, _, ⟨listed, rfl⟩, ⟨b₂, _, _, _, ⟨blank₂, -, rfl⟩,
    ⟨_, _, _, _, ⟨rfl, rfl⟩, ⟨rfl, rfl⟩, rfl, rfl⟩, rfl, rfl⟩, rfl, rfl⟩, rfl, rfl⟩, rfl, rfl⟩,
    rfl, rfl⟩,
    rfl, rfl⟩ := spells
  obtain rfl := List.mem_singleton.mp listed
  refine ⟨by simp, b₁, b₂, ⟨?_, blank₁, blank₂⟩, ?_⟩
  · rintro rfl
    cases least
  · simp [callText]
    rfl

/-- A call without arguments is one whose parenthesis is closed behind blanks. -/
theorem spells_bare {x captured : Text} (spells : Spells bareConstructorRule.pattern x captured) :
    captured = utf8 "Texture" ∧ ∃ b₁ b₂ b₃, CallBlanks b₁ b₂ ∧
      (∀ a ∈ b₃, isPatternBlank a = true) ∧ x = callText b₁ b₂ ++ (b₃ ++ [closeParen]) := by
  obtain ⟨_, _, _, _, call, ⟨b₃, _, _, _, ⟨blank₃, -, rfl⟩,
    ⟨_, _, _, _, ⟨rfl, rfl⟩, ⟨rfl, rfl⟩, rfl, rfl⟩,
    rfl, rfl⟩, rfl, rfl⟩ : ∃ x₁ x₂ y₁ y₂, Spells constructorCall x₁ y₁ ∧
      Spells [.blanks 0, .exact (utf8 ")")] x₂ y₂ ∧ x = x₁ ++ x₂ ∧ captured = y₁ ++ y₂ :=
    spells_append spells
  obtain ⟨rfl, b₁, b₂, blanks, rfl⟩ := spells_call call
  refine ⟨by simp, b₁, b₂, b₃, blanks, blank₃, ?_⟩
  simp
  rfl

theorem match?_blanks_append {b y : Text} {least : Nat} (before : Text)
    (blank : ∀ a ∈ b, isPatternBlank a = true) (stop : ∀ a ∈ y.head?, isPatternBlank a = false)
    (enough : least ≤ b.length) :
    (Atom.blanks least).match? ⟨before, b ++ y⟩ = some (b.length, []) := by
  have none : y.takeWhile isPatternBlank = [] := takeWhile_append_of_stop stop []
  simp only [Atom.match?, List.takeWhile_append_of_pos blank, none, List.append_nil, if_pos enough]

theorem match?_exact_append (before t y : Text) :
    (Atom.exact t).match? ⟨before, t ++ y⟩ = some (t.length, []) :=
  match?_exact_iff.mpr ⟨List.prefix_append t y, rfl, rfl⟩

/-- A pattern matches a text when its first atom matches the front and the others what is behind. -/
theorem matchPattern?_append {atom : Atom} {rest : List Atom} {before x y taken more : Text}
    {m : Nat}
    (here : atom.match? ⟨before, x ++ y⟩ = some (x.length, taken))
    (later : matchPattern? ⟨x.reverse ++ before, y⟩ rest = some (m, more)) :
    matchPattern? ⟨before, x ++ y⟩ (atom :: rest) = some (x.length + m, taken ++ more) :=
  matchPattern?_cons_iff.mpr ⟨x.length, m, taken, more, here, by rwa [advance_append], rfl, rfl⟩

theorem facesWord_callText (b₁ b₂ before : Text) :
    facesWord ((callText b₁ b₂).reverse ++ before) = false := by
  simp only [callText, List.reverse_append]
  rfl

/-- A match of the pattern is a call that is not behind a word byte. -/
theorem matchPattern?_call_iff {c : Cursor} {n : Nat} {captured : Text} :
    matchPattern? c constructorCall = some (n, captured) ↔
      facesWord c.before = false ∧ captured = utf8 "Texture" ∧ ∃ b₁ b₂, CallBlanks b₁ b₂ ∧
        callText b₁ b₂ <+: c.after ∧ n = (callText b₁ b₂).length := by
  constructor
  · intro found
    obtain ⟨x, y, after_eq, rfl, spells⟩ := matchPattern?_spells found
    obtain ⟨rfl, b₁, b₂, blanks, rfl⟩ := spells_call spells
    exact ⟨(starts_of_word (by decide) found).2.1, rfl, b₁, b₂, blanks, ⟨y, after_eq.symm⟩, rfl⟩
  · rintro ⟨outside, rfl, b₁, b₂, blanks, ⟨y, after_eq⟩, rfl⟩
    obtain ⟨before, after⟩ := c
    dsimp only at outside after_eq
    subst after_eq
    have after_eq : callText b₁ b₂ ++ y =
        utf8 "new" ++ (b₁ ++ (utf8 "WL." ++ (utf8 "Texture" ++ (b₂ ++ (utf8 "(" ++ y))))) := by
      simp [callText]
      rfl
    have name : ∀ near z : Text, (Atom.oneOf engineConstructors).match?
        ⟨near, utf8 "Texture" ++ z⟩ = some ((utf8 "Texture").length, utf8 "Texture") :=
      fun _ _ => rfl
    have edge : Atom.edge.match? ⟨before, [] ++ (callText b₁ b₂ ++ y)⟩ = some (0, []) := by
      refine match?_edge_iff.mpr ⟨?_, rfl, rfl⟩
      dsimp only
      rw [outside]
      exact Bool.false_ne_true
    have least : 1 ≤ b₁.length := List.length_pos_iff.mpr blanks.more
    have upper : ∀ z, ∀ a ∈ (utf8 "WL." ++ z).head?, isPatternBlank a = false := by
      rintro z a ⟨⟩
      rfl
    have group : ∀ a ∈ (utf8 "(" ++ y).head?, isPatternBlank a = false := by
      rintro a ⟨⟩
      rfl
    have blank₁ := fun near z => match?_blanks_append near blanks.behind (upper z) least
    have blank₂ := fun near => match?_blanks_append near blanks.front group (Nat.zero_le _)
    have ends : ∀ near, matchPattern? ⟨near, y⟩ [] = some (0, []) := fun _ => rfl
    rw [after_eq] at edge ⊢
    have called := fun near => matchPattern?_append (name near _) (matchPattern?_append (blank₂ _)
      (matchPattern?_append (match?_exact_append _ _ _) (ends _)))
    have whole := matchPattern?_append edge (matchPattern?_append (match?_exact_append _ _ _)
      (matchPattern?_append (blank₁ _ _)
        (matchPattern?_append (match?_exact_append _ _ _) (called _))))
    refine whole.trans (congrArg some (Prod.ext ?_ rfl))
    have lengths : (utf8 "WL.Texture").length = (utf8 "WL.").length + (utf8 "Texture").length := rfl
    have paren : (utf8 "(").length = 1 := rfl
    simp only [callText, List.length_append, List.length_nil, List.length_singleton, lengths, paren]
    omega

/-! ## What the original text has to satisfy -/

/-- No occurrence of a constructor call goes over a line break. -/
def OneLine (block : Text) : Prop :=
  ∀ r ∈ [bareConstructorRule, constructorRule], ∀ k ≤ block.length,
    ∀ found ∈ matchPattern? ((start block).advance k) r.pattern,
      lineFeed ∉ ((start block).advance k).after.take found.1 ∧
        carriageReturn ∉ ((start block).advance k).after.take found.1

/-- No block stands behind a constructor call. -/
def Bodyless (block : Text) : Prop :=
  ∀ k ≤ block.length, ∀ found ∈ matchPattern? ((start block).advance k) constructorCall,
    groupTail? (((start block).advance k).advance (found.1 - 1)) = none

instance (block : Text) : Decidable (OneLine block) :=
  inferInstanceAs (Decidable (∀ r ∈ [bareConstructorRule, constructorRule], ∀ k ≤ block.length,
    ∀ found ∈ matchPattern? ((start block).advance k) r.pattern,
      lineFeed ∉ ((start block).advance k).after.take found.1 ∧
        carriageReturn ∉ ((start block).advance k).after.take found.1))

instance (block : Text) : Decidable (Bodyless block) :=
  inferInstanceAs (Decidable (∀ k ≤ block.length,
    ∀ found ∈ matchPattern? ((start block).advance k) constructorCall,
      groupTail? (((start block).advance k).advance (found.1 - 1)) = none))

theorem start_advance_offset (c : Cursor) :
    (start c.text).advance c.offset = c ∧ c.offset ≤ c.text.length := by
  refine ⟨advance_sub (by simp) (Nat.zero_le _), ?_⟩
  rw [Cursor.text, List.length_append, List.length_reverse]
  exact Nat.le_add_right _ _

theorem isGap_of_blank {b : UInt8} (blank : isPatternBlank b = true)
    (oneLine : b ≠ lineFeed ∧ b ≠ carriageReturn) : isGap b = true := by
  have listed := mem_blanks blank
  simp only [List.mem_cons, List.not_mem_nil, or_false] at listed
  rcases listed with rfl | rfl | rfl | rfl | rfl
  · rfl
  · rfl
  · exact absurd rfl oneLine.1
  · rfl
  · exact absurd rfl oneLine.2

theorem OneLine.gap {c : Cursor} (oneLine : OneLine c.text) {r : SymbolRule}
    (listed : r ∈ [bareConstructorRule, constructorRule]) {n : Nat} {captured : Text}
    (found : matchPattern? c r.pattern = some (n, captured)) {b : UInt8} (mem : b ∈ c.after.take n)
    (blank : isPatternBlank b = true) : isGap b = true := by
  obtain ⟨place, le⟩ := start_advance_offset c
  have here := oneLine r listed c.offset le
  rw [place] at here
  obtain ⟨noFeed, noReturn⟩ := here _ found
  refine isGap_of_blank blank ⟨?_, ?_⟩
  · rintro rfl
    exact noFeed mem
  · rintro rfl
    exact noReturn mem

theorem Bodyless.noBody {c : Cursor} (bodyless : Bodyless c.text) {b₁ b₂ y : Text}
    (outside : facesWord c.before = false) (blanks : CallBlanks b₁ b₂)
    (after_eq : c.after = callText b₁ b₂ ++ y) :
    ∃ before, groupTail? ⟨before, openParen :: y⟩ = none := by
  have found := matchPattern?_call_iff.mpr
    ⟨outside, rfl, b₁, b₂, blanks, ⟨y, after_eq.symm⟩, rfl⟩
  obtain ⟨place, le⟩ := start_advance_offset c
  have here := bodyless c.offset le
  rw [place] at here
  have none_read := here _ found
  obtain ⟨before, after⟩ := c
  dsimp only at after_eq none_read
  have split : callText b₁ b₂ ++ y =
      (utf8 "new" ++ (b₁ ++ (utf8 "WL.Texture" ++ b₂))) ++ openParen :: y := by simp [callText]
  have length_eq : (callText b₁ b₂).length - 1 =
      (utf8 "new" ++ (b₁ ++ (utf8 "WL.Texture" ++ b₂))).length := by
    simp only [callText, List.length_append, List.length_singleton]
    omega
  rw [after_eq, split, length_eq, advance_append] at none_read
  exact ⟨_, none_read⟩

/-! ## The rules for constructors, one after the other -/

/-- A text in which no occurrence starts is copied. -/
theorem Applies.copies {r : SymbolRule} : ∀ {p before t : Text} {out : Text × List Import},
    (∀ i < p.length, matchPattern? ((⟨before, p ++ t⟩ : Cursor).advance i) r.pattern = none) →
      Applies r ⟨before, p ++ t⟩ out →
        ∃ out', Applies r ⟨p.reverse ++ before, t⟩ out' ∧ out.1 = p ++ out'.1
  | [], before, t, out, _, applies => ⟨out, applies, rfl⟩
  | b :: p, before, t, out, free, applies => by
      cases applies with
      | finish done => cases done
      | replace _ found _ =>
          have none_here := free 0 (Nat.zero_lt_succ _)
          rw [advance_zero, found] at none_here
          cases none_here
      | @copy _ a text imports front _ rest =>
          obtain rfl : b = a := Option.some.inj front
          have free' : ∀ i < p.length,
              matchPattern? ((⟨b :: before, p ++ t⟩ : Cursor).advance i) r.pattern = none := by
            intro i less
            have later := free (i + 1) (Nat.succ_lt_succ less)
            rwa [List.cons_append, advance_cons] at later
          obtain ⟨out', rest', text_eq⟩ := copies free' rest
          exact ⟨out', by simpa using rest', congrArg _ text_eq⟩

/-- A call that has the engine is no occurrence, and none starts inside. -/
theorem call_eq_none (before t : Text) : ∀ i < (utf8 "new Texture(this.engine)").length,
    matchPattern? ((⟨before, utf8 "new Texture(this.engine)" ++ t⟩ : Cursor).advance i)
      constructorRule.pattern = none := by
  intro i less
  cases found : matchPattern? ((⟨before, utf8 "new Texture(this.engine)" ++ t⟩ : Cursor).advance i)
      constructorRule.pattern with
  | none => rfl
  | some first =>
      exfalso
      obtain ⟨-, -, b₁, b₂, blanks, leads, -⟩ := matchPattern?_call_iff.mp found
      rw [after_advance, List.drop_append_of_le_length (Nat.le_of_lt less)] at leads
      cases i with
      | zero =>
          -- behind the blank stands the name, without its namespace
          obtain ⟨a, b, rfl⟩ := List.exists_cons_of_ne_nil blanks.more
          have behind : b ++ (utf8 "WL.Texture" ++ (b₂ ++ [openParen])) <+:
              utf8 "Texture(this.engine)" ++ t := by
            have tail := (List.prefix_append_right_inj (utf8 "new")).mp leads
            exact (List.cons_prefix_cons.mp tail).2
          cases b with
          | nil => exact absurd (List.cons_prefix_cons.mp behind).1 (by decide)
          | cons a' b =>
              obtain rfl := (List.cons_prefix_cons.mp behind).1
              have blank := blanks.behind _ (List.mem_cons_of_mem _ List.mem_cons_self)
              cases blank
      | succ i =>
          have apart := not_leads_of_apart (p := utf8 "new")
            (e := (utf8 "new Texture(this.engine)").drop 1) (by decide) i
            (Nat.lt_of_succ_lt_succ less) t
          apply apart
          rw [List.drop_drop, Nat.add_comm]
          exact (List.prefix_append _ _).trans leads

/-- A call is read on in the two spellings. -/
theorem runsOn_call {c : Cursor} {x x' b₁ b₂ z z' y y' : Text} (alike : RunAlike x x')
    (bodyless : Bodyless c.text) (outside : facesWord c.before = false) (blanks : CallBlanks b₁ b₂)
    (gap : ∀ b ∈ callText b₁ b₂, isPatternBlank b = true → isGap b = true) (hands : Hands z z')
    (after_eq : c.after = callText b₁ b₂ ++ (z ++ y)) (rest : RunsOn Engaged [] [] y y') :
    RunsOn Engaged x x' c.after
      (utf8 "new" ++ (space :: (utf8 "Texture" ++ openParen :: z') ++ y')) := by
  obtain ⟨near, noBody⟩ := bodyless.noBody outside blanks after_eq
  have gap₁ : ∀ a ∈ b₁, isGap a = true := by
    intro a mem
    refine gap a ?_ (blanks.behind a mem)
    simp [callText, mem]
  have gap₂ : ∀ a ∈ b₂, isGap a = true := by
    intro a mem
    refine gap a ?_ (blanks.front a mem)
    simp [callText, mem]
  have engaged : Engaged _ _ y y' := .call blanks.more gap₁ gap₂ hands noBody
  have word : RunAlike (utf8 "new") (utf8 "new") := .refl (List.all_eq_true.mp (by decide))
  have whole := (RunsOn.stretch lawful_engaged (alike.append word) engaged rest).append
  have split : c.after = utf8 "new" ++
      (b₁ ++ (utf8 "WL.Texture" ++ (b₂ ++ openParen :: z)) ++ y) := by
    rw [after_eq]
    simp [callText]
  rwa [split]

/-- A call in a text that is copied up to there stands in the original as well. -/
theorem Applies.call_kept {c : Cursor} {b : UInt8} {text : Text} {imports : List Import}
    {b₁ b₂ : Text} (front : c.peek? = some b)
    (rest : Applies bareConstructorRule (c.advance 1) (text, imports)) (blanks : CallBlanks b₁ b₂)
    (leads : callText b₁ b₂ <+: b :: text) :
    ∃ out, Applies bareConstructorRule (c.advance (callText b₁ b₂).length) out ∧
      b :: text = callText b₁ b₂ ++ out.1 ∧ callText b₁ b₂ <+: c.after := by
  obtain ⟨tail, after_eq⟩ := peek?_eq_some_iff.mp front
  have tail_eq : (c.advance 1).after = tail := by simp [after_advance, after_eq]
  obtain ⟨x, text_eq⟩ : ∃ x, callText b₁ b₂ = 0x6e :: x := ⟨_, rfl⟩
  have clear : Clear x := by
    refine clear_of_free fun mem => ?_
    have solid : ∀ {y : Text}, (∀ a ∈ y, isPatternBlank a = true) → (0x6e : UInt8) ∉ y := by
      intro y blank inside
      cases blank _ inside
    have x_eq : x = utf8 "ew" ++ (b₁ ++ (utf8 "WL.Texture" ++ (b₂ ++ [openParen]))) :=
      (List.cons_eq_cons.mp text_eq).2.symm
    simp only [x_eq, List.mem_append] at mem
    rcases mem with word | blank | name | blank | paren
    · exact absurd word (by decide)
    · exact solid blanks.behind blank
    · exact absurd name (by decide)
    · exact solid blanks.front blank
    · exact absurd paren (by decide)
  rw [text_eq] at leads ⊢
  obtain ⟨rfl, leads'⟩ := List.cons_prefix_cons.mp leads
  obtain ⟨copied, out, rest', rfl⟩ := rest.passes renews_bareConstructorRule x clear (.inr leads')
  refine ⟨out, ?_, rfl, ?_⟩
  · rwa [List.length_cons, Nat.add_comm, ← advance_advance]
  · rw [after_eq, List.cons_prefix_cons]
    exact ⟨rfl, tail_eq ▸ copied⟩

/-- **The rules for constructors respell a text** whose calls stand on one line and have no block
behind them. The second rule finds what the first has left: in the text between its occurrences,
which is copied, and nowhere in what it has put in. -/
theorem constructors_respelled {m : Nat} {c : Cursor} {out out' : Text × List Import}
    {before' : Text} (oneLine : OneLine c.text) (bodyless : Bodyless c.text)
    (length : c.after.length = m) (bare : Applies bareConstructorRule c out)
    (call : Applies constructorRule ⟨before', out.1⟩ out')
    (same : facesWord before' = facesWord c.before) :
    ∀ x x', RunAlike x x' → RunsOn Engaged x x' c.after out'.1 := by
  induction m using Nat.strongRecOn generalizing c out out' before' with
  | _ m ih =>
    have later : ∀ n, 0 < n → c.after ≠ [] → ∀ {near : Text} {mid final : Text × List Import},
        Applies bareConstructorRule (c.advance n) mid → Applies constructorRule ⟨near, mid.1⟩ final →
          facesWord near = facesWord (c.advance n).before →
            ∀ x x', RunAlike x x' → RunsOn Engaged x x' (c.advance n).after final.1 := by
      intro n pos more near mid final
      have shorter : (c.advance n).after.length < m := length ▸ length_after_lt pos more
      have text_eq : (c.advance n).text = c.text := text_advance c n
      exact ih _ shorter (text_eq ▸ oneLine) (text_eq ▸ bodyless) rfl
    intro x x' alike
    cases bare with
    | finish done =>
        cases call with
        | finish _ =>
            rw [done]
            exact runsOn_nil alike
        | replace more _ _ => exact absurd rfl more
        | copy front _ _ => cases front
    | @replace _ n captured text imports more found rest =>
        -- what the first rule has put in is copied by the second
        obtain ⟨occurrence, y, after_eq, rfl, spells⟩ := matchPattern?_spells found
        obtain ⟨rfl, b₁, b₂, b₃, blanks, blank₃, rfl⟩ := spells_bare spells
        obtain ⟨pos, outside, -⟩ := starts_of_word (by decide) found
        have gap : ∀ b ∈ callText b₁ b₂ ++ (b₃ ++ [closeParen]), isPatternBlank b = true →
            isGap b = true := by
          intro b mem
          refine oneLine.gap List.mem_cons_self found ?_
          rwa [after_eq, List.take_left]
        have put_in : Applies constructorRule
            ⟨before', utf8 "new Texture(this.engine)" ++ text⟩ out' := call
        obtain ⟨out₂, call', out_eq⟩ := put_in.copies (call_eq_none before' text)
        have face : facesWord ((utf8 "new Texture(this.engine)").reverse ++ before') =
            facesWord (c.advance (callText b₁ b₂ ++ (b₃ ++ [closeParen])).length).before :=
          (renews_bareConstructorRule.occurrence found).2.2.2.symm
        rw [Nat.max_eq_left pos] at rest
        have behind := later _ pos more rest call' face [] [] .nil
        rw [after_advance, after_eq, List.drop_left] at behind
        have hands : Hands (b₃ ++ [closeParen]) (utf8 "this.engine" ++ [closeParen]) := by
          refine .only fun a mem => gap a ?_ (blank₃ a mem)
          simp [mem]
        rw [List.append_assoc] at after_eq
        rw [out_eq]
        exact runsOn_call alike bodyless outside blanks
          (fun b mem => gap b (List.mem_append_left _ mem)) hands after_eq behind
    | @copy _ b text imports front other rest =>
        obtain ⟨tail, after_eq⟩ := peek?_eq_some_iff.mp front
        have more := ne_nil_of_peek? front
        cases call with
        | finish done => cases done
        | @replace _ n captured text' imports' _ found rest' =>
            obtain ⟨outside, rfl, b₁, b₂, blanks, leads, rfl⟩ := matchPattern?_call_iff.mp found
            obtain ⟨out₂, rest₂, text_eq, leads'⟩ := Applies.call_kept front rest blanks leads
            obtain ⟨y, after_eq'⟩ := leads'
            have outside' : facesWord c.before = false := same ▸ outside
            have found' : matchPattern? c constructorRule.pattern = some (_, _) :=
              matchPattern?_call_iff.mpr
                ⟨outside', rfl, b₁, b₂, blanks, ⟨y, after_eq'⟩, rfl⟩
            have pos : 0 < (callText b₁ b₂).length := Nat.zero_lt_succ _
            dsimp only at rest'
            rw [Nat.max_eq_left pos, text_eq, advance_append] at rest'
            have face : facesWord ((callText b₁ b₂).reverse ++ before') =
                facesWord (c.advance (callText b₁ b₂).length).before := by
              rw [facesWord_callText]
              exact (renews_constructorRule.occurrence found').2.2.2.symm
            have behind := later _ pos more rest₂ rest' face [] [] .nil
            rw [after_advance, ← after_eq', List.drop_left] at behind
            refine runsOn_call alike bodyless outside' blanks (fun b mem => ?_) .first
              after_eq'.symm behind
            refine oneLine.gap (by simp) found' ?_
            rwa [← after_eq', List.take_left]
        | @copy _ a text' imports' front' other' rest' =>
            obtain rfl : b = a := Option.some.inj front'
            have face : facesWord (b :: before') = facesWord (c.advance 1).before := by
              simp [advance, after_eq, facesWord]
            have onward := later 1 Nat.one_pos more rest rest' face
            rw [after_advance, after_eq] at onward
            rw [after_eq]
            exact .cons b alike onward

end ClassUpgrade.Component
