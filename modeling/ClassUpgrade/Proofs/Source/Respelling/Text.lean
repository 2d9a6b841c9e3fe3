/-
# Proofs.Source.Respelling.Text — one structure in two spellings

Two texts can be read alike although they are not the same: the one has another
name where the other has a name without a meaning to the scanners, or a longer
chain of members. `Respelled gap t t'` says that two texts are the same byte by
byte, but for maximal runs of names and dots (`RunAlike`) and for stretches that
a parameter `gap` exchanges. A gap is read in its surroundings, so the parameter
is about what follows on the two sides as well.

What a scanner sees of the bytes before a place is whether a word can start,
whether a slash opens a regular expression, and which word is ending there
(`Looks`). It is kept along alike runs (`RunAlike.looks`).

* `Respelled.symm`: the relation with its sides exchanged;
* `Piece.looks`: behind an exchanged piece, both sides are looked back upon alike.
-/
import ClassUpgrade.Proofs.Source.Method
import ClassUpgrade.Proofs.Source.Within

namespace ClassUpgrade.Source

set_option autoImplicit false

open Byte Cursor

/-! ## Words with a meaning -/

/-- The words that decide how script text is read. -/
def meaningfulWords : List Text := expressionKeywords ++ reservedWords ++ [utf8 "async"]

/-- A text that is part of no word with a meaning. -/
def Foreign (w : Text) : Prop := ∀ k ∈ meaningfulWords, ¬ w <:+: k

instance (w : Text) : Decidable (Foreign w) :=
  inferInstanceAs (Decidable (∀ k ∈ meaningfulWords, ¬ w <:+: k))

/-- Words that are read alike: the same word, or two words without a meaning, whatever is written
before them and behind. -/
def WordAlike (w w' : Text) : Prop := w = w' ∨ (Foreign w ∧ Foreign w')

theorem Foreign.of_infix {v w : Text} (foreign : Foreign v) (inside : v <:+: w) : Foreign w :=
  fun k mem within => foreign k mem (inside.trans within)

theorem WordAlike.refl (w : Text) : WordAlike w w := .inl rfl

theorem WordAlike.symm {w w' : Text} (alike : WordAlike w w') : WordAlike w' w :=
  alike.imp Eq.symm And.symm

theorem WordAlike.append {v v' w w' : Text} (front : WordAlike v v') (back : WordAlike w w') :
    WordAlike (v ++ w) (v' ++ w') := by
  have left : ∀ x y : Text, Foreign x → Foreign (x ++ y) :=
    fun x y foreign => foreign.of_infix (List.infix_append' [] x y)
  have right : ∀ x y : Text, Foreign y → Foreign (x ++ y) :=
    fun x y foreign => foreign.of_infix (List.suffix_append x y).isInfix
  rcases front with rfl | ⟨foreign, foreign'⟩
  · rcases back with rfl | ⟨foreign, foreign'⟩
    · exact .inl rfl
    · exact .inr ⟨right _ _ foreign, right _ _ foreign'⟩
  · exact .inr ⟨left _ _ foreign, left _ _ foreign'⟩

theorem WordAlike.eq_iff {w w' k : Text} (alike : WordAlike w w') (mem : k ∈ meaningfulWords) :
    w = k ↔ w' = k := by
  rcases alike with rfl | ⟨foreign, foreign'⟩
  · exact Iff.rfl
  · refine iff_of_false ?_ ?_
    · rintro rfl
      exact foreign _ mem List.infix_rfl
    · rintro rfl
      exact foreign' _ mem List.infix_rfl

theorem WordAlike.contains_eq {w w' : Text} {words : List Text} (alike : WordAlike w w')
    (subset : ∀ k ∈ words, k ∈ meaningfulWords) : words.contains w = words.contains w' := by
  rw [Bool.eq_iff_iff, List.contains_iff_mem, List.contains_iff_mem]
  constructor
  · intro mem
    exact ((alike.eq_iff (subset w mem)).mp rfl) ▸ mem
  · intro mem
    exact ((alike.eq_iff (subset w' mem)).mpr rfl) ▸ mem

theorem Foreign.ne_nil {w : Text} (foreign : Foreign w) : w ≠ [] := by
  rintro rfl
  exact foreign (utf8 "async") (by decide) List.nil_infix

/-! ## Looking back -/

/-- A byte of a name or of a chain of members. -/
def isChain (b : UInt8) : Bool := isWordPart b || b == dot

/-- The word that is ending at a place, of which `before` (reversed) is what lies before. -/
def wordBefore (before : Text) : Text := (before.takeWhile isWordPart).reverse

/-- What lies before a place looks the same to the scanners. -/
structure Looks (before before' : Text) : Prop where
  word : WordAlike (wordBefore before) (wordBefore before')
  wordStart : atWordStart before = atWordStart before'
  regex : regexAllowed before = regexAllowed before'

theorem Looks.refl (before : Text) : Looks before before := ⟨.refl _, rfl, rfl⟩

theorem Looks.symm {before before' : Text} (looks : Looks before before') :
    Looks before' before := ⟨looks.word.symm, looks.wordStart.symm, looks.regex.symm⟩

theorem wordBefore_cons (b : UInt8) (before : Text) :
    wordBefore (b :: before) = if isWordPart b then wordBefore before ++ [b] else [] := by
  unfold wordBefore
  split
  · rename_i part
    rw [List.takeWhile_cons_of_pos part, List.reverse_cons]
  · rename_i other
    rw [List.takeWhile_cons_of_neg other]
    rfl

theorem regexAllowed_cons (b : UInt8) (before : Text) :
    regexAllowed (b :: before) =
      if isSpace b then regexAllowed before
      else if expressionOperators.contains b then true
      else if isWordPart b then expressionKeywords.contains (wordBefore (b :: before))
      else false := by
  by_cases blank : isSpace b = true
  · rw [if_pos blank, regexAllowed, List.dropWhile_cons_of_pos blank]
    rfl
  · rw [if_neg blank, regexAllowed, List.dropWhile_cons_of_neg blank]
    rfl

theorem expressionKeywords_meaningful : ∀ k ∈ expressionKeywords, k ∈ meaningfulWords :=
  fun _ mem => List.mem_append_left _ (List.mem_append_left _ mem)

theorem Looks.cons {before before' : Text} (looks : Looks before before') (b : UInt8) :
    Looks (b :: before) (b :: before') := by
  have word : WordAlike (wordBefore (b :: before)) (wordBefore (b :: before')) := by
    rw [wordBefore_cons, wordBefore_cons]
    split
    · exact looks.word.append (.refl _)
    · exact .refl _
  refine ⟨word, rfl, ?_⟩
  rw [regexAllowed_cons, regexAllowed_cons, looks.regex,
    word.contains_eq expressionKeywords_meaningful]

/-- Right behind a chain, a slash opens a regular expression only for its last word. -/
theorem regexAllowed_of_chain {b : UInt8} {before : Text} (chain : isChain b = true) :
    regexAllowed (b :: before) = expressionKeywords.contains (wordBefore (b :: before)) := by
  have noSpace : isSpace b = false := by
    cases blank : isSpace b with
    | false => rfl
    | true =>
        simp only [isChain, isWordPart_of_isSpace blank, Bool.false_or, beq_iff_eq] at chain
        rw [chain] at blank
        cases blank
  have noOperator : expressionOperators.contains b = false := by
    cases operator : expressionOperators.contains b with
    | false => rfl
    | true =>
        have listed := List.contains_iff_mem.mp operator
        simp only [isChain, (plain_of_operator listed).2.1, Bool.false_or, beq_iff_eq] at chain
        rw [chain] at listed
        exact absurd listed (by decide)
  rw [regexAllowed_cons, noSpace, noOperator]
  by_cases part : isWordPart b = true
  · simp [part]
  · have noWord : wordBefore (b :: before) = [] := by rw [wordBefore_cons, if_neg part]
    rw [noWord, if_neg part]
    rfl

/-! ## Runs of names and dots -/

/-- Nothing, or a text that no chain of members goes on with. -/
def StopsChain (t : Text) : Prop := ∀ b ∈ t.head?, isChain b = false

/-- Runs of names and dots that are read alike: both have a dot or neither has one, their last
words are alike, and a run without a dot is a name on both sides or on neither. -/
structure RunAlike (r r' : Text) : Prop where
  chain : ∀ b ∈ r, isChain b = true
  chain' : ∀ b ∈ r', isChain b = true
  nil_iff : r = [] ↔ r' = []
  dot_iff : dot ∈ r ↔ dot ∈ r'
  word : WordAlike (wordBefore r.reverse) (wordBefore r'.reverse)
  starts : dot ∉ r → r.head?.any isWordStart = r'.head?.any isWordStart

theorem RunAlike.symm {r r' : Text} (alike : RunAlike r r') : RunAlike r' r where
  chain := alike.chain'
  chain' := alike.chain
  nil_iff := alike.nil_iff.symm
  dot_iff := alike.dot_iff.symm
  word := alike.word.symm
  starts noDot := (alike.starts (mt alike.dot_iff.mp noDot)).symm

/-- A byte of a chain that is not its dot is part of a name. -/
theorem isWordPart_of_isChain {b : UInt8} (chain : isChain b = true) (noDot : b ≠ dot) :
    isWordPart b = true := by
  simpa [isChain, noDot] using chain

theorem isWordPart_dot : isWordPart dot = false := by decide

/-- The word that is ending behind a run: with a dot, the one behind its last dot. -/
theorem wordBefore_append {r before : Text} (chain : ∀ b ∈ r, isChain b = true) :
    wordBefore (r.reverse ++ before) =
      if dot ∈ r then wordBefore r.reverse else wordBefore before ++ r := by
  split
  · rename_i dotted
    obtain ⟨x, y, rfl⟩ := List.append_of_mem dotted
    have stop : ∀ z : Text, (y.reverse ++ dot :: z).takeWhile isWordPart =
        y.reverse.takeWhile isWordPart := fun z =>
      takeWhile_append_of_stop (by simp [isWordPart_dot]) y.reverse
    simp [wordBefore, stop]
  · rename_i noDot
    have parts : ∀ b ∈ r.reverse, isWordPart b = true := by
      intro b mem
      rw [List.mem_reverse] at mem
      exact isWordPart_of_isChain (chain b mem) fun same => noDot (same ▸ mem)
    rw [wordBefore, List.takeWhile_append_of_pos parts, List.reverse_append, List.reverse_reverse]
    rfl

theorem wordBefore_reverse {r : Text} (chain : ∀ b ∈ r, isChain b = true) (noDot : dot ∉ r) :
    wordBefore r.reverse = r := by
  have whole : wordBefore (r.reverse ++ []) = _ := wordBefore_append chain
  rwa [List.append_nil, if_neg noDot] at whole

/-- Behind runs that are read alike, both sides are looked back upon alike; with a dot in them
whatever is in front. -/
theorem RunAlike.looks {r r' before before' : Text} (alike : RunAlike r r') (more : r ≠ [])
    (looks : dot ∈ r ∨ Looks before before') : Looks (r.reverse ++ before) (r'.reverse ++ before') := by
  have word : WordAlike (wordBefore (r.reverse ++ before)) (wordBefore (r'.reverse ++ before')) := by
    rw [wordBefore_append alike.chain, wordBefore_append alike.chain']
    by_cases dotted : dot ∈ r
    · rw [if_pos dotted, if_pos (alike.dot_iff.mp dotted)]
      exact alike.word
    · have noDot' := mt alike.dot_iff.mpr dotted
      have whole := alike.word
      rw [wordBefore_reverse alike.chain dotted, wordBefore_reverse alike.chain' noDot'] at whole
      rw [if_neg dotted, if_neg noDot']
      exact (looks.resolve_left dotted).word.append whole
  have last : ∀ {s : Text}, s ≠ [] → (∀ b ∈ s, isChain b = true) → ∀ y, ∃ b z,
      s.reverse ++ y = b :: z ∧ isChain b = true := by
    intro s ne_nil chain y
    obtain ⟨b, z, reverse_eq⟩ := List.exists_cons_of_ne_nil (mt List.reverse_eq_nil_iff.mp ne_nil)
    refine ⟨b, z ++ y, by rw [reverse_eq]; rfl, chain b ?_⟩
    rw [← List.mem_reverse, reverse_eq]
    exact List.mem_cons_self
  obtain ⟨b, z, eq, chain⟩ := last more alike.chain before
  obtain ⟨b', z', eq', chain'⟩ := last (mt alike.nil_iff.mpr more) alike.chain' before'
  rw [eq, eq'] at word ⊢
  have noStart : ∀ {x : UInt8}, isChain x = true → ∀ y, atWordStart (x :: y) = false := by
    intro x chain y
    simp only [isChain, Bool.or_eq_true, beq_iff_eq] at chain
    rcases chain with part | rfl
    · simp [atWordStart, part]
    · rfl
  refine ⟨word, ?_, ?_⟩
  · rw [noStart chain, noStart chain']
  · rw [regexAllowed_of_chain chain, regexAllowed_of_chain chain',
      word.contains_eq expressionKeywords_meaningful]

theorem RunAlike.refl {r : Text} (chain : ∀ b ∈ r, isChain b = true) : RunAlike r r :=
  ⟨chain, chain, Iff.rfl, Iff.rfl, .refl _, fun _ => rfl⟩

theorem RunAlike.nil : RunAlike [] [] := .refl (by simp)

/-- Chains with a dot are alike when their last words are. -/
theorem RunAlike.ofDotted {r r' : Text} (chain : ∀ b ∈ r, isChain b = true)
    (chain' : ∀ b ∈ r', isChain b = true) (dotted : dot ∈ r) (dotted' : dot ∈ r')
    (word : WordAlike (wordBefore r.reverse) (wordBefore r'.reverse)) : RunAlike r r' where
  chain := chain
  chain' := chain'
  nil_iff := iff_of_false (List.ne_nil_of_mem dotted) (List.ne_nil_of_mem dotted')
  dot_iff := iff_of_true dotted dotted'
  word := word
  starts noDot := absurd dotted noDot

/-- Alike runs one behind the other. -/
theorem RunAlike.append {r r' s s' : Text} (front : RunAlike r r') (back : RunAlike s s') :
    RunAlike (r ++ s) (r' ++ s') where
  chain b mem := (List.mem_append.mp mem).elim (front.chain b) (back.chain b)
  chain' b mem := (List.mem_append.mp mem).elim (front.chain' b) (back.chain' b)
  nil_iff := by rw [List.append_eq_nil_iff, List.append_eq_nil_iff, front.nil_iff, back.nil_iff]
  dot_iff := by rw [List.mem_append, List.mem_append, front.dot_iff, back.dot_iff]
  word := by
    rw [List.reverse_append, List.reverse_append, wordBefore_append back.chain,
      wordBefore_append back.chain']
    by_cases dotted : dot ∈ s
    · rw [if_pos dotted, if_pos (back.dot_iff.mp dotted)]
      exact back.word
    · have noDot' := mt back.dot_iff.mpr dotted
      have whole := back.word
      rw [wordBefore_reverse back.chain dotted, wordBefore_reverse back.chain' noDot'] at whole
      rw [if_neg dotted, if_neg noDot']
      exact front.word.append whole
  starts noDot := by
    rw [List.mem_append, not_or] at noDot
    cases r with
    | nil =>
        obtain rfl := front.nil_iff.mp rfl
        exact back.starts noDot.2
    | cons b r =>
        obtain ⟨b', r', rfl⟩ := List.exists_cons_of_ne_nil (mt front.nil_iff.mpr (by simp))
        exact front.starts noDot.1

/-- What is left of alike runs from a dot on is alike. -/
theorem RunAlike.behind {w w' m m' : Text} (alike : RunAlike (w ++ dot :: m) (w' ++ dot :: m')) :
    RunAlike (dot :: m) (dot :: m') where
  chain b mem := alike.chain b (List.mem_append_right _ mem)
  chain' b mem := alike.chain' b (List.mem_append_right _ mem)
  nil_iff := by simp
  dot_iff := by simp
  word := by
    have last : ∀ {v n : Text}, (∀ b ∈ v ++ dot :: n, isChain b = true) →
        wordBefore (v ++ dot :: n).reverse = wordBefore (dot :: n).reverse := by
      intro v n chain
      rw [List.reverse_append, wordBefore_append fun b mem => chain b (List.mem_append_right _ mem),
        if_pos List.mem_cons_self]
    have whole := alike.word
    rwa [last alike.chain, last alike.chain'] at whole
  starts noDot := absurd List.mem_cons_self noDot

/-! ## Pieces that are exchanged -/

/-- A byte that neither opens nor ends a literal, a scope or a line. -/
def isInert (b : UInt8) : Bool :=
  isChain b || [space, tab, formFeed, openParen, closeParen, comma].contains b

theorem ne_of_isInert {b c : UInt8} (inert : isInert b = true) (other : isInert c = false) :
    b ≠ c := by
  rintro rfl
  rw [inert] at other
  cases other

theorem isInert_of_isChain {b : UInt8} (chain : isChain b = true) : isInert b = true := by
  simp [isInert, chain]

theorem noParen_of_isChain {b : UInt8} (chain : isChain b = true) :
    b ≠ Bracket.paren.opening ∧ b ≠ Bracket.paren.closing := by
  constructor
  · rintro rfl
    cases chain
  · rintro rfl
    cases chain

/-- How many brackets of a kind are open behind a text of plain bytes, unless it closes one more
than are open. -/
def depthBehind (kind : Bracket) : Text → Nat → Option Nat
  | [], depth => some depth
  | b :: rest, depth =>
    if b = kind.opening then depthBehind kind rest (depth + 1)
    else if b = kind.closing then
      match depth with
      | 0 => none
      | depth + 1 => depthBehind kind rest depth
    else depthBehind kind rest depth

/-- Bytes that are no brackets of the kind change nothing. -/
theorem depthBehind_append {kind : Bracket} {depth : Nat} (t : Text) : ∀ {x : Text},
    (∀ b ∈ x, b ≠ kind.opening ∧ b ≠ kind.closing) →
      depthBehind kind (x ++ t) depth = depthBehind kind t depth
  | [], _ => rfl
  | b :: x, free => by
      obtain ⟨noOpening, noClosing⟩ := free b List.mem_cons_self
      simp only [List.cons_append, depthBehind, if_neg noOpening, if_neg noClosing]
      exact depthBehind_append t fun a mem => free a (List.mem_cons_of_mem _ mem)

theorem depthBehind_of_free {kind : Bracket} {depth : Nat} {t : Text}
    (free : ∀ b ∈ t, b ≠ kind.opening ∧ b ≠ kind.closing) :
    depthBehind kind t depth = some depth := by
  have whole : depthBehind kind (t ++ []) depth = some depth := depthBehind_append [] free
  rwa [List.append_nil] at whole

/-- A stretch in front of one text that may stand for another stretch in front of another text. -/
abbrev Exchange := Text → Text → Text → Text → Prop

def Exchange.flip (gap : Exchange) : Exchange := fun old new t t' => gap new old t' t

/-- A stretch between names, of bytes that are no structure but parentheses, and not all blanks. -/
structure Stretch (t : Text) : Prop where
  inert : ∀ b ∈ t, isInert b = true
  opens : ∃ b rest, t = b :: rest ∧ isChain b = false
  solid : ∃ b ∈ t, isSpace b = false

/-- What an exchange of stretches keeps: both are looked back upon alike, and leave the same
parentheses open. -/
structure Lawful (gap : Exchange) : Prop where
  old : ∀ {old new t t' : Text}, gap old new t t' → Stretch old
  new : ∀ {old new t t' : Text}, gap old new t t' → Stretch new
  looks : ∀ {old new t t' : Text}, gap old new t t' → ∀ before before',
    Looks (old.reverse ++ before) (new.reverse ++ before')
  depth : ∀ {old new t t' : Text}, gap old new t t' → ∀ depth, ∃ depth',
    depthBehind .paren old depth = some depth' ∧ depthBehind .paren new depth = some depth'

theorem Lawful.flip {gap : Exchange} (lawful : Lawful gap) : Lawful gap.flip where
  old here := lawful.new here
  new here := lawful.old here
  looks here before before' := (lawful.looks here before' before).symm
  depth here depth := (lawful.depth here depth).imp fun _ => And.symm

/-- A piece in front of a text that stands for another piece in front of another text: a maximal
run that is read alike, or a stretch that is exchanged. -/
inductive Piece (gap : Exchange) : Exchange
  | run {r r' t t' : Text} (alike : RunAlike r r') (more : r ≠ []) (ends : StopsChain t)
      (ends' : StopsChain t') : Piece gap r r' t t'
  | stretch {old new t t' : Text} (here : gap old new t t') : Piece gap old new t t'

/-- Texts that are the same byte by byte, but for pieces that are exchanged. -/
inductive Respelled (gap : Exchange) : Text → Text → Prop
  | nil : Respelled gap [] []
  | byte {b : UInt8} {t t' : Text} (other : isChain b = false) (rest : Respelled gap t t') :
      Respelled gap (b :: t) (b :: t')
  | piece {x x' t t' : Text} (here : Piece gap x x' t t') (rest : Respelled gap t t') :
      Respelled gap (x ++ t) (x' ++ t')

theorem Piece.symm {gap : Exchange} {x x' t t' : Text} (piece : Piece gap x x' t t') :
    Piece gap.flip x' x t' t := by
  cases piece with
  | run alike more ends ends' => exact .run alike.symm (mt alike.nil_iff.mpr more) ends' ends
  | stretch here => exact .stretch here

theorem Respelled.symm {gap : Exchange} {t t' : Text} (respelled : Respelled gap t t') :
    Respelled gap.flip t' t := by
  induction respelled with
  | nil => exact .nil
  | byte other _ ih => exact .byte other ih
  | piece here _ ih => exact .piece here.symm ih

/-- The byte in front of a text is one of it. -/
theorem mem_of_peek? {x t before : Text} {b : UInt8} (more : x ≠ [])
    (front : (⟨before, x ++ t⟩ : Cursor).peek? = some b) : b ∈ x := by
  obtain ⟨a, y, rfl⟩ := List.exists_cons_of_ne_nil more
  obtain rfl : a = b := by simpa [peek?] using front
  exact List.mem_cons_self

namespace Piece

variable {gap : Exchange} {x x' t t' : Text}

theorem inert (lawful : Lawful gap) (piece : Piece gap x x' t t') : ∀ b ∈ x, isInert b = true := by
  cases piece with
  | run alike => exact fun b mem => isInert_of_isChain (alike.chain b mem)
  | stretch here => exact (lawful.old here).inert

theorem ne_nil (lawful : Lawful gap) (piece : Piece gap x x' t t') : x ≠ [] := by
  cases piece with
  | run _ more => exact more
  | stretch here =>
      obtain ⟨b, rest, rfl, -⟩ := (lawful.old here).opens
      exact List.cons_ne_nil b rest

theorem inert' (lawful : Lawful gap) (piece : Piece gap x x' t t') :
    ∀ b ∈ x', isInert b = true := piece.symm.inert lawful.flip

theorem ne_nil' (lawful : Lawful gap) (piece : Piece gap x x' t t') : x' ≠ [] :=
  piece.symm.ne_nil lawful.flip

/-- Behind a piece both sides are looked back upon alike, if they are in front of it or the piece
starts with a dot. -/
theorem looks (lawful : Lawful gap) (piece : Piece gap x x' t t') {before before' : Text}
    (looks : ((⟨before, x ++ t⟩ : Cursor).peek? = some dot ∧
      (⟨before', x' ++ t'⟩ : Cursor).peek? = some dot) ∨ Looks before before') :
    Looks (x.reverse ++ before) (x'.reverse ++ before') := by
  cases piece with
  | run alike more => exact alike.looks more (looks.imp_left fun front => mem_of_peek? more front.1)
  | stretch here => exact lawful.looks here before before'

/-- A piece leaves the same brackets open on both sides. -/
theorem depth (lawful : Lawful gap) (piece : Piece gap x x' t t') {kind : Bracket}
    (known : kind = .paren ∨ kind = .brace) (depth : Nat) : ∃ depth',
      depthBehind kind x depth = some depth' ∧ depthBehind kind x' depth = some depth' := by
  have free : ∀ y : Text, (∀ b ∈ y, isInert b = true) →
      depthBehind .brace y depth = some depth := by
    intro y inert
    refine depthBehind_of_free fun b mem => ⟨?_, ?_⟩
    · exact ne_of_isInert (inert b mem) (by decide)
    · exact ne_of_isInert (inert b mem) (by decide)
  have chainFree : ∀ y : Text, (∀ b ∈ y, isChain b = true) →
      depthBehind .paren y depth = some depth :=
    fun y chain => depthBehind_of_free fun b mem => noParen_of_isChain (chain b mem)
  rcases known with rfl | rfl
  · cases piece with
    | run alike => exact ⟨depth, chainFree x alike.chain, chainFree x' alike.chain'⟩
    | stretch here => exact lawful.depth here depth
  · exact ⟨depth, free x (piece.inert lawful), free x' (piece.inert' lawful)⟩

end Piece

/-! ## Places in respelled texts -/

/-- Places from which two texts go on alike. In front of a dot it does not matter what is looked
back upon. -/
structure Aligned (gap : Exchange) (c c' : Cursor) : Prop where
  respelled : Respelled gap c.after c'.after
  looks : (c.peek? = some dot ∧ c'.peek? = some dot) ∨ Looks c.before c'.before

theorem Aligned.symm {gap : Exchange} {c c' : Cursor} (aligned : Aligned gap c c') :
    Aligned gap.flip c' c := ⟨aligned.respelled.symm, aligned.looks.imp And.symm Looks.symm⟩

/-- In front of a text without a dot, both sides are looked back upon alike. -/
theorem looks_of_noDot {x t t' before before' : Text} (more : x ≠ []) (noDot : dot ∉ x)
    (looks : ((⟨before, x ++ t⟩ : Cursor).peek? = some dot ∧
      (⟨before', t'⟩ : Cursor).peek? = some dot) ∨ Looks before before') : Looks before before' :=
  looks.resolve_left fun front => noDot (mem_of_peek? more front.1)

theorem looks_of_byte {b : UInt8} {t t' before before' : Text} (other : isChain b = false)
    (looks : ((⟨before, b :: t⟩ : Cursor).peek? = some dot ∧
      (⟨before', t'⟩ : Cursor).peek? = some dot) ∨ Looks before before') : Looks before before' := by
  have noDot : dot ∉ [b] := by
    rintro (_ | ⟨_, ⟨⟩⟩)
    cases other
  exact looks_of_noDot (List.cons_ne_nil b []) noDot looks

/-- Runs in front, which may be empty on both sides. -/
theorem Respelled.ofRun {gap : Exchange} {r r' t t' : Text} (alike : RunAlike r r')
    (ends : StopsChain t) (ends' : StopsChain t') (rest : Respelled gap t t') :
    Respelled gap (r ++ t) (r' ++ t') := by
  by_cases none : r = []
  · obtain rfl := none
    obtain rfl := alike.nil_iff.mp rfl
    exact rest
  · exact .piece (.run alike none ends ends') rest

end ClassUpgrade.Source
