/-
# Proofs.Component.Respelling.Rule — rules that respell a text

Most rules put one chain of names in the place of another that is read alike
(`SymbolRule.Renames`): it has a dot when the other has one, and its last word
is the same, or has no meaning as the other has none. Which texts a pattern
matches is said without a place (`Spells`), so that this is a property of the
pattern and the template alone.

Such a rule respells a text (`Applies.respelled`), whatever else the text holds:
the runs that are written otherwise may stand in code, in strings and in
comments. So the entries of a methods object keep their marks
(`flags_applyAll`).
-/
import ClassUpgrade.Proofs.Component.Capture
import ClassUpgrade.Proofs.Source.Respelling.Method

namespace ClassUpgrade.Component

set_option autoImplicit false

open Byte Source Source.Cursor

/-! ## What a pattern matches -/

/-- The texts that an atom matches, with what it captures there. -/
def Atom.Spells : Atom → Text → Text → Prop
  | .edge, x, captured => x = [] ∧ captured = []
  | .exact t, x, captured => x = t ∧ captured = []
  | .blanks least, x, captured =>
    (∀ b ∈ x, isPatternBlank b = true) ∧ least ≤ x.length ∧ captured = []
  | .oneOf names, x, captured => x ∈ names ∧ captured = x
  | .word, x, captured => (∀ b ∈ x, isSymbolByte b = true) ∧ x ≠ [] ∧ captured = x

/-- The texts that a pattern matches, with what it captures there. -/
def Spells : List Atom → Text → Text → Prop
  | [], x, captured => x = [] ∧ captured = []
  | atom :: rest, x, captured => ∃ front back taken more, atom.Spells front taken ∧
    Spells rest back more ∧ x = front ++ back ∧ captured = taken ++ more

section Spelling

variable {c : Cursor} {n : Nat} {captured : Text}

theorem match?_spells {atom : Atom} (found : atom.match? c = some (n, captured)) :
    ∃ x y, c.after = x ++ y ∧ n = x.length ∧ atom.Spells x captured := by
  cases atom with
  | edge =>
      obtain ⟨-, rfl, rfl⟩ := match?_edge_iff.mp found
      exact ⟨[], c.after, rfl, rfl, rfl, rfl⟩
  | exact t =>
      obtain ⟨⟨y, after_eq⟩, rfl, rfl⟩ := match?_exact_iff.mp found
      exact ⟨t, y, after_eq.symm, rfl, rfl, rfl⟩
  | blanks least =>
      simp only [Atom.match?] at found
      split at found
      · rename_i enough
        obtain ⟨rfl, rfl⟩ := Prod.mk.inj (Option.some.inj found)
        refine ⟨c.after.takeWhile isPatternBlank, c.after.dropWhile isPatternBlank, ?_, rfl, ?_,
          enough, rfl⟩
        · rw [List.takeWhile_append_dropWhile]
        · exact fun b mem => List.all_eq_true.mp List.all_takeWhile b mem
      · cases found
  | oneOf names =>
      obtain ⟨listed, ⟨y, after_eq⟩, rfl⟩ := match?_oneOf found
      exact ⟨captured, y, after_eq.symm, rfl, listed, rfl⟩
  | word =>
      obtain ⟨rfl, ne_nil, rfl⟩ := match?_word_iff.mp found
      refine ⟨c.after.takeWhile isSymbolByte, c.after.dropWhile isSymbolByte, ?_, rfl, ?_, ne_nil,
        rfl⟩
      · rw [List.takeWhile_append_dropWhile]
      · exact fun b mem => List.all_eq_true.mp List.all_takeWhile b mem

/-- A match of a pattern has a text that the pattern spells. -/
theorem matchPattern?_spells : ∀ {pattern : List Atom} {c : Cursor} {n : Nat} {captured : Text},
    matchPattern? c pattern = some (n, captured) →
      ∃ x y, c.after = x ++ y ∧ n = x.length ∧ Spells pattern x captured
  | [], c, n, captured, found => by
      obtain ⟨rfl, rfl⟩ := Prod.mk.inj (Option.some.inj found)
      exact ⟨[], c.after, rfl, rfl, rfl, rfl⟩
  | atom :: rest, c, n, captured, found => by
      obtain ⟨_, _, taken, more, here, later, rfl, rfl⟩ := matchPattern?_cons_iff.mp found
      obtain ⟨front, y, after_eq, rfl, spells⟩ := match?_spells here
      obtain ⟨back, z, tail_eq, rfl, spells'⟩ := matchPattern?_spells later
      rw [after_advance, after_eq, List.drop_left] at tail_eq
      refine ⟨front ++ back, z, ?_, List.length_append.symm, front, back, taken, more, spells,
        spells', rfl, rfl⟩
      rw [after_eq, tail_eq, List.append_assoc]

/-- What a pattern spells is what its parts spell. -/
theorem spells_append : ∀ {front back : List Atom} {x captured : Text},
    Spells (front ++ back) x captured → ∃ x₁ x₂ captured₁ captured₂, Spells front x₁ captured₁ ∧
      Spells back x₂ captured₂ ∧ x = x₁ ++ x₂ ∧ captured = captured₁ ++ captured₂
  | [], back, x, captured, spells => ⟨[], x, [], captured, ⟨rfl, rfl⟩, spells, rfl, rfl⟩
  | atom :: front, back, x, captured, spells => by
      obtain ⟨y, _, taken, _, here, later, rfl, rfl⟩ := spells
      obtain ⟨x₁, x₂, captured₁, captured₂, first, last, rfl, rfl⟩ := spells_append later
      refine ⟨y ++ x₁, x₂, taken ++ captured₁, captured₂, ?_, last, ?_, ?_⟩
      · exact ⟨y, x₁, taken, captured₁, here, first, rfl, rfl⟩
      · rw [List.append_assoc]
      · rw [List.append_assoc]

end Spelling

/-! ## Rules as respellings -/

/-- A rule that puts runs in the place of runs that are read alike. -/
def SymbolRule.Renames (r : SymbolRule) : Prop :=
  ∀ x captured, Spells r.pattern x captured →
    x ≠ [] ∧ RunAlike x (r.replacement.expand captured)

/-- The rest of a run and what follows it, in two spellings. The run has begun with `x` and `x'`. -/
def RunsOn (gap : Exchange) (x x' t t' : Text) : Prop :=
  ∃ s s' u u', t = s ++ u ∧ t' = s' ++ u' ∧ RunAlike (x ++ s) (x' ++ s') ∧ StopsChain u ∧
    StopsChain u' ∧ Respelled gap u u'

section RunsOn

variable {gap : Exchange} {x x' t t' : Text}

theorem runsOn_nil (alike : RunAlike x x') : RunsOn gap x x' [] [] :=
  ⟨[], [], [], [], rfl, rfl, alike.append .nil, by simp [StopsChain], by simp [StopsChain], .nil⟩

theorem RunsOn.respelled (runsOn : RunsOn gap [] [] t t') : Respelled gap t t' := by
  obtain ⟨s, s', u, u', rfl, rfl, alike, ends, ends', rest⟩ := runsOn
  exact .ofRun alike ends ends' rest

/-- More of the run. -/
theorem RunsOn.append {y y' : Text} (runsOn : RunsOn gap (x ++ y) (x' ++ y') t t') :
    RunsOn gap x x' (y ++ t) (y' ++ t') := by
  obtain ⟨s, s', u, u', rfl, rfl, alike, ends, ends', rest⟩ := runsOn
  refine ⟨y ++ s, y' ++ s', u, u', by simp, by simp, ?_, ends, ends', rest⟩
  simpa only [List.append_assoc] using alike

/-- The end of the run. -/
theorem runsOn_of_stops (alike : RunAlike x x') (ends : StopsChain t) (ends' : StopsChain t')
    (rest : Respelled gap t t') : RunsOn gap x x' t t' :=
  ⟨[], [], t, t', rfl, rfl, alike.append .nil, ends, ends', rest⟩

/-- One byte more, of the run or not. -/
theorem RunsOn.cons (b : UInt8) (alike : RunAlike x x')
    (rest : ∀ x x', RunAlike x x' → RunsOn gap x x' t t') : RunsOn gap x x' (b :: t) (b :: t') := by
  by_cases chain : isChain b = true
  · have single : RunAlike [b] [b] := .refl (by simpa using chain)
    exact (rest _ _ (alike.append single)).append
  · have stops : ∀ y, StopsChain (b :: y) := fun y => by simpa [StopsChain] using chain
    exact runsOn_of_stops alike (stops t) (stops t')
      (.byte (by simpa using chain) (rest [] [] .nil).respelled)

/-- The end of the run, at a stretch that is exchanged. -/
theorem RunsOn.stretch {old new : Text} (lawful : Lawful gap) (alike : RunAlike x x')
    (here : gap old new t t') (rest : RunsOn gap [] [] t t') :
    RunsOn gap x x' (old ++ t) (new ++ t') := by
  have stops : ∀ {y u : Text}, Stretch y → StopsChain (y ++ u) := by
    rintro y u ⟨-, ⟨b, z, rfl, other⟩, -⟩
    simpa [StopsChain] using other
  exact runsOn_of_stops alike (stops (lawful.old here)) (stops (lawful.new here))
    (.piece (.stretch here) rest.respelled)

end RunsOn

/-- A rule that renames respells what it is applied to. -/
theorem Applies.respelled {r : SymbolRule} {gap : Exchange} (renames : r.Renames) {c : Cursor}
    {out : Text × List Import} (applies : Applies r c out) :
    ∀ x x', RunAlike x x' → RunsOn gap x x' c.after out.1 := by
  induction applies with
  | finish done =>
      intro x x' alike
      rw [done]
      exact runsOn_nil alike
  | @replace c n captured text imports _ found rest ih =>
      intro x x' alike
      obtain ⟨occurrence, y, after_eq, rfl, spells⟩ := matchPattern?_spells found
      obtain ⟨ne_nil, replaced⟩ := renames occurrence captured spells
      have pos := List.length_pos_iff.mpr ne_nil
      rw [after_advance, show max occurrence.length 1 = occurrence.length by omega, after_eq,
        List.drop_left] at ih
      rw [after_eq]
      exact (ih _ _ (alike.append replaced)).append
  | @copy c b text imports front other rest ih =>
      intro x x' alike
      obtain ⟨tail, after_eq⟩ := peek?_eq_some_iff.mp front
      rw [after_advance, after_eq] at ih
      rw [after_eq]
      exact .cons b alike ih

/-! ## The marks of entries -/

/-- Nothing is exchanged but runs. -/
def noExchange : Exchange := fun _ _ _ _ => False

theorem lawful_noExchange : Lawful noExchange := ⟨nofun, nofun, nofun, nofun⟩

theorem barring_noExchange : Barring noExchange := ⟨nofun, nofun⟩

theorem passable_noExchange : Passable noExchange := ⟨nofun, nofun⟩

theorem flags_apply {r : SymbolRule} (renames : r.Renames) (t : Text) :
    flagsAt (start (r.apply t).1) = flagsAt (start t) := by
  have runsOn : RunsOn noExchange [] [] t (r.apply t).1 :=
    (applies_apply r t).respelled renames [] [] .nil
  have aligned : Aligned noExchange (start t) (start (r.apply t).1) :=
    ⟨runsOn.respelled, .inr (.refl _)⟩
  exact (aligned.flagsAt_eq lawful_noExchange barring_noExchange passable_noExchange rfl).symm

theorem applyAll_cons_fst (r : SymbolRule) (rest : SymbolTable) (t : Text) :
    (SymbolTable.applyAll (r :: rest) t).1 = (SymbolTable.applyAll rest (r.apply t).1).1 := rfl

/-- **Rules that rename keep the entries of a methods object**, and which of them are marked. -/
theorem flags_applyAll : ∀ {table : SymbolTable} (t : Text), (∀ r ∈ table, r.Renames) →
    flagsAt (start (SymbolTable.applyAll table t).1) = flagsAt (start t)
  | [], t, _ => rfl
  | r :: rest, t, renames => by
      have here := flags_apply (renames r List.mem_cons_self) t
      have later := flags_applyAll (r.apply t).1 fun r' mem =>
        renames r' (List.mem_cons_of_mem _ mem)
      rw [applyAll_cons_fst]
      exact later.trans here

/-! ## The rules that rename -/

theorem isChain_of_isSymbolByte {b : UInt8} (symbol : isSymbolByte b = true) :
    isChain b = true := by
  simp only [isSymbolByte, Bool.or_eq_true, beq_iff_eq] at symbol
  simp only [isChain, isWordPart, isWordStart, Bool.or_eq_true, beq_iff_eq]
  tauto

/-- A member of the math library loses the name of the library. -/
theorem renames_mathRule : mathRule.Renames := by
  rintro x captured ⟨_, _, _, _, ⟨rfl, rfl⟩, ⟨_, _, _, _, ⟨rfl, rfl⟩, ⟨_, _, name, _,
    ⟨symbols, -, rfl⟩, ⟨_, _, _, _, ⟨rfl, rfl⟩, ⟨rfl, rfl⟩, rfl, rfl⟩, rfl, rfl⟩, rfl, rfl⟩,
    rfl, rfl⟩
  simp only [List.nil_append, List.append_nil]
  have chain : ∀ b ∈ name ++ utf8 ".", isChain b = true := by
    intro b mem
    rcases List.mem_append.mp mem with named | dotted
    · exact isChain_of_isSymbolByte (symbols b named)
    · obtain rfl : b = dot := List.mem_singleton.mp dotted
      rfl
  have chain_library : ∀ b ∈ utf8 "glMatrix.", isChain b = true := List.all_eq_true.mp (by decide)
  have dotted : dot ∈ name ++ utf8 "." := List.mem_append_right _ List.mem_cons_self
  have last : ∀ y : Text, wordBefore (y ++ utf8 ".").reverse = [] := by
    intro y
    rw [List.reverse_append]
    rfl
  refine ⟨List.cons_ne_nil _ _, .ofDotted ?_ chain (List.mem_append_right _ dotted) dotted ?_⟩
  · intro b mem
    rcases List.mem_append.mp mem with library | named
    · exact chain_library b library
    · exact chain b named
  · show WordAlike _ (wordBefore (name ++ utf8 ".").reverse)
    rw [← List.append_assoc, last, last]
    exact .refl _

/-- A property of the former global keeps its name. -/
theorem renames_globalRule : globalRule.Renames := by
  rintro x captured ⟨_, _, _, _, ⟨rfl, rfl⟩, ⟨_, _, _, _, ⟨rfl, rfl⟩, ⟨_, _, name, _, ⟨listed, rfl⟩,
    ⟨_, _, _, _, ⟨rfl, rfl⟩, ⟨rfl, rfl⟩, rfl, rfl⟩, rfl, rfl⟩, rfl, rfl⟩, rfl, rfl⟩
  simp only [List.nil_append, List.append_nil]
  have chain : engineGlobals.all (·.all isChain) = true := by decide
  have owner : RunAlike (utf8 "WL.") (utf8 "this.engine.") :=
    .ofDotted (List.all_eq_true.mp (by decide)) (List.all_eq_true.mp (by decide)) (by decide)
      (by decide) (.refl [])
  refine ⟨List.cons_ne_nil _ _, ?_⟩
  have kept := List.all_eq_true.mp (List.all_eq_true.mp chain name listed)
  simpa [globalRule, Template.expand] using owner.append (.refl kept)

/-- A rule that finds a text as a whole word renames when its template is read alike. -/
theorem renames_of_word {r : SymbolRule} {t : Text}
    (pattern_eq : r.pattern = [.edge, .exact t, .edge])
    (ne_nil : t ≠ []) (alike : RunAlike t (r.replacement.expand [])) : r.Renames := by
  intro x captured spells
  rw [pattern_eq] at spells
  obtain ⟨_, _, _, _, ⟨rfl, rfl⟩,
    ⟨_, _, _, _, ⟨rfl, rfl⟩, ⟨_, _, _, _, ⟨rfl, rfl⟩, ⟨rfl, rfl⟩, rfl, rfl⟩,
    rfl, rfl⟩, rfl, rfl⟩ := spells
  simp only [List.nil_append, List.append_nil]
  exact ⟨ne_nil, alike⟩

/-- Names without a meaning. -/
theorem runAlike_of_foreign {w w' : Text} (parts : w.all isWordPart = true)
    (parts' : w'.all isWordPart = true)
    (starts : w.head?.any isWordStart = w'.head?.any isWordStart) (foreign : Foreign w)
    (foreign' : Foreign w') : RunAlike w w' := by
  have chain : ∀ {y : Text}, y.all isWordPart = true → ∀ b ∈ y, isChain b = true :=
    fun parts b mem => by simp [isChain, List.all_eq_true.mp parts b mem]
  have noDot : ∀ {y : Text}, y.all isWordPart = true → dot ∉ y := by
    intro y parts mem
    have part := List.all_eq_true.mp parts dot mem
    rw [isWordPart_dot] at part
    cases part
  refine ⟨chain parts, chain parts', ?_, iff_of_false (noDot parts) (noDot parts'), ?_,
    fun _ => starts⟩
  · exact iff_of_false foreign.ne_nil foreign'.ne_nil
  · rw [wordBefore_reverse (chain parts) (noDot parts),
      wordBefore_reverse (chain parts') (noDot parts')]
    exact .inr ⟨foreign, foreign'⟩

theorem renames_nestedRule {legacy current : Text} (alike : RunAlike legacy current) :
    (nestedRule legacy current).Renames := by
  have owner : RunAlike (utf8 "WL.") (utf8 "this.engine.xr.") :=
    .ofDotted (List.all_eq_true.mp (by decide)) (List.all_eq_true.mp (by decide)) (by decide)
      (by decide) (.refl [])
  refine renames_of_word rfl (List.cons_ne_nil _ _) ?_
  simpa [nestedRule, Template.expand] using owner.append alike

theorem renames_renameRule {legacy current : Text} (ne_nil : legacy ≠ [])
    (alike : RunAlike legacy current) : (renameRule legacy current).Renames :=
  renames_of_word rfl ne_nil (by simpa [renameRule, Template.expand] using alike)

/-- **Every rule but those for constructors renames.** -/
theorem renames_of_mem : ∀ r ∈ defaultSymbolTable.drop 2, r.Renames := by
  intro r mem
  simp only [defaultSymbolTable, List.drop_succ_cons, List.drop_zero, List.mem_cons,
    List.not_mem_nil, or_false] at mem
  rcases mem with rfl | rfl | rfl | rfl | rfl | rfl | rfl | rfl
  · exact renames_mathRule
  · exact renames_globalRule
  all_goals
    first
      | refine renames_nestedRule (runAlike_of_foreign ?_ ?_ ?_ ?_ ?_)
      | refine renames_renameRule (by decide) (runAlike_of_foreign ?_ ?_ ?_ ?_ ?_)
    all_goals decide

end ClassUpgrade.Component
