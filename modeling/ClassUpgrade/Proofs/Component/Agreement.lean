/-
# Proofs.Component.Agreement — the report of methods and the rewrite agree

The methods of a component are reported by a scan of the original text, and
written as class methods by a scan of the text that the symbol rules have left.
Both scans find the same entries, marked alike (`report_agrees`): the rules that
rename respell a text, and so do those for constructors when the calls stand on
one line and have no block behind them.

Both conditions are needed. A line break that a rule takes away may be the end of
a comment, which then runs on over the next line; and a call that loses its
namespace in front of a block reads like a short method.
-/
import ClassUpgrade.Component.Method
import ClassUpgrade.Proofs.Component.Respelling.Constructor

namespace ClassUpgrade.Component

set_option autoImplicit false

open Byte Source Source.Cursor

/-! ## The marks of the entries -/

theorem flagsAt_start (t : Text) : flagsAt (start t) = entryFlags (methodMatches t) := rfl

/-- Behind the rules for constructors, every rule renames. -/
theorem defaultSymbolTable_ordered : defaultSymbolTable.ordered =
    bareConstructorRule :: constructorRule :: defaultSymbolTable.drop 2 := by decide

/-- **The symbol rules keep the entries of a methods object**, and which of them are marked. -/
theorem flags_apply_table {block : Text} (oneLine : OneLine block) (bodyless : Bodyless block) :
    flagsAt (start (defaultSymbolTable.apply block).1) = flagsAt (start block) := by
  have bare := applies_apply bareConstructorRule block
  have call := applies_apply constructorRule (bareConstructorRule.apply block).1
  have respelled := (constructors_respelled (c := start block) oneLine bodyless rfl bare call rfl
    [] [] .nil).respelled
  have aligned : Aligned Engaged (start block)
      (start (constructorRule.apply (bareConstructorRule.apply block).1).1) :=
    ⟨respelled, .inr (.refl [])⟩
  have constructors := aligned.flagsAt_eq lawful_engaged barring_engaged passable_engaged rfl
  have renamed := flags_applyAll (constructorRule.apply (bareConstructorRule.apply block).1).1
    renames_of_mem
  rw [SymbolTable.apply, defaultSymbolTable_ordered, applyAll_cons_fst, applyAll_cons_fst]
  exact renamed.trans constructors.symm

/-- Scans that come to the same marks fail alike and list as many entries. -/
theorem entryFlags_eq_iff {found found' : Except UnmatchedScope (List MethodMatch)} :
    entryFlags found = entryFlags found' ↔
      ((∃ e, found = .error e) ↔ ∃ e, found' = .error e) ∧
        ∀ listed listed', found = .ok listed → found' = .ok listed' →
          listed.map (·.entry.isAsync) = listed'.map (·.entry.isAsync) := by
  cases found with
  | error e => cases found' <;> simp [entryFlags, Except.toOption]
  | ok listed => cases found' <;> simp [entryFlags, Except.toOption]

/-! ## The report and the rewrite -/

theorem map_fails_iff {α β : Type} (f : α → β) (found : Except UnmatchedScope α) :
    (∃ e, found.map f = .error e) ↔ ∃ e, found = .error e := by
  cases found <;> simp [Except.map]

/-- **The report of methods and the rewrite agree** on an object body whose constructor calls stand
on one line and have no block behind them: the rewrite fails exactly when the report does, and the
entries that it writes are those of the report, as many, in the same order and marked alike. -/
theorem report_agrees {block : Text} (oneLine : OneLine block) (bodyless : Bodyless block) :
    ((∃ e, (upgradeMethods block).1 = .error e) ↔ ∃ e, methodEntries block = .error e) ∧
      ∀ entries found, methodEntries block = .ok entries →
        methodMatches (defaultSymbolTable.apply block).1 = .ok found →
          found.length = entries.length ∧
            found.map (·.entry.isAsync) = entries.map (·.isAsync) := by
  have flags := flags_apply_table oneLine bodyless
  rw [flagsAt_start, flagsAt_start, entryFlags_eq_iff] at flags
  obtain ⟨fails, marks⟩ := flags
  constructor
  · rw [upgradeMethods_fst, methodEntries, map_fails_iff, map_fails_iff]
    exact fails
  · intro entries found listed scanned
    unfold methodEntries at listed
    cases original : methodMatches block with
    | error e =>
        rw [original] at listed
        cases listed
    | ok reported =>
        rw [original] at listed
        obtain rfl := Except.ok.inj listed
        have same := marks found reported scanned original
        have lengths := congrArg List.length same
        rw [List.length_map, List.length_map] at lengths
        refine ⟨by rw [lengths, List.length_map], ?_⟩
        rw [same, List.map_map]
        rfl

/-- A body with a constructor call, a renamed method and an entry that is marked. -/
def texturedMethods : Text :=
  utf8 "a: function() \x7b x = new WL.Texture(i); y.getTranslationWorld(z); \x7d, b: async function() \x7b \x7d,"

theorem report_agrees_textured :
    OneLine texturedMethods ∧ Bodyless texturedMethods ∧
      ∃ entries found, methodEntries texturedMethods = .ok entries ∧
        methodMatches (defaultSymbolTable.apply texturedMethods).1 = .ok found ∧
        found.length = entries.length ∧ found.map (·.entry.isAsync) = entries.map (·.isAsync) ∧
        entries.map (·.isAsync) = [false, true] := by
  have oneLine : OneLine texturedMethods := by decide +kernel
  have bodyless : Bodyless texturedMethods := by decide +kernel
  obtain ⟨-, agree⟩ := report_agrees oneLine bodyless
  obtain ⟨entries, reported, marks⟩ : ∃ entries, methodEntries texturedMethods = .ok entries ∧
      entries.map (·.isAsync) = [false, true] := ⟨_, rfl, rfl⟩
  obtain ⟨found, scanned⟩ : ∃ found,
      methodMatches (defaultSymbolTable.apply texturedMethods).1 = .ok found := ⟨_, rfl⟩
  obtain ⟨lengths, same⟩ := agree entries found reported scanned
  exact ⟨oneLine, bodyless, entries, found, reported, scanned, lengths, same, marks⟩

/-- A comment that ends with the word `new`, with a call on the next line. -/
def brokenComment : Text :=
  utf8 "init: function() \x7b // brand new
    WL.Texture(); \x7d,
update: function() \x7b \x7d"

/-- The rule takes the line break away, and the comment goes on over the brace that closes. -/
example : ¬ OneLine brokenComment ∧
    (methodEntries brokenComment).map (·.length) = .ok 2 ∧
      (upgradeMethods brokenComment).1 = .error ⟨17⟩ :=
  ⟨by decide +kernel, rfl, rfl⟩

/-- A call with a block behind it, which is no entry. -/
def bracedCall : Text := utf8 "x: new WL.Texture(a) \x7b \x7d"

/-- Without its namespace the call is one. -/
example : ¬ Bodyless bracedCall ∧ methodEntries bracedCall = .ok [] ∧
    (methodMatches (defaultSymbolTable.apply bracedCall).1).map (·.length) = .ok 1 :=
  ⟨by decide +kernel, rfl, rfl⟩

end ClassUpgrade.Component
