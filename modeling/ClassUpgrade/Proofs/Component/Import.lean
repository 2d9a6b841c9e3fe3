/-
# Proofs.Component.Import — what an upgrade records and renders

The findings of an upgrade grow import by import. Membership in the symbols of
a library says all there is to say about them, since a set of names is
determined by its members: `mem_imports_upgradeFrom` gives the members after a
run over registrations, one law for every library. As each class asks for the
base class, an upgrade with a registration renders import lines
(`baseClass_mem_upgrade`), and rendered import lines that are not empty open
with the word `import` (`renderImports_opens`).
-/
import ClassUpgrade.Proofs.Component.Splice
import ClassUpgrade.Proofs.Text.NameSet

namespace ClassUpgrade

set_option autoImplicit false

namespace Component

open Source

/-! ## Recording -/

theorem mem_imports_record {f : Findings} {i : Import} {l : Library} {x : Text} :
    x ∈ ((f.record i).imports l).names ↔
      x ∈ (f.imports l).names ∨ (i = ⟨l, x⟩ ∧ x ≠ []) := by
  obtain ⟨library, symbol⟩ := i
  cases library <;> cases l <;>
    simp [Findings.record, Findings.imports, NameSet.mem_insert, eq_comm]

theorem mem_imports_recordAll {l : Library} {x : Text} : ∀ (is : List Import) (f : Findings),
    x ∈ ((f.recordAll is).imports l).names ↔
      x ∈ (f.imports l).names ∨ (⟨l, x⟩ ∈ is ∧ x ≠ [])
  | [], f => by simp [Findings.recordAll]
  | i :: rest, f => by
      have step : f.recordAll (i :: rest) = (f.record i).recordAll rest := rfl
      rw [step, mem_imports_recordAll rest, mem_imports_record, List.mem_cons, eq_comm]
      constructor
      · rintro ((old | ⟨here, named⟩) | ⟨later, named⟩)
        · exact .inl old
        · exact .inr ⟨.inl here, named⟩
        · exact .inr ⟨.inr later, named⟩
      · rintro (old | ⟨here | later, named⟩)
        · exact .inl (.inl old)
        · exact .inl (.inr ⟨here, named⟩)
        · exact .inr ⟨later, named⟩

@[simp] theorem imports_addComponent (f : Findings) (typeName : Text) (l : Library) :
    (f.addComponent typeName).imports l = f.imports l := by cases l <;> rfl

/-! ## The imports of an upgrade -/

/-- A run over registrations that succeeds adds the imports that their classes ask for. -/
theorem mem_imports_upgradeFrom {doc : Text} {failure : Option UnmatchedScope} {l : Library}
    {x : Text} : ∀ (found : List Registration) (position : Nat) (findings : Findings) (out : Text),
      (upgradeFrom doc failure position findings found).outcome = .ok out →
        (x ∈ ((upgradeFrom doc failure position findings found).findings.imports l).names ↔
          x ∈ (findings.imports l).names ∨
            ∃ r ∈ found, ⟨l, x⟩ ∈ (upgradeDefinition (r.definition doc)).2 ∧ x ≠ [])
  | [], position, findings, out, upgraded => by
      unfold upgradeFrom
      cases failure <;> simp
  | r :: rest, position, findings, out, upgraded => by
      obtain ⟨text, imports, tail, class_eq, more, -, findings_eq⟩ := upgradeFrom_cons_ok upgraded
      rw [findings_eq, mem_imports_upgradeFrom rest _ _ tail more, imports_addComponent,
        mem_imports_recordAll, or_assoc]
      simp [class_eq]

theorem baseClass_mem_upgradeDefinition {d : Definition} {text : Text}
    (upgraded : (upgradeDefinition d).1 = .ok text) :
    ⟨.engine, baseClass⟩ ∈ (upgradeDefinition d).2 := by
  obtain ⟨methods, -, -, imports_eq⟩ := upgradeDefinition_ok upgraded
  rw [imports_eq]
  simp

theorem upgrade_of_registrations {doc : Text} {found : List Registration} (findings : Findings)
    (surveyed : registrations doc = .ok found) :
    upgrade doc findings = upgradeFrom doc none 0 findings found := by
  simp only [upgrade, survey_of_registrations surveyed]

/-- An upgrade that replaced a registration imports the base class. -/
theorem baseClass_mem_upgrade {doc out : Text} {findings : Findings} {r : Registration}
    {rest : List Registration} (surveyed : registrations doc = .ok (r :: rest))
    (upgraded : (upgrade doc findings).outcome = .ok out) :
    baseClass ∈ ((upgrade doc findings).findings.imports .engine).names := by
  obtain ⟨found, surveyed', ⟨classes, classes_eq, -⟩, -⟩ := upgrade_ok upgraded
  rw [surveyed] at surveyed'
  obtain rfl := Except.ok.inj surveyed'
  rw [upgrade_of_registrations findings surveyed] at upgraded ⊢
  cases classes with
  | nil => cases classes_eq
  | cons text classes =>
      have class_eq := (List.cons.inj classes_eq).1
      exact (mem_imports_upgradeFrom _ _ _ out upgraded).mpr
        (.inr ⟨r, List.mem_cons_self, baseClass_mem_upgradeDefinition class_eq, by decide⟩)

/-! ## Import lines -/

/-- What every import line opens with. -/
def importLead : Text := utf8 "import \x7b"

theorem renderImports_opens {f : Findings} {x : Text} (mem : x ∈ (f.imports .engine).names) :
    ∃ rest, f.renderImports = importLead ++ rest := by
  have listed : f.importTable = (.engine, (f.imports .engine).names) ::
      ([(Library.math, (f.imports .math).names)].filter fun entry => !entry.2.isEmpty) := by
    have : (f.imports .engine).names ≠ [] := List.ne_nil_of_mem mem
    simp [Findings.importTable, Library.all, this]
  unfold Findings.renderImports
  rw [listed, List.flatMap_cons]
  exact ⟨_, by simp only [List.append_assoc]; rfl⟩

end Component

end ClassUpgrade
