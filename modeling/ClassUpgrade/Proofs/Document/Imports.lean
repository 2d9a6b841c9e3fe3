/-
# Proofs.Document.Imports — the import lines are those that the classes need

The symbols of a transformed document are recorded registration by registration,
while rules change the texts that later rules read. Here they are said of the
original document: which symbols are recorded is decided by its definitions
alone (`mem_upgradeDefinition_engine`, `mem_upgradeDefinition_math`), and a
document is put under one line for each library with symbols
(`withImports_eq`).

* `transform_imports`: the recorded symbols and the content of a document that
  reaches the upgrade of its registrations.
-/
import ClassUpgrade.Document.Transform
import ClassUpgrade.Proofs.Component.Capture
import ClassUpgrade.Proofs.Component.Import
import ClassUpgrade.Proofs.Document.Prologue

namespace ClassUpgrade

set_option autoImplicit false

open Byte Source

namespace Component

/-! ## The symbols of a definition -/

section Definition

variable {d : Definition} {text x : Text}

/-- The engine symbols of a class: the base class, the namespace of the property types that lost
it, and the constructors that take the engine. -/
theorem mem_upgradeDefinition_engine (upgraded : (upgradeDefinition d).1 = .ok text) :
    ⟨.engine, x⟩ ∈ (upgradeDefinition d).2 ↔
      x = baseClass ∨ (x = utf8 "Type" ∧ Occurs propertyTypeRule.pattern d.properties) ∨
        (x = utf8 "Texture" ∧ Occurs constructorCall d.methods) := by
  obtain ⟨methods, -, -, imports_eq⟩ := upgradeDefinition_ok upgraded
  rw [imports_eq, List.mem_append, List.mem_append, mem_propertyTypeRule_iff,
    mem_upgradeMethods_engine]
  simp only [true_and, List.mem_singleton, Import.mk.injEq]
  exact or_comm

/-- The math symbols of a class: what its methods take from the library. -/
theorem mem_upgradeDefinition_math (upgraded : (upgradeDefinition d).1 = .ok text) :
    ⟨.math, x⟩ ∈ (upgradeDefinition d).2 ↔ x ∈ captures mathRule.pattern d.methods := by
  obtain ⟨methods, -, -, imports_eq⟩ := upgradeDefinition_ok upgraded
  rw [imports_eq, List.mem_append, List.mem_append, mem_propertyTypeRule_iff,
    mem_upgradeMethods_math]
  simp

theorem ne_nil_of_mem_captures_math {t : Text} (mem : x ∈ captures mathRule.pattern t) :
    x ≠ [] := by
  obtain ⟨k, n, found⟩ := match_of_mem_capturesAt rfl mem
  exact (matchPattern?_math_iff.mp found).2.1.1

end Definition

/-- The symbols of a library after the upgrade of a document from nothing. -/
theorem mem_imports_upgrade {doc out x : Text} {l : Library} {found : List Registration}
    (surveyed : registrations doc = .ok found)
    (upgraded : (upgrade doc .empty).outcome = .ok out) :
    x ∈ ((upgrade doc .empty).findings.imports l).names ↔
      ∃ r ∈ found, ⟨l, x⟩ ∈ (upgradeDefinition (r.definition doc)).2 ∧ x ≠ [] := by
  have none_before : x ∉ (Findings.empty.imports l).names := by
    cases l <;> exact List.not_mem_nil
  rw [upgrade_of_registrations .empty surveyed] at upgraded ⊢
  rw [mem_imports_upgradeFrom _ _ _ out upgraded]
  exact or_iff_right none_before

/-! ## Import lines -/

/-- The import line of a library, none when there is nothing to import from it. -/
def importLine (l : Library) (symbols : List Text) : Text :=
  if symbols = [] then []
  else utf8 "import \x7b" ++ Text.join (utf8 ", ") symbols ++ utf8 "\x7d from '" ++ l.specifier ++
    utf8 "';\n"

theorem renderImports_eq (f : Findings) :
    f.renderImports = importLine .engine (f.imports .engine).names ++
      importLine .math (f.imports .math).names := by
  by_cases engine : (f.imports .engine).names = [] <;> by_cases math : (f.imports .math).names = []
  all_goals
    simp [Findings.renderImports, Findings.importTable, Library.all, importLine, engine, math]

end Component

namespace Document

open Component

theorem withImports_eq {f : Findings} {x : Text} (body : Text)
    (mem : x ∈ (f.imports .engine).names) :
    withImports f body = importLine .engine (f.imports .engine).names ++
      importLine .math (f.imports .math).names ++ lineFeed :: body := by
  obtain ⟨rest, opens⟩ := renderImports_opens mem
  have some_lines : f.renderImports ≠ [] := by
    rw [opens]
    exact List.append_ne_nil_of_left_ne_nil (by decide) rest
  rw [withImports, if_neg some_lines, renderImports_eq]

/-- A run that reaches the upgrade of the registrations. -/
theorem transformComponents_of_transform {template : Except Text Text} {doc : Text}
    {t : Transformation} (ran : (transform template doc).1 = .ok t)
    (kept : t.entrypointReplaced = false)
    (heeded : (ignoreRule doc).ignores componentStage = false) :
    (transformComponents doc).1 = .ok t := by
  unfold transform at ran
  dsimp only at ran
  split at ran
  · rename_i all
    rw [ignores_of_all _ all] at heeded
    cases heeded
  · split at ran
    · split at ran
      · cases ran
      · obtain rfl := Except.ok.inj ran
        cases kept
    · rw [heeded] at ran
      exact ran

/-- What the upgrade of a document comes to. -/
theorem transformComponents_upgrade {doc : Text} {t : Transformation}
    (ran : (transformComponents doc).1 = .ok t) :
    ∃ body, (upgrade doc .empty).outcome = .ok body ∧
      t.findings = (upgrade doc .empty).findings ∧ t.content = withImports t.findings body := by
  unfold transformComponents at ran
  split at ran
  · cases ran
  · dsimp only at ran
    split at ran
    · cases ran
    · rename_i body upgraded
      obtain rfl := Except.ok.inj ran
      exact ⟨body, upgraded, rfl, rfl⟩

/-- **The recorded symbols are those that the original definitions call for, and the content of
the document is its classes under one line for each library with symbols.** The engine symbols are
the base class when there is a registration, the namespace of types when some properties name a
type through the former global, and the texture class when some methods call its constructor. The
math symbols are what the original methods take from the former math global. Symbols are listed in
byte order without duplicates; a document without registrations stays as it is. -/
theorem transform_imports {template : Except Text Text} {doc : Text} {t : Transformation}
    (ran : (transform template doc).1 = .ok t) (kept : t.entrypointReplaced = false)
    (heeded : (ignoreRule doc).ignores componentStage = false) :
    ∃ found body, registrations doc = .ok found ∧ (upgrade doc .empty).outcome = .ok body ∧
      (∀ x, x ∈ (t.findings.imports .engine).names ↔
        (x = utf8 "Component" ∧ found ≠ []) ∨
          (x = utf8 "Type" ∧
            ∃ r ∈ found, Occurs propertyTypeRule.pattern (r.definition doc).properties) ∨
          (x = utf8 "Texture" ∧ ∃ r ∈ found, Occurs constructorCall (r.definition doc).methods)) ∧
      (∀ x, x ∈ (t.findings.imports .math).names ↔
        ∃ r ∈ found, x ∈ captures mathRule.pattern (r.definition doc).methods) ∧
      (∀ l, (t.findings.imports l).names.Pairwise (· < ·)) ∧
      (found = [] → t.content = doc) ∧
      (found ≠ [] → t.content = importLine .engine (t.findings.imports .engine).names ++
        importLine .math (t.findings.imports .math).names ++ lineFeed :: body) := by
  have reached := transformComponents_of_transform ran kept heeded
  obtain ⟨body, upgraded, findings_eq, content_eq⟩ := transformComponents_upgrade reached
  obtain ⟨found, surveyed, ⟨classes, classes_eq, -⟩, -⟩ := upgrade_ok upgraded
  have class_of : ∀ r ∈ found, ∃ text, (upgradeDefinition (r.definition doc)).1 = .ok text :=
    fun r mem => (class_of_mem classes_eq mem).imp fun _ => And.right
  have symbols : ∀ l x, x ∈ (t.findings.imports l).names ↔
      ∃ r ∈ found, ⟨l, x⟩ ∈ (upgradeDefinition (r.definition doc)).2 ∧ x ≠ [] := by
    intro l x
    rw [findings_eq]
    exact mem_imports_upgrade surveyed upgraded
  refine ⟨found, body, surveyed, upgraded, fun x => ?_, fun x => ?_,
    fun l => (t.findings.imports l).sorted, ?_, ?_⟩
  · rw [symbols]
    constructor
    · rintro ⟨r, mem, asked, -⟩
      obtain ⟨text, class_eq⟩ := class_of r mem
      rcases (mem_upgradeDefinition_engine class_eq).mp asked with base | type | texture
      · exact .inl ⟨base, List.ne_nil_of_mem mem⟩
      · exact .inr (.inl ⟨type.1, r, mem, type.2⟩)
      · exact .inr (.inr ⟨texture.1, r, mem, texture.2⟩)
    · have asks : ∀ r ∈ found, _ := fun r mem =>
        (class_of r mem).elim fun text class_eq => mem_upgradeDefinition_engine (x := x) class_eq
      rintro (⟨rfl, some_found⟩ | ⟨rfl, r, mem, occurs⟩ | ⟨rfl, r, mem, occurs⟩)
      · obtain ⟨r, rest, rfl⟩ := List.exists_cons_of_ne_nil some_found
        exact ⟨r, List.mem_cons_self, (asks r List.mem_cons_self).mpr (.inl rfl), by decide⟩
      · exact ⟨r, mem, (asks r mem).mpr (.inr (.inl ⟨rfl, occurs⟩)), by decide⟩
      · exact ⟨r, mem, (asks r mem).mpr (.inr (.inr ⟨rfl, occurs⟩)), by decide⟩
  · rw [symbols]
    constructor
    · rintro ⟨r, mem, asked, -⟩
      obtain ⟨text, class_eq⟩ := class_of r mem
      exact ⟨r, mem, (mem_upgradeDefinition_math class_eq).mp asked⟩
    · rintro ⟨r, mem, captured⟩
      obtain ⟨text, class_eq⟩ := class_of r mem
      exact ⟨r, mem, (mem_upgradeDefinition_math class_eq).mpr captured,
        ne_nil_of_mem_captures_math captured⟩
  · rintro rfl
    obtain ⟨-, ⟨-, same⟩ | ⟨r, rest, surveyed', -⟩⟩ := transformComponents_ok reached
    · exact same
    · rw [surveyed] at surveyed'
      cases surveyed'
  · intro some_found
    obtain ⟨r, rest, rfl⟩ := List.exists_cons_of_ne_nil some_found
    have base : baseClass ∈ (t.findings.imports .engine).names := by
      rw [findings_eq]
      exact baseClass_mem_upgrade surveyed upgraded
    rw [content_eq]
    exact withImports_eq body base

/-- A component whose properties name a type and whose method calls the one constructor with an
engine, and the math library. -/
def skyScript : Text := utf8
  "WL.registerComponent('sky', {t: {type: WL.Type.Int}}, {i() {new WL.Texture(glMatrix.vec3.f)}})"

set_option maxRecDepth 8000 in
theorem transform_skyScript (template : Except Text Text) :
    ∃ t, (transform template skyScript).1 = .ok t ∧ t.entrypointReplaced = false ∧
      (t.findings.imports .engine).names = [utf8 "Component", utf8 "Texture", utf8 "Type"] ∧
      (t.findings.imports .math).names = [utf8 "vec3"] :=
  ⟨_, rfl, rfl, rfl, rfl⟩

/-- The script needs three symbols of the engine and one of the math library, and its methods have
the last one. -/
theorem transform_imports_skyScript :
    ∃ t body, (transform (.ok []) skyScript).1 = .ok t ∧ t.entrypointReplaced = false ∧
      (ignoreRule skyScript).ignores componentStage = false ∧
      t.content = utf8 "import {Component, Texture, Type} from '@wonderlandengine/api';
" ++
        utf8 "import {vec3} from 'gl-matrix';
" ++ lineFeed :: body ∧
      ∃ found, registrations skyScript = .ok found ∧
        ∃ r ∈ found, utf8 "vec3" ∈ captures mathRule.pattern (r.definition skyScript).methods := by
  obtain ⟨t, ran, kept, engine_eq, math_eq⟩ := transform_skyScript (.ok [])
  have heeded : (ignoreRule skyScript).ignores componentStage = false := rfl
  obtain ⟨found, body, surveyed, -, -, math, -, -, content_eq⟩ :=
    transform_imports ran kept heeded
  have captured := (math (utf8 "vec3")).mp (by rw [math_eq]; exact List.mem_singleton_self _)
  have some_found : found ≠ [] := by
    obtain ⟨r, mem, -⟩ := captured
    exact List.ne_nil_of_mem mem
  refine ⟨t, body, ran, kept, heeded, ?_, found, surveyed, captured⟩
  rw [content_eq some_found, engine_eq, math_eq]
  rfl

end Document

end ClassUpgrade
