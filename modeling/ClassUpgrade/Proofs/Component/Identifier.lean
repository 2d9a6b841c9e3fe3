/-
# Proofs.Component.Identifier — when a class name is an identifier

A class name is made of words of the type name. Its characters are letters,
decimal digits and underscores, since the upper-case partner of a letter is a
letter (`isNameChar_of_mem_className`). Of the words only the first one is left
out when it starts with a digit, so the class name starts with a digit exactly
when the first two words both do (`className_isIdentifier_iff`).

An upgrade refuses a type name without a class name
(`upgradeDefinition_invalidTypeName_iff`), and no other; what its classes are called is
`classes_named`.
-/
import ClassUpgrade.Proofs.Component.ClassName
import ClassUpgrade.Proofs.Component.TypeName
import ClassUpgrade.Proofs.Text.Glyph
import ClassUpgrade.Proofs.Text.LetterCase

namespace ClassUpgrade

set_option autoImplicit false

namespace Text

/-- A run is not empty. -/
theorem ne_nil_of_mem_runsFrom {α : Type} {isSeparator : α → Bool} :
    ∀ (as run : List α), ∀ w ∈ runsFrom isSeparator run as, w ≠ []
  | [], run, w, mem => by
      unfold runsFrom at mem
      split at mem
      · cases mem
      · rename_i some_read
        obtain rfl := List.mem_singleton.mp mem
        simpa using some_read
  | b :: rest, run, w, mem => by
      unfold runsFrom at mem
      split at mem
      · split at mem
        · exact ne_nil_of_mem_runsFrom rest [] w mem
        · rename_i some_read
          rcases List.mem_cons.mp mem with rfl | later
          · simpa using some_read
          · exact ne_nil_of_mem_runsFrom rest [] w later
      · exact ne_nil_of_mem_runsFrom rest (b :: run) w mem

end Text

namespace Component

open Source

/-- A text that may name a class: its characters are letters, decimal digits and underscores, and
the first one is no digit. -/
structure IsIdentifier (t : Text) : Prop where
  parts : ∀ c ∈ Text.chars t, isNameChar c = true
  starts : ∃ c, (Text.chars t).head? = some c ∧ DecimalDigit.isDecimalDigit c = false

def isNumbered (w : List Char) : Bool := w.head?.any DecimalDigit.isDecimalDigit

/-- A type name whose first two words both start with a decimal digit. -/
def LeadsWithNumbers (typeName : Text) : Prop :=
  ∃ w₁ w₂ ws, nameWords typeName = w₁ :: w₂ :: ws ∧ isNumbered w₁ = true ∧ isNumbered w₂ = true

/-! ## The characters of a class name -/

theorem chars_className (typeName : Text) :
    Text.chars (className typeName) = classNameChars typeName := Text.chars_ofChars _

/-- The upper-case partner of a name character is one, and a digit when the character is. -/
theorem upper_of_isNameChar {c : Char} (named : isNameChar c = true) :
    isNameChar (LetterCase.upper c) = true ∧
      DecimalDigit.isDecimalDigit (LetterCase.upper c) = DecimalDigit.isDecimalDigit c := by
  have parts := named
  simp only [isNameChar, Bool.or_eq_true, beq_iff_eq] at parts
  rcases parts with (rfl | letter) | digit
  · have stays : LetterCase.upper '_' = '_' := by decide +kernel
    rw [stays]
    exact ⟨named, rfl⟩
  · have upper := LetterCase.isLetter_upper letter
    rw [Letter.isDecimalDigit_eq_false letter, Letter.isDecimalDigit_eq_false upper]
    exact ⟨by simp [isNameChar, upper], rfl⟩
  · rw [LetterCase.upper_of_isDecimalDigit digit]
    exact ⟨named, rfl⟩

/-- **A class name holds letters, decimal digits and underscores only.** -/
theorem isNameChar_of_mem_className {typeName : Text} {c : Char}
    (mem : c ∈ Text.chars (className typeName)) : isNameChar c = true := by
  rw [chars_className] at mem
  obtain ⟨d, named, rfl | rfl⟩ := mem_classNameChars mem
  · exact named
  · exact (upper_of_isNameChar named).1

/-! ## The first character -/

/-- A class name is empty when no word is left, and else starts with a digit when the first word
that is left does. -/
theorem classNameChars_cases (typeName : Text) :
    (withoutLeadingNumber (nameWords typeName) = [] ∧ classNameChars typeName = []) ∨
      ∃ w ws c rest, withoutLeadingNumber (nameWords typeName) = w :: ws ∧
        classNameChars typeName = c :: rest ∧
          DecimalDigit.isDecimalDigit c = isNumbered w := by
  cases words : withoutLeadingNumber (nameWords typeName) with
  | nil => exact .inl ⟨rfl, by rw [classNameChars, words]; rfl⟩
  | cons w ws =>
      have listed : w ∈ nameWords typeName :=
        mem_of_mem_withoutLeadingNumber (words ▸ List.mem_cons_self)
      obtain ⟨c, rest, rfl⟩ :=
        List.exists_cons_of_ne_nil (Text.ne_nil_of_mem_runsFrom _ _ w listed)
      have digit := (upper_of_isNameChar (isNameChar_of_mem_nameWords listed List.mem_cons_self)).2
      refine
        .inr ⟨c :: rest, ws, LetterCase.upper c, rest ++ ws.flatMap capitalized, rfl, ?_, digit⟩
      rw [classNameChars, words]
      rfl

theorem leadsWithNumbers_iff {typeName : Text} : LeadsWithNumbers typeName ↔
    ∃ w ws, withoutLeadingNumber (nameWords typeName) = w :: ws ∧ isNumbered w = true := by
  unfold LeadsWithNumbers withoutLeadingNumber
  cases nameWords typeName with
  | nil => simp
  | cons w₁ rest =>
      by_cases numbered : w₁.head?.any DecimalDigit.isDecimalDigit = true
      · have numbered' : isNumbered w₁ = true := numbered
        simp [numbered, numbered']
      · have unnumbered : isNumbered w₁ = false := by simpa [isNumbered] using numbered
        simp [numbered, unnumbered]

/-- **A class name is empty or an identifier exactly when the type name does not lead with two
numbers.** -/
theorem className_isIdentifier_iff (typeName : Text) :
    (className typeName = [] ∨ IsIdentifier (className typeName)) ↔
      ¬ LeadsWithNumbers typeName := by
  rw [leadsWithNumbers_iff]
  rcases classNameChars_cases typeName with ⟨noWord, none⟩ | ⟨w, ws, c, rest, words, named, digit⟩
  · have empty : className typeName = [] := by rw [className, none]; rfl
    simp [noWord, empty]
  · have ne_nil : className typeName ≠ [] := by
      intro empty
      have none := chars_className typeName
      rw [empty, named] at none
      cases none
    have first : (Text.chars (className typeName)).head? = some c := by
      rw [chars_className, named]
      rfl
    constructor
    · rintro (empty | identifier) ⟨w', ws', words', numbered⟩
      · exact ne_nil empty
      · obtain ⟨c', first', noDigit⟩ := identifier.starts
        obtain rfl : w = w' := (List.cons.inj (words.symm.trans words')).1
        obtain rfl : c = c' := Option.some.inj (first.symm.trans first')
        rw [digit, numbered] at noDigit
        cases noDigit
    · intro unnumbered
      refine .inr ⟨fun d mem => isNameChar_of_mem_className mem, c, first, ?_⟩
      rw [digit, Bool.eq_false_iff]
      exact fun numbered => unnumbered ⟨w, ws, words, numbered⟩

/-! ## Type names that are refused -/

theorem upgradeDefinition_invalidTypeName_iff {d : Definition} {name : Text} :
    (upgradeDefinition d).1 = .error (.invalidTypeName name) ↔
      className d.typeName = [] ∧ name = d.typeName := by
  unfold upgradeDefinition
  dsimp only
  by_cases unnamed : className d.typeName = []
  · rw [if_pos unnamed]
    simp [unnamed, eq_comm]
  · rw [if_neg unnamed]
    split <;> simp [unnamed]

/-- The first element with a property, behind others with another one, is the head of a list or lies
in its tail. -/
theorem exists_first_cons_iff {α : Type} {passes stops : α → Prop} {a : α} {rest : List α} :
    (∃ front x behind, a :: rest = front ++ x :: behind ∧ (∀ y ∈ front, passes y) ∧ stops x) ↔
      stops a ∨ passes a ∧
        ∃ front x behind, rest = front ++ x :: behind ∧ (∀ y ∈ front, passes y) ∧ stops x := by
  constructor
  · rintro ⟨front, x, behind, list_eq, passed, stopped⟩
    cases front with
    | nil =>
        obtain ⟨rfl, -⟩ := List.cons.inj list_eq
        exact .inl stopped
    | cons b front =>
        obtain ⟨rfl, rest_eq⟩ := List.cons.inj list_eq
        exact .inr ⟨passed a List.mem_cons_self, front, x, behind, rest_eq,
          fun y mem => passed y (List.mem_cons_of_mem _ mem), stopped⟩
  · rintro (stopped | ⟨passed, front, x, behind, rfl, others, stopped⟩)
    · exact ⟨[], a, rest, rfl, by simp, stopped⟩
    · refine ⟨a :: front, x, behind, rfl, fun y mem => ?_, stopped⟩
      rcases List.mem_cons.mp mem with rfl | mem'
      · exact passed
      · exact others y mem'

/-- A run is refused a type name when it comes to one that has no class name. -/
theorem upgradeFrom_invalidTypeName_iff {doc name : Text} {failure : Option UnmatchedScope} :
    ∀ (found : List Registration) (position : Nat) (findings : Findings),
      (upgradeFrom doc failure position findings found).outcome = .error (.invalidTypeName name) ↔
        ∃ front r behind, found = front ++ r :: behind ∧
          (∀ r' ∈ front, ∃ text, (upgradeDefinition (r'.definition doc)).1 = .ok text) ∧
          (className r.typeName = [] ∧ name = r.typeName)
  | [], position, findings => by
      unfold upgradeFrom
      cases failure <;> simp
  | r :: rest, position, findings => by
      have refused : (upgradeDefinition (r.definition doc)).1 = .error (.invalidTypeName name) ↔
          className r.typeName = [] ∧ name = r.typeName := upgradeDefinition_invalidTypeName_iff
      rw [exists_first_cons_iff, ← refused]
      unfold upgradeFrom
      rcases upgraded : upgradeDefinition (r.definition doc) with ⟨e | text, imports⟩
      · simp
      · rw [← upgradeFrom_invalidTypeName_iff rest r.stop
          ((findings.recordAll imports).addComponent r.typeName)]
        dsimp only
        cases (upgradeFrom doc failure r.stop
          ((findings.recordAll imports).addComponent r.typeName) rest).outcome <;>
          simp [Except.map]

/-- **What classes are called.** For every type name the class name holds letters, decimal digits and
underscores only, and it is empty or an identifier exactly when the first two words of the type name
do not both start with a digit. In an upgraded document each registration has a class of this name,
which is not empty. An upgrade is refused a type name exactly when, behind registrations that have
been upgraded, it comes to one without a class name. -/
theorem classes_named (typeName doc : Text) (findings : Findings) :
    (∀ c ∈ Text.chars (className typeName), isNameChar c = true) ∧
      ((className typeName = [] ∨ IsIdentifier (className typeName)) ↔
        ¬ LeadsWithNumbers typeName) ∧
      (∀ out, (upgrade doc findings).outcome = .ok out →
        ∃ found, registrations doc = .ok found ∧ ∀ r ∈ found, ∃ front rest,
          out = front ++ (typeNameLead (className r.typeName) ++ rest) ∧
          className r.typeName ≠ [] ∧
          (IsIdentifier (className r.typeName) ↔ ¬ LeadsWithNumbers r.typeName)) ∧
      ∀ name, (upgrade doc findings).outcome = .error (.invalidTypeName name) ↔
        ∃ front r behind, (survey doc).found = front ++ r :: behind ∧
          (∀ r' ∈ front, ∃ text, (upgradeDefinition (r'.definition doc)).1 = .ok text) ∧
          (className r.typeName = [] ∧ name = r.typeName) := by
  refine ⟨fun c mem => isNameChar_of_mem_className mem, className_isIdentifier_iff typeName,
    fun out upgraded => ?_, fun name => upgradeFrom_invalidTypeName_iff _ _ _⟩
  obtain ⟨found, surveyed, -, -⟩ := upgrade_ok upgraded
  refine ⟨found, surveyed, fun r mem => ?_⟩
  obtain ⟨front, text, rest, rfl, text_eq⟩ := exists_class_of_mem surveyed upgraded mem
  have named : className r.typeName ≠ [] := by
    intro unnamed
    have refused := upgradeDefinition_invalidTypeName_iff.mpr
      (⟨unnamed, rfl⟩ : className (r.definition doc).typeName = [] ∧ r.typeName = _)
    rw [text_eq] at refused
    cases refused
  obtain ⟨methods, -, class_eq, -⟩ := upgradeDefinition_ok text_eq
  obtain ⟨tail, rfl⟩ : typeNameLead (className r.typeName) <+: text :=
    (List.prefix_append _ _).trans (class_eq ▸ classText_opens ..)
  refine ⟨front, tail ++ rest, by simp, named, ?_⟩
  rw [← className_isIdentifier_iff]
  simp [named]

/-- A type name with two numbers in front: the class name starts with the second one. -/
theorem class_named_behind_numbers :
    let doc := utf8 "WL.registerComponent('3d-2d', \x7b\x7d);"
    let out := classText (utf8 "2d") (utf8 "3d-2d") [] []
    (upgrade doc .empty).outcome = .ok out ∧ ¬ IsIdentifier (utf8 "2d") ∧
      ∃ found, registrations doc = .ok found ∧
        ∀ r ∈ found, ¬ IsIdentifier (className r.typeName) := by
  intro doc out
  obtain ⟨-, named_iff, upgrades, -⟩ := classes_named (utf8 "3d-2d") doc .empty
  have surveyed : registrations doc = .ok [⟨0, 34, utf8 "3d-2d", ⟨30, 31⟩, none⟩] := by rfl
  have upgraded : (upgrade doc .empty).outcome = .ok out := by decide +kernel
  have leads : LeadsWithNumbers (utf8 "3d-2d") :=
    ⟨['3', 'd'], ['2', 'd'], [], by decide +kernel, by decide +kernel, by decide +kernel⟩
  have named : className (utf8 "3d-2d") = utf8 "2d" := by decide +kernel
  refine ⟨upgraded, fun identifier => ?_, ?_⟩
  · exact named_iff.mp (.inr (named.symm ▸ identifier)) leads
  · obtain ⟨found, surveyed', facts⟩ := upgrades out upgraded
    obtain rfl : _ = found := Except.ok.inj (surveyed.symm.trans surveyed')
    refine ⟨_, surveyed, fun r mem identifier => ?_⟩
    obtain ⟨-, -, -, -, exact_iff⟩ := facts r mem
    obtain rfl := List.mem_singleton.mp mem
    exact exact_iff.mp identifier leads

end Component

end ClassUpgrade
