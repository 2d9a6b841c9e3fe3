/-
# Proofs.Component.TypeName — when a class gives the type name back

The head of a registration takes its type name between single quotes, between
double quotes or between backticks, and admits every byte but the quote used, a
line feed and a backslash (`lawful_of_head`). The class text writes the name
between single quotes and escapes nothing. So a name with a single quote, which
only the other two spellings admit, ends the string early.

* `denotes_iff`: the string written for a lawful name is read back as the name
  exactly when the name holds no single quote;
* `typeName_denoted_iff`: the same for every registration of an upgraded document.
-/
import ClassUpgrade.Proofs.Component.Splice

namespace ClassUpgrade

set_option autoImplicit false

open Byte

namespace Source

open Cursor

/-- The string at a place denotes a text and is the last thing in a statement on its line: the text
stands between its quotes, and the place behind it is that of the semicolon at the end of the line. -/
structure Cursor.DenotesLast (c : Cursor) (t : Text) : Prop where
  between : c.after.slice 1 (quotedLength c.after - 1) = t
  ends : utf8 ";\n" <+: (c.advance (quotedLength c.after)).after

theorem mem_or_quotedLength_eq {t : Text} (rest : Text) (noLine : lineFeed ∉ t)
    (noEscape : backslash ∉ t) :
    (singleQuote ∈ t ∧
        quotedLength (singleQuote :: (t ++ singleQuote :: rest)) < t.length + 2) ∨
      (singleQuote ∉ t ∧
        quotedLength (singleQuote :: (t ++ singleQuote :: rest)) = t.length + 2) := by
  by_cases inside : singleQuote ∈ t
  · -- the string ends at the first quote inside the text
    obtain ⟨x, y, rfl, first⟩ := List.eq_append_cons_of_mem inside
    simp only [List.mem_append, List.mem_cons, not_or] at noLine noEscape
    have short := Component.quotedTail_name singleQuote x (y ++ singleQuote :: rest) first
      noLine.1 noEscape.1 (by decide)
    refine .inl ⟨inside, ?_⟩
    rw [List.append_assoc, List.cons_append, quotedLength, short]
    simp only [List.length_append, List.length_cons]
    omega
  · have whole := Component.quotedTail_name singleQuote t rest inside noLine noEscape (by decide)
    exact .inr ⟨inside, by rw [quotedLength, whole]⟩

/-- **A text in single quotes, without escapes, is read back exactly when it holds no single
quote.** -/
theorem denotes_iff {c : Cursor} {t : Text} (written : singleQuote :: (t ++ utf8 "';\n") <+: c.after)
    (noLine : lineFeed ∉ t) (noEscape : backslash ∉ t) :
    c.DenotesLast t ↔ singleQuote ∉ t := by
  obtain ⟨rest, after_eq⟩ := written
  have line_end : utf8 "';\n" = singleQuote :: utf8 ";\n" := rfl
  have after_eq' : c.after = singleQuote :: (t ++ singleQuote :: (utf8 ";\n" ++ rest)) := by
    rw [← after_eq, line_end]
    simp
  have length_eq := mem_or_quotedLength_eq (utf8 ";\n" ++ rest) noLine noEscape
  rw [← after_eq'] at length_eq
  constructor
  · intro denotes inside
    obtain ⟨-, short⟩ | ⟨free, -⟩ := length_eq
    · have nonempty : 0 < t.length := List.length_pos_of_mem inside
      have between := congrArg List.length denotes.between
      rw [Text.slice, List.length_take] at between
      omega
    · exact free inside
  · intro free
    obtain ⟨inside, -⟩ | ⟨-, whole⟩ := length_eq
    · exact absurd inside free
    · refine ⟨Text.slice_eq_of_append (x := [singleQuote])
        (z := singleQuote :: (utf8 ";\n" ++ rest)) after_eq' rfl ?_, ?_⟩
      · rw [whole]
        omega
      · have behind : (c.advance (t.length + 2)).after = utf8 ";\n" ++ rest := by
          rw [after_advance, after_eq']
          simp
        rw [whole, behind]
        exact List.prefix_append _ _

end Source

namespace Component

open Source Source.Cursor

/-! ## The names that heads admit -/

/-- A type name read from a head holds neither a line feed nor a backslash. -/
theorem lawful_of_head {c brace : Cursor} {name : Text}
    (found : registrationHead? c = some (name, brace)) : lineFeed ∉ name ∧ backslash ∉ name := by
  simp only [registrationHead?, Option.bind_eq_bind, Option.bind_eq_some_iff, Option.guard_eq_some',
    Option.some.injEq, Prod.mk.injEq] at found
  obtain ⟨-, -, c₁, -, -, -, c₂, -, ⟨name', c₃⟩, quoted, c₄, -, -, -, rfl, -⟩ := found
  obtain ⟨-, -, -, -, -, -, noLine, noEscape⟩ := quotedName?_parts quoted
  exact ⟨noLine, noEscape⟩

theorem lawful_of_mem {doc : Text} {found : List Registration}
    (surveyed : registrations doc = .ok found) {r : Registration} (mem : r ∈ found) :
    lineFeed ∉ r.typeName ∧ backslash ∉ r.typeName := by
  obtain ⟨c, brace, name, -, -, -, head, completed⟩ :=
    (surveys_registrations surveyed).read_of_mem r mem
  obtain ⟨-, rfl, -⟩ := complete_walk completed
  exact lawful_of_head head

/-! ## The class of a registration in the upgraded document -/

/-- What a class holds in front of its type name. -/
def typeNameLead (name : Text) : Text :=
  utf8 "export class " ++ name ++ utf8 " extends " ++ baseClass ++ utf8 " \x7b\n" ++
    utf8 "    static TypeName = "

theorem classText_opens (name typeName properties methods : Text) :
    typeNameLead name ++ (singleQuote :: (typeName ++ utf8 "';\n")) <+:
      classText name typeName properties methods := by
  have quoted : utf8 "    static TypeName = '" =
    utf8 "    static TypeName = " ++ [singleQuote] := rfl
  refine ⟨utf8 "    static Properties = \x7b" ++ properties ++ utf8 "\x7d;\n" ++ methods ++
    [closeBrace], ?_⟩
  simp [classText, typeNameLead, quoted]

theorem exists_interleave_of_mem : ∀ (gaps pieces : List Text) {p : Text}, p ∈ pieces →
    ∃ front rest, interleave gaps pieces = front ++ (p ++ rest)
  | gaps, [], p, mem => nomatch mem
  | [], piece :: pieces, p, mem => by
      obtain ⟨xs, ys, pieces_eq⟩ := List.append_of_mem mem
      refine ⟨xs.flatten, ys.flatten, ?_⟩
      rw [pieces_eq]
      cases xs <;> simp [interleave]
  | gap :: gaps, piece :: pieces, p, mem => by
      rw [interleave]
      rcases List.mem_cons.mp mem with rfl | later
      · exact ⟨gap, _, List.append_assoc ..⟩
      · obtain ⟨front, rest, rest_eq⟩ := exists_interleave_of_mem gaps pieces later
        exact ⟨gap ++ piece ++ front, rest, by simp [rest_eq]⟩

/-- An upgraded document holds the class of each registration. -/
theorem exists_class_of_mem {doc out : Text} {findings : Findings} {found : List Registration}
    (surveyed : registrations doc = .ok found)
    (upgraded : (upgrade doc findings).outcome = .ok out) {r : Registration} (mem : r ∈ found) :
    ∃ front text rest, out = front ++ (text ++ rest) ∧
      (upgradeDefinition (r.definition doc)).1 = .ok text := by
  obtain ⟨found', surveyed', ⟨classes, classes_eq, rfl⟩, -⟩ := upgrade_ok upgraded
  obtain rfl : found' = found := Except.ok.inj (surveyed'.symm.trans surveyed)
  obtain ⟨text, text_mem, text_eq⟩ := class_of_mem classes_eq mem
  obtain ⟨front, rest, out_eq⟩ :=
    exists_interleave_of_mem (gaps doc (found'.map Registration.span)) classes text_mem
  exact ⟨front, text, rest, out_eq, text_eq⟩

/-- **When a class gives the type name of its registration back.** In an upgraded document the class
of each registration writes the type name between single quotes at the end of its second line. The
string there denotes the type name, and ends in front of the last semicolon of the line, exactly when
the name holds no single quote. -/
theorem typeName_denoted_iff {doc out : Text} {findings : Findings} {found : List Registration}
    (surveyed : registrations doc = .ok found)
    (upgraded : (upgrade doc findings).outcome = .ok out) :
    ∀ r ∈ found, ∃ front text rest, out = front ++ (text ++ rest) ∧
      (upgradeDefinition (r.definition doc)).1 = .ok text ∧
      let lead := typeNameLead (className r.typeName)
      lead ++ (singleQuote :: (r.typeName ++ utf8 "';\n")) <+: text ∧
      ((ofOffset out (front ++ lead).length).DenotesLast r.typeName ↔ singleQuote ∉ r.typeName) := by
  intro r mem
  obtain ⟨front, text, rest, rfl, text_eq⟩ := exists_class_of_mem surveyed upgraded mem
  obtain ⟨methods, -, class_eq, -⟩ := upgradeDefinition_ok text_eq
  have opens : typeNameLead (className r.typeName) ++ (singleQuote :: (r.typeName ++ utf8 "';\n")) <+:
      text := class_eq ▸ classText_opens ..
  refine ⟨front, text, rest, rfl, text_eq, opens, ?_⟩
  obtain ⟨noLine, noEscape⟩ := lawful_of_mem surveyed mem
  refine denotes_iff ?_ noLine noEscape
  obtain ⟨tail, rfl⟩ := opens
  refine ⟨tail ++ rest, ?_⟩
  show _ = List.drop _ _
  rw [show front ++ (typeNameLead (className r.typeName) ++ (singleQuote :: (r.typeName ++
    utf8 "';\n")) ++ tail ++ rest) = (front ++ typeNameLead (className r.typeName)) ++
      ((singleQuote :: (r.typeName ++ utf8 "';\n")) ++ (tail ++ rest)) by simp, List.drop_left]

/-- A type name with a single quote, written between double quotes: its class has a string that ends
inside the name. -/
theorem typeName_lost_behind_quote :
    let doc := utf8 "WL.registerComponent(\"it's\", \x7b\x7d);"
    let out := classText (utf8 "ItS") (utf8 "it's") [] []
    (upgrade doc .empty).outcome = .ok out ∧
      ¬ (ofOffset out (typeNameLead (utf8 "ItS")).length).DenotesLast (utf8 "it's") := by
  intro doc out
  have surveyed : registrations doc = .ok [⟨0, 33, utf8 "it's", ⟨29, 30⟩, none⟩] := by rfl
  have upgraded : (upgrade doc .empty).outcome = .ok out := by decide +kernel
  obtain ⟨front, text, rest, out_eq, text_eq, -, denotes⟩ :=
    typeName_denoted_iff surveyed upgraded _ List.mem_cons_self
  -- the class is the whole document
  have defined : (⟨0, 33, utf8 "it's", ⟨29, 30⟩, none⟩ : Registration).definition doc =
      ⟨utf8 "it's", [], []⟩ := by decide
  have whole : (upgradeDefinition ⟨utf8 "it's", [], []⟩).1 = .ok out := by decide +kernel
  rw [defined, whole] at text_eq
  obtain rfl := Except.ok.inj text_eq
  have alone : front = [] := by
    have length_eq := congrArg List.length out_eq
    rw [List.length_append, List.length_append] at length_eq
    exact List.eq_nil_of_length_eq_zero (by omega)
  have named : className (utf8 "it's") = utf8 "ItS" := by decide +kernel
  have quoted : singleQuote ∈ utf8 "it's" := by decide
  dsimp only at denotes
  rw [alone, named, List.nil_append] at denotes
  exact ⟨upgraded, fun read => denotes.mp read quoted⟩

end Component

end ClassUpgrade
