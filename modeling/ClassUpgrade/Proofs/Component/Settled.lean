/-
# Proofs.Component.Settled — an upgraded document has no registration left

When the name of the registration function occurs in a document only as often as
there are registrations, their heads have all of the occurrences, and the gaps,
the type names, the properties and the methods have none (`clean_of_count`). What
the upgrade makes of them is clean as well, and a class name has no dot, so the
result holds no call of the function (`uncalled_interleave`). A survey finds a
registration only at such a call (`registrationHead?_call`), so a second upgrade
finds nothing, changes nothing and fails at nothing (`upgrade_settled`).
-/
import ClassUpgrade.Proofs.Component.ClassName
import ClassUpgrade.Proofs.Component.Clean
import ClassUpgrade.Proofs.Component.Splice
import ClassUpgrade.Proofs.Component.Survey
import Mathlib.Algebra.GroupWithZero.Nat

namespace ClassUpgrade.Component

set_option autoImplicit false

open Byte Source Source.Cursor

/-! ## Calls -/

/-- No call of the registration function occurs: a dot, blanks and the name of the function. -/
def Uncalled (t : Text) : Prop :=
  ∀ blanks : Text, (∀ b ∈ blanks, isSpace b = true) →
    ¬ (dot :: (blanks ++ registrationFunction)) <:+: t

/-- A byte that no call holds. -/
def dividesCalls (b : UInt8) : Bool := !isSpace b && b != dot && !registrationFunction.contains b

namespace Uncalled

variable {x y t : Text}

theorem of_clean (clean : Clean t) : Uncalled t := by
  intro blanks _ occurs
  have inside : registrationFunction <:+: dot :: (blanks ++ registrationFunction) :=
    List.infix_cons List.infix_append_right
  exact clean (inside.trans occurs)

theorem of_noDot (noDot : dot ∉ t) : Uncalled t := by
  intro blanks _ occurs
  exact noDot (occurs.mem List.mem_cons_self)

theorem append_cons (left : Uncalled x) (right : Uncalled y) {separator : UInt8}
    (divides : dividesCalls separator = true) : Uncalled (x ++ separator :: y) := by
  intro blanks blank occurs
  simp only [dividesCalls, Bool.and_eq_true, Bool.not_eq_true', bne_iff_ne, ne_eq,
    List.contains_eq_mem, decide_eq_false_iff_not] at divides
  obtain ⟨⟨noBlank, noDot⟩, noName⟩ := divides
  have other : separator ∉ dot :: (blanks ++ registrationFunction) := by
    intro mem
    rcases List.mem_cons.mp mem with rfl | mem
    · exact noDot rfl
    · rcases List.mem_append.mp mem with inBlanks | inName
      · rw [blank separator inBlanks] at noBlank
        cases noBlank
      · exact noName inName
  rcases Text.infix_of_separator other occurs with before | after
  · exact left blanks blank before
  · exact right blanks blank after

theorem cons (right : Uncalled y) {separator : UInt8} (divides : dividesCalls separator = true) :
    Uncalled (separator :: y) :=
  append_cons (x := []) (of_noDot (by decide)) right divides

end Uncalled

/-- The head of a registration holds a call, and behind it, in front of the brace of the properties,
the type name. -/
theorem registrationHead?_call {c brace : Cursor} {name : Text}
    (found : registrationHead? c = some (name, brace)) :
    ∃ lead blanks between, (∀ b ∈ blanks, isSpace b = true) ∧ name <:+: between ∧
      c.after =
        lead ++ (dot :: (blanks ++ (registrationFunction ++ (between ++ brace.after)))) := by
  simp only [registrationHead?, Option.bind_eq_bind, Option.bind_eq_some_iff, Option.guard_eq_some',
    Option.some.injEq, Prod.mk.injEq, beq_iff_eq] at found
  obtain ⟨-, object, c₁, dotted, -, function, c₂, opened, ⟨name', c₃⟩, quoted, c₄, comma, -, -, rfl,
    rfl⟩ := found
  obtain ⟨lead, lead_eq⟩ := ((Walk.word c).trans (.skipSpace _)).exists_after
  obtain ⟨blanks, blank, blanks_eq⟩ := c₁.exists_blanks
  have function_eq := c₁.skipSpace.after_word
  obtain ⟨x, x_eq⟩ := ((Walk.skipSpace _).trans ((Walk.expect? opened (by decide)).trans
    (.skipSpace c₂))).exists_after
  obtain ⟨quote, tail, -, quoted_eq, rfl, -, -, -⟩ := quotedName?_parts quoted
  obtain ⟨y, y_eq⟩ := ((Walk.skipSpace _).trans ((Walk.expect? comma (by decide)).trans
    (.skipSpace c₄))).exists_after
  rw [object] at lead_eq
  rw [function] at function_eq
  have tail_eq : tail = y ++ c₄.skipSpace.after := by
    rw [← y_eq, after_advance, quoted_eq]
    simp
  refine ⟨lead, blanks, x ++ quote :: (name' ++ quote :: y), blank, ?_, ?_⟩
  · exact ⟨x ++ [quote], quote :: y, by simp⟩
  · rw [lead_eq, after_of_expect? dotted, blanks_eq, function_eq, x_eq, quoted_eq, tail_eq]
    simp

/-- Without a call there is no head. -/
theorem registrationHead?_eq_none {c : Cursor} (uncalled : Uncalled c.text) :
    registrationHead? c = none := by
  cases found : registrationHead? c with
  | none => rfl
  | some head =>
      obtain ⟨name, brace⟩ := head
      obtain ⟨lead, blanks, between, blank, -, after_eq⟩ := registrationHead?_call found
      refine absurd ?_ (uncalled blanks blank)
      rw [text, after_eq]
      exact ⟨c.before.reverse ++ lead, between ++ brace.after, by simp⟩

/-- A document without calls is upgraded to itself. -/
theorem upgrade_of_uncalled {doc : Text} (uncalled : Uncalled doc) (findings : Findings) :
    upgrade doc findings = ⟨.ok doc, findings, []⟩ := by
  have empty : survey doc = ⟨[], none⟩ := by
    refine (surveys_survey doc).nothing fun d walk => registrationHead?_eq_none ?_
    rw [walk.text_eq, text_start]
    exact uncalled
  rw [upgrade, empty]
  rfl

/-! ## Counting -/

section Counting

variable {part : Text}

theorem occurrences_flatten_le (ne_nil : part ≠ []) : ∀ pieces : List Text,
    (pieces.map (Text.occurrences part)).sum ≤ Text.occurrences part pieces.flatten
  | [] => by simp
  | x :: rest => by
      have ih := occurrences_flatten_le ne_nil rest
      have split := Text.occurrences_append_le ne_nil x rest.flatten
      simp only [List.map_cons, List.sum_cons, List.flatten_cons]
      omega

theorem occurrences_interleave_le (ne_nil : part ≠ []) : ∀ gaps pieces : List Text,
    (gaps.map (Text.occurrences part)).sum + (pieces.map (Text.occurrences part)).sum ≤
      Text.occurrences part (interleave gaps pieces)
  | gaps, [] => by
      have flat : interleave gaps [] = gaps.flatten := by cases gaps <;> rfl
      rw [flat]
      simpa using occurrences_flatten_le ne_nil gaps
  | [], p :: pieces => by simpa [interleave] using occurrences_flatten_le ne_nil (p :: pieces)
  | g :: gaps, p :: pieces => by
      have ih := occurrences_interleave_le ne_nil gaps pieces
      have whole := Text.occurrences_append_le ne_nil (g ++ p) (interleave gaps pieces)
      have split := Text.occurrences_append_le ne_nil g p
      simp only [List.map_cons, List.sum_cons, interleave]
      omega

/-- When every piece has the part and the whole has it no more often than there are pieces, the gaps
have it nowhere and each piece has it once. -/
theorem occurrences_of_count (ne_nil : part ≠ []) {gaps pieces : List Text}
    (held : ∀ p ∈ pieces, 0 < Text.occurrences part p)
    (count : Text.occurrences part (interleave gaps pieces) = pieces.length) :
    (∀ g ∈ gaps, Text.occurrences part g = 0) ∧ ∀ p ∈ pieces, Text.occurrences part p ≤ 1 := by
  have excess : ∀ l : List Text, (∀ p ∈ l, 0 < Text.occurrences part p) →
      (l.map (Text.occurrences part)).sum =
        l.length + (l.map fun p => Text.occurrences part p - 1).sum := by
    intro l held
    induction l with
    | nil => rfl
    | cons p rest ih =>
        have first := held p List.mem_cons_self
        have others := ih fun p' mem => held p' (List.mem_cons_of_mem _ mem)
        simp only [List.map_cons, List.sum_cons, List.length_cons]
        omega
  have le := occurrences_interleave_le ne_nil gaps pieces
  rw [count, excess pieces held] at le
  have gaps_zero : (gaps.map (Text.occurrences part)).sum = 0 := by omega
  have excess_zero : (pieces.map fun p => Text.occurrences part p - 1).sum = 0 := by omega
  rw [List.sum_eq_zero_iff_forall_eq_nat] at gaps_zero excess_zero
  refine ⟨fun g mem => gaps_zero _ (List.mem_map_of_mem mem), fun p mem => ?_⟩
  have := excess_zero _ (List.mem_map_of_mem mem)
  omega

end Counting

/-- The head of a registration has the name of the function, and what it defines comes behind. -/
theorem definition_behind_name {doc : Text} {found : List Registration}
    (surveyed : registrations doc = .ok found) {r : Registration} (mem : r ∈ found) :
    ∃ front rest, r.span.cover doc = front ++ rest ∧ registrationFunction <:+: front ∧
      r.typeName <:+: rest ∧ (r.definition doc).properties <:+: rest ∧
      (r.definition doc).methods <:+: rest := by
  obtain ⟨c, brace, name, walk, -, -, head, completed⟩ :=
    (surveys_registrations surveyed).read_of_mem r mem
  obtain ⟨start_eq, lt, -, -, -⟩ := registration_walk head completed
  obtain ⟨-, rfl, -⟩ := complete_walk completed
  obtain ⟨closed, properties_lt, methods_lt⟩ := complete_scopes completed
  obtain ⟨lead, blanks, between, -, named, after_eq⟩ := registrationHead?_call head
  have text_eq : c.text = doc := walk.text_eq.trans (text_start doc)
  let front := lead ++ (dot :: (blanks ++ registrationFunction))
  let p := c.offset + front.length
  have doc_eq : doc = c.before.reverse ++ (front ++ (between ++ brace.after)) := by
    rw [← text_eq, text, after_eq]
    simp [front]
  have brace_eq : brace.offset = p + between.length := by
    have here := brace.offset_add_length
    rw [(registrationHead?_walk head).1.text_eq, text_eq, doc_eq] at here
    simp only [List.length_append, List.length_reverse] at here
    simp only [p, offset] at here ⊢
    omega
  obtain ⟨properties_eq, properties_le, properties_inside, -⟩ := scope_walk closed
  have short : brace.offset ≤ doc.length := by
    rw [← text_eq, ← (registrationHead?_walk head).1.text_eq]
    exact brace.offset_le_length
  have front_eq : doc.slice c.offset p = front :=
    Text.slice_eq_of_append doc_eq (by simp [offset]) rfl
  have between_eq : doc.slice p brace.offset = between :=
    Text.slice_eq_of_append (x := c.before.reverse ++ front) (z := brace.after) (by simp [doc_eq])
      (by simp [p, offset]) brace_eq.symm
  have cover_eq : r.span.cover doc = doc.slice c.offset r.stop := by
    show doc.slice r.start (r.stop - 1 + 1) = _
    rw [start_eq, Nat.sub_add_cancel (by omega)]
  refine ⟨front, doc.slice p r.stop, ?_, ?_, ?_, ?_, ?_⟩
  · rw [cover_eq, ← Text.slice_append_slice doc (k := p) (by omega) (by omega) (by omega), front_eq]
  · exact ⟨lead ++ dot :: blanks, [], by simp [front]⟩
  · rw [← between_eq] at named
    exact named.trans (Text.slice_infix_slice doc (by omega) (by omega))
  · exact Text.slice_infix_slice doc (by omega) (by omega)
  · cases methods_eq : r.methods with
    | none => simp [Registration.definition, methods_eq]
    | some span =>
        obtain ⟨span_lt, d, onward, closed'⟩ := methods_lt span methods_eq
        have span_eq := (scope_walk closed').1
        have later := onward.offset_le
        simp only [Registration.definition, methods_eq, Option.map_some, Option.getD_some]
        exact Text.slice_infix_slice doc (by omega) (by omega)

/-- When the name of the function occurs only as often as there are registrations, the gaps and what
the registrations define are clean. -/
theorem clean_of_count {doc : Text} {found : List Registration}
    (surveyed : registrations doc = .ok found)
    (count : Text.occurrences registrationFunction doc = found.length) :
    (∀ gap ∈ gaps doc (found.map Registration.span), Clean gap) ∧
      ∀ r ∈ found, Clean r.typeName ∧ Clean (r.definition doc).properties ∧
        Clean (r.definition doc).methods := by
  have ne_nil : registrationFunction ≠ [] := by decide
  have zero : ∀ t, Text.occurrences registrationFunction t = 0 → Clean t := by
    intro t none occurs
    have := Text.occurrences_pos occurs
    omega
  let covers := found.map fun r => r.span.cover doc
  have held : ∀ p ∈ covers, 0 < Text.occurrences registrationFunction p := by
    intro p mem
    obtain ⟨r, r_mem, rfl⟩ := List.mem_map.mp mem
    obtain ⟨front, rest, cover_eq, named, -⟩ := definition_behind_name surveyed r_mem
    refine Text.occurrences_pos ?_
    rw [cover_eq]
    exact List.infix_append_of_infix_left named
  have count' : Text.occurrences registrationFunction
      (interleave (gaps doc (found.map Registration.span)) covers) = covers.length := by
    rw [interleave_gaps_cover surveyed, count, List.length_map]
  obtain ⟨none, once⟩ := occurrences_of_count ne_nil held count'
  refine ⟨fun gap mem => zero gap (none gap mem), fun r mem => ?_⟩
  obtain ⟨front, rest, cover_eq, named, typeName, properties, methods⟩ :=
    definition_behind_name surveyed mem
  have least := Text.occurrences_append_le ne_nil front rest
  have held := Text.occurrences_pos named
  have most := once _ (List.mem_map_of_mem mem)
  rw [cover_eq] at most
  have clean : Clean rest := zero rest (by omega)
  exact ⟨clean.of_infix typeName, clean.of_infix properties, clean.of_infix methods⟩

/-! ## Classes -/

theorem Clean.concat {t : Text} (clean : Clean t) {b : UInt8}
    (other : registrationFunction.getLast? ≠ some b) : Clean (t ++ [b]) := by
  intro occurs
  rcases List.infix_concat_iff.mp occurs with ends | inside
  · obtain ⟨x, x_eq⟩ := ends
    apply other
    have last := congrArg List.getLast? x_eq
    rwa [List.getLast?_append_of_ne_nil _ (by decide), List.getLast?_concat] at last
  · exact clean inside

/-- A class made of clean parts, behind a clean gap: no call lies in it, nor across its ends. -/
theorem uncalled_class {gap typeName properties methods rest : Text} (gap_clean : Clean gap)
    (name_clean : Clean typeName) (properties_clean : Clean properties)
    (methods_clean : Clean methods) (rest_uncalled : Uncalled rest) :
    Uncalled (gap ++ classText (className typeName) typeName properties methods ++ rest) := by
  let head : Text := utf8 "port class " ++ (className typeName ++ (utf8 " extends " ++ (baseClass ++
    (utf8 " \x7b\n" ++ utf8 "    static TypeName = "))))
  let middle : Text := utf8 ";\n" ++ utf8 "    static Properties = "
  -- the text of the class, divided at bytes that no call holds
  have text_eq : gap ++ classText (className typeName) typeName properties methods ++ rest =
      (gap ++ [0x65]) ++ 0x78 :: (head ++ singleQuote :: (typeName ++ singleQuote :: (middle ++
        openBrace :: (properties ++ closeBrace :: semicolon :: ((lineFeed :: methods) ++
          closeBrace :: rest))))) := by
    have first : utf8 "export class " = 0x65 :: 0x78 :: utf8 "port class " := rfl
    have quoted : utf8 "    static TypeName = '" =
      utf8 "    static TypeName = " ++ [singleQuote] := rfl
    have unquoted : utf8 "';\n" = singleQuote :: utf8 ";\n" := rfl
    have opened : utf8 "    static Properties = \x7b" =
      utf8 "    static Properties = " ++ [openBrace] := rfl
    have closed : utf8 "\x7d;\n" = [closeBrace, semicolon, lineFeed] := rfl
    simp [classText, head, middle, first, quoted, unquoted, opened, closed]
  have noDot : dot ∉ head := by
    simp only [head, List.mem_append, not_or]
    exact ⟨by decide, dot_notMem_className typeName, by decide⟩
  have tail : Uncalled ((lineFeed :: methods) ++ closeBrace :: rest) :=
    .append_cons (.of_clean (methods_clean.cons (by decide))) rest_uncalled (by decide)
  have body : Uncalled (middle ++ openBrace :: (properties ++ closeBrace :: semicolon ::
      ((lineFeed :: methods) ++ closeBrace :: rest))) :=
    .append_cons (.of_noDot (by decide))
      (.append_cons (.of_clean properties_clean) (tail.cons (by decide)) (by decide)) (by decide)
  rw [text_eq]
  refine .append_cons (.of_clean (gap_clean.concat (by decide))) ?_ (by decide)
  exact .append_cons (.of_noDot noDot)
    (.append_cons (.of_clean name_clean) body (by decide)) (by decide)

/-- What a clean definition is upgraded to. -/
theorem class_of_definition {d : Definition} {text : Text}
    (upgraded : (upgradeDefinition d).1 = .ok text) (properties : Clean d.properties)
    (methods : Clean d.methods) :
    ∃ properties' methods',
      text = classText (className d.typeName) d.typeName properties' methods' ∧
        Clean properties' ∧ Clean methods' := by
  obtain ⟨methods', methods_eq, rfl, -⟩ := upgradeDefinition_ok upgraded
  exact ⟨_, _, rfl, properties.propertyTypes, methods.methods methods_eq⟩

/-- Clean gaps and classes made of clean parts, taken in turn, hold no call. -/
theorem uncalled_interleave : ∀ (gaps classes : List Text), gaps.length = classes.length + 1 →
    (∀ gap ∈ gaps, Clean gap) →
    (∀ text ∈ classes, ∃ typeName properties methods,
      text = classText (className typeName) typeName properties methods ∧ Clean typeName ∧
        Clean properties ∧ Clean methods) →
      Uncalled (interleave gaps classes)
  | gap :: gaps, [], length_eq, clean, _ => by
      obtain rfl : gaps = [] := by simpa using length_eq
      have alone : interleave [gap] [] = gap := by simp [interleave]
      rw [alone]
      exact .of_clean (clean gap List.mem_cons_self)
  | gap :: gaps, text :: classes, length_eq, clean, made => by
      obtain ⟨typeName, properties, methods, rfl, name_clean, properties_clean, methods_clean⟩ :=
        made _ List.mem_cons_self
      have rest : Uncalled (interleave gaps classes) :=
        uncalled_interleave gaps classes (by simpa using length_eq)
          (fun g mem => clean g (List.mem_cons_of_mem _ mem))
          fun t mem => made t (List.mem_cons_of_mem _ mem)
      exact uncalled_class (clean gap List.mem_cons_self) name_clean properties_clean methods_clean
        rest

/-- **An upgraded document is settled.** When the name of the registration function occurs in a
document only as often as the document has registrations, upgrading the result changes nothing: it
succeeds with the same text, and adds nothing to the findings and to the log. -/
theorem upgrade_settled {doc out : Text} {findings : Findings} {found : List Registration}
    (upgraded : (upgrade doc findings).outcome = .ok out) (surveyed : registrations doc = .ok found)
    (count : Text.occurrences registrationFunction doc = found.length) (findings' : Findings) :
    upgrade out findings' = ⟨.ok out, findings', []⟩ := by
  obtain ⟨found', surveyed', ⟨classes, classes_eq, rfl⟩, -⟩ := upgrade_ok upgraded
  obtain rfl : found' = found := Except.ok.inj (surveyed'.symm.trans surveyed)
  obtain ⟨clean_gaps, clean_definitions⟩ := clean_of_count surveyed count
  refine upgrade_of_uncalled (uncalled_interleave _ classes ?_ clean_gaps fun text mem => ?_) _
  · have length_eq := congrArg List.length classes_eq
    rw [List.length_map, List.length_map] at length_eq
    rw [gaps, length_gapsFrom, List.length_map, length_eq]
  · have mem' : Except.ok text ∈ found'.map fun r => (upgradeDefinition (r.definition doc)).1 := by
      rw [classes_eq]
      exact List.mem_map_of_mem mem
    obtain ⟨r, r_mem, text_eq⟩ := List.mem_map.mp mem'
    obtain ⟨name_clean, properties_clean, methods_clean⟩ := clean_definitions r r_mem
    obtain ⟨properties, methods, rfl, clean, clean'⟩ :=
      class_of_definition text_eq properties_clean methods_clean
    exact ⟨_, _, _, rfl, name_clean, clean, clean'⟩

/-- A registration whose class name holds the name of the function, as the end of a longer word. -/
theorem upgrade_settled_longerName :
    let doc := utf8 "WL.registerComponent('xregister-component', \x7b\x7d, \x7b\x7d);"
    let out := classText (utf8 "XregisterComponent") (utf8 "xregister-component") [] []
    (upgrade doc .empty).outcome = .ok out ∧ registrationFunction <:+: out ∧
      Text.occurrences registrationFunction doc = 1 ∧
      (∃ found, registrations doc = .ok found ∧ found.length = 1) ∧
      ∀ findings, upgrade out findings = ⟨.ok out, findings, []⟩ := by
  intro doc out
  have upgraded : (upgrade doc .empty).outcome = .ok out := by decide +kernel
  have count : Text.occurrences registrationFunction doc = 1 := by decide +kernel
  have surveyed : registrations doc =
      .ok [⟨0, 52, utf8 "xregister-component", ⟨44, 45⟩, some ⟨48, 49⟩⟩] := by rfl
  exact ⟨upgraded, by decide +kernel, count, ⟨_, surveyed, rfl⟩,
    upgrade_settled upgraded surveyed count⟩

end ClassUpgrade.Component
