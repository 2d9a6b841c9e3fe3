/-
# Proofs.Component.Clean — the name of the registration function stays out

A text is clean when the name of the registration function does not occur in it,
be it inside a longer word. The name is one word, so cleanness survives every step of an upgrade
that keeps words whole:

* the symbol rules are fenced, and none of them puts the name in
  (`Clean.symbols`, `Clean.propertyTypes`);
* the splice of methods copies parts of the text between bytes that the name does
  not have, and a header starts where a word starts (`Clean.methods`).

A class name is made of the words of a type name put together, so it need not be
clean. A call has a dot before the name; `Uncalled` says only that no call
occurs, and it holds of a text without dots.
-/
import ClassUpgrade.Component.Class
import ClassUpgrade.Proofs.Component.Symbol
import ClassUpgrade.Proofs.Source.Method

namespace ClassUpgrade.Component

set_option autoImplicit false

open Byte Source Source.Cursor

/-- The name of the registration function does not occur. -/
def Clean (t : Text) : Prop := ¬ registrationFunction <:+: t

instance (t : Text) : Decidable (Clean t) :=
  inferInstanceAs (Decidable (¬ registrationFunction <:+: t))

namespace Clean

variable {x y t : Text}

theorem of_infix (clean : Clean t) (inside : x <:+: t) : Clean x :=
  fun occurs => clean (occurs.trans inside)

theorem append_cons (left : Clean x) (right : Clean y) {separator : UInt8}
    (other : separator ∉ registrationFunction) : Clean (x ++ separator :: y) :=
  fun occurs => (Text.infix_of_separator other occurs).elim left right

theorem cons (right : Clean y) {separator : UInt8} (other : separator ∉ registrationFunction) :
    Clean (separator :: y) :=
  append_cons (x := []) (by decide) right other

theorem isSymbolByte_of_mem : ∀ b ∈ registrationFunction, isSymbolByte b = true :=
  List.all_eq_true.mp (by decide)

/-- Two clean texts meet where no word goes on from the first into the second. -/
theorem append (left : Clean x) (right : Clean y)
    (seam : ∀ b ∈ x.getLast?, isSymbolByte b = false) : Clean (x ++ y) :=
  fun occurs => (Text.infix_of_seam isSymbolByte_of_mem (.inl seam) occurs).elim left right

/-! ## Symbol rules -/

theorem apply {r : SymbolRule} (fenced : r.Fenced)
    (absent : ∀ {c : Cursor} {n : Nat} {captured : Text},
      matchPattern? c r.pattern = some (n, captured) → Clean c.after →
        Clean (r.replacement.expand captured))
    (clean : Clean t) : Clean (r.apply t).1 :=
  (applies_apply r t).keeps_out isSymbolByte_of_mem (by decide) fenced absent clean

theorem propertyTypes (clean : Clean t) : Clean (propertyTypeRule.apply t).1 := by
  refine clean.apply fenced_propertyTypeRule fun found _ => ?_
  rw [captured_of_silent (by decide) found]
  decide

/-- What a rule for method bodies puts in has the name only when the text has it. -/
theorem expand {r : SymbolRule} (mem : r ∈ defaultSymbolTable) {c : Cursor} {n : Nat}
    {captured : Text} (found : matchPattern? c r.pattern = some (n, captured))
    (clean : Clean c.after) : Clean (r.replacement.expand captured) := by
  have constructors : ∀ name ∈ engineConstructors,
      Clean (bareConstructorRule.replacement.expand name) ∧
        Clean (constructorRule.replacement.expand name) := by decide
  have globals : ∀ name ∈ engineGlobals, Clean (globalRule.replacement.expand name) := by decide
  simp only [defaultSymbolTable, List.mem_cons, List.not_mem_nil, or_false] at mem
  rcases mem with rfl | rfl | rfl | rfl | rfl | rfl | rfl | rfl | rfl | rfl
  · obtain ⟨_, _, named⟩ := captured_between
      [.edge, .exact (utf8 "new"), .blanks 1, .exact (utf8 "WL.")] (.oneOf engineConstructors)
      [.blanks 0, .exact (utf8 "("), .blanks 0, .exact (utf8 ")")] (by decide) found
    exact (constructors captured (match?_oneOf named).1).1
  · obtain ⟨_, _, named⟩ := captured_between
      [.edge, .exact (utf8 "new"), .blanks 1, .exact (utf8 "WL.")] (.oneOf engineConstructors)
      [.blanks 0, .exact (utf8 "(")] (by decide) found
    exact (constructors captured (match?_oneOf named).1).2
  · obtain ⟨m, _, named⟩ := captured_between [.edge, .exact (utf8 "glMatrix.")] .word
      [.exact (utf8 ".")] (by decide) found
    have inside : captured <:+: c.after := by
      rw [match?_word named, after_advance]
      exact (List.takeWhile_prefix _).isInfix.trans (List.drop_suffix m c.after).isInfix
    exact append_cons (clean.of_infix inside) (by decide) (by decide)
  · obtain ⟨_, _, named⟩ := captured_between [.edge, .exact (utf8 "WL.")]
      (.oneOf engineGlobals) [.edge] (by decide) found
    exact globals captured (match?_oneOf named).1
  all_goals
    rw [captured_of_silent (by decide) found]
    decide

theorem applyAll : ∀ (rules : SymbolTable) {t : Text}, (∀ r ∈ rules, r ∈ defaultSymbolTable) →
    Clean t → Clean (rules.applyAll t).1
  | [], t, _, clean => clean
  | r :: rest, t, members, clean => by
      have mem := members r List.mem_cons_self
      exact applyAll rest (fun r' mem' => members r' (List.mem_cons_of_mem _ mem'))
        (clean.apply (fenced_of_mem mem) (expand mem))

theorem symbols (clean : Clean t) : Clean (defaultSymbolTable.apply t).1 :=
  applyAll _ (fun _ mem => mem_of_mem_ordered mem) clean

end Clean

/-! ## Methods -/

theorem word_infix (c : Cursor) : c.word <:+: c.text :=
  (word_leads c.after).isInfix.trans List.infix_append_right

theorem methodName_infix (c : Cursor) : (methodName c).1 <:+: c.text := by
  unfold methodName
  dsimp only
  split
  · split
    · have inside := word_infix (c.advance c.word.length).skipSpace
      rwa [Cursor.skipSpace, text_advance, text_advance] at inside
    · exact word_infix c
  · exact word_infix c

/-- What an entry that the scan lists has of the text: its name and its parameters are parts of it,
its header starts where a word may start, and its body ends with a brace. -/
theorem parts_of_entry {c : Cursor} {m : MethodMatch} (reads : ReadsEntry c m) :
    m.start = c.offset ∧ atWordStart c.before = true ∧ m.entry.name <:+: c.text ∧
      m.entry.params <:+: c.text ∧ m.entry.body.start < m.entry.body.stop ∧
      c.text[m.entry.body.stop]? = some closeBrace := by
  obtain ⟨starts, header, brace, body, read, closed, rfl⟩ := reads
  obtain ⟨walk, -, -⟩ := methodHeader?_walk read
  obtain ⟨-, n, -, rfl, -, -⟩ := methodHeader?_eq_some_iff.mp read
  obtain ⟨front, e, closes, rfl⟩ := scope_eq_ok_iff.mp closed
  have text_eq : e.text = c.text := by
    rw [closes.walk.text_eq, text_advance, walk.text_eq]
  refine ⟨rfl, ?_, methodName_infix c, ?_, ?_, ?_⟩
  · simp only [startsWord, Bool.and_eq_true] at starts
    exact starts.2
  · have inside : (groupOf c).after <:+: c.text := by
      rw [← (groupOf_walk c).text_eq]
      exact List.infix_append_right
    exact ((List.take_prefix _ _).isInfix.trans (List.drop_suffix _ _).isInfix).trans inside
  · have := closes.walk.offset_le
    rw [offset_advance_one front] at this
    exact this
  · rw [← text_eq, ← peek?_eq_getElem?]
    exact closes.front.2

/-- In front of a place where a word may start, no word goes on. -/
theorem seam_of_atWordStart {c : Cursor} (starts : atWordStart c.before = true) (last : Nat) :
    ∀ b ∈ (c.text.slice last c.offset).getLast?, isSymbolByte b = false := by
  have slice_eq : c.text.slice last c.offset = c.before.reverse.drop last := by
    have front : c.text.take c.offset = c.before.reverse := by simp [text, offset]
    rw [Text.slice, ← List.drop_take, front]
  intro b mem
  rw [slice_eq, List.getLast?_drop, List.getLast?_reverse] at mem
  split at mem
  · cases mem
  · obtain ⟨rest, before_eq⟩ : ∃ rest, c.before = b :: rest := by
      cases before_eq : c.before with
      | nil => simp [before_eq] at mem
      | cons a rest => exact ⟨rest, by simpa [before_eq] using mem⟩
    simp only [before_eq, atWordStart, isWordPart, isWordStart, Bool.and_eq_true,
      Bool.not_eq_true', Bool.or_eq_false_iff] at starts
    simp [isSymbolByte, starts]

namespace Clean

/-- The class header of an entry, behind a part of the text and in front of another. -/
theorem header {h : MethodHeader} {x y : Text} (before : Clean x) (name : Clean h.name)
    (params : Clean h.params) (after : Clean y)
    (seam : ∀ b ∈ x.getLast?, isSymbolByte b = false) : Clean (x ++ h.render ++ y) := by
  have marked : Clean ((if h.isAsync then utf8 "async " else []) ++ h.name) := by
    split
    · have spaced : Clean (utf8 "async" ++ space :: h.name) :=
        append_cons (by decide) name (by decide)
      exact spaced
    · exact name
  have text_eq : x ++ h.render ++ y = x ++ ((if h.isAsync then utf8 "async " else []) ++ h.name) ++
      openParen :: (h.params ++ closeParen :: space :: openBrace :: y) := by
    simp [MethodHeader.render, show utf8 "(" = [openParen] from rfl,
      show utf8 ") \x7b" = [closeParen, space, openBrace] from rfl]
  rw [text_eq]
  refine append_cons (before.append marked seam) (append_cons params ?_ (by decide)) (by decide)
  exact (after.cons (by decide)).cons (by decide)

theorem splice {block : Text} (clean : Clean block) : ∀ (entries : List MethodMatch) (last : Nat),
    (∀ m ∈ entries, ∃ c, Walk (start block) c ∧ ReadsEntry c m) →
      Clean (spliceMethods block last entries)
  | [], last, _ => clean.of_infix (List.drop_suffix _ _).isInfix
  | m :: rest, last, read => by
      obtain ⟨c, walk, reads⟩ := read m List.mem_cons_self
      have text_eq : c.text = block := walk.text_eq.trans (text_start block)
      obtain ⟨start_eq, starts, name, params, lt, closes⟩ := parts_of_entry reads
      rw [text_eq] at name params closes
      have seam := seam_of_atWordStart starts last
      rw [text_eq, ← start_eq] at seam
      have ih : ∀ position, Clean (spliceMethods block position rest) := fun position =>
        splice clean rest position fun m' mem => read m' (List.mem_cons_of_mem _ mem)
      have body_eq : block.slice (m.entry.body.start + 1) (m.entry.body.stop + 1) =
          block.slice (m.entry.body.start + 1) m.entry.body.stop ++ [closeBrace] :=
        Text.slice_succ closes lt
      have entry : Clean (block.slice last m.start ++ m.entry.render ++
          block.slice (m.entry.body.start + 1) m.entry.body.stop) :=
        header (clean.of_infix (Text.slice_infix ..)) (clean.of_infix name) (clean.of_infix params)
          (clean.of_infix (Text.slice_infix ..)) seam
      have onward : ∀ t, Clean t → Clean (block.slice last m.start ++ m.entry.render ++
          block.slice (m.entry.body.start + 1) (m.entry.body.stop + 1) ++ t) := by
        intro t clean'
        rw [body_eq, ← List.append_assoc, List.append_assoc _ [closeBrace] t]
        exact entry.append_cons clean' (by decide)
      rw [spliceMethods]
      split
      · exact onward _ ((ih _).cons (by decide))
      · exact onward _ (ih _)

/-- **The methods of a clean text are clean.** -/
theorem methods {block out : Text} (clean : Clean block)
    (upgraded : (upgradeMethods block).1 = .ok out) : Clean out := by
  have renamed := clean.symbols
  unfold upgradeMethods at upgraded
  dsimp only at upgraded
  cases listed : methodMatches (defaultSymbolTable.apply block).1 with
  | error e =>
      rw [listed] at upgraded
      cases upgraded
  | ok entries =>
      rw [listed] at upgraded
      obtain rfl := Except.ok.inj upgraded
      exact renamed.splice entries 0 ((lists_methodMatches _).entry_of_mem entries listed)

end Clean

end ClassUpgrade.Component
