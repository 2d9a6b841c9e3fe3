/-
# Proofs.Source.Expression — what a regular expression literal holds

A regular expression literal is written here from its parts: a body between
slashes, and flags (`Expression`). A body is a row of bytes that stand for
themselves, of brackets, of slashes inside a character class, and of
backslashes, each with the byte behind it (`ExpressionBody`). The search for
the end of a literal finds exactly the texts that are so written
(`regexLength_eq_iff`).

A line end does not stand for itself, so a bare one leaves the slash without a
literal. A backslash takes the byte behind it whatever it is, and that byte may
be a line end: then the literal goes on behind it. `takenBytes` are the bytes
so taken, and they are the only place for a line end in a literal
(`regexLength_onLine_iff`).
-/
import ClassUpgrade.Proofs.Source.Within

namespace ClassUpgrade.Source

set_option autoImplicit false

open Byte Cursor

/-! ## The parts of a literal -/

def isLineEnd (b : UInt8) : Bool := b == lineFeed || b == carriageReturn

/-- A byte that stands for itself in a regular expression. -/
def isExpressionByte (b : UInt8) : Bool :=
  !isLineEnd b && b != backslash && b != openBracket && b != closeBracket && b != slash

/-- The body of a regular expression literal, from inside a character class or from outside. -/
inductive ExpressionBody : (inClass : Bool) → Text → Prop where
  | finish : ExpressionBody false []
  | escape {inClass : Bool} {x : Text} (b : UInt8) (rest : ExpressionBody inClass x) :
      ExpressionBody inClass (backslash :: b :: x)
  | opening {inClass : Bool} {x : Text} (rest : ExpressionBody true x) :
      ExpressionBody inClass (openBracket :: x)
  | closing {inClass : Bool} {x : Text} (rest : ExpressionBody false x) :
      ExpressionBody inClass (closeBracket :: x)
  | slash {x : Text} (rest : ExpressionBody true x) : ExpressionBody true (Byte.slash :: x)
  | byte {inClass : Bool} {x : Text} {b : UInt8} (plain : isExpressionByte b = true)
      (rest : ExpressionBody inClass x) : ExpressionBody inClass (b :: x)

/-- A regular expression literal from its parts. -/
structure Expression where
  body : Text
  flags : Text
  isBody : ExpressionBody false body
  isFlags : flags.all isWordPart = true

def Expression.text (e : Expression) : Text := slash :: (e.body ++ slash :: e.flags)

/-- The bytes that the backslashes of a text take along. After a backslash the first byte is one. -/
def takenBytes : (escaped : Bool) → Text → Text
  | _, [] => []
  | true, b :: rest => b :: takenBytes false rest
  | false, b :: rest => takenBytes (b == backslash) rest

/-- Somewhere in the text a backslash stands right in front of a line end. -/
def EscapesLineEnd (t : Text) : Prop :=
  [backslash, lineFeed] <:+: t ∨ [backslash, carriageReturn] <:+: t

instance (t : Text) : Decidable (EscapesLineEnd t) :=
  inferInstanceAs (Decidable (_ <:+: _ ∨ _ <:+: _))

/-! ## Reading a literal -/

theorem expressionByte_ne {b : UInt8} (plain : isExpressionByte b = true) :
    b ≠ backslash ∧ b ≠ openBracket ∧ b ≠ closeBracket ∧ b ≠ slash ∧ isLineEnd b = false := by
  simp only [isExpressionByte, Bool.and_eq_true, Bool.not_eq_true', bne_iff_ne] at plain
  obtain ⟨⟨⟨⟨bare, noEscape⟩, noOpening⟩, noClosing⟩, noSlash⟩ := plain
  exact ⟨noEscape, noOpening, noClosing, noSlash, bare⟩

theorem isLineEnd_eq_false_iff {b : UInt8} :
    isLineEnd b = false ↔ ¬ (b = lineFeed ∨ b = carriageReturn) := by
  simp [isLineEnd]

/-- A body is read up to the slash behind it, and the flags are read along. -/
theorem regexTail_body {inClass : Bool} {x : Text} (body : ExpressionBody inClass x) (z : Text) :
    regexTail false inClass (x ++ slash :: z) =
      some (x.length + ((z.takeWhile isWordPart).length + 1)) := by
  -- one byte more in the body is one more in the length
  have longer : ∀ (b : UInt8) (x : Text) (k : Nat),
      (some (x.length + k)).map (· + 1) = some ((b :: x).length + k) := by
    intro b x k
    simp only [Option.map_some, List.length_cons, Option.some.injEq]
    omega
  induction body with
  | finish =>
      rw [List.nil_append, regexTail, if_neg (by decide), if_neg (by decide), if_neg (by decide),
        if_pos ⟨rfl, rfl⟩]
      simp
  | escape b _ ih =>
      rw [List.cons_append, List.cons_append, regexTail, if_pos rfl, regexTail, ih, longer b]
      exact longer _ _ _
  | opening _ ih =>
      rw [List.cons_append, regexTail, if_neg (by decide), if_pos rfl, ih]
      exact longer _ _ _
  | closing _ ih =>
      rw [List.cons_append, regexTail, if_neg (by decide), if_neg (by decide), if_pos rfl, ih]
      exact longer _ _ _
  | slash _ ih =>
      rw [List.cons_append, regexTail, if_neg (by decide), if_neg (by decide), if_neg (by decide),
        if_neg (by simp), if_neg (by decide), ih]
      exact longer _ _ _
  | byte plain _ ih =>
      obtain ⟨noEscape, noOpening, noClosing, noSlash, bare⟩ := expressionByte_ne plain
      rw [List.cons_append, regexTail, if_neg noEscape, if_neg noOpening, if_neg noClosing,
        if_neg fun ends => noSlash ends.1, if_neg (isLineEnd_eq_false_iff.mp bare), ih]
      exact longer _ _ _

/-- What the search for the closing slash passes over is a body. -/
theorem exists_body : ∀ (t : Text) (inClass : Bool) (n : Nat),
    regexTail false inClass t = some n →
      ∃ x z, ExpressionBody inClass x ∧ t = x ++ slash :: z ∧
        n = x.length + ((z.takeWhile isWordPart).length + 1)
  | [], inClass, n, found => by cases found
  | a :: t, inClass, n, found => by
      -- each branch but the closing slash puts the byte in front of the body behind it
      have longer : ∀ {inClass' : Bool} {m : Nat}, m + 1 = n →
          (∀ x, ExpressionBody inClass' x → ExpressionBody inClass (a :: x)) →
          regexTail false inClass' t = some m →
            ∃ x z, ExpressionBody inClass x ∧ a :: t = x ++ slash :: z ∧
              n = x.length + ((z.takeWhile isWordPart).length + 1) := by
        rintro inClass' m rfl grows found'
        obtain ⟨x, z, body, rfl, rfl⟩ := exists_body t inClass' m found'
        exact ⟨a :: x, z, grows x body, rfl, by rw [List.length_cons]; omega⟩
      unfold regexTail at found
      split at found
      · rename_i escapes
        obtain ⟨m, found', rfl⟩ := Option.map_eq_some_iff.mp found
        cases t with
        | nil => cases found'
        | cons b u =>
            obtain ⟨k, found'', rfl⟩ := Option.map_eq_some_iff.mp found'
            obtain ⟨x, z, body, rfl, rfl⟩ := exists_body u inClass k found''
            refine ⟨a :: b :: x, z, escapes ▸ .escape b body, rfl, ?_⟩
            rw [List.length_cons, List.length_cons]
            omega
      · rename_i noEscape
        split at found
        · rename_i opens
          obtain ⟨m, found', same⟩ := Option.map_eq_some_iff.mp found
          exact longer same (fun x body => opens ▸ .opening body) found'
        · rename_i noOpening
          split at found
          · rename_i closes
            obtain ⟨m, found', same⟩ := Option.map_eq_some_iff.mp found
            exact longer same (fun x body => closes ▸ .closing body) found'
          · rename_i noClosing
            split at found
            · rename_i ends
              obtain ⟨rfl, rfl⟩ := ends
              exact ⟨[], t, .finish, rfl, by simpa using (Option.some.inj found).symm⟩
            · rename_i goesOn
              split at found
              · cases found
              · rename_i bare
                obtain ⟨m, found', same⟩ := Option.map_eq_some_iff.mp found
                refine longer same (fun x body => ?_) found'
                by_cases front : a = slash
                · -- a slash that does not end the literal is inside a class
                  have inside : inClass = true := by simpa [front] using goesOn
                  subst inside front
                  exact .slash body
                · refine .byte ?_ body
                  simp [isExpressionByte, isLineEnd_eq_false_iff.mpr bare, noEscape, noOpening,
                    noClosing, front]

/-- **A slash opens a regular expression literal exactly when one is written there**, and the literal
goes on up to the first byte that is no flag. -/
theorem regexLength_eq_iff {t : Text} {n : Nat} (front : t.head? = some slash) (literal : n ≠ 0) :
    regexLength t = n ↔ ∃ (e : Expression) (rest : Text), t = e.text ++ rest ∧
      (∀ b ∈ rest.head?, isWordPart b = false) ∧ n = e.text.length := by
  obtain ⟨u, rfl⟩ := List.head?_eq_some_iff.mp front
  constructor
  · intro length_eq
    rw [regexLength] at length_eq
    split at length_eq
    · rename_i m found
      obtain ⟨x, z, body, rfl, rfl⟩ := exists_body u false m found
      refine ⟨⟨x, z.takeWhile isWordPart, body, List.all_takeWhile⟩, z.dropWhile isWordPart, ?_, ?_, ?_⟩
      · simp [Expression.text, List.takeWhile_append_dropWhile]
      · intro b mem
        have := List.head?_dropWhile_not isWordPart z
        rw [Option.mem_def.mp mem] at this
        simpa using this
      · rw [← length_eq]
        simp only [Expression.text, List.length_cons, List.length_append]
    · exact absurd length_eq.symm literal
  · rintro ⟨e, rest, same, stop, rfl⟩
    have u_eq : u = e.body ++ slash :: (e.flags ++ rest) := by
      simpa [Expression.text] using same
    have flags : (e.flags ++ rest).takeWhile isWordPart = e.flags := by
      have none : rest.takeWhile isWordPart = [] := takeWhile_append_of_stop stop []
      rw [List.takeWhile_append_of_pos fun b mem => List.all_eq_true.mp e.isFlags b mem, none,
        List.append_nil]
    rw [regexLength, u_eq, regexTail_body e.isBody, flags]
    simp only [Expression.text, List.length_cons, List.length_append]

/-! ## Line ends -/

theorem mem_of_mem_takenBytes {b : UInt8} : ∀ (t : Text) (escaped : Bool),
    b ∈ takenBytes escaped t → b ∈ t
  | [], escaped, mem => by cases escaped <;> cases mem
  | a :: t, true, mem => by
      rcases List.mem_cons.mp mem with rfl | later
      · exact List.mem_cons_self
      · exact List.mem_cons_of_mem a (mem_of_mem_takenBytes t false later)
  | a :: t, false, mem => List.mem_cons_of_mem a (mem_of_mem_takenBytes t _ mem)

/-- A byte that is taken stands right behind a backslash. -/
theorem infix_of_mem_takenBytes {b : UInt8} : ∀ t : Text, b ∈ takenBytes false t →
    [backslash, b] <:+: t
  | [], mem => by cases mem
  | [a], mem => by
      have none : takenBytes (a == backslash) [] = [] := by cases a == backslash <;> rfl
      rw [takenBytes, none] at mem
      cases mem
  | a :: a' :: t, mem => by
      rw [takenBytes] at mem
      cases escapes : a == backslash with
      | false =>
          rw [escapes] at mem
          exact List.infix_cons (infix_of_mem_takenBytes (a' :: t) mem)
      | true =>
          rw [escapes, takenBytes] at mem
          rcases List.mem_cons.mp mem with rfl | later
          · rw [beq_iff_eq.mp escapes]
            exact ⟨[], t, rfl⟩
          · exact List.infix_cons (List.infix_cons (infix_of_mem_takenBytes t later))

theorem takenBytes_cons {a : UInt8} (noEscape : a ≠ backslash) (t : Text) :
    takenBytes false (a :: t) = takenBytes false t := by
  rw [takenBytes, beq_eq_false_iff_ne.mpr noEscape]

/-- A line end in a body is taken by a backslash. -/
theorem ExpressionBody.taken {inClass : Bool} {x : Text} (body : ExpressionBody inClass x) (y : Text)
    {b : UInt8} (ends : isLineEnd b = true) (mem : b ∈ x) : b ∈ takenBytes false (x ++ y) := by
  -- a byte that is no line end is not the one in question
  have later : ∀ {a : UInt8} {x : Text}, isLineEnd a = false → b ∈ a :: x → b ∈ x := by
    rintro a x bare mem
    refine (List.mem_cons.mp mem).resolve_left ?_
    rintro rfl
    rw [bare] at ends
    cases ends
  induction body with
  | finish => cases mem
  | escape b' _ ih =>
      rw [List.cons_append, List.cons_append, takenBytes, beq_self_eq_true, takenBytes]
      rcases List.mem_cons.mp (later (by decide) mem) with rfl | behind
      · exact List.mem_cons_self
      · exact List.mem_cons_of_mem b' (ih behind)
  | opening _ ih | closing _ ih | slash _ ih =>
      rw [List.cons_append, takenBytes_cons (by decide)]
      exact ih (later (by decide) mem)
  | byte plain _ ih =>
      obtain ⟨noEscape, -, -, -, bare⟩ := expressionByte_ne plain
      rw [List.cons_append, takenBytes_cons noEscape]
      exact ih (later bare mem)

theorem isLineEnd_of_isWordPart {b : UInt8} (part : isWordPart b = true) : isLineEnd b = false := by
  rw [isLineEnd_eq_false_iff]
  rintro (rfl | rfl) <;> exact absurd part (by decide)

/-- A literal holds no line end but for those that its backslashes take. -/
theorem Expression.onLine_iff (e : Expression) :
    (∀ b ∈ e.text, isLineEnd b = false) ↔ ∀ b ∈ takenBytes false e.text, isLineEnd b = false := by
  refine ⟨fun bare b mem => bare b (mem_of_mem_takenBytes _ _ mem), fun bare b mem => ?_⟩
  cases ends : isLineEnd b with
  | false => rfl
  | true =>
      have other : b ≠ Byte.slash := by
        rintro rfl
        cases ends
      have noFlag : b ∉ e.flags := by
        intro flag
        rw [isLineEnd_of_isWordPart (List.all_eq_true.mp e.isFlags b flag)] at ends
        cases ends
      have inBody : b ∈ e.body := by simpa [Expression.text, other, noFlag] using mem
      have taken := e.isBody.taken (Byte.slash :: e.flags) ends inBody
      rw [Expression.text, takenBytes_cons (by decide)] at bare
      rw [← ends, bare b taken]

/-- **A regular expression literal stays on its line unless a backslash takes a line end along.** For
every text and every slash in it: the slash opens a literal exactly when one is written there, and a
bare line end has no place in one. The literal holds a line end exactly when one of its backslashes
takes one. So it stays on its line in every text without a backslash in front of a line end. -/
theorem regexLength_onLine_iff (t : Text) (i : Nat) (front : t[i]? = some slash) :
    let literal := t.slice i (i + regexLength (t.drop i))
    (∀ n ≠ 0, regexLength (t.drop i) = n ↔ ∃ (e : Expression) (rest : Text),
      t.drop i = e.text ++ rest ∧ (∀ b ∈ rest.head?, isWordPart b = false) ∧ n = e.text.length) ∧
    ((∀ b ∈ literal, isLineEnd b = false) ↔
      ∀ b ∈ takenBytes false literal, isLineEnd b = false) ∧
    (¬ EscapesLineEnd t → ∀ b ∈ literal, isLineEnd b = false) := by
  intro literal
  have opens : (t.drop i).head? = some slash := by rw [List.head?_drop, front]
  have literal_eq : literal = (t.drop i).take (regexLength (t.drop i)) := by
    simp only [literal, Text.slice, Nat.add_sub_cancel_left]
  have onLine : (∀ b ∈ literal, isLineEnd b = false) ↔
      ∀ b ∈ takenBytes false literal, isLineEnd b = false := by
    by_cases none : regexLength (t.drop i) = 0
    · rw [literal_eq, none, List.take_zero]
      simp [takenBytes]
    · obtain ⟨e, rest, drop_eq, -, length_eq⟩ := (regexLength_eq_iff opens none).mp rfl
      rw [literal_eq, length_eq, drop_eq, List.take_left]
      exact e.onLine_iff
  refine ⟨fun n nonzero => regexLength_eq_iff opens nonzero, onLine, fun unescaped => ?_⟩
  rw [onLine]
  intro b mem
  have inside : [backslash, b] <:+: t := by
    have part : literal <:+: t := by
      rw [literal_eq]
      exact (List.take_prefix _ _).isInfix.trans (List.drop_suffix i t).isInfix
    exact (infix_of_mem_takenBytes literal mem).trans part
  rw [isLineEnd_eq_false_iff]
  rintro (rfl | rfl)
  · exact unescaped (.inl inside)
  · exact unescaped (.inr inside)

/-- A slash and an escaped bracket in a class, on one line; and a backslash that takes a line feed, so
that the literal ends on the next line. -/
theorem regexLength_onLine_twoLiterals :
    let onLine := utf8 "x = /[/\\]]/g\n"
    let split := utf8 "/\\\n/"
    (onLine[4]? = some slash ∧ ¬ EscapesLineEnd onLine ∧ regexLength (onLine.drop 4) = 8 ∧
      ∀ b ∈ onLine.slice 4 (4 + 8), isLineEnd b = false) ∧
    split[0]? = some slash ∧ regexLength (split.drop 0) = 4 ∧
      lineFeed ∈ takenBytes false (split.slice 0 (0 + 4)) ∧
      ¬ ∀ b ∈ split.slice 0 (0 + 4), isLineEnd b = false := by
  intro onLine split
  have unescaped : ¬ EscapesLineEnd onLine := by decide
  have length_eq : regexLength (onLine.drop 4) = 8 := by decide
  have length_eq' : regexLength (split.drop 0) = 4 := by decide
  have taken : lineFeed ∈ takenBytes false (split.slice 0 (0 + 4)) := by decide
  obtain ⟨-, -, stays⟩ := regexLength_onLine_iff onLine 4 (by decide)
  obtain ⟨-, stays_iff, -⟩ := regexLength_onLine_iff split 0 (by decide)
  rw [length_eq] at stays
  rw [length_eq'] at stays_iff
  refine ⟨⟨by decide, unescaped, length_eq, stays unescaped⟩, by decide, length_eq', taken, ?_⟩
  exact fun one_line => absurd (stays_iff.mp one_line lineFeed taken) (by decide)

end ClassUpgrade.Source
