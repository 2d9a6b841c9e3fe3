/-
# Proofs.Component.Dollar — two notions of a word

The scanner takes the dollar sign for a part of an identifier (`isWordPart`), the
patterns of the symbol rules do not (`isSymbolByte`). So a rule sees a whole word
in the middle of an identifier where a dollar sign stands next to it, as in
`$WL.scene`, and rewrites a part of another name.

That is the only way: where no identifier is one of the legacy names, every
occurrence of a pattern has a dollar sign next to it
(`dollar_of_match`), and without any the rules leave the text as it is
(`apply_unchanged_iff`).
-/
import ClassUpgrade.Proofs.Component.Exhaust
import ClassUpgrade.Text.Trim

namespace ClassUpgrade

set_option autoImplicit false

namespace Text

section Runs

variable {α : Type} {isSeparator : α → Bool}

/-- A run that has begun goes on up to the next separator. -/
theorem mem_runsFrom_append {v : List α} (ends : ∀ a ∈ v.head?, isSeparator a = true) :
    ∀ (w run : List α), (∀ a ∈ w, isSeparator a = false) → run.reverse ++ w ≠ [] →
      run.reverse ++ w ∈ runsFrom isSeparator run (w ++ v)
  | [], run, _, ne_nil => by
      have begun : run.isEmpty = false := by simpa using ne_nil
      cases v with
      | nil => simp [runsFrom, begun]
      | cons a v =>
          have stops : isSeparator a = true := ends a (by simp)
          simp [runsFrom, begun, stops]
  | b :: w, run, plain, ne_nil => by
      have goes : isSeparator b = false := plain b List.mem_cons_self
      have later := mem_runsFrom_append ends w (b :: run)
        (fun a mem => plain a (List.mem_cons_of_mem _ mem)) (by simp)
      rw [List.cons_append, runsFrom, goes]
      simpa using later

/-- A stretch without separators, with separators or an end of the text next to it, is a run. -/
theorem mem_runs_of_bounded {w v : List α} (ne_nil : w ≠ [])
    (plain : ∀ a ∈ w, isSeparator a = false) (ends : ∀ a ∈ v.head?, isSeparator a = true) :
    ∀ (u run : List α), (∀ a ∈ run, isSeparator a = false) →
      (∀ a ∈ (u.reverse ++ run).head?, isSeparator a = true) →
        w ∈ runsFrom isSeparator run (u ++ (w ++ v))
  | [], run, read, bounded => by
      have none_read : run = [] := by
        cases run with
        | nil => rfl
        | cons a run =>
            have separates : isSeparator a = true := bounded a (by simp)
            rw [read a List.mem_cons_self] at separates
            cases separates
      subst none_read
      exact mem_runsFrom_append ends w [] plain ne_nil
  | a :: u, run, read, bounded => by
      rw [List.reverse_cons, List.append_assoc] at bounded
      rw [List.cons_append, runsFrom]
      split
      · have bounded' : ∀ b ∈ (u.reverse ++ []).head?, isSeparator b = true := by
          intro b mem
          rw [List.append_nil] at mem
          exact bounded b (by rw [List.head?_append, mem]; rfl)
        have later := mem_runs_of_bounded ne_nil plain ends u [] (by simp) bounded'
        split
        · exact later
        · exact List.mem_cons_of_mem _ later
      · rename_i goes
        refine mem_runs_of_bounded ne_nil plain ends u (a :: run) (fun b mem => ?_) bounded
        rcases List.mem_cons.mp mem with rfl | before
        · simpa using goes
        · exact read b before

end Runs

end Text

namespace Component

open Byte Source Source.Cursor

/-! ## Identifiers and legacy names -/

/-- The identifiers of a text: its maximal runs of identifier bytes, digits first or not. -/
def identifiers (t : Text) : List Text := Text.runs (fun b => !isWordPart b) t

/-- The names that the rules for method bodies look for. -/
def legacyNames : List Text :=
  [utf8 "WL", utf8 "glMatrix", utf8 "getTranslationWorld", utf8 "getTranslationLocal",
    utf8 "resetTranslationRotation"]

/-- The two notions of a word byte differ in the dollar sign. -/
theorem isWordPart_iff {b : UInt8} :
    isWordPart b = true ↔ isSymbolByte b = true ∨ b = dollar := by
  simp only [isWordPart, isWordStart, isSymbolByte, Bool.or_eq_true, beq_iff_eq]
  tauto

/-- A name that the patterns see as a whole word is an identifier, unless a dollar sign stands next
to it. -/
theorem mem_identifiers_or_dollar {c : Cursor} {name v : Text} (ne_nil : name ≠ [])
    (parts : ∀ b ∈ name, isWordPart b = true) (after_eq : c.after = name ++ v)
    (outside : facesWord c.before = false) (ended : facesWord v = false) :
    name ∈ identifiers c.text ∨ c.before.head? = some dollar ∨ v.head? = some dollar := by
  have separates : ∀ {side : Text}, facesWord side = false → side.head? ≠ some dollar →
      ∀ b ∈ side.head?, (!isWordPart b) = true := by
    intro side plain other b mem
    have noSymbol : isSymbolByte b = false := facesWord_eq_false_iff.mp plain b mem
    have noDollar : b ≠ dollar := fun same => other (same ▸ mem)
    simpa [noSymbol, noDollar] using not_congr (isWordPart_iff (b := b))
  by_cases before : c.before.head? = some dollar
  · exact .inr (.inl before)
  by_cases behind : v.head? = some dollar
  · exact .inr (.inr behind)
  · refine .inl ?_
    rw [Cursor.text, after_eq]
    refine Text.mem_runs_of_bounded ne_nil (fun b mem => by simp [parts b mem])
      (separates ended behind) c.before.reverse [] (by simp) ?_
    simpa using separates outside before

section Free

variable {c : Cursor} (free : ∀ name ∈ legacyNames, name ∉ identifiers c.text)

include free

theorem dollar_of_name {name v : Text} (legacy : name ∈ legacyNames)
    (after_eq : c.after = name ++ v) (outside : facesWord c.before = false)
    (ended : facesWord v = false) : c.before.head? = some dollar ∨ v.head? = some dollar := by
  have words : ∀ name ∈ legacyNames, name ≠ [] ∧ ∀ b ∈ name, isWordPart b = true := by
    decide +kernel
  obtain ⟨ne_nil, parts⟩ := words name legacy
  exact (mem_identifiers_or_dollar ne_nil parts after_eq outside ended).resolve_left
    (free name legacy)

/-- In a call the name of the global is always an identifier. -/
theorem no_call : matchPattern? c constructorCall = none := by
  cases found : matchPattern? c constructorCall with
  | none => rfl
  | some first =>
      exfalso
      obtain ⟨n, x⟩ := first
      obtain ⟨-, -, b₁, b₂, blanks, ⟨y, after_eq⟩, -⟩ := matchPattern?_call_iff.mp found
      obtain ⟨a, others, reverse_eq⟩ : ∃ a others, b₁.reverse = a :: others :=
        List.exists_cons_of_ne_nil (by simpa using blanks.more)
      have blank : isPatternBlank a = true :=
        blanks.behind a (List.mem_reverse.mp (reverse_eq ▸ List.mem_cons_self))
      have whole : c.after = (utf8 "new" ++ b₁) ++
          (utf8 "WL" ++ (utf8 ".Texture" ++ (b₂ ++ openParen :: y))) := by
        rw [← after_eq, callText]
        simp
        rfl
      have place_eq : c.advance (utf8 "new" ++ b₁).length =
          ⟨a :: (others ++ (utf8 "new").reverse ++ c.before),
            utf8 "WL" ++ (utf8 ".Texture" ++ (b₂ ++ openParen :: y))⟩ := by
        have passed := advance_append c.before (utf8 "new" ++ b₁)
          (utf8 "WL" ++ (utf8 ".Texture" ++ (b₂ ++ openParen :: y)))
        rw [← whole, List.reverse_append, reverse_eq] at passed
        exact passed
      have free' : ∀ name ∈ legacyNames,
          name ∉ identifiers (c.advance (utf8 "new" ++ b₁).length).text := by simpa using free
      rw [place_eq] at free'
      rcases dollar_of_name free' (by decide) rfl (not_symbol_of_blank blank) rfl with
        before | behind
      · obtain rfl : a = dollar := Option.some.inj before
        cases blank
      · cases Option.some.inj behind

/-- **Where no identifier is a legacy name, every occurrence has a dollar sign next to it.** -/
theorem dollar_of_match {r : SymbolRule} (listed : r ∈ defaultSymbolTable) {n : Nat} {x : Text}
    (found : matchPattern? c r.pattern = some (n, x)) :
    c.before.head? = some dollar ∨ (c.advance n).after.head? = some dollar := by
  have called := no_call free
  rcases mem_defaultSymbolTable_iff.mp listed with rfl | rfl | rfl | listed
  · have call : (matchPattern? c constructorCall).isSome = true :=
      matchPattern?_append_isSome (Option.isSome_iff_exists.mpr ⟨_, found⟩)
    rw [called] at call
    cases call
  · rw [show constructorRule.pattern = constructorCall from rfl, called] at found
    cases found
  · obtain ⟨outside, -, ⟨y, after_eq⟩, -⟩ := matchPattern?_math_iff.mp found
    have after_eq' : c.after = utf8 "glMatrix" ++ (dot :: (x ++ dot :: y)) := by
      rw [← after_eq, mathMember_append]
      rfl
    exact .inl ((dollar_of_name free (by decide) after_eq' outside rfl).resolve_right
      (by simp; decide))
  · have legacy : ∀ r ∈ wordRules, ∀ pair ∈ r.pairs, pair.1 ∈ legacyNames ∨
        ∃ name ∈ legacyNames, name ++ [dot] <+: pair.1 := by decide +kernel
    obtain ⟨pair, listed', here, rfl, -⟩ := (exchanges_of_mem listed).found found
    rcases legacy r listed pair listed' with name | ⟨name, named, owner⟩
    · have after_eq := List.prefix_append_drop here.leads
      exact dollar_of_name free name after_eq here.outside here.ended
    · obtain ⟨y, after_eq⟩ := owner.trans here.leads
      have after_eq' : c.after = name ++ dot :: y := by rw [← after_eq]; simp
      exact .inl ((dollar_of_name free named after_eq' here.outside rfl).resolve_right
        (by simp; decide))

end Free

/-! ## When the rules leave a text alone -/

/-- A table that changes nothing and asks for nothing has found nothing. -/
theorem apply_eq_iff (t : Text) :
    defaultSymbolTable.apply t = (t, []) ↔ ∀ r ∈ defaultSymbolTable, ¬ Occurs r.pattern t := by
  refine ⟨fun same => ?_, apply_of_not_occurs⟩
  have uncaptured : ∀ x, x ∉ captures mathRule.pattern t := by
    intro x mem
    have asked : (⟨.math, x⟩ : Import) ∈ (upgradeMethods t).2 := mem_upgradeMethods_math.mpr mem
    have imports_eq : (upgradeMethods t).2 = (defaultSymbolTable.apply t).2 := rfl
    rw [imports_eq, same] at asked
    cases asked
  have rid := rid_apply (uncaptured _) (uncaptured _)
  rw [same] at rid
  exact fun r listed => rid.not_occurs listed

/-- **Symbol rules act on whole identifiers, a dollar sign aside.** For every text in which no
identifier is one of the legacy names: the rules leave the text as it is and ask for no import exactly
when no pattern of theirs occurs in it, and every occurrence of a pattern has a dollar sign right in
front of it or right behind it. So a text without a dollar sign is left as it is. -/
theorem apply_unchanged_iff {t : Text} (free : ∀ name ∈ legacyNames, name ∉ identifiers t) :
    (defaultSymbolTable.apply t = (t, []) ↔ ∀ r ∈ defaultSymbolTable, ¬ Occurs r.pattern t) ∧
      (∀ r ∈ defaultSymbolTable, ∀ (c : Cursor) (n : Nat) (x : Text), c.text = t →
        matchPattern? c r.pattern = some (n, x) →
          c.before.head? = some dollar ∨ (c.advance n).after.head? = some dollar) ∧
      (dollar ∉ t → defaultSymbolTable.apply t = (t, [])) := by
  have touched : ∀ r ∈ defaultSymbolTable, ∀ (c : Cursor) (n : Nat) (x : Text), c.text = t →
      matchPattern? c r.pattern = some (n, x) →
        c.before.head? = some dollar ∨ (c.advance n).after.head? = some dollar := by
    rintro r listed c n x rfl found
    exact dollar_of_match free listed found
  refine ⟨apply_eq_iff t, touched, fun plain => apply_of_not_occurs ?_⟩
  rintro r listed ⟨c, rfl, found⟩
  obtain ⟨⟨n, x⟩, found⟩ := Option.isSome_iff_exists.mp found
  rcases touched r listed c n x rfl found with before | behind
  · have mem : dollar ∈ c.before := List.mem_of_head? before
    exact plain (List.mem_append_left _ (List.mem_reverse.mpr mem))
  · have mem : dollar ∈ c.after := List.mem_of_mem_drop (List.mem_of_head? behind)
    exact plain (List.mem_append_right _ mem)

/-- A name with a dollar sign in front of it, one with a dollar sign behind it, and a longer one. -/
theorem apply_unchanged_iff_dollars :
    let t := utf8 "$WL.scene; getTranslationWorld$(x)"
    let place := (start t).advance 1
    (∀ name ∈ legacyNames, name ∉ identifiers t) ∧
      (defaultSymbolTable.apply t).1 = utf8 "$this.engine.scene; getPositionWorld$(x)" ∧
      (¬ ∀ r ∈ defaultSymbolTable, ¬ Occurs r.pattern t) ∧
      (place.before.head? = some dollar ∨ (place.advance 8).after.head? = some dollar) ∧
        defaultSymbolTable.apply (utf8 "WL2.scene") = (utf8 "WL2.scene", []) := by
  intro t place
  have free : ∀ name ∈ legacyNames, name ∉ identifiers t := by decide +kernel
  have rewritten : (defaultSymbolTable.apply t).1 =
      utf8 "$this.engine.scene; getPositionWorld$(x)" := by decide +kernel
  have found : matchPattern? place globalRule.pattern = some (8, utf8 "scene") := by decide +kernel
  obtain ⟨unchanged_iff, touched, -⟩ := apply_unchanged_iff free
  have longer : ∀ name ∈ legacyNames, name ∉ identifiers (utf8 "WL2.scene") := by decide +kernel
  refine ⟨free, rewritten, fun absent => ?_, ?_, (apply_unchanged_iff longer).2.2 (by decide)⟩
  · rw [unchanged_iff.mpr absent] at rewritten
    exact absurd rewritten (by decide +kernel)
  · exact touched globalRule (by decide) place 8 (utf8 "scene") (by simp [place]) found

end Component

end ClassUpgrade
