/-
# Proofs.Source.Respelling.Method — method entries of respelled texts

Two spellings of a text have the same method entries, but for their names: the
scan fails for both or for neither, and lists as many entries, marked alike
(`Aligned.flagsAt_eq`). The scan passes over a chain of members as a whole, and
so it has to pass over an exchanged stretch (`Passable`).
-/
import ClassUpgrade.Proofs.Source.Respelling.Header

namespace ClassUpgrade.Source

set_option autoImplicit false

open Byte Cursor

/-! ## The marks of the entries -/

/-- Which entries of a methods object are marked `async`, in order; nothing when the scan fails. -/
def entryFlags (found : Except UnmatchedScope (List MethodMatch)) : Option (List Bool) :=
  found.toOption.map (·.map (·.entry.isAsync))

def flagsAt (c : Cursor) : Option (List Bool) := entryFlags (methodsAt c)

section Steps

variable {c : Cursor}

theorem flagsAt_of_nil (done : c.after = []) : flagsAt c = some [] := by
  rw [flagsAt, methodsAt, done]
  rfl

theorem flagsAt_of_literal (starts : c.literalLength ≠ 0) :
    flagsAt c = flagsAt (c.advance c.literalLength) := by
  rw [flagsAt, methodsAt_of_literal starts, ← flagsAt]

/-- Past the scope in front, when it is closed. -/
theorem flagsAt_of_brace (plain : c.literalLength = 0) (front : c.peek? = some openBrace) :
    flagsAt c = match c.scope with
      | .error _ => none
      | .ok span => flagsAt (c.advance (span.stop + 1 - c.offset)) := by
  rw [flagsAt, methodsAt_of_plain (ne_nil_of_peek? front) plain, if_pos front]
  cases closed : c.scope with
  | error e => rfl
  | ok span =>
      obtain ⟨start_eq, lt, -, -⟩ := scope_walk closed
      dsimp only
      rw [start_eq, Nat.sub_add_comm (Nat.le_of_lt lt), ← flagsAt]

/-- Past the entry in front, when its body is closed; past a word that heads none. -/
theorem flagsAt_of_word (plain : c.literalLength = 0) (starts : c.startsWord = true) :
    flagsAt c = match headerBody? c with
      | none => flagsAt (c.advance c.word.length)
      | some (marked, brace) =>
        match brace.scope with
        | .error _ => none
        | .ok body => (flagsAt (brace.advance (body.stop + 1 - brace.offset))).map (marked :: ·) := by
  have pos := word_length_pos starts
  rw [flagsAt, methodsAt_of_plain (ne_nil_of_startsWord starts) plain,
    if_neg (noBrace_of_startsWord starts), if_pos starts, headerBody?]
  cases read : methodHeader? c with
  | none =>
      dsimp only [Option.map_none]
      rw [Nat.sub_add_cancel pos, ← flagsAt]
  | some head =>
      obtain ⟨header, brace⟩ := head
      dsimp only [Option.map_some]
      cases closed : brace.scope with
      | error e => rfl
      | ok body =>
          obtain ⟨lead, before, -⟩ := methodHeader?_walk read
          obtain ⟨-, lt, -, -⟩ := scope_walk closed
          have same : c.advance (body.stop - c.offset + 1) =
              brace.advance (body.stop + 1 - brace.offset) := by
            have goes : c.advance (brace.offset - c.offset) = brace := lead.advance_sub
            rw [← goes, advance_advance, goes]
            congr 1
            omega
          dsimp only
          rw [same, flagsAt]
          cases methodsAt (brace.advance (body.stop + 1 - brace.offset)) <;> rfl

theorem flagsAt_of_byte (plain : c.literalLength = 0) (noBrace : c.peek? ≠ some openBrace)
    (noWord : c.startsWord = false) : flagsAt c = flagsAt (c.advance 1) := by
  by_cases done : c.after = []
  · rw [advance_of_nil done]
  · rw [flagsAt, methodsAt_of_plain done plain, if_neg noBrace, noWord]
    rfl

end Steps

/-- The body of a header lies further on. -/
theorem headerBody?_walk {c brace : Cursor} {marked : Bool}
    (read : headerBody? c = some (marked, brace)) (n : Nat) :
    (brace.advance n).after.length < c.after.length := by
  obtain ⟨⟨header, brace⟩, found, same⟩ := Option.map_eq_some_iff.mp read
  obtain ⟨-, rfl⟩ := Prod.mk.inj same
  obtain ⟨lead, later, -⟩ := methodHeader?_walk found
  have := c.offset_add_length
  have behind := (brace.advance n).offset_add_length
  rw [text_advance, lead.text_eq, offset_advance] at behind
  show ((brace.advance n).after).length < _
  omega

/-! ## Past bytes without entries -/

/-- In front of `t`, the scan for entries passes over `x`. -/
def Passes (x t : Text) : Prop :=
  ∀ before, flagsAt ⟨before, x ++ t⟩ = flagsAt ⟨x.reverse ++ before, t⟩

theorem Passes.append {x y t : Text} (front : Passes x (y ++ t)) (back : Passes y t) :
    Passes (x ++ y) t := by
  intro before
  rw [List.append_assoc, front, back, List.reverse_append, List.append_assoc]

theorem passes_idle {t : Text} : ∀ {x : Text}, (∀ b ∈ x, isIdle b = true) → Passes x t
  | [], _ => fun _ => rfl
  | b :: x, idle => by
      intro before
      have b_idle : isIdle b = true := idle b List.mem_cons_self
      simp only [isIdle, Bool.and_eq_true, Bool.not_eq_true', bne_iff_ne, ne_eq] at b_idle
      obtain ⟨⟨plain, noBrace⟩, noWord⟩ := b_idle
      have step : flagsAt ⟨before, b :: (x ++ t)⟩ = flagsAt ⟨b :: before, x ++ t⟩ :=
        flagsAt_of_byte (Source.literalLength_eq_zero (by simpa using plain))
          (by simpa [peek?] using noBrace) (by simp [startsWord, Cursor.word, Source.word, noWord])
      have later : Passes x t := passes_idle fun a mem => idle a (List.mem_cons_of_mem _ mem)
      rw [List.cons_append, step, later, List.reverse_cons, List.append_assoc]
      rfl

/-! ## Past chains of members -/

/-- Inside a chain no word starts. -/
theorem flagsAt_inside : ∀ {p before t : Text}, (∀ b ∈ p, isChain b = true) →
    (∃ a y, before = a :: y ∧ isChain a = true) →
      flagsAt ⟨before, p ++ t⟩ = flagsAt ⟨p.reverse ++ before, t⟩
  | [], before, t, _, _ => rfl
  | b :: p, before, t, chain, ⟨a, y, before_eq, chain_a⟩ => by
      have inert := isInert_of_isChain (chain b List.mem_cons_self)
      have plain : literalLength before (b :: (p ++ t)) = 0 :=
        literalLength_eq_zero (by simpa using opensLiteral_of_isInert inert)
      have noBrace : b ≠ openBrace := ne_of_isInert inert (by decide)
      have noWord : (⟨before, b :: (p ++ t)⟩ : Cursor).startsWord = false := by
        have closed : atWordStart before = false := by
          simp only [isChain, Bool.or_eq_true, beq_iff_eq] at chain_a
          rw [before_eq]
          rcases chain_a with part | rfl
          · simp [atWordStart, part]
          · rfl
        simp [startsWord, closed]
      have step : flagsAt ⟨before, b :: (p ++ t)⟩ = flagsAt ⟨b :: before, p ++ t⟩ :=
        flagsAt_of_byte plain (by simpa [peek?] using noBrace) noWord
      rw [List.cons_append, step, flagsAt_inside (fun x mem => chain x (List.mem_cons_of_mem _ mem))
        ⟨b, before, rfl, chain b List.mem_cons_self⟩]
      simp

theorem head_isWordStart {c : Cursor} (starts : c.startsWord = true) :
    c.after.head?.any isWordStart = true := by
  cases other : c.after.head?.any isWordStart with
  | true => rfl
  | false =>
      have pos := word_length_pos starts
      rw [Cursor.word, word_eq_nil other] at pos
      cases pos

/-- A run is passed over as a whole when it has a dot, and when no word starts where it does. -/
theorem flagsAt_run {r before t : Text} (chain : ∀ b ∈ r, isChain b = true) (more : r ≠ [])
    (silent : dot ∈ r ∨ (⟨before, r ++ t⟩ : Cursor).startsWord = false) :
    flagsAt ⟨before, r ++ t⟩ = flagsAt ⟨r.reverse ++ before, t⟩ := by
  obtain ⟨b, p, rfl⟩ := List.exists_cons_of_ne_nil more
  have inert := isInert_of_isChain (chain b List.mem_cons_self)
  have plain : (⟨before, b :: p ++ t⟩ : Cursor).literalLength = 0 :=
    literalLength_eq_zero_of_peek? rfl (opensLiteral_of_isInert inert)
  by_cases starts : (⟨before, b :: p ++ t⟩ : Cursor).startsWord = true
  · have dotted : dot ∈ b :: p := by
      refine silent.resolve_right fun closed => ?_
      rw [starts] at closed
      cases closed
    have first := head_isWordStart starts
    obtain ⟨w, m, run_eq, noDot⟩ := List.eq_append_cons_of_mem dotted
    rw [run_eq, List.append_assoc, List.cons_append] at first starts plain ⊢
    have chain_w : ∀ a ∈ w, isChain a = true := by
      intro a mem
      exact chain a (run_eq ▸ List.mem_append_left _ mem)
    have stop : ∀ a ∈ (dot :: (m ++ t)).head?, isWordPart a = false := by simp [isWordPart_dot]
    obtain ⟨a, w', rfl⟩ : ∃ a w', w = a :: w' := by
      cases w with
      | nil => cases first
      | cons a w' => exact ⟨a, w', rfl⟩
    have word_eq : (⟨before, a :: w' ++ dot :: (m ++ t)⟩ : Cursor).word = a :: w' :=
      word_name chain_w noDot (by simpa using first) stop
    have behind : (⟨before, a :: w' ++ dot :: (m ++ t)⟩ : Cursor).advance (a :: w').length =
        ⟨(a :: w').reverse ++ before, dot :: (m ++ t)⟩ := advance_append _ _ _
    have barred : Barred ((⟨before, a :: w' ++ dot :: (m ++ t)⟩ : Cursor).advance
        (⟨before, a :: w' ++ dot :: (m ++ t)⟩ : Cursor).word.length).skipSpace := by
      rw [word_eq, behind, skipSpace_of_ne (chain_facts rfl isChain_dot).2.2.2]
      exact barred_of_dotted (w := []) rfl (by simp) (by simp)
    have chain_m : ∀ x ∈ dot :: m, isChain x = true := by
      intro x mem
      exact chain x (run_eq ▸ List.mem_append_right _ mem)
    rw [flagsAt_of_word plain starts, headerBody?_of_tail barred.methodName_tail]
    dsimp only
    rw [word_eq, behind, ← List.cons_append, flagsAt_inside chain_m]
    · simp
    · obtain ⟨x, y, reverse_eq⟩ :=
        List.exists_cons_of_ne_nil (mt List.reverse_eq_nil_iff.mp (List.cons_ne_nil a w'))
      refine ⟨x, y ++ before, by rw [reverse_eq]; rfl, chain_w x ?_⟩
      rw [← List.mem_reverse, reverse_eq]
      exact List.mem_cons_self
  · have noBrace : b ≠ openBrace := ne_of_isInert inert (by decide)
    have step := flagsAt_of_byte plain (by simpa [peek?] using noBrace) (by simpa using starts)
    rw [step]
    have inside : flagsAt ⟨b :: before, p ++ t⟩ = flagsAt ⟨p.reverse ++ b :: before, t⟩ :=
      flagsAt_inside (fun x mem => chain x (List.mem_cons_of_mem _ mem))
        ⟨b, before, rfl, chain b List.mem_cons_self⟩
    rw [List.reverse_cons, List.append_assoc]
    exact inside

/-! ## The scan in two spellings -/

/-- The scan for entries passes over an exchanged stretch, when the texts behind it are spelled
alike. -/
structure Passable (gap : Exchange) : Prop where
  old : ∀ {old new t t' : Text}, gap old new t t' → Respelled gap t t' → Passes old t
  new : ∀ {old new t t' : Text}, gap old new t t' → Respelled gap t t' → Passes new t'

/-- A word starts with a run in both spellings or in neither. -/
theorem RunAlike.startsWord_eq {r r' before before' : Text} (alike : RunAlike r r') (noDot : dot ∉ r)
    (more : r ≠ []) (looks : Looks before before') (t t' : Text) :
    (⟨before, r ++ t⟩ : Cursor).startsWord = (⟨before', r' ++ t'⟩ : Cursor).startsWord := by
  have starts := alike.starts noDot
  obtain ⟨b, y, rfl⟩ := List.exists_cons_of_ne_nil more
  obtain ⟨b', y', rfl⟩ := List.exists_cons_of_ne_nil (mt alike.nil_iff.mpr more)
  have same : isWordStart b = isWordStart b' := starts
  simp only [startsWord, Cursor.word, List.cons_append, Source.word, looks.wordStart, same]
  split <;> rfl

/-- **Two spellings of a text have the same entries, marked alike.** -/
theorem Aligned.flagsAt_eq {gap : Exchange} (lawful : Lawful gap) (barring : Barring gap)
    (passable : Passable gap) {m : Nat} {c c' : Cursor} (length : c.after.length = m)
    (aligned : Aligned gap c c') : flagsAt c = flagsAt c' := by
  induction m using Nat.strongRecOn generalizing c c' with
  | _ m ih =>
    have shorter : ∀ n, 0 < n → c.after ≠ [] → (c.advance n).after.length < m :=
      fun n pos more => length ▸ length_after_lt pos more
    have literal := aligned.literal lawful
    by_cases starts : c.literalLength = 0
    · have starts' := literal.zero_iff.mp starts
      obtain ⟨before, after⟩ := c
      obtain ⟨before', after'⟩ := c'
      obtain ⟨respelled, looks⟩ := aligned
      dsimp only at respelled length
      cases respelled with
      | nil => rw [flagsAt_of_nil rfl, flagsAt_of_nil rfl]
      | @byte b t t' other rest =>
          have looks' := looks_of_byte other looks
          have inside : Aligned gap ⟨b :: before, t⟩ ⟨b :: before', t'⟩ :=
            ⟨rest, .inr (looks'.cons b)⟩
          by_cases brace : b = openBrace
          · subst brace
            rw [flagsAt_of_brace starts rfl, flagsAt_of_brace starts' rfl]
            have front : ∀ near y : Text, (⟨near, openBrace :: y⟩ : Cursor).peek? = some openBrace :=
              fun _ _ => rfl
            rcases scope_respelled lawful (front before t) (front before' t') inside with
              ⟨e, e', failed, failed'⟩ | ⟨span, span', closed, closed', behind⟩
            · rw [failed, failed']
            · rw [closed, closed']
              obtain ⟨start_eq, lt, -, -⟩ := scope_walk closed
              exact ih _ (shorter _ (by omega) (List.cons_ne_nil _ _)) rfl behind
          · have noStart : isWordStart b = false := by
              simp only [isChain, isWordPart, Bool.or_eq_false_iff] at other
              exact other.1.1
            have noWord : ∀ near y : Text, (⟨near, b :: y⟩ : Cursor).startsWord = false := by
              intro near y
              simp [startsWord, Cursor.word, Source.word, noStart]
            have noBrace : ∀ near y : Text, (⟨near, b :: y⟩ : Cursor).peek? ≠ some openBrace :=
              fun near y => by simpa [peek?] using brace
            rw [flagsAt_of_byte starts (noBrace _ _) (noWord _ _),
              flagsAt_of_byte starts' (noBrace _ _) (noWord _ _)]
            exact ih _ (shorter 1 Nat.one_pos (List.cons_ne_nil _ _)) rfl inside
      | @piece x x' t t' here rest =>
          have more := here.ne_nil lawful
          have behind : Aligned gap ⟨x.reverse ++ before, t⟩ ⟨x'.reverse ++ before', t'⟩ :=
            ⟨rest, .inr (here.looks lawful looks)⟩
          have less := shorter x.length (List.length_pos_iff.mpr more)
            (List.append_ne_nil_of_left_ne_nil more t)
          rw [advance_append] at less
          have passed := ih _ less rfl behind
          cases here with
          | stretch here => rw [passable.old here rest, passable.new here rest, passed]
          | run alike _ ends ends' =>
              have more' := mt alike.nil_iff.mpr more
              by_cases dotted : dot ∈ x
              · rw [flagsAt_run alike.chain more (.inl dotted),
                  flagsAt_run alike.chain' more' (.inl (alike.dot_iff.mp dotted)), passed]
              have looks' := looks_of_noDot more dotted looks
              have same := alike.startsWord_eq dotted more looks' t t'
              by_cases word : (⟨before, x ++ t⟩ : Cursor).startsWord = true
              · have name : NameAlike gap ⟨before, x ++ t⟩ ⟨before', x' ++ t'⟩ x x' := by
                  refine ⟨alike, dotted, ?_, ⟨t, rfl, ends⟩, ⟨t', rfl, ends'⟩, ?_⟩
                  · obtain ⟨a, y, rfl⟩ := List.exists_cons_of_ne_nil more
                    exact head_isWordStart word
                  · rwa [advance_append, advance_append]
                obtain ⟨⟨word_eq, -⟩, word_eq', -⟩ := name.word_eq
                have header := name.header lawful barring
                have later : ∀ marked brace, headerBody? ⟨before, x ++ t⟩ = some (marked, brace) →
                    ∀ n, (brace.advance n).after.length < m :=
                  fun _ _ read n => Nat.lt_of_lt_of_eq (headerBody?_walk read n) length
                rw [flagsAt_of_word starts word, flagsAt_of_word starts' (same ▸ word)]
                generalize headerBody? ⟨before, x ++ t⟩ = body at header later ⊢
                generalize headerBody? ⟨before', x' ++ t'⟩ = body' at header ⊢
                cases header with
                | none =>
                    dsimp only
                    rw [word_eq, word_eq', advance_append, advance_append, passed]
                | @some marked brace brace' front front' inside =>
                    dsimp only
                    rcases scope_respelled lawful front front' inside with
                      ⟨e, e', failed, failed'⟩ | ⟨span, span', closed, closed', behind⟩
                    · rw [failed, failed']
                    · rw [closed, closed']
                      dsimp only
                      rw [ih _ (later marked brace rfl _) rfl behind]
              · rw [flagsAt_run alike.chain more (.inr (by simpa using word)),
                  flagsAt_run alike.chain' more' (.inr (by simpa [same] using word)), passed]
    · rw [flagsAt_of_literal starts, flagsAt_of_literal (mt literal.zero_iff.mpr starts)]
      have more : c.after ≠ [] := by
        intro done
        apply starts
        rw [Cursor.literalLength, done]
        rfl
      exact ih _ (shorter _ (by omega) more) rfl literal.aligned

end ClassUpgrade.Source
