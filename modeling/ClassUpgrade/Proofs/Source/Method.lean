/-
# Proofs.Source.Method — the scan for method entries as rules

The scan of a methods object is one walk with a counter of bytes to pass over.
`Lists c r` restates it as rules, one for each thing that can stand at a place:
the end of the text, a literal, a nested scope, a word that heads no entry, an
entry, any other byte, and a scope that is never closed in the place of each of
the two scopes. The scan answers exactly what the rules derive
(`methodMatches_eq_iff`); what holds of all scans is proved by induction on them:

* each entry listed was read at a place of the walk (`Lists.entry_of_mem`);
* a header is read along the walk, up to the brace of its body
  (`methodHeader?_walk`), so a scan fails only for a brace outside literals whose
  scope is never closed (`Lists.exists_ok`).
-/
import ClassUpgrade.Source.Method
import ClassUpgrade.Proofs.Source.Bracket

namespace ClassUpgrade.Source

set_option autoImplicit false

open Byte Cursor

/-! ## Headers -/

/-- A closed bracket: the place behind it is where the search says, and the walk comes by it. -/
theorem closeOf?_walk {kind : Bracket} (distinct : kind.closing ≠ kind.opening)
    (plain : opensLiteral kind.opening = false) {c : Cursor} {n : Nat}
    (found : c.closeOf? kind = some n) :
    ∃ e, Closes kind 0 (c.advance 1) e ∧ e.offset = n ∧ c.offset < n ∧ Walk c (e.advance 1) ∧
      c.advance (n + 1 - c.offset) = e.advance 1 := by
  obtain ⟨front, e, closes, rfl⟩ := (closeOf?_eq_some_iff distinct).mp found
  have entered : Walk c (c.advance 1) := Walk.byte (literalLength_eq_zero_of_peek? front plain)
  have past : Walk c (e.advance 1) :=
    entered.trans (closes.walk.trans (Walk.byte closes.front.1))
  have lt := closes.walk.offset_le
  rw [offset_advance_one front] at lt
  refine ⟨e, closes, rfl, by omega, past, ?_⟩
  have goes := past.advance_sub
  rwa [offset_advance_one closes.front.2] at goes

theorem methodName_walk (c : Cursor) : Walk c (methodName c).2.2 := by
  unfold methodName
  dsimp only
  split
  · split
    · exact (Walk.word c).trans ((Walk.skipSpace _).trans (Walk.word _))
    · exact Walk.word c
  · exact Walk.word c

theorem hasKeyword_leads {keyword t : Text} (found : hasKeyword keyword t = true) :
    keyword <+: t := by
  unfold hasKeyword Text.after? at found
  split at found
  · cases found
  all_goals
    rename_i leads
    split at leads
    · rename_i starts
      exact List.isPrefixOf_iff_prefix.mp starts
    · cases leads

theorem optionalKeyword_walk {keyword : Text} (word : keyword.all isWordPart = true) (c : Cursor) :
    Walk c (optionalKeyword c keyword).2 := by
  unfold optionalKeyword
  split
  · rename_i found
    refine (Walk.plainRun keyword.length c ?_).trans (.skipSpace _)
    rw [← List.prefix_iff_eq_take.mp (hasKeyword_leads found)]
    exact fun b mem => opensLiteral_of_isWordPart (List.all_eq_true.mp word b mem)
  · exact .here c

theorem methodMarker_walk (c : Cursor) : Walk c (methodMarker c).2 := by
  unfold methodMarker
  split
  · exact .here c
  · rename_i d marked
    exact ((Walk.expect? marked (by decide)).trans (.skipSpace d)).trans
      ((optionalKeyword_walk (by decide) _).trans (optionalKeyword_walk (by decide) _))

/-- Where the parameters of the header at a place would open. -/
def groupOf (c : Cursor) : Cursor := (methodMarker (methodName c).2.2.skipSpace).2

theorem groupOf_walk (c : Cursor) : Walk c (groupOf c) :=
  ((methodName_walk c).trans (.skipSpace _)).trans (methodMarker_walk _)

/-- The parts of a header: a name that is not reserved, closed parameters, the brace of a body. -/
theorem methodHeader?_eq_some_iff {c brace : Cursor} {header : MethodHeader} :
    methodHeader? c = some (header, brace) ↔
      (methodName c).1 ∉ reservedWords ∧ ∃ n, (groupOf c).closeOf? .paren = some n ∧
        header = ⟨(methodName c).1,
          (methodName c).2.1 || (methodMarker (methodName c).2.2.skipSpace).1,
          (groupOf c).after.slice 1 (n - (groupOf c).offset)⟩ ∧
        brace = ((groupOf c).advance (n + 1 - (groupOf c).offset)).skipSpace ∧
        brace.peek? = some openBrace := by
  unfold methodHeader? groupOf
  dsimp only
  by_cases reserved : (methodName c).1 ∈ reservedWords
  · simp [reserved]
  · simp only [List.contains_eq_mem, reserved, decide_false, Bool.false_eq_true, if_false,
      Option.bind_eq_bind, Option.bind_eq_some_iff, not_false_eq_true, true_and]
    refine exists_congr fun n => and_congr_right fun _ => ?_
    constructor
    · intro found
      split at found
      · rename_i front
        obtain ⟨rfl, rfl⟩ := Prod.mk.inj (Option.some.inj found)
        exact ⟨rfl, rfl, front⟩
      · cases found
    · rintro ⟨rfl, rfl, front⟩
      rw [if_pos front]

/-- A header is read along the walk, up to the brace of its body. -/
theorem methodHeader?_walk {c brace : Cursor} {header : MethodHeader}
    (found : methodHeader? c = some (header, brace)) :
    Walk c brace ∧ c.offset < brace.offset ∧ brace.peek? = some openBrace := by
  obtain ⟨-, n, closed, -, rfl, front⟩ := methodHeader?_eq_some_iff.mp found
  obtain ⟨e, -, rfl, lt, past, goes⟩ := closeOf?_walk (by decide) (by decide) closed
  have lead := groupOf_walk c
  have spaced := Walk.skipSpace (e.advance 1)
  rw [goes] at front ⊢
  refine ⟨lead.trans (past.trans spaced), ?_, front⟩
  have := lead.offset_le
  have := spaced.offset_le
  rw [offset_advance] at this
  omega

/-! ## The scan as rules -/

/-- What the scan for method entries from a place on comes to. -/
inductive Lists : Cursor → Except UnmatchedScope (List MethodMatch) → Prop where
  | finish {c : Cursor} (done : c.after = []) : Lists c (.ok [])
  | literal {c : Cursor} {found : Except UnmatchedScope (List MethodMatch)}
      (starts : c.literalLength ≠ 0) (rest : Lists (c.advance c.literalLength) found) :
      Lists c found
  | unmatched {c : Cursor} {e : UnmatchedScope} (plain : c.literalLength = 0)
      (front : c.peek? = some openBrace) (failed : c.scope = .error e) : Lists c (.error e)
  | nested {c : Cursor} {span : Span} {found : Except UnmatchedScope (List MethodMatch)}
      (plain : c.literalLength = 0) (front : c.peek? = some openBrace) (closed : c.scope = .ok span)
      (rest : Lists (c.advance span.length) found) : Lists c found
  | word {c : Cursor} {found : Except UnmatchedScope (List MethodMatch)}
      (plain : c.literalLength = 0) (starts : c.startsWord = true)
      (noHeader : methodHeader? c = none) (rest : Lists (c.advance c.word.length) found) :
      Lists c found
  | openBody {c brace : Cursor} {header : MethodHeader} {e : UnmatchedScope}
      (plain : c.literalLength = 0) (starts : c.startsWord = true)
      (read : methodHeader? c = some (header, brace)) (failed : brace.scope = .error e) :
      Lists c (.error e)
  | entry {c brace : Cursor} {header : MethodHeader} {body : Span}
      {found : Except UnmatchedScope (List MethodMatch)} (plain : c.literalLength = 0)
      (starts : c.startsWord = true) (read : methodHeader? c = some (header, brace))
      (closed : brace.scope = .ok body) (rest : Lists (c.advance (body.stop + 1 - c.offset)) found) :
      Lists c (found.map (⟨c.offset, { header with body }⟩ :: ·))
  | byte {c : Cursor} {found : Except UnmatchedScope (List MethodMatch)}
      (plain : c.literalLength = 0) (more : c.after ≠ []) (noBrace : c.peek? ≠ some openBrace)
      (noWord : c.startsWord = false) (rest : Lists (c.advance 1) found) : Lists c found

/-- The scan follows the rules, from the place where the bytes to pass over end. -/
theorem lists_methodsFrom : ∀ (t before : Text) (skip : Nat),
    Lists ((⟨before, t⟩ : Cursor).advance skip) (methodsFrom before skip t)
  | [], before, skip => by
      rw [advance_of_nil rfl]
      exact .finish rfl
  | b :: rest, before, skip + 1 => by
      rw [advance_cons]
      exact lists_methodsFrom rest (b :: before) skip
  | b :: rest, before, 0 => by
      -- each branch hands over the length of what it passes, less the byte in front
      have onward : ∀ k, Lists ((⟨before, b :: rest⟩ : Cursor).advance (k + 1))
          (methodsFrom (b :: before) k rest) := by
        intro k
        rw [advance_cons]
        exact lists_methodsFrom rest (b :: before) k
      rw [advance_zero]
      unfold methodsFrom
      dsimp only
      split
      · rename_i n literal
        have length_eq : (⟨before, b :: rest⟩ : Cursor).literalLength = n + 1 := literal
        exact .literal (by omega) (length_eq ▸ onward n)
      · rename_i plain
        split
        · rename_i front
          split
          · rename_i e failed
            exact .unmatched plain (congrArg some front) failed
          · rename_i span closed
            obtain ⟨start_eq, lt, -, -⟩ := scope_walk closed
            refine .nested plain (congrArg some front) closed ?_
            rw [Span.length, show span.stop + 1 - span.start = span.stop - span.start + 1 by omega]
            exact onward _
        · rename_i noBrace
          split
          · rename_i starts
            split
            · rename_i noHeader
              have pos := word_length_pos starts
              refine .word plain starts noHeader ?_
              rw [show (⟨before, b :: rest⟩ : Cursor).word.length =
                (⟨before, b :: rest⟩ : Cursor).word.length - 1 + 1 by omega]
              exact onward _
            · rename_i header brace read
              split
              · rename_i e failed
                exact .openBody plain starts read failed
              · rename_i body closed
                have later := (methodHeader?_walk read).2.1
                obtain ⟨-, lt, -, -⟩ := scope_walk closed
                refine .entry plain starts read closed ?_
                rw [Nat.sub_add_comm (Nat.le_of_lt (Nat.lt_trans later lt))]
                exact onward _
          · rename_i noWord
            exact .byte plain (by simp) (by simpa [peek?] using noBrace) (by simpa using noWord)
              (onward 0)

theorem lists_methodMatches (block : Text) : Lists (start block) (methodMatches block) :=
  lists_methodsFrom block [] 0

/-- Behind the body of an entry the walk goes on. -/
theorem entry_walk {c brace : Cursor} {header : MethodHeader} {body : Span}
    (read : methodHeader? c = some (header, brace)) (closed : brace.scope = .ok body) :
    Walk c (c.advance (body.stop + 1 - c.offset)) := by
  obtain ⟨lead, -, -⟩ := methodHeader?_walk read
  have whole := lead.trans (scope_walk closed).2.2.2
  have goes := whole.advance_sub
  rw [offset_behind_scope closed] at goes
  rwa [goes]

/-! ## The rules follow the scan -/

def methodsAt (c : Cursor) : Except UnmatchedScope (List MethodMatch) :=
  methodsFrom c.before 0 c.after

/-- Bytes to pass over are passed over before anything is read. -/
theorem methodsFrom_eq_methodsAt : ∀ (t before : Text) (skip : Nat),
    methodsFrom before skip t = methodsAt ((⟨before, t⟩ : Cursor).advance skip)
  | t, before, 0 => rfl
  | [], before, skip + 1 => by rw [advance_of_nil rfl]; rfl
  | b :: rest, before, skip + 1 => by
      rw [advance_cons, ← methodsFrom_eq_methodsAt rest (b :: before) skip, methodsFrom]

theorem methodsAt_of_literal {c : Cursor} (starts : c.literalLength ≠ 0) :
    methodsAt c = methodsAt (c.advance c.literalLength) := by
  obtain ⟨before, after⟩ := c
  cases after with
  | nil => exact absurd rfl starts
  | cons b rest =>
      obtain ⟨k, length_eq⟩ := Nat.exists_eq_succ_of_ne_zero starts
      have literal : literalLength before (b :: rest) = k + 1 := length_eq
      rw [length_eq, advance_cons, ← methodsFrom_eq_methodsAt]
      simp [methodsAt, methodsFrom, literal]

/-- One step of the scan, outside literals. -/
theorem methodsAt_of_plain {c : Cursor} (more : c.after ≠ []) (plain : c.literalLength = 0) :
    methodsAt c =
      if c.peek? = some openBrace then
        match c.scope with
        | .error e => .error e
        | .ok span => methodsAt (c.advance (span.stop - span.start + 1))
      else if c.startsWord then
        match methodHeader? c with
        | none => methodsAt (c.advance (c.word.length - 1 + 1))
        | some (header, brace) =>
          match brace.scope with
          | .error e => .error e
          | .ok body => (methodsAt (c.advance (body.stop - c.offset + 1))).map
              (⟨c.offset, { header with body }⟩ :: ·)
      else methodsAt (c.advance 1) := by
  obtain ⟨before, after⟩ := c
  cases after with
  | nil => exact absurd rfl more
  | cons b rest =>
      have plain' : literalLength before (b :: rest) = 0 := plain
      have onward : ∀ k, methodsFrom (b :: before) k rest =
          methodsAt ((⟨before, b :: rest⟩ : Cursor).advance (k + 1)) := by
        intro k
        rw [advance_cons]
        exact methodsFrom_eq_methodsAt rest (b :: before) k
      rw [methodsAt, methodsFrom]
      dsimp only
      rw [plain']
      dsimp only
      by_cases brace : b = openBrace
      · have front : (⟨before, b :: rest⟩ : Cursor).peek? = some openBrace := congrArg some brace
        rw [if_pos brace, if_pos front]
        cases Cursor.scope ⟨before, b :: rest⟩ with
        | error e => rfl
        | ok span => exact onward _
      · have other : (⟨before, b :: rest⟩ : Cursor).peek? ≠ some openBrace := by
          simpa [peek?] using brace
        rw [if_neg brace, if_neg other]
        cases Cursor.startsWord ⟨before, b :: rest⟩ with
        | false => exact onward 0
        | true =>
            rw [if_pos rfl, if_pos rfl]
            cases methodHeader? ⟨before, b :: rest⟩ with
            | none => exact onward _
            | some head =>
                obtain ⟨header, body⟩ := head
                dsimp only
                cases body.scope with
                | error e => rfl
                | ok span => exact congrArg (Except.map _) (onward _)

theorem ne_nil_of_startsWord {c : Cursor} (starts : c.startsWord = true) : c.after ≠ [] := by
  intro done
  have := word_length_pos starts
  simp [Cursor.word, done, Source.word] at this

theorem noBrace_of_startsWord {c : Cursor} (starts : c.startsWord = true) :
    c.peek? ≠ some openBrace := by
  intro front
  have := word_length_pos starts
  obtain ⟨rest, after_eq⟩ := peek?_eq_some_iff.mp front
  have noWord : Source.word (openBrace :: rest) = [] := by
    rw [Source.word, if_neg (by decide)]
  rw [Cursor.word, after_eq, noWord] at this
  cases this

/-- The rules derive only what the scan answers. -/
theorem methodsAt_of_lists {c : Cursor} {found : Except UnmatchedScope (List MethodMatch)}
    (lists : Lists c found) : methodsAt c = found := by
  induction lists with
  | finish done =>
      rw [methodsAt, done]
      rfl
  | literal starts _ ih => rw [methodsAt_of_literal starts, ih]
  | unmatched plain front failed =>
      rw [methodsAt_of_plain (ne_nil_of_peek? front) plain, if_pos front, failed]
  | @nested c span found plain front closed _ ih =>
      obtain ⟨start_eq, lt, -, -⟩ := scope_walk closed
      have length_eq : span.stop - span.start + 1 = span.length := by
        rw [Span.length]
        omega
      rw [methodsAt_of_plain (ne_nil_of_peek? front) plain, if_pos front, closed]
      dsimp only
      rw [length_eq, ih]
  | @word c found plain starts noHeader _ ih =>
      have pos := word_length_pos starts
      rw [methodsAt_of_plain (ne_nil_of_startsWord starts) plain,
        if_neg (noBrace_of_startsWord starts), if_pos starts, noHeader]
      dsimp only
      rw [Nat.sub_add_cancel pos, ih]
  | openBody plain starts read failed =>
      rw [methodsAt_of_plain (ne_nil_of_startsWord starts) plain,
        if_neg (noBrace_of_startsWord starts), if_pos starts, read]
      dsimp only
      rw [failed]
  | @entry c brace header body found plain starts read closed _ ih =>
      have later := (methodHeader?_walk read).2.1
      obtain ⟨-, lt, -, -⟩ := scope_walk closed
      have length_eq : body.stop - c.offset + 1 = body.stop + 1 - c.offset :=
        (Nat.sub_add_comm (Nat.le_of_lt (Nat.lt_trans later lt))).symm
      rw [methodsAt_of_plain (ne_nil_of_startsWord starts) plain,
        if_neg (noBrace_of_startsWord starts), if_pos starts, read]
      dsimp only
      rw [closed]
      dsimp only
      rw [length_eq, ih]
  | byte plain more noBrace noWord _ ih =>
      rw [methodsAt_of_plain more plain, if_neg noBrace, if_neg (by simp [noWord]), ih]

/-- **The scan answers exactly what the rules derive.** -/
theorem methodMatches_eq_iff (block : Text) (found : Except UnmatchedScope (List MethodMatch)) :
    methodMatches block = found ↔ Lists (start block) found := by
  constructor
  · rintro rfl
    exact lists_methodMatches block
  · exact fun lists => methodsAt_of_lists lists

/-! ## What a scan lists -/

/-- An entry that is read from a place where a word starts. -/
def ReadsEntry (c : Cursor) (m : MethodMatch) : Prop :=
  c.startsWord = true ∧ ∃ header brace body, methodHeader? c = some (header, brace) ∧
    brace.scope = .ok body ∧ m = ⟨c.offset, { header with body }⟩

namespace Lists

/-- Each entry listed was read at a place of the walk. -/
theorem entry_of_mem {c : Cursor} {found : Except UnmatchedScope (List MethodMatch)}
    (lists : Lists c found) :
    ∀ entries, found = .ok entries → ∀ m ∈ entries, ∃ d, Walk c d ∧ ReadsEntry d m := by
  -- a place that is passed over leads to the entries behind it
  have behind : ∀ {c c' : Cursor} {m : MethodMatch}, Walk c c' →
      (∃ d, Walk c' d ∧ ReadsEntry d m) → ∃ d, Walk c d ∧ ReadsEntry d m := by
    rintro c c' m past ⟨d, walk, reads⟩
    exact ⟨d, past.trans walk, reads⟩
  induction lists with
  | finish =>
      intro entries ok m mem
      cases ok
      cases mem
  | unmatched | openBody => exact fun entries failed => nomatch failed
  | literal _ _ ih => exact fun entries ok m mem => behind (.literal _) (ih entries ok m mem)
  | nested _ _ closed _ ih =>
      exact fun entries ok m mem => behind (scope_walk closed).2.2.2 (ih entries ok m mem)
  | word _ _ _ _ ih => exact fun entries ok m mem => behind (.word _) (ih entries ok m mem)
  | byte plain _ _ _ _ ih => exact fun entries ok m mem => behind (.byte plain) (ih entries ok m mem)
  | @entry c brace header body found plain starts read closed rest ih =>
      intro entries ok m mem
      cases found with
      | error e => cases ok
      | ok others =>
          obtain rfl := Except.ok.inj ok
          rcases List.mem_cons.mp mem with rfl | later
          · exact ⟨c, .here c, starts, header, brace, body, read, closed, rfl⟩
          · exact behind (entry_walk read closed) (ih others rfl m later)

/-- A scan fails only for a brace outside literals whose scope is never closed. -/
theorem exists_ok {c : Cursor} {found : Except UnmatchedScope (List MethodMatch)}
    (lists : Lists c found) (closed : ∀ d, Walk c d → d.literalLength = 0 →
      d.peek? = some openBrace → ∃ span, d.scope = .ok span) : ∃ entries, found = .ok entries := by
  induction lists with
  | finish => exact ⟨[], rfl⟩
  | unmatched plain front failed =>
      obtain ⟨span, ok⟩ := closed _ (.here _) plain front
      rw [failed] at ok
      cases ok
  | openBody plain starts read failed =>
      obtain ⟨lead, -, front⟩ := methodHeader?_walk read
      obtain ⟨span, ok⟩ := closed _ lead (literalLength_eq_zero_of_peek? front (by decide)) front
      rw [failed] at ok
      cases ok
  | literal _ _ ih => exact ih fun d walk => closed d ((Walk.literal _).trans walk)
  | nested _ _ scope_eq _ ih =>
      exact ih fun d walk => closed d ((scope_walk scope_eq).2.2.2.trans walk)
  | word _ _ _ _ ih => exact ih fun d walk => closed d ((Walk.word _).trans walk)
  | byte plain _ _ _ _ ih => exact ih fun d walk => closed d ((Walk.byte plain).trans walk)
  | entry _ _ read scope_eq _ ih =>
      obtain ⟨others, ok⟩ := ih fun d walk => closed d ((entry_walk read scope_eq).trans walk)
      exact ⟨_, by rw [ok]; rfl⟩

end Lists

end ClassUpgrade.Source
