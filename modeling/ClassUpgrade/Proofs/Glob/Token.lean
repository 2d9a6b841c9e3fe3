/-
# Proofs.Glob.Token — how many separators a simple pattern asks for

A pattern without braces, brackets and escapes is a row of tokens: plain
characters, `?`, `*` and `**`. The parser reads it token by token
(`parseFrom_tokens`), so that it matches a text that falls into pieces which its
tokens match. Of these tokens only the separator matches the separator, and `**`.
A simple pattern of some segments therefore accepts a path with one separator
less, and none with fewer (`length_le_of_accepts`, `exists_accepts`), and without
a segment `**` none with more (`length_eq_of_accepts`).
-/
import ClassUpgrade.Proofs.Glob.Matcher
import ClassUpgrade.Proofs.Glob.Parser
import ClassUpgrade.Proofs.Text.Glyph

namespace ClassUpgrade.Glob

set_option autoImplicit false

open Byte

/-! ## Tokens -/

/-- A character of a pattern without braces, brackets and escapes. -/
def isSimple (c : Char) : Bool := isPlain c || c == '?' || c == '*'

def tokens : List Char → List Pattern
  | '*' :: '*' :: rest => .anything :: tokens rest
  | '*' :: rest => .run :: tokens rest
  | '?' :: rest => .one :: tokens rest
  | c :: rest => .char c :: tokens rest
  | [] => []

inductive Pattern.IsToken : Pattern → Prop
  | char (c : Char) : IsToken (.char c)
  | one : IsToken .one
  | run : IsToken .run
  | anything : IsToken .anything

theorem isToken_of_mem_tokens (cs : List Char) : ∀ p ∈ tokens cs, p.IsToken := by
  fun_induction tokens cs with
  | case1 rest ih => exact List.forall_mem_cons.mpr ⟨.anything, ih⟩
  | case2 rest _ ih => exact List.forall_mem_cons.mpr ⟨.run, ih⟩
  | case3 rest ih => exact List.forall_mem_cons.mpr ⟨.one, ih⟩
  | case4 c rest _ _ _ ih => exact List.forall_mem_cons.mpr ⟨.char c, ih⟩
  | case5 => simp

theorem mem_of_char_mem_tokens {c : Char} {cs : List Char} (mem : .char c ∈ tokens cs) :
    c ∈ cs := by
  fun_induction tokens cs with
  | case1 rest ih =>
      exact List.mem_cons_of_mem _ (List.mem_cons_of_mem _ (ih (by simpa using mem)))
  | case2 rest _ ih => exact List.mem_cons_of_mem _ (ih (by simpa using mem))
  | case3 rest ih => exact List.mem_cons_of_mem _ (ih (by simpa using mem))
  | case4 d rest _ _ _ ih =>
      rcases List.mem_cons.mp mem with same | mem
      · obtain rfl := Pattern.char.inj same
        exact List.mem_cons_self
      · exact List.mem_cons_of_mem _ (ih mem)
  | case5 => cases mem

/-- A separator stands between tokens, and is one itself. -/
theorem tokens_append_separator (cs ds : List Char) :
    tokens (cs ++ separator :: ds) = tokens cs ++ .char separator :: tokens ds := by
  fun_induction tokens cs with
  | case1 rest ih => rw [List.cons_append, List.cons_append, tokens, ih, List.cons_append]
  | case2 rest alone ih =>
      rw [List.cons_append, tokens, ih, List.cons_append]
      cases rest with
      | nil => exact fun rest' same => absurd (List.cons.inj same).1 (by decide)
      | cons c rest => exact fun rest' same => alone _ (by rw [(List.cons.inj same).1])
  | case3 rest ih => rw [List.cons_append, tokens, ih, List.cons_append]
  | case4 c rest noDouble noStar noQuestion ih =>
      rw [List.cons_append, tokens, ih, List.cons_append]
      · exact fun rest' star _ => noStar star
      · exact noStar
      · exact noQuestion
  | case5 => rfl

/-- **A simple pattern is read token by token.** -/
theorem parseFrom_tokens {cs : List Char} (simple : ∀ c ∈ cs, isSimple c = true)
    (current : Pattern) (inText : Bool) :
    parseFrom [] current inText 0 cs = .ok ((tokens cs).foldl .seq current) := by
  fun_induction tokens cs generalizing current inText with
  | case1 rest ih =>
      rw [List.forall_mem_cons, List.forall_mem_cons] at simple
      rw [parseFrom_anything, ih simple.2.2, List.foldl_cons]
  | case2 rest alone ih =>
      rw [List.forall_mem_cons] at simple
      have single : rest.head? ≠ some '*' := fun front => by
        obtain ⟨rest', rest_eq⟩ := List.head?_eq_some_iff.mp front
        exact alone rest' rest_eq
      rw [parseFrom_run single, ih simple.2, List.foldl_cons]
  | case3 rest ih =>
      rw [List.forall_mem_cons] at simple
      rw [parseFrom_one, ih simple.2, List.foldl_cons]
  | case4 c rest _ noStar noQuestion ih =>
      rw [List.forall_mem_cons] at simple
      have plain : isPlain c = true := by
        have kind := simple.1
        simp only [isSimple, Bool.or_eq_true, beq_iff_eq, or_assoc] at kind
        exact kind.resolve_right (not_or.mpr ⟨noQuestion, noStar⟩)
      rw [parseFrom_plain plain, ih simple.2, List.foldl_cons]
  | case5 => simp [parseFrom]

/-! ## What tokens match in a row -/

/-- What patterns match one after the other. -/
def MatchAll : List Pattern → List Char → Prop
  | [], s => s = []
  | p :: ps, s => ∃ x y, s = x ++ y ∧ p.Matches x ∧ MatchAll ps y

theorem matches_foldl (ps : List Pattern) (p : Pattern) (s : List Char) :
    (ps.foldl .seq p).Matches s ↔ ∃ x y, s = x ++ y ∧ p.Matches x ∧ MatchAll ps y := by
  induction ps generalizing p with
  | nil => simp [MatchAll]
  | cons q ps ih =>
      rw [List.foldl_cons, ih]
      constructor
      · rintro ⟨_, z, rfl, ⟨x, y, rfl, first, second⟩, rest⟩
        exact ⟨x, y ++ z, List.append_assoc x y z, first, y, z, rfl, second, rest⟩
      · rintro ⟨x, _, rfl, first, y, z, rfl, second, rest⟩
        exact ⟨x ++ y, z, (List.append_assoc x y z).symm, ⟨x, y, rfl, first, second⟩, rest⟩

/-- What a simple pattern accepts. -/
theorem accepts_iff_matchAll {t : Text} {s : List Char}
    (simple : ∀ c ∈ Text.chars t, isSimple c = true) :
    (∃ p, parse t = .ok p ∧ p.accepts s = true) ↔ MatchAll (tokens (Text.chars t)) s := by
  have parsed := parseFrom_tokens simple .empty false
  rw [parse, parsed]
  simp only [Except.ok.injEq, exists_eq_left', Pattern.accepts_iff, matches_foldl,
    Pattern.Matches]
  constructor
  · rintro ⟨_, y, rfl, rfl, matched⟩
    exact matched
  · exact fun matched => ⟨[], s, rfl, rfl, matched⟩

/-- Each separator among patterns takes one of the text. -/
theorem count_le_of_matchAll {ps : List Pattern} {s : List Char} (matched : MatchAll ps s) :
    ps.count (.char separator) ≤ s.count separator := by
  induction ps generalizing s with
  | nil => simp
  | cons p ps ih =>
      obtain ⟨x, y, rfl, first, rest⟩ := matched
      have ih := ih rest
      rw [List.count_cons, List.count_append]
      split
      · rename_i same
        obtain rfl := eq_of_beq same
        obtain rfl : x = [separator] := first
        simp only [List.count_singleton_self]
        omega
      · omega

/-- Without `**` nothing but a separator takes one. -/
theorem count_eq_of_matchAll {ps : List Pattern} {s : List Char} (isToken : ∀ p ∈ ps, p.IsToken)
    (bounded : .anything ∉ ps) (matched : MatchAll ps s) :
    s.count separator = ps.count (.char separator) := by
  induction ps generalizing s with
  | nil =>
      obtain rfl : s = [] := matched
      rfl
  | cons p ps ih =>
      obtain ⟨x, y, rfl, first, rest⟩ := matched
      rw [List.forall_mem_cons] at isToken
      rw [List.mem_cons, not_or] at bounded
      rw [List.count_cons, List.count_append, ih isToken.2 bounded.2 rest, Nat.add_comm]
      congr 1
      cases isToken.1 with
      | char c =>
          obtain rfl : x = [c] := first
          simp [List.count_singleton]
      | one =>
          obtain ⟨c, other, rfl⟩ := first
          simp [other]
      | run => simpa using List.count_eq_zero.mpr first
      | anything => exact absurd rfl bounded.1

/-- Tokens match some text that has no separator but theirs. -/
theorem exists_matchAll {ps : List Pattern} (isToken : ∀ p ∈ ps, p.IsToken) :
    ∃ s, MatchAll ps s ∧ s.count separator = ps.count (.char separator) := by
  induction ps with
  | nil => exact ⟨[], rfl, rfl⟩
  | cons p ps ih =>
      rw [List.forall_mem_cons] at isToken
      obtain ⟨y, rest, count_eq⟩ := ih isToken.2
      obtain ⟨x, first, count_eq'⟩ : ∃ x, p.Matches x ∧
          x.count separator = if p == .char separator then 1 else 0 := by
        cases isToken.1 with
        | char c => exact ⟨[c], rfl, by simp [List.count_singleton]⟩
        | one => exact ⟨['a'], ⟨'a', by decide, rfl⟩, by decide⟩
        | run => exact ⟨[], List.not_mem_nil, rfl⟩
        | anything => exact ⟨[], trivial, rfl⟩
      refine ⟨x ++ y, ⟨x, y, rfl, first, rest⟩, ?_⟩
      rw [List.count_append, List.count_cons, count_eq, count_eq', Nat.add_comm]

/-! ## Segments -/

/-- A segment without braces, brackets and escapes, and without `**` unless it is that. -/
structure IsSimple (s : Text) : Prop where
  free : slash ∉ s
  simple : (Text.chars s).all isSimple = true
  alone : s ≠ wildcard → .anything ∉ tokens (Text.chars s)

instance (s : Text) : Decidable (IsSimple s) :=
  decidable_of_iff (slash ∉ s ∧ (Text.chars s).all isSimple = true ∧
      (s ≠ wildcard → .anything ∉ tokens (Text.chars s)))
    ⟨fun ⟨free, simple, alone⟩ => ⟨free, simple, alone⟩,
      fun ⟨free, simple, alone⟩ => ⟨free, simple, alone⟩⟩

theorem chars_ofSegments_cons (s : Text) {l : List Text} (ne_nil : l ≠ []) :
    Text.chars (Path.ofSegments (s :: l)) =
      Text.chars s ++ separator :: Text.chars (Path.ofSegments l) := by
  rw [Path.ofSegments_cons ne_nil, Text.chars_append_ascii _ _ (by decide)]
  rfl

theorem simple_ofSegments : ∀ {l : List Text}, (∀ s ∈ l, IsSimple s) →
    ∀ c ∈ Text.chars (Path.ofSegments l), isSimple c = true
  | [], _ => by rintro c ⟨⟩
  | [s], simple => by
      rw [Path.ofSegments_singleton]
      exact List.all_eq_true.mp (simple s List.mem_cons_self).simple
  | s :: t :: rest, simple => by
      rw [List.forall_mem_cons] at simple
      rw [chars_ofSegments_cons s (List.cons_ne_nil t rest), List.forall_mem_append,
        List.forall_mem_cons]
      exact ⟨List.all_eq_true.mp simple.1.simple, by decide, simple_ofSegments simple.2⟩

/-- Segments have one separator less between them. -/
theorem count_tokens_ofSegments : ∀ {l : List Text}, l ≠ [] → (∀ s ∈ l, IsSimple s) →
    (tokens (Text.chars (Path.ofSegments l))).count (.char separator) + 1 = l.length
  | [], ne_nil, _ => absurd rfl ne_nil
  | [s], _, simple => by
      rw [Path.ofSegments_singleton, List.count_eq_zero.mpr]
      · rfl
      · intro mem
        have mem := mem_of_char_mem_tokens mem
        exact (simple s List.mem_cons_self).free ((Text.mem_chars_iff (by decide)).mp mem)
  | s :: t :: rest, _, simple => by
      rw [List.forall_mem_cons] at simple
      have ih := count_tokens_ofSegments (List.cons_ne_nil t rest) simple.2
      have none : (tokens (Text.chars s)).count (.char separator) = 0 := by
        refine List.count_eq_zero.mpr fun mem => simple.1.free ?_
        exact (Text.mem_chars_iff (by decide)).mp (mem_of_char_mem_tokens mem)
      rw [chars_ofSegments_cons s (List.cons_ne_nil t rest), tokens_append_separator,
        List.count_append, List.count_cons_self, none, List.length_cons]
      omega

/-- Only the segment `**` brings the token `**`. -/
theorem anything_not_mem_tokens : ∀ {l : List Text}, (∀ s ∈ l, IsSimple s) → wildcard ∉ l →
    .anything ∉ tokens (Text.chars (Path.ofSegments l))
  | [], _, _ => by rintro ⟨⟩
  | [s], simple, absent => by
      rw [Path.ofSegments_singleton]
      exact (simple s List.mem_cons_self).alone fun same => absent (by simp [same])
  | s :: t :: rest, simple, absent => by
      rw [List.forall_mem_cons] at simple
      rw [List.mem_cons, not_or] at absent
      have ih := anything_not_mem_tokens simple.2 absent.2
      rw [chars_ofSegments_cons s (List.cons_ne_nil t rest), tokens_append_separator,
        List.mem_append, List.mem_cons, not_or, not_or]
      exact ⟨simple.1.alone (Ne.symm absent.1), by simp, ih⟩

section Accepts

variable {l : List Text} {path : Text}

def separators (path : Text) : Nat := (Text.chars path).count separator

theorem accepts_iff (simple : ∀ s ∈ l, IsSimple s) :
    Accepts l path ↔ MatchAll (tokens (Text.chars (Path.ofSegments l))) (Text.chars path) :=
  accepts_iff_matchAll (simple_ofSegments simple)

/-- **A path that segments match has as many.** -/
theorem length_le_of_accepts (ne_nil : l ≠ []) (simple : ∀ s ∈ l, IsSimple s)
    (accepts : Accepts l path) : l.length ≤ separators path + 1 := by
  have count := count_le_of_matchAll ((accepts_iff simple).mp accepts)
  have length := count_tokens_ofSegments ne_nil simple
  rw [separators]
  omega

/-- **Without a wildcard a path that segments match has exactly as many.** -/
theorem length_eq_of_accepts (ne_nil : l ≠ []) (simple : ∀ s ∈ l, IsSimple s)
    (bounded : wildcard ∉ l) (accepts : Accepts l path) : l.length = separators path + 1 := by
  have count := count_eq_of_matchAll (isToken_of_mem_tokens _)
    (anything_not_mem_tokens simple bounded) ((accepts_iff simple).mp accepts)
  have length := count_tokens_ofSegments ne_nil simple
  rw [separators]
  omega

/-- **Segments match some path that has no more of them.** -/
theorem exists_accepts (ne_nil : l ≠ []) (simple : ∀ s ∈ l, IsSimple s) :
    ∃ path, Accepts l path ∧ l.length = separators path + 1 := by
  obtain ⟨s, matched, count⟩ :=
    exists_matchAll (isToken_of_mem_tokens (Text.chars (Path.ofSegments l)))
  have length := count_tokens_ofSegments ne_nil simple
  refine ⟨Text.ofChars s, (accepts_iff simple).mpr ?_, ?_⟩
  · rwa [Text.chars_ofChars]
  · rw [separators, Text.chars_ofChars]
    omega

end Accepts

end ClassUpgrade.Glob
