/-
# Proofs.Glob.Parser — what was parsed stays in front

A parser goes on from the pattern that it has read so far. Outside braces that
pattern stays at the front of what comes out; inside them the pattern in front
of the outermost brace does (`trunk`). So what a text writes matches only texts
with a front that the trunk matches (`opens_of_parseFrom`).

Outside braces the parser takes one step for each token that is no brace and no
bracket: a plain character, an escaped one, `?`, `*` and `**`. The equations of
these steps come first.
-/
import ClassUpgrade.Glob.Parser
import ClassUpgrade.Proofs.Glob.Pattern

namespace ClassUpgrade.Glob

set_option autoImplicit false

/-! ## The steps of the parser outside braces -/

/-- A character that stands for itself outside braces. -/
def isPlain (c : Char) : Bool :=
  c != Glyph.replacement && c != terminator && !(['*', '?', '[', '\x7b', '\\'].contains c)

section Steps

variable {current : Pattern} {inText : Bool} {c : Char} {rest : List Char}

theorem parseFrom_plain (plain : isPlain c = true) :
    parseFrom [] current inText 0 (c :: rest) = parseFrom [] (.seq current (.char c)) true 0 rest := by
  simp only [isPlain, Bool.and_eq_true, bne_iff_ne, ne_eq, Bool.not_eq_true',
    List.contains_eq_mem, List.mem_cons, List.not_mem_nil, or_false, decide_eq_false_iff_not,
    not_or] at plain
  obtain ⟨⟨readable, lasting⟩, noStar, noQuestion, noBracket, noBrace, noEscape⟩ := plain
  rw [parseFrom, if_neg (by simpa using readable), if_neg (by simpa using lasting)]
  all_goals simp_all

theorem parseFrom_escaped (readable : c ≠ Glyph.replacement) (lasting : c ≠ terminator) :
    parseFrom [] current inText 0 ('\\' :: c :: rest) =
      parseFrom [] (.seq current (.char c)) true 0 rest := by
  have on : atEnd (c :: rest) = false := by simp [atEnd, readable, lasting]
  rw [parseFrom, if_neg (by decide), if_neg (by decide)]
  simp only [on, Bool.false_eq_true, if_false]
  rw [parseFrom]

theorem parseFrom_one :
    parseFrom [] current inText 0 ('?' :: rest) = parseFrom [] (.seq current .one) false 0 rest := by
  rw [parseFrom, if_neg (by decide), if_neg (by decide)]

theorem parseFrom_anything :
    parseFrom [] current inText 0 ('*' :: '*' :: rest) =
      parseFrom [] (.seq current .anything) false 0 rest := by
  rw [parseFrom, if_neg (by decide), if_neg (by decide)]
  simp only [List.head?_cons, if_true]
  rw [parseFrom]

theorem parseFrom_run (alone : rest.head? ≠ some '*') :
    parseFrom [] current inText 0 ('*' :: rest) = parseFrom [] (.seq current .run) false 0 rest := by
  rw [parseFrom, if_neg (by decide), if_neg (by decide)]
  simp only [alone, if_false]

end Steps

/-! ## The trunk of a pattern -/

def Pattern.Opens (p : Pattern) (s : List Char) : Prop := ∃ x, x <+: s ∧ p.Matches x

theorem Pattern.Opens.of_seq {p q : Pattern} {s : List Char} (opens : (Pattern.seq p q).Opens s) :
    p.Opens s := by
  obtain ⟨_, front, x, y, rfl, matched, -⟩ := opens
  exact ⟨x, (List.prefix_append x y).trans front, matched⟩

theorem Pattern.Matches.opens {p : Pattern} {s : List Char} (matched : p.Matches s) : p.Opens s :=
  ⟨s, List.prefix_rfl, matched⟩

/-- The pattern that stays at the front: the one in front of the outermost brace that is open. -/
def trunk : List Frame → Pattern → Pattern
  | [], current => current
  | f :: outer, _ => trunk outer f.outer

theorem opens_of_seq {frames : List Frame} {current q : Pattern} {s : List Char}
    (opens : (trunk frames (.seq current q)).Opens s) : (trunk frames current).Opens s := by
  cases frames with
  | nil => exact opens.of_seq
  | cons f outer => exact opens

theorem opens_of_close {f : Frame} {outer : List Frame} {current : Pattern} {s : List Char}
    (opens : (trunk outer (f.close current)).Opens s) : (trunk (f :: outer) current).Opens s := by
  cases outer with
  | nil => exact Pattern.Opens.of_seq (p := f.outer) opens
  | cons g outer => exact opens

/-- Closing all braces keeps the trunk in front. -/
theorem opens_of_closed {frames : List Frame} {current : Pattern} {s : List Char}
    (matched : (frames.foldl (fun p f => f.close p) current).Matches s) :
    (trunk frames current).Opens s := by
  induction frames generalizing current with
  | nil => exact Pattern.Matches.opens matched
  | cons f outer ih =>
      rw [List.foldl_cons] at matched
      have closed := ih matched
      exact opens_of_close closed

/-- **What was parsed stays in front**, whatever the parser reads after it. -/
theorem opens_of_parseFrom {frames : List Frame} {current p : Pattern} {inText : Bool} {skip : Nat}
    {cs s : List Char} (parsed : parseFrom frames current inText skip cs = .ok p)
    (matched : p.Matches s) : (trunk frames current).Opens s := by
  fun_induction parseFrom frames current inText skip cs with
  -- The text ends, or a terminator ends it.
  | case1 | case5 =>
      obtain rfl := Except.ok.inj parsed
      exact opens_of_closed matched
  -- Nothing is added: a skipped character, a terminator passed over, a brace or a comma.
  | case2 _ _ _ _ _ _ ih | case4 _ _ _ _ _ _ ih | case6 _ _ _ _ _ _ ih | case7 _ _ _ _ _ _ _ ih
  | case14 _ _ _ _ _ ih => exact ih parsed
  | case8 _ _ _ _ _ _ _ ih => exact opens_of_close (ih parsed)
  | case3 | case9 => cases parsed
  -- One more pattern behind what was read.
  | case10 _ _ _ _ _ _ _ _ _ ih | case11 _ _ _ _ _ _ ih | case12 _ _ _ _ _ _ _ ih
  | case13 _ _ _ _ _ _ _ ih | case17 _ _ _ _ _ _ _ _ _ _ _ _ _ _ ih =>
      exact opens_of_seq (ih parsed)
  | case15 _ _ _ _ _ _ _ ended ih =>
      rw [if_pos ended] at parsed
      exact ih parsed
  | case16 _ _ _ _ _ _ _ goes ih =>
      rw [if_neg goes] at parsed
      exact opens_of_seq (ih parsed)

/-! ## Plain and escaped characters in front of a separator -/

/-- What plain and escaped characters stand for: a backslash is left out and the character behind it
kept. -/
def unescaped : List Char → List Char
  | '\\' :: c :: rest => c :: unescaped rest
  | c :: rest => c :: unescaped rest
  | [] => []

theorem unescaped_cons {c : Char} (other : c ≠ '\\') (rest : List Char) :
    unescaped (c :: rest) = c :: unescaped rest := by
  rw [unescaped]
  rintro d rest' rfl -
  exact other rfl

/-- A backslash that escapes nothing stands at the end. -/
theorem eq_nil_of_alone {c : Char} {rest : List Char}
    (alone : ∀ d rest', c = '\\' → rest = d :: rest' → False) (escape : c = '\\') : rest = [] := by
  cases rest with
  | nil => rfl
  | cons d rest' => exact (alone d rest' escape rfl).elim

theorem unescaped_of_plain {cs : List Char} (plain : '\\' ∉ cs) : unescaped cs = cs := by
  induction cs with
  | nil => rw [unescaped]
  | cons c cs ih =>
      rw [List.mem_cons, not_or] at plain
      rw [unescaped_cons (Ne.symm plain.1), ih plain.2]

theorem lasting_of_isPlain {c : Char} (literal : isPlain c = true ∨ c = '\\') :
    c ≠ Glyph.replacement ∧ c ≠ terminator := by
  rcases literal with plain | rfl
  · simp only [isPlain, Bool.and_eq_true, bne_iff_ne] at plain
    exact plain.1
  · decide

/-- Characters in front of a separator are read as what they stand for, behind what was read
before. -/
theorem parseFrom_unescaped {cs : List Char} (literal : ∀ c ∈ cs, isPlain c = true ∨ c = '\\')
    (current : Pattern) (inText : Bool) (rest : List Char) :
    ∃ read, parseFrom [] current inText 0 (cs ++ '/' :: rest) = parseFrom [] read true 0 rest ∧
      ∀ y, read.Matches y → ∃ x, y = x ++ unescaped (cs ++ ['/']) ∧ current.Matches x := by
  induction cs using unescaped.induct generalizing current inText with
  | case1 c cs ih =>
      rw [List.forall_mem_cons, List.forall_mem_cons] at literal
      obtain ⟨readable, lasting⟩ := lasting_of_isPlain literal.2.1
      obtain ⟨read, step, reads⟩ := ih literal.2.2 (.seq current (.char c)) true
      refine ⟨read, (parseFrom_escaped readable lasting).trans step, fun y matched => ?_⟩
      obtain ⟨_, rfl, x, _, rfl, front, rfl⟩ := reads y matched
      exact ⟨x, by rw [List.append_assoc]; rfl, front⟩
  | case2 c cs alone ih =>
      rw [List.forall_mem_cons] at literal
      by_cases escape : c = '\\'
      · -- A backslash at the end takes the separator along.
        obtain rfl := eq_nil_of_alone alone escape
        subst escape
        refine ⟨_, parseFrom_escaped (by decide) (by decide), ?_⟩
        rintro _ ⟨x, _, rfl, front, rfl⟩
        exact ⟨x, rfl, front⟩
      · obtain ⟨read, step, reads⟩ := ih literal.2 (.seq current (.char c)) true
        refine ⟨read, (parseFrom_plain (literal.1.resolve_right escape)).trans step,
          fun y matched => ?_⟩
        obtain ⟨_, rfl, x, _, rfl, front, rfl⟩ := reads y matched
        refine ⟨x, ?_, front⟩
        rw [List.cons_append, unescaped_cons escape, List.append_assoc]
        rfl
  | case3 =>
      refine ⟨_, parseFrom_plain (by decide), ?_⟩
      rintro _ ⟨x, _, rfl, front, rfl⟩
      exact ⟨x, by rw [List.nil_append, unescaped_of_plain (by decide)], front⟩

/-- What a pattern matches starts with what its characters in front of a separator stand for. -/
theorem unescaped_prefix {cs rest s : List Char} {p : Pattern}
    (literal : ∀ c ∈ cs, isPlain c = true ∨ c = '\\')
    (parsed : parseFrom [] .empty false 0 (cs ++ '/' :: rest) = .ok p) (matched : p.Matches s) :
    unescaped (cs ++ ['/']) <+: s := by
  obtain ⟨read, step, reads⟩ := parseFrom_unescaped literal .empty false rest
  rw [step] at parsed
  obtain ⟨y, front, matched'⟩ := opens_of_parseFrom parsed matched
  obtain ⟨_, rfl, rfl⟩ := reads y matched'
  exact front

/-- A character that cannot be read is an error wherever the parser comes to it. -/
theorem parseFrom_unreadable {cs : List Char} (literal : ∀ c ∈ cs, isPlain c = true ∨ c = '\\')
    (current : Pattern) (inText : Bool) (rest : List Char) :
    parseFrom [] current inText 0 (cs ++ Glyph.replacement :: rest) = .error .unreadable := by
  have here : ∀ current inText,
      parseFrom [] current inText 0 (Glyph.replacement :: rest) = .error .unreadable := by
    intro current inText
    unfold parseFrom
    rw [if_pos (by decide)]
  induction cs using unescaped.induct generalizing current inText with
  | case1 c cs ih =>
      rw [List.forall_mem_cons, List.forall_mem_cons] at literal
      obtain ⟨readable, lasting⟩ := lasting_of_isPlain literal.2.1
      exact (parseFrom_escaped readable lasting).trans (ih literal.2.2 _ _)
  | case2 c cs alone ih =>
      rw [List.forall_mem_cons] at literal
      by_cases escape : c = '\\'
      · obtain rfl := eq_nil_of_alone alone escape
        subst escape
        have ended : atEnd (Glyph.replacement :: rest) = true := by simp [atEnd]
        rw [List.singleton_append, parseFrom, if_neg (by decide), if_neg (by decide)]
        simp only [ended, if_true]
        exact here current true
      · exact (parseFrom_plain (literal.1.resolve_right escape)).trans (ih literal.2 _ _)
  | case3 => exact here current inText

/-- Where parsing succeeds, the characters without a meaning of their own can be read. -/
theorem readable_of_parsed {cs rest : List Char} {p : Pattern}
    (literal : ∀ c ∈ cs, (isPlain c = true ∨ c = '\\') ∨ c = Glyph.replacement)
    (parsed : parseFrom [] .empty false 0 (cs ++ rest) = .ok p) : Glyph.replacement ∉ cs := by
  intro mem
  obtain ⟨front, back, rfl, first⟩ := List.eq_append_cons_of_mem mem
  have readable : ∀ c ∈ front, isPlain c = true ∨ c = '\\' := by
    intro c mem
    refine (literal c (List.mem_append_left _ mem)).resolve_right ?_
    rintro rfl
    exact first mem
  rw [List.append_assoc, List.cons_append, parseFrom_unreadable readable] at parsed
  cases parsed

theorem uncons_of_prefixes {a b : Char} {x y s : List Char} (first : a :: x <+: s)
    (second : b :: y <+: s) : a = b ∧ ∃ t, s = a :: t ∧ x <+: t ∧ y <+: t := by
  obtain ⟨t, rfl⟩ := first
  obtain ⟨rfl, behind⟩ := List.cons_prefix_cons.mp second
  exact ⟨rfl, x ++ t, rfl, List.prefix_append x t, behind⟩

/-- With a backslash too many in front of them, characters and what they stand for never stand at the
front of one text. -/
theorem not_prefix_behind_backslash {cs s : List Char} (k : Nat)
    (front : unescaped (cs ++ ['/']) <+: s) : ¬ List.replicate (k + 1) '\\' ++ cs <+: s := by
  induction cs using unescaped.induct generalizing k s with
  | case1 c cs ih =>
      intro written
      obtain ⟨rfl, t, rfl, front, written⟩ := uncons_of_prefixes front written
      refine ih (k + 1) front ?_
      have moved : List.replicate k '\\' ++ '\\' :: '\\' :: cs =
          List.replicate (k + 1 + 1) '\\' ++ cs := by
        rw [List.replicate_succ', List.replicate_succ', List.append_assoc, List.append_assoc]
        rfl
      rwa [← moved]
  | case2 c cs alone ih =>
      intro written
      by_cases escape : c = '\\'
      · obtain rfl := eq_nil_of_alone alone escape
        subst escape
        exact absurd (uncons_of_prefixes front written).1 (by decide)
      · rw [List.cons_append, unescaped_cons escape] at front
        exact escape (uncons_of_prefixes front written).1
  | case3 =>
      intro written
      rw [List.nil_append, unescaped_of_plain (by decide)] at front
      exact absurd (uncons_of_prefixes front written).1 (by decide)

/-- **Characters with a backslash among them and what they stand for never stand at the front of one
text.** -/
theorem not_prefix_of_escaped {cs s : List Char} (escaped : '\\' ∈ cs)
    (front : unescaped (cs ++ ['/']) <+: s) : ¬ cs <+: s := by
  induction cs using unescaped.induct generalizing s with
  | case1 c cs ih =>
      intro written
      obtain ⟨rfl, t, rfl, front, written⟩ := uncons_of_prefixes front written
      exact not_prefix_behind_backslash 0 front written
  | case2 c cs alone ih =>
      intro written
      by_cases escape : c = '\\'
      · obtain rfl := eq_nil_of_alone alone escape
        subst escape
        exact absurd (uncons_of_prefixes front written).1 (by decide)
      · rw [List.cons_append, unescaped_cons escape] at front
        obtain ⟨-, t, rfl, front, written⟩ := uncons_of_prefixes front written
        exact ih ((List.mem_cons.mp escaped).resolve_left (Ne.symm escape)) front written
  | case3 => cases escaped

end ClassUpgrade.Glob
