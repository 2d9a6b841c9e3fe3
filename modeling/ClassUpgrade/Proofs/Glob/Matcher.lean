/-
# Proofs.Glob.Matcher — the forms in which a pattern is tried

A matcher adds to a pattern the forms in which directory wildcards stand for
nothing. They are made by editing the written pattern: its front is cut off, or
every `/**/` is replaced by a slash. Said of segments, a leading wildcard is left
out, or the wildcards behind the first segment are left out, of neighbours every
second one (`thin`), since a replaced `/**/` takes along the slash that the next
one would start with.

* `replace_ofSegments`: replacing in the text is thinning the segments;
* `mem_variants_iff`: the written forms are those of `forms`;
* `anyAccepts_iff`: the matchers of a pattern accept what one of its forms accepts.
-/
import ClassUpgrade.Glob.Matcher
import ClassUpgrade.Proofs.Files.Path
import ClassUpgrade.Proofs.Glob.Pattern
import ClassUpgrade.Proofs.Text.Part

namespace ClassUpgrade.Glob

set_option autoImplicit false

open Byte

/-! ## Wildcards among segments -/

/-- The segment that stands for any number of directories. -/
def wildcard : Text := [star, star]

/-- Segments, each with a slash in front of it. -/
def behind (l : List Text) : Text := l.flatMap (slash :: ·)

theorem behind_cons (s : Text) (l : List Text) : behind (s :: l) = slash :: (s ++ behind l) := rfl

theorem ofSegments_eq_append_behind (s : Text) (l : List Text) :
    Path.ofSegments (s :: l) = s ++ behind l := by
  induction l generalizing s with
  | nil => rw [Path.ofSegments_singleton, behind, List.flatMap_nil, List.append_nil]
  | cons t l ih => rw [Path.ofSegments_cons (List.cons_ne_nil t l), ih, behind_cons]

/-- Segments that follow a slash, without wildcards that are followed by a slash; the segment behind
one that is left out stays. -/
def thin : List Text → List Text
  | s :: t :: rest => if s = wildcard then t :: thin rest else s :: thin (t :: rest)
  | l => l

/-- The segments of a pattern without inner wildcards. -/
def collapse : List Text → List Text
  | [] => []
  | s :: rest => s :: thin rest

theorem segments_of_free {s : Text} (free : slash ∉ s) : Path.segments s = [s] := by
  have split := Path.segments_ofSegments (List.cons_ne_nil s []) (by simpa using free)
  rwa [Path.ofSegments_singleton] at split

/-- The first segment of a text ends at the first slash. -/
theorem eq_of_append_slash {s s' t t' : Text} (free : slash ∉ s) (free' : slash ∉ s')
    (same : s ++ slash :: t = s' ++ slash :: t') : s = s' := by
  have split := congrArg Path.segments same
  rw [Path.segments_append_slash, Path.segments_append_slash, segments_of_free free,
    segments_of_free free'] at split
  exact (List.cons.inj split).1

/-! ## Replacing in the text -/

theorem innerWildcard_eq : innerWildcard = slash :: (wildcard ++ [slash]) := by rfl

theorem leadingWildcard_eq : leadingWildcard = wildcard ++ [slash] := by rfl

/-- Where an inner wildcard is found: at a segment that is one and has another segment behind it. -/
theorem startsWith_behind_iff {s : Text} {l : List Text} (free : slash ∉ s) :
    Text.startsWith (behind (s :: l)) innerWildcard = true ↔ s = wildcard ∧ l ≠ [] := by
  rw [Text.startsWith, List.isPrefixOf_iff_prefix, innerWildcard_eq, behind_cons,
    List.prefix_cons_inj]
  cases l with
  | nil =>
      refine iff_of_false (fun front => free ?_) fun facts => facts.2 rfl
      rw [behind, List.flatMap_nil, List.append_nil] at front
      exact front.subset (List.mem_append_right wildcard List.mem_cons_self)
  | cons t rest =>
      rw [behind_cons]
      constructor
      · rintro ⟨tail, whole⟩
        rw [List.append_assoc, List.singleton_append] at whole
        exact ⟨(eq_of_append_slash (by decide) free whole).symm, List.cons_ne_nil t rest⟩
      · rintro ⟨rfl, -⟩
        exact ⟨t ++ behind rest, by rw [List.append_assoc]; rfl⟩

/-- Replacing leaves a segment as it is. -/
theorem replaceFrom_free {s : Text} (free : slash ∉ s) (t : Text) :
    Text.replaceFrom innerWildcard [slash] 0 (s ++ t) =
      s ++ Text.replaceFrom innerWildcard [slash] 0 t := by
  induction s with
  | nil => rfl
  | cons b s ih =>
      rw [List.mem_cons, not_or] at free
      have apart : Text.startsWith (b :: (s ++ t)) innerWildcard = false := by
        rw [Text.startsWith, innerWildcard_eq]
        exact congrArg (· && _) (beq_eq_false_iff_ne.mpr free.1)
      rw [List.cons_append, Text.replaceFrom, if_neg (by simp [apart]), ih free.2, List.cons_append]

/-- A segment that no inner wildcard starts in front of is passed over with its slash. -/
theorem replaceFrom_pass {s : Text} {l : List Text} (free : slash ∉ s)
    (other : ¬ (s = wildcard ∧ l ≠ [])) :
    Text.replaceFrom innerWildcard [slash] 0 (behind (s :: l)) =
      slash :: (s ++ Text.replaceFrom innerWildcard [slash] 0 (behind l)) := by
  have apart : ¬ Text.startsWith (behind (s :: l)) innerWildcard = true :=
    fun front => other ((startsWith_behind_iff free).mp front)
  rw [behind_cons] at apart ⊢
  rw [Text.replaceFrom, if_neg fun found => apart (Bool.and_eq_true_iff.mp found).2,
    replaceFrom_free free]

/-- **Replacing in the text is thinning the segments.** -/
theorem replaceFrom_behind {l : List Text} (free : ∀ s ∈ l, slash ∉ s) :
    Text.replaceFrom innerWildcard [slash] 0 (behind l) = behind (thin l) := by
  induction l using thin.induct with
  | case1 t rest ih =>
      rw [List.forall_mem_cons, List.forall_mem_cons] at free
      have found : Text.startsWith (behind (wildcard :: t :: rest)) innerWildcard = true :=
        (startsWith_behind_iff free.1).mpr ⟨rfl, List.cons_ne_nil t rest⟩
      have passed : Text.replaceFrom innerWildcard [slash] 0 (behind (wildcard :: t :: rest)) =
          slash :: Text.replaceFrom innerWildcard [slash] 0 (t ++ behind rest) := by
        rw [behind_cons] at found ⊢
        rw [Text.replaceFrom, if_pos (by rw [found]; rfl)]
        rfl
      rw [passed, replaceFrom_free free.2.1, ih free.2.2, thin, if_pos rfl, behind_cons]
  | case2 s t rest other ih =>
      rw [List.forall_mem_cons] at free
      rw [replaceFrom_pass free.1 fun facts => other facts.1, ih free.2, thin, if_neg other,
        behind_cons]
  | case3 l short =>
      cases l with
      | nil => rfl
      | cons s l =>
          cases l with
          | cons t rest => exact (short s t rest rfl).elim
          | nil =>
              rw [replaceFrom_pass (free s List.mem_cons_self) fun facts => facts.2 rfl]
              rfl

theorem replace_ofSegments {l : List Text} (free : ∀ s ∈ l, slash ∉ s) :
    Text.replace innerWildcard [slash] (Path.ofSegments l) = Path.ofSegments (collapse l) := by
  cases l with
  | nil => rfl
  | cons s l =>
      rw [List.forall_mem_cons] at free
      rw [ofSegments_eq_append_behind, Text.replace, replaceFrom_free free.1,
        replaceFrom_behind free.2, collapse, ofSegments_eq_append_behind]

theorem replaceFrom_of_not_includes {old new : Text} : ∀ {t : Text}, Text.includes old t = false →
    Text.replaceFrom old new 0 t = t
  | [], _ => rfl
  | b :: t, absent => by
      rw [Text.includes, Bool.or_eq_false_iff] at absent
      rw [Text.replaceFrom, if_neg (by simp [absent.1]), replaceFrom_of_not_includes absent.2]

/-! ## The forms of a pattern -/

/-- The segments without a leading wildcard that is followed by a slash. -/
def behindLeading : List Text → Option (List Text)
  | s :: t :: rest => if s = wildcard then some (t :: rest) else none
  | _ => none

/-- The segments of the forms in which a pattern is tried: all of them, without a leading wildcard,
and without inner ones. -/
def forms (l : List Text) : List (List Text) := l :: (behindLeading l).toList ++ [collapse l]

theorem after?_leadingWildcard (pattern : Text) :
    Text.after? leadingWildcard pattern =
      (behindLeading (Path.segments pattern)).map Path.ofSegments := by
  ext rest
  rw [Text.after?_eq_some_iff, Option.map_eq_some_iff, leadingWildcard_eq, List.append_assoc,
    List.singleton_append]
  constructor
  · rintro rfl
    obtain ⟨t, more, segments_eq⟩ := List.exists_cons_of_ne_nil (Path.segments_ne_nil rest)
    refine ⟨t :: more, ?_, by rw [← segments_eq, Path.ofSegments_segments]⟩
    rw [Path.segments_append_slash, segments_of_free (by decide), segments_eq,
      List.singleton_append, behindLeading, if_pos rfl]
  · rintro ⟨l, found, rfl⟩
    unfold behindLeading at found
    split at found
    · rename_i s t more segments_eq
      obtain ⟨rfl, same⟩ := Option.ite_none_right_eq_some.mp found
      obtain rfl := Option.some.inj same
      rw [← Path.ofSegments_segments pattern, segments_eq,
        Path.ofSegments_cons (List.cons_ne_nil t more)]
    · cases found

/-- **The written forms of a pattern are those of its segments.** -/
theorem mem_variants_iff {pattern t : Text} :
    t ∈ variants pattern ↔ ∃ l ∈ forms (Path.segments pattern), t = Path.ofSegments l := by
  have collapsed : Text.replace innerWildcard [slash] pattern =
      Path.ofSegments (collapse (Path.segments pattern)) := by
    rw [← replace_ofSegments fun s mem => Path.free_of_mem_segments mem, Path.ofSegments_segments]
  constructor
  · intro mem
    rw [variants, List.cons_append, List.mem_cons, List.mem_append] at mem
    rcases mem with rfl | mem | mem
    · exact ⟨_, List.mem_cons_self, (Path.ofSegments_segments t).symm⟩
    · rw [after?_leadingWildcard, Option.mem_toList, Option.map_eq_some_iff] at mem
      obtain ⟨l, found, rfl⟩ := mem
      exact ⟨l, by simp [forms, found], rfl⟩
    · split at mem
      · obtain rfl := List.mem_singleton.mp mem
        exact ⟨_, by simp [forms], collapsed⟩
      · cases mem
  · rintro ⟨l, mem, rfl⟩
    rw [forms, List.cons_append, List.mem_cons, List.mem_append] at mem
    rw [variants, List.cons_append, List.mem_cons, List.mem_append]
    rcases mem with rfl | mem | mem
    · exact .inl (Path.ofSegments_segments pattern)
    · rw [Option.mem_toList] at mem
      exact .inr (.inl (by simp [after?_leadingWildcard, mem]))
    · obtain rfl := List.mem_singleton.mp mem
      rw [← collapsed]
      cases found : Text.includes innerWildcard pattern with
      | true => exact .inr (.inr (by simp))
      | false => exact .inl (replaceFrom_of_not_includes found)

theorem thin_append {front : List Text} (noWildcard : ∀ s ∈ front, s ≠ wildcard) (l : List Text) :
    thin (front ++ l) = front ++ thin l := by
  induction front with
  | nil => rfl
  | cons s front ih =>
      rw [List.forall_mem_cons] at noWildcard
      rw [List.cons_append, List.cons_append, ← ih noWildcard.2]
      cases front ++ l with
      | nil => rfl
      | cons t rest => rw [thin, if_neg noWildcard.1]

theorem thin_ne_nil {l : List Text} (ne_nil : l ≠ []) : thin l ≠ [] := by
  induction l using thin.induct with
  | case1 t rest ih =>
      rw [thin, if_pos rfl]
      exact List.cons_ne_nil t _
  | case2 s t rest other ih =>
      rw [thin, if_neg other]
      exact List.cons_ne_nil s _
  | case3 l short =>
      rwa [thin]
      exact short

theorem mem_of_mem_thin {l : List Text} {s : Text} (mem : s ∈ thin l) : s ∈ l := by
  induction l using thin.induct with
  | case1 t rest ih =>
      rw [thin, if_pos rfl, List.mem_cons] at mem
      exact List.mem_cons_of_mem wildcard (List.mem_cons.mpr (mem.imp_right ih))
  | case2 u t rest other ih =>
      rw [thin, if_neg other, List.mem_cons] at mem
      exact List.mem_cons.mpr (mem.imp_right ih)
  | case3 l short =>
      rwa [thin] at mem
      exact short

/-- The segments of a form are segments of the pattern. -/
theorem mem_of_mem_forms {l form : List Text} (tried : form ∈ forms l) {s : Text} (mem : s ∈ form) :
    s ∈ l := by
  rw [forms, List.cons_append, List.mem_cons, List.mem_append] at tried
  rcases tried with rfl | tried | tried
  · exact mem
  · rw [Option.mem_toList] at tried
    unfold behindLeading at tried
    split at tried
    · obtain ⟨-, same⟩ := Option.ite_none_right_eq_some.mp tried
      obtain rfl := Option.some.inj same
      exact List.mem_cons_of_mem _ mem
    · cases tried
  · obtain rfl := List.mem_singleton.mp tried
    cases l with
    | nil => exact mem
    | cons t rest => exact List.mem_cons.mpr ((List.mem_cons.mp mem).imp_right mem_of_mem_thin)

/-- In every form the segments in front of the first wildcard stay. -/
theorem forms_append {front more l : List Text} (ne_nil : front ≠ [])
    (noWildcard : ∀ s ∈ front, s ≠ wildcard) (followed : more ≠ [])
    (mem : l ∈ forms (front ++ more)) : ∃ rest, rest ≠ [] ∧ l = front ++ rest := by
  obtain ⟨s, front, rfl⟩ := List.exists_cons_of_ne_nil ne_nil
  rw [List.forall_mem_cons] at noWildcard
  rw [forms, List.cons_append, List.mem_cons, List.mem_append] at mem
  rcases mem with rfl | mem | mem
  · exact ⟨more, followed, rfl⟩
  · have none : behindLeading (s :: (front ++ more)) = none := by
      cases front ++ more with
      | nil => rfl
      | cons t rest => rw [behindLeading, if_neg noWildcard.1]
    rw [List.cons_append, none] at mem
    cases mem
  · obtain rfl := List.mem_singleton.mp mem
    refine ⟨thin more, thin_ne_nil followed, ?_⟩
    rw [List.cons_append, collapse, thin_append noWildcard.2, List.cons_append]

/-! ## Matchers -/

theorem parses_of_parseAll {pattern : Text} : ∀ {texts : List Text} {matchers : List Pattern},
    parseAll pattern texts = .ok matchers → List.Forall₂ (fun t p => parse t = .ok p) texts matchers
  | [], _, parsed => by
      obtain rfl := Except.ok.inj parsed
      exact .nil
  | t :: rest, matchers, parsed => by
      rw [parseAll] at parsed
      cases first : parse t with
      | error cause => rw [first] at parsed; cases parsed
      | ok p =>
          rw [first] at parsed
          cases later : parseAll pattern rest with
          | error e => rw [later] at parsed; cases parsed
          | ok more =>
              rw [later] at parsed
              obtain rfl := Except.ok.inj parsed
              exact .cons first (parses_of_parseAll later)

theorem exists_parseAll (pattern : Text) : ∀ {texts : List Text},
    (∀ t ∈ texts, ∃ p, parse t = .ok p) → ∃ matchers, parseAll pattern texts = .ok matchers
  | [], _ => ⟨[], rfl⟩
  | t :: rest, parsed => by
      rw [List.forall_mem_cons] at parsed
      obtain ⟨p, first⟩ := parsed.1
      obtain ⟨more, later⟩ := exists_parseAll pattern parsed.2
      exact ⟨p :: more, by rw [parseAll, first, later]; rfl⟩

/-- Segments, written as a pattern, match a path. -/
def Accepts (l : List Text) (path : Text) : Prop :=
  ∃ p, parse (Path.ofSegments l) = .ok p ∧ p.accepts (Text.chars path) = true

/-- **The matchers of a pattern accept what one of its forms accepts.** -/
theorem anyAccepts_iff {pattern path : Text} {matchers : List Pattern}
    (compiled : compile pattern = .ok matchers) :
    anyAccepts matchers path = true ↔ ∃ l ∈ forms (Path.segments pattern), Accepts l path := by
  have written : ∀ {texts : List Text} {matchers : List Pattern},
      List.Forall₂ (fun t p => parse t = .ok p) texts matchers →
      ((∃ p ∈ matchers, p.accepts (Text.chars path) = true) ↔
        ∃ t ∈ texts, ∃ p, parse t = .ok p ∧ p.accepts (Text.chars path) = true) := by
    intro texts matchers parses
    induction parses with
    | nil => simp
    | cons first _ ih => simp [ih, first]
  rw [anyAccepts, List.any_eq_true, written (parses_of_parseAll compiled)]
  simp only [mem_variants_iff]
  constructor
  · rintro ⟨_, ⟨l, mem, rfl⟩, accepts⟩
    exact ⟨l, mem, accepts⟩
  · rintro ⟨l, mem, accepts⟩
    exact ⟨_, ⟨l, mem, rfl⟩, accepts⟩

end ClassUpgrade.Glob
