/-
# Proofs.Files.Base — what a walk from the base of a pattern finds

A pattern is resolved by a walk that starts at its base, the leading segments
without pattern characters, and not at the working directory. The base is read
off the written pattern, segment by segment, and the matchers come from the
parser. The two agree as long as the base has no backslash: then every matcher
reads the base as it is written (`prefix_of_accepts`), so that what it matches
lies below the base and the walk loses nothing.

A backslash is no pattern character but an escape to the parser. With one in the
base a matcher looks for another text than the walk starts from, and as the two
never stand at the front of one path (`not_prefix_of_escaped`) nothing is found.

* `resolve_eq`: what a pattern is resolved to, in both cases;
* `resolve_behind_backslash`: a file that is matched and not found.
-/
import ClassUpgrade.Files.Selection
import ClassUpgrade.Proofs.Files.WellFormed
import ClassUpgrade.Proofs.Glob.Matcher
import ClassUpgrade.Proofs.Glob.Parser
import ClassUpgrade.Proofs.Text.Glyph

namespace ClassUpgrade

set_option autoImplicit false

open Byte

namespace Glob

/-! ## The base of a pattern -/

theorem hasMeta_eq_false_iff {t : Text} :
    hasMeta t = false ↔ star ∉ t ∧ question ∉ t ∧ openBracket ∉ t ∧ openBrace ∉ t := by
  have characters : metaCharacters = [star, question, openBracket, openBrace] := by rfl
  rw [hasMeta, characters, List.any_eq_false]
  simp only [List.contains_eq_mem, List.mem_cons, List.not_mem_nil, or_false, decide_eq_true_eq,
    not_or]
  constructor
  · intro plain
    refine ⟨fun mem => ?_, fun mem => ?_, fun mem => ?_, fun mem => ?_⟩
    · exact (plain _ mem).1 rfl
    · exact (plain _ mem).2.1 rfl
    · exact (plain _ mem).2.2.1 rfl
    · exact (plain _ mem).2.2.2 rfl
  · rintro ⟨noStar, noQuestion, noBracket, noBrace⟩ b mem
    refine ⟨?_, ?_, ?_, ?_⟩ <;> rintro rfl <;> contradiction

/-- The plain segments are a front of the segments that leaves something behind it. -/
theorem plainSegments_front : ∀ {segments : List Text}, segments ≠ [] →
    ∃ rest, rest ≠ [] ∧ segments = plainSegments segments ++ rest
  | [s], _ => ⟨[s], List.cons_ne_nil s [], rfl⟩
  | s :: next :: rest, _ => by
      rw [plainSegments]
      split
      · exact ⟨_, List.cons_ne_nil s _, rfl⟩
      · obtain ⟨more, ne_nil, whole⟩ := plainSegments_front (List.cons_ne_nil next rest)
        exact ⟨more, ne_nil, congrArg (s :: ·) whole⟩

theorem hasMeta_of_mem_plainSegments : ∀ {segments : List Text} {s : Text},
    s ∈ plainSegments segments → hasMeta s = false
  | s :: next :: rest, t, mem => by
      rw [plainSegments] at mem
      split at mem
      · cases mem
      · rename_i plain
        rcases List.mem_cons.mp mem with rfl | mem
        · exact eq_false_of_ne_true plain
        · exact hasMeta_of_mem_plainSegments mem

/-- The names that the base of a pattern spells out. -/
def baseNames (pattern : Text) : List Text := plainSegments (Path.segments pattern)

theorem baseNames_front (pattern : Text) :
    ∃ rest, rest ≠ [] ∧ Path.segments pattern = baseNames pattern ++ rest :=
  plainSegments_front (Path.segments_ne_nil pattern)

theorem free_of_mem_baseNames {pattern s : Text} (mem : s ∈ baseNames pattern) : slash ∉ s := by
  obtain ⟨more, -, whole⟩ := baseNames_front pattern
  exact Path.free_of_mem_segments (whole ▸ List.mem_append_left more mem)

theorem hasMeta_base (pattern : Text) : hasMeta (Path.ofSegments (baseNames pattern)) = false := by
  have plain : ∀ b, b ≠ slash → (∀ s, hasMeta s = false → b ∉ s) →
      b ∉ Path.ofSegments (baseNames pattern) := by
    intro b other free mem
    rcases Path.mem_ofSegments mem with at_slash | ⟨s, mem_s, mem⟩
    · exact other at_slash
    · exact free s (hasMeta_of_mem_plainSegments mem_s) mem
  refine hasMeta_eq_false_iff.mpr ⟨?_, ?_, ?_, ?_⟩
  · exact plain _ (by decide) fun s free => (hasMeta_eq_false_iff.mp free).1
  · exact plain _ (by decide) fun s free => (hasMeta_eq_false_iff.mp free).2.1
  · exact plain _ (by decide) fun s free => (hasMeta_eq_false_iff.mp free).2.2.1
  · exact plain _ (by decide) fun s free => (hasMeta_eq_false_iff.mp free).2.2.2

/-- The characters of a base are plain, escapes, or none that can be read. -/
theorem literal_of_base {base : Text} (plain : hasMeta base = false) (noZero : 0 ∉ base) :
    ∀ c ∈ Text.chars base, (isPlain c = true ∨ c = '\\') ∨ c = Glyph.replacement := by
  obtain ⟨noStar, noQuestion, noBracket, noBrace⟩ := hasMeta_eq_false_iff.mp plain
  have absent : ∀ {b : UInt8} {c : Char}, b < 0x80 → Char.ofNat b.toNat = c → b ∉ base →
      c ∉ Text.chars base := by
    rintro b _ ascii rfl free mem
    exact free ((Text.mem_chars_iff ascii).mp mem)
  intro c mem
  by_cases unreadable : c = Glyph.replacement
  · exact .inr unreadable
  · by_cases escape : c = '\\'
    · exact .inl (.inr escape)
    · refine .inl (.inl ?_)
      have lasting : c ≠ terminator := by
        rintro rfl
        exact absent (b := 0) (by decide) rfl noZero mem
      have others : c ∉ ['*', '?', '[', '\x7b', '\\'] := by
        simp only [List.mem_cons, List.not_mem_nil, or_false, not_or]
        refine ⟨?_, ?_, ?_, ?_, escape⟩ <;> rintro rfl
        · exact absent (b := star) (by decide) rfl noStar mem
        · exact absent (b := question) (by decide) rfl noQuestion mem
        · exact absent (b := openBracket) (by decide) rfl noBracket mem
        · exact absent (b := openBrace) (by decide) rfl noBrace mem
      simp [isPlain, unreadable, lasting, others]

/-- Every form of a pattern with a base starts with the base. -/
theorem exists_base {pattern : Text} {l : List Text} (based : baseNames pattern ≠ [])
    (mem : l ∈ forms (Path.segments pattern)) :
    ∃ rest, Path.ofSegments l = Path.ofSegments (baseNames pattern) ++ slash :: rest := by
  obtain ⟨more, followed, whole⟩ := baseNames_front pattern
  have noWildcard : ∀ s ∈ baseNames pattern, s ≠ wildcard := by
    rintro s mem rfl
    exact absurd (hasMeta_of_mem_plainSegments mem) (by decide)
  rw [whole] at mem
  obtain ⟨rest, ne_nil, rfl⟩ := forms_append based noWildcard followed mem
  exact ⟨_, Path.ofSegments_append based ne_nil⟩

/-- **What a pattern accepts starts with what its base stands for.** -/
theorem prefix_of_accepts {pattern : Text} {matchers : List Pattern} {path : Text}
    (compiled : compile pattern = .ok matchers)
    (based : baseNames pattern ≠ [])
    (noZero : 0 ∉ Path.ofSegments (baseNames pattern))
    (accepts : anyAccepts matchers path = true) :
    Glyph.replacement ∉ Text.chars (Path.ofSegments (baseNames pattern)) ∧
    unescaped (Text.chars (Path.ofSegments (baseNames pattern)) ++ ['/']) <+:
      Text.chars path := by
  obtain ⟨l, mem, p, parsed, accepts⟩ := (anyAccepts_iff compiled).mp accepts
  obtain ⟨rest, written⟩ := exists_base based mem
  have literal := literal_of_base (hasMeta_base pattern) noZero
  rw [parse, written, Text.chars_append_ascii _ rest (by decide)] at parsed
  have readable := readable_of_parsed literal parsed
  refine ⟨readable, unescaped_prefix (fun c mem => ?_) parsed (Pattern.accepts_iff.mp accepts)⟩
  refine (literal c mem).resolve_right ?_
  rintro rfl
  exact readable mem

end Glob

namespace Files

open Glob

/-! ## Walks from a base -/

/-- The files that matchers match, in walk order, but for those behind a directory that is skipped;
the first `spelled` directories on the way to a file are never skipped. -/
def filesMatching (tree : FileTree) (matchers : List Pattern) (spelled : Nat) : List Text :=
  (tree.files.filter fun (l, _) => anyAccepts matchers (Path.ofSegments l) &&
    !(l.dropLast.drop spelled).any skippedDirectories.contains).map fun (l, _) => Path.ofSegments l

theorem reaches_append (base names : Location) :
    reaches base (base ++ names) = !names.dropLast.any skippedDirectories.contains := by
  have below : below? base (base ++ names) = some names := by
    rw [below?, if_pos (List.isPrefixOf_iff_prefix.mpr (List.prefix_append base names)),
      List.drop_left]
  rw [reaches, below]

theorem exists_append_of_reaches {base l : Location} (reached : reaches base l = true) :
    ∃ names, l = base ++ names := by
  unfold reaches below? at reached
  split at reached
  · cases reached
  · rename_i names below
    split at below
    · rename_i front
      obtain ⟨names, rfl⟩ := List.isPrefixOf_iff_prefix.mp front
      exact ⟨names, rfl⟩
    · cases below

/-- A path that can be used at all, or that is missing, has no zero byte. -/
theorem noZero_of_stat {tree : FileTree} {path : Text}
    (usable : tree.stat path ≠ .error .invalid) : 0 ∉ path := by
  intro mem
  refine usable ?_
  have located : tree.locate path = .error .invalid := by
    rw [FileTree.locate, if_pos (List.contains_iff_mem.mpr mem)]
  rw [FileTree.stat, located]
  rfl

/-- A path through directories that exist leads there, if it is one that can be used. -/
theorem locate_below {tree : FileTree} (wellFormed : tree.WellFormed) {base names : Location}
    (some_base : base ≠ []) (below : names ≠ []) (mem : base ++ names ∈ tree.nodes.keys) :
    tree.locate (Path.ofSegments base) = .ok base ∨
      tree.locate (Path.ofSegments base) = .error .tooLong ∨
      tree.locate (Path.ofSegments base) = .error .invalid := by
  have named : ∀ s ∈ base, FileTree.Spellable s :=
    fun s mem_s => (wellFormed _ mem).2.1 s (List.mem_append_left _ mem_s)
  have relative : Path.isRooted (Path.ofSegments base) = false :=
    Path.isRooted_ofSegments some_base fun s mem => ⟨(named s mem).1, (named s mem).2.2.2⟩
  have nonempty : Path.ofSegments base ≠ [] :=
    Path.ofSegments_ne_nil some_base fun s mem => (named s mem).1
  have followed : tree.follow [] base = .ok base ∨ tree.follow [] base = .error .tooLong := by
    refine FileTree.follow_directories
      (fun s mem => ⟨(named s mem).1, (named s mem).2.1, (named s mem).2.2.1⟩) fun m front _ => ?_
    obtain ⟨rest, rfl⟩ := front
    rw [List.append_assoc] at mem
    exact wellFormed.directory mem (List.append_ne_nil_of_right_ne_nil rest below)
  unfold FileTree.locate
  split
  · exact .inr (.inr rfl)
  · split
    · exact .inr (.inl rfl)
    · rw [if_neg (by simp [relative, nonempty]),
        Path.segments_ofSegments some_base fun s mem => (named s mem).2.2.2]
      exact followed.imp_right .inl

/-- A directory on the way to something is not missing. -/
theorem stat_ne_missing {tree : FileTree} (wellFormed : tree.WellFormed) {base names : Location}
    (some_base : base ≠ []) (below : names ≠ []) (mem : base ++ names ∈ tree.nodes.keys) :
    tree.stat (Path.ofSegments base) ≠ .error .missing := by
  rcases locate_below wellFormed some_base below mem with found | tooLong | invalid
  · rw [FileTree.stat_of_locate found (wellFormed.directory mem below)]
    exact fun same => nomatch same
  · simp [FileTree.stat, tooLong]
  · simp [FileTree.stat, invalid]

section Found

variable {tree : FileTree} {pattern : Text} {matchers : List Pattern} {l : Location}

/-- The base of a reduced pattern is reduced. -/
theorem reduced_baseNames (reduced : Path.Reduced false (Path.segments pattern)) :
    Path.Reduced false (baseNames pattern) := by
  obtain ⟨more, -, whole⟩ := baseNames_front pattern
  refine reduced.of_sublist ?_
  conv_rhs => rw [whole]
  exact List.sublist_append_left _ _

theorem staticBase_of_based (reduced : Path.Reduced false (Path.segments pattern))
    (based : baseNames pattern ≠ []) :
    staticBase pattern = Path.ofSegments (baseNames pattern) := by
  refine if_pos (Path.ofSegments_ne_nil based fun s mem => ?_)
  exact ((reduced_baseNames reduced).named s mem).1

/-- The location of the base of a relative pattern is its plain segments. -/
theorem location_of_base (reduced : Path.Reduced false (Path.segments pattern))
    (based : baseNames pattern ≠ []) :
    Path.reduce false [] (Path.segments (staticBase pattern)) =
      baseNames pattern := by
  have reduced' := reduced_baseNames reduced
  rw [staticBase_of_based reduced based, Path.segments_of_reduced based reduced']
  exact Path.reduce_of_reduced reduced'

/-- **Without a backslash in the base, what is matched lies below the base.** -/
theorem below_of_accepts (compiled : compile pattern = .ok matchers)
    (based : baseNames pattern ≠ [])
    (noZero : 0 ∉ Path.ofSegments (baseNames pattern))
    (plain : backslash ∉ Path.ofSegments (baseNames pattern))
    (some_names : l ≠ []) (free : ∀ s ∈ l, slash ∉ s)
    (accepts : anyAccepts matchers (Path.ofSegments l) = true) :
    ∃ names, names ≠ [] ∧ l = baseNames pattern ++ names := by
  obtain ⟨readable, front⟩ := prefix_of_accepts compiled based noZero accepts
  have noEscape : '\\' ∉ Text.chars (Path.ofSegments (baseNames pattern)) :=
    fun mem => plain ((Text.mem_chars_iff (by decide)).mp mem)
  rw [unescaped_of_plain (by simpa using noEscape)] at front
  have bytes := Text.ofChars_prefix (by simpa using ⟨readable, by decide⟩) front
  rw [Text.ofChars, List.flatMap_append, ← Text.ofChars, Text.ofChars_chars readable] at bytes
  obtain ⟨rest, whole⟩ := bytes
  refine ⟨Path.segments rest, Path.segments_ne_nil rest, ?_⟩
  have path_eq : Path.ofSegments l =
      Path.ofSegments (baseNames pattern) ++ slash :: rest := by
    rw [← whole, List.append_assoc]
    rfl
  have split := congrArg Path.segments path_eq
  rwa [Path.segments_ofSegments some_names free, Path.segments_append_slash,
    Path.segments_ofSegments based fun s mem => free_of_mem_baseNames mem] at split

/-- **With a backslash in the base, nothing below the base is matched.** -/
theorem not_accepts_below (compiled : compile pattern = .ok matchers)
    (based : baseNames pattern ≠ [])
    (noZero : 0 ∉ Path.ofSegments (baseNames pattern))
    (escaped : backslash ∈ Path.ofSegments (baseNames pattern))
    (names : List Text) :
    anyAccepts matchers (Path.ofSegments (baseNames pattern ++ names)) =
      false := by
  refine eq_false_of_ne_true fun accepts => ?_
  obtain ⟨-, front⟩ := prefix_of_accepts compiled based noZero accepts
  refine not_prefix_of_escaped ((Text.mem_chars_iff (by decide)).mpr escaped) front ?_
  by_cases at_base : names = []
  · simp [at_base]
  · rw [Path.ofSegments_append based at_base, Text.chars_append_ascii _ _ (by decide)]
    exact List.prefix_append _ _

end Found

/-- What a walk from the base of a pattern finds that its matchers match. -/
def found (tree : FileTree) (matchers : List Pattern) (base : Location) : List Text :=
  (walk tree base).filter (anyAccepts matchers)

theorem found_eq (tree : FileTree) (matchers : List Pattern) (base : Location) :
    found tree matchers base =
      (tree.files.filter fun (l, _) => anyAccepts matchers (Path.ofSegments l) &&
        reaches base l).map fun (l, _) => Path.ofSegments l := by
  rw [found, walk, List.filter_map, List.filter_filter]
  rfl

theorem found_nil (tree : FileTree) (matchers : List Pattern) :
    found tree matchers [] = filesMatching tree matchers 0 := by
  rw [found_eq, filesMatching]
  rfl

section Found

variable {tree : FileTree} {pattern : Text} {matchers : List Pattern}

/-- Without a backslash in the base, the walk from it loses nothing. -/
theorem found_of_plain (wellFormed : tree.WellFormed) (compiled : compile pattern = .ok matchers)
    (based : baseNames pattern ≠ []) (noZero : 0 ∉ Path.ofSegments (baseNames pattern))
    (plain : backslash ∉ Path.ofSegments (baseNames pattern)) :
    found tree matchers (baseNames pattern) =
      filesMatching tree matchers (baseNames pattern).length := by
  rw [found_eq, filesMatching]
  congr 1
  refine List.filter_congr fun ⟨l, _⟩ mem => ?_
  obtain ⟨some_names, named, -⟩ := wellFormed l (FileTree.mem_keys_of_mem_files mem)
  dsimp only
  cases accepts : anyAccepts matchers (Path.ofSegments l) with
  | false => rfl
  | true =>
      obtain ⟨names, below, whole⟩ := below_of_accepts compiled based noZero plain some_names
        (fun s mem => (named s mem).2.2.2) accepts
      rw [whole, reaches_append, List.dropLast_append_of_ne_nil below, List.drop_left]

/-- With a backslash in the base, the walk from it finds nothing. -/
theorem found_of_escaped (compiled : compile pattern = .ok matchers)
    (based : baseNames pattern ≠ []) (noZero : 0 ∉ Path.ofSegments (baseNames pattern))
    (escaped : backslash ∈ Path.ofSegments (baseNames pattern)) :
    found tree matchers (baseNames pattern) = [] := by
  rw [found_eq, List.map_eq_nil_iff, List.filter_eq_nil_iff]
  rintro ⟨l, _⟩ _ chosen
  obtain ⟨accepts, reached⟩ := Bool.and_eq_true_iff.mp chosen
  obtain ⟨names, rfl⟩ := exists_append_of_reaches reached
  rw [not_accepts_below compiled based noZero escaped names] at accepts
  cases accepts

/-- Below a base that is missing nothing is matched. -/
theorem filesMatching_of_missing (wellFormed : tree.WellFormed)
    (compiled : compile pattern = .ok matchers) (based : baseNames pattern ≠ [])
    (noZero : 0 ∉ Path.ofSegments (baseNames pattern))
    (plain : backslash ∉ Path.ofSegments (baseNames pattern))
    (missing : tree.stat (Path.ofSegments (baseNames pattern)) = .error .missing) :
    filesMatching tree matchers (baseNames pattern).length = [] := by
  rw [filesMatching, List.map_eq_nil_iff, List.filter_eq_nil_iff]
  rintro ⟨l, _⟩ mem chosen
  have key := FileTree.mem_keys_of_mem_files mem
  obtain ⟨some_names, named, -⟩ := wellFormed l key
  obtain ⟨names, below, whole⟩ := below_of_accepts compiled based noZero plain some_names
    (fun s mem => (named s mem).2.2.2) (Bool.and_eq_true_iff.mp chosen).1
  exact stat_ne_missing wellFormed based below (whole ▸ key) missing

end Found

/-- The ways in which a relative pattern is resolved: by a walk from the working directory, by a walk
from its base, or to nothing when there is no base. -/
theorem resolve_cases {tree : FileTree} {pattern : Text} {matchers : List Pattern}
    {paths : List Text} (relative : Path.isRooted pattern = false)
    (isPattern : hasMeta (Path.clean pattern) = true)
    (compiled : compile (Path.clean pattern) = .ok matchers)
    (resolved : resolve tree pattern = .ok paths) :
    (baseNames (Path.clean pattern) = [] ∧ staticBase (Path.clean pattern) = Path.here ∧
      paths = found tree matchers []) ∨
    (baseNames (Path.clean pattern) ≠ [] ∧
      staticBase (Path.clean pattern) = Path.ofSegments (baseNames (Path.clean pattern)) ∧
      0 ∉ Path.ofSegments (baseNames (Path.clean pattern)) ∧
      ((tree.stat (Path.ofSegments (baseNames (Path.clean pattern))) = .error .missing ∧
          paths = []) ∨
        paths = found tree matchers (baseNames (Path.clean pattern)))) := by
  obtain ⟨l, ne_nil, reduced, clean_eq⟩ := (Path.clean_relative relative).resolve_left fun here => by
    rw [here] at isPattern
    exact absurd isPattern (by decide)
  have segments_eq : Path.segments (Path.clean pattern) = l := by
    rw [clean_eq, Path.segments_of_reduced ne_nil reduced]
  have relative' : Path.isRooted (Path.clean pattern) = false := by
    rw [clean_eq]
    exact Path.isRooted_ofSegments ne_nil fun s mem =>
      ⟨(reduced.named s mem).1, (reduced.named s mem).2.2⟩
  rw [← segments_eq] at reduced
  rw [resolve, if_pos isPattern, compiled] at resolved
  dsimp only at resolved
  by_cases based : baseNames (Path.clean pattern) = []
  · have base_eq : staticBase (Path.clean pattern) = Path.here := by
      rw [staticBase, ← baseNames, based]
      simp only [relative']
      rfl
    have standing : tree.stat Path.here = .ok .directory := by rfl
    rw [base_eq, standing] at resolved
    exact .inl ⟨based, base_eq, (Except.ok.inj resolved).symm⟩
  · have base_eq := staticBase_of_based reduced based
    rw [location_of_base reduced based, base_eq] at resolved
    have usable : tree.stat (Path.ofSegments (baseNames (Path.clean pattern))) ≠
        .error .invalid := by
      intro invalid
      rw [invalid] at resolved
      cases resolved
    refine .inr ⟨based, base_eq, noZero_of_stat usable, ?_⟩
    split at resolved
    · rename_i missing
      exact .inl ⟨missing, (Except.ok.inj resolved).symm⟩
    · cases resolved
    · exact .inr (Except.ok.inj resolved).symm

/-- **What a pattern is resolved to.** Where the base has no backslash, the walk from the base finds
every file that is matched and lies behind no skipped directory but those that the base spells out;
where it has one, the walk finds nothing at all. -/
theorem resolve_eq {tree : FileTree} {pattern : Text} {matchers : List Pattern} {paths : List Text}
    (wellFormed : tree.WellFormed) (relative : Path.isRooted pattern = false)
    (isPattern : hasMeta (Path.clean pattern) = true)
    (compiled : compile (Path.clean pattern) = .ok matchers)
    (resolved : resolve tree pattern = .ok paths) :
    paths =
      if backslash ∈ staticBase (Path.clean pattern) then []
      else filesMatching tree matchers (baseNames (Path.clean pattern)).length := by
  obtain ⟨based, base_eq, rfl⟩ | ⟨based, base_eq, noZero, outcome⟩ :=
    resolve_cases relative isPattern compiled resolved
  · rw [base_eq, based, if_neg (by decide)]
    exact found_nil tree matchers
  · rw [base_eq]
    split
    · rename_i escaped
      rcases outcome with ⟨-, rfl⟩ | rfl
      · rfl
      · exact found_of_escaped compiled based noZero escaped
    · rename_i plain
      rcases outcome with ⟨missing, rfl⟩ | rfl
      · exact (filesMatching_of_missing wellFormed compiled based noZero plain missing).symm
      · exact found_of_plain wellFormed compiled based noZero plain

def nestedTree : FileTree :=
  ⟨.ofList [([utf8 "ab"], .directory), ([utf8 "ab", utf8 "x.js"], .file [])]⟩

/-- The pattern `a\b/*.js` matches the file that `ab/*.js` is resolved to, but the walk starts from
a directory `a\b`. -/
theorem resolve_behind_backslash :
    resolve nestedTree (utf8 "ab/*.js") = .ok [utf8 "ab/x.js"] ∧
    (∃ matchers, compile (Path.clean (utf8 "a\\b/*.js")) = .ok matchers ∧
      filesMatching nestedTree matchers 1 = [utf8 "ab/x.js"]) ∧
    resolve nestedTree (utf8 "a\\b/*.js") = .ok [] := by
  have wellFormed : nestedTree.WellFormed := by decide +kernel
  refine ⟨?_, ⟨_, by rfl, by decide +kernel⟩, ?_⟩
  · obtain ⟨paths, resolved⟩ : ∃ paths, resolve nestedTree (utf8 "ab/*.js") = .ok paths :=
      ⟨_, by rfl⟩
    rw [resolved, resolve_eq wellFormed (by decide) (by decide) (by rfl) resolved]
    decide +kernel
  · obtain ⟨paths, resolved⟩ : ∃ paths, resolve nestedTree (utf8 "a\\b/*.js") = .ok paths :=
      ⟨_, by rfl⟩
    rw [resolved, resolve_eq wellFormed (by decide) (by decide) (by rfl) resolved]
    decide +kernel

end Files

end ClassUpgrade
