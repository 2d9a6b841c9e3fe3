/-
# Proofs.Component.Region — entries in their places

The scan of a methods object answers with offsets, and the splice copies parts
of the object by them. Here the offsets are given their meaning. The region of
an entry goes from its header through the brace that closes its body; the
regions follow each other without an overlap (`Lists.consecutive`), and each
entry stands in the object as the scan says (`MethodMatch.StandsIn`): a word
that starts there, a name, a parameter group behind it and a scope behind that.

The splice goes along the regions. It never asks for a part that is not there
(`SlicesInRange`), and what it comes to is the object with the header of each
region in class form and the comma behind a region as a line feed
(`splice_interleaves`). So the bodies stay as they are, each once and in order.
-/
import ClassUpgrade.Proofs.Component.Splice
import ClassUpgrade.Proofs.Source.Balance
import ClassUpgrade.Proofs.Source.Entry

namespace ClassUpgrade

set_option autoImplicit false

open Byte

namespace Source

open Cursor

/-! ## Spans that follow each other -/

theorem Consecutive.starts {position : Nat} {spans : List Span}
    (follow : Consecutive position spans) : ∀ s ∈ spans, position ≤ s.start := by
  induction spans generalizing position with
  | nil => simp
  | cons s rest ih =>
      obtain ⟨first, nonempty, more⟩ := follow
      refine List.forall_mem_cons.mpr ⟨first, fun s' mem => ?_⟩
      have := ih more s' mem
      omega

theorem Consecutive.of_starts {position position' : Nat} {spans : List Span}
    (follow : Consecutive position spans) (behind : ∀ s ∈ spans, position' ≤ s.start) :
    Consecutive position' spans := by
  cases spans with
  | nil => trivial
  | cons s rest => exact ⟨behind s List.mem_cons_self, follow.2⟩

theorem Consecutive.of_le {position position' : Nat} {spans : List Span}
    (follow : Consecutive position' spans) (le : position ≤ position') :
    Consecutive position spans :=
  follow.of_starts fun s mem => Nat.le_trans le (follow.starts s mem)

theorem Consecutive.pairwise {position : Nat} {spans : List Span}
    (follow : Consecutive position spans) : spans.Pairwise fun s s' => s.stop < s'.start := by
  induction spans generalizing position with
  | nil => exact .nil
  | cons s rest ih => exact .cons (fun s' mem => follow.2.2.starts s' mem) (ih follow.2.2)

/-! ## The places of an entry -/

/-- The region of an entry: from its header through the brace that closes its body. -/
def MethodMatch.region (m : MethodMatch) : Span := ⟨m.start, m.entry.body.stop⟩

/-- The header of an entry as it is written, through the brace that opens the body. -/
def MethodMatch.head (m : MethodMatch) (block : Text) : Text :=
  block.slice m.start (m.entry.body.start + 1)

/-- The body of an entry behind its opening brace, through the closing one. -/
def MethodMatch.tail (m : MethodMatch) (block : Text) : Text :=
  block.slice (m.entry.body.start + 1) (m.entry.body.stop + 1)

/-- An entry stands in an object as its offsets say. -/
structure MethodMatch.StandsIn (block : Text) (m : MethodMatch) : Prop where
  /-- An identifier starts with the region, neither a tail nor a member. -/
  starts : (ofOffset block m.start).startsWord = true
  /-- A whole identifier that is not reserved is the name. -/
  name : ∃ name : MethodName, m.entry.name = name.text ∧ ∃ place : Nat,
    m.start ≤ place ∧ place < m.entry.body.start ∧ (ofOffset block place).word = name.text
  /-- The text of a parameter group between the name and the body is the parameters. -/
  params : ∃ opening closing : Nat, m.start < opening ∧ opening < closing ∧
    closing < m.entry.body.start ∧ groupEnd? block opening = some closing ∧
    m.entry.params = block.slice (opening + 1) closing
  behind : m.start < m.entry.body.start
  nonempty : m.entry.body.start < m.entry.body.stop
  inside : m.entry.body.stop < block.length
  opened : block[m.entry.body.start]? = some openBrace
  closed : block[m.entry.body.stop]? = some closeBrace
  scope : scopeEnd block m.entry.body.start = .ok m.entry.body.stop

/-- The name of a header is a word, and more of the text is read than the word in front. -/
theorem methodName_place (c : Cursor) :
    Walk (c.advance c.word.length) (methodName c).2.2 ∧
      ∃ d, Walk c d ∧ d.offset ≤ (methodName c).2.2.offset ∧ (methodName c).1 = d.word := by
  have here : ∃ d, Walk c d ∧ d.offset ≤ (c.advance c.word.length).offset ∧ c.word = d.word :=
    ⟨c, .here c, (Walk.word c).offset_le, rfl⟩
  unfold methodName
  dsimp only
  split
  · split
    · have spaced := Walk.skipSpace (c.advance c.word.length)
      have named := Walk.word (c.advance c.word.length).skipSpace
      exact ⟨spaced.trans named, _, (Walk.word c).trans spaced, named.offset_le, rfl⟩
    · exact ⟨.here _, here⟩
  · exact ⟨.here _, here⟩

theorem methodName_ne_nil {c : Cursor} (starts : c.startsWord = true) : (methodName c).1 ≠ [] := by
  have word : c.word ≠ [] := List.length_pos_iff.mp (word_length_pos starts)
  unfold methodName
  dsimp only
  split
  · split
    · rename_i named
      exact named.2
    · exact word
  · exact word

/-- The parameters of a header open behind the word that it starts with. -/
theorem offset_lt_groupOf {c : Cursor} (starts : c.startsWord = true) :
    c.offset < (groupOf c).offset := by
  have lead := (methodName_place c).1.trans ((Walk.skipSpace _).trans (methodMarker_walk _))
  have le := lead.offset_le
  have pos := word_length_pos starts
  have inside : c.word.length ≤ c.after.length := (word_leads c.after).length_le
  rw [offset_advance, Nat.min_eq_left inside] at le
  exact Nat.lt_of_lt_of_le (by omega) le

theorem scopeEnd_of_scope {c : Cursor} {span : Span} (closed : c.scope = .ok span) :
    scopeEnd c.text c.offset = .ok span.stop := by
  obtain ⟨front, e, closes, rfl⟩ := scope_eq_ok_iff.mp closed
  rw [scopeEnd_eq_ok_iff, Int.toNat_natCast, ofOffset_offset]
  exact ⟨Int.natCast_nonneg _, (closeOf?_eq_some_iff (by decide)).mpr ⟨front, e, closes, rfl⟩⟩

/-- **An entry that is read at a place stands there.** -/
theorem ReadsEntry.standsIn {c : Cursor} {m : MethodMatch} (reads : ReadsEntry c m) :
    m.StandsIn c.text := by
  obtain ⟨starts, header, brace, body, read, closed, rfl⟩ := reads
  obtain ⟨walk, behind, front⟩ := methodHeader?_walk read
  obtain ⟨free, n, group, rfl, brace_eq, -⟩ := methodHeader?_eq_some_iff.mp read
  obtain ⟨start_eq, nonempty, inside, -⟩ := scope_walk closed
  obtain ⟨-, stop, shuts, stop_eq⟩ := scope_eq_ok_iff.mp closed
  have same : brace.text = c.text := walk.text_eq
  have same_group : (groupOf c).text = c.text := (groupOf_walk c).text_eq
  -- the parameter group lies between the name and the brace of the body
  obtain ⟨e, closes, rfl, opens, -, goes⟩ := closeOf?_walk (by decide) (by decide) group
  have ends : e.offset < brace.offset := by
    rw [brace_eq, goes]
    have spaced := (Walk.skipSpace (e.advance 1)).offset_le
    rw [offset_advance_one closes.front.2] at spaced
    exact spaced
  obtain ⟨-, d, lead, before, name_eq⟩ := methodName_place c
  have named : (methodName c).2.2.offset ≤ (groupOf c).offset :=
    ((Walk.skipSpace _).trans (methodMarker_walk _)).offset_le
  refine ⟨?_, ⟨⟨(methodName c).1, ?_, methodName_ne_nil starts, free⟩, rfl, d.offset, ?_⟩,
    ⟨(groupOf c).offset, e.offset, offset_lt_groupOf starts, opens, ?_, ?_, ?_⟩, ?_, ?_, ?_, ?_, ?_,
    ?_⟩
  · rwa [ofOffset_offset]
  · rw [name_eq]
    exact word_word d.after
  · rw [← lead.text_eq, ofOffset_offset]
    exact ⟨lead.offset_le, by simp only [start_eq]; omega, name_eq.symm⟩
  · simpa only [start_eq] using ends
  · rw [← same_group, groupEnd?, ofOffset_offset]
    exact group
  · have after_eq : (groupOf c).after = c.text.drop (groupOf c).offset := by
      conv_lhs => rw [← ofOffset_offset (groupOf c), same_group]
      rfl
    simp only [after_eq, Text.slice, List.drop_drop]
    rw [Nat.sub_sub]
  · simpa only [start_eq] using behind
  · simpa only [start_eq] using nonempty
  · simpa only [same] using inside
  · rw [start_eq, ← same, ← peek?_eq_getElem?]
    exact front
  · have shut := shuts.front.2
    rw [peek?_eq_getElem?, shuts.walk.text_eq, text_advance, same] at shut
    simp only [stop_eq]
    exact shut
  · simpa only [start_eq, same] using scopeEnd_of_scope closed

/-- No comma stands where an entry starts. -/
theorem MethodMatch.StandsIn.front_ne_comma {block : Text} {m : MethodMatch}
    (stands : m.StandsIn block) : block[m.start]? ≠ some comma := by
  have word := word_length_pos stands.starts
  obtain ⟨b, front, part⟩ := exists_front_of_word (List.length_pos_iff.mp word)
  rw [← peek?_ofOffset, front]
  rintro ⟨rfl⟩
  cases part

/-- **The regions of the entries listed follow each other**, from the place where the scan starts. -/
theorem Lists.consecutive {c : Cursor} {found : Except UnmatchedScope (List MethodMatch)}
    (lists : Lists c found) : ∀ entries, found = .ok entries →
      Consecutive c.offset (entries.map MethodMatch.region) := by
  induction lists with
  | finish =>
      intro entries ok
      cases ok
      trivial
  | unmatched | openBody => exact fun entries failed => nomatch failed
  -- What is passed over only moves the place where the next region may start.
  | literal _ _ ih => exact fun entries ok => (ih entries ok).of_le (Walk.literal _).offset_le
  | nested _ _ closed _ ih =>
      exact fun entries ok => (ih entries ok).of_le (scope_walk closed).2.2.2.offset_le
  | word _ _ _ _ ih => exact fun entries ok => (ih entries ok).of_le (Walk.word _).offset_le
  | byte plain _ _ _ _ ih => exact fun entries ok => (ih entries ok).of_le (Walk.byte plain).offset_le
  | @entry c brace header body found plain starts read closed rest ih =>
      intro entries ok
      cases found with
      | error e => cases ok
      | ok others =>
          obtain rfl := Except.ok.inj ok
          have stands : MethodMatch.StandsIn c.text ⟨c.offset, { header with body }⟩ :=
            ReadsEntry.standsIn ⟨starts, header, brace, body, read, closed, rfl⟩
          have behind : c.offset < body.start := stands.behind
          have nonempty : body.start < body.stop := stands.nonempty
          have inside : body.stop < c.text.length := stands.inside
          have follow := ih others rfl
          have := c.offset_add_length
          rw [offset_advance, Nat.min_eq_left (by omega),
            show c.offset + (body.stop + 1 - c.offset) = body.stop + 1 by omega] at follow
          exact ⟨Nat.le_refl _, Nat.le_of_lt (Nat.lt_trans behind nonempty), follow⟩

/-- What a scan that succeeds lists. -/
theorem consecutive_of_methodMatches {block : Text} {found : List MethodMatch}
    (scanned : methodMatches block = .ok found) :
    Consecutive 0 (found.map MethodMatch.region) ∧ ∀ m ∈ found, m.StandsIn block := by
  have lists := (methodMatches_eq_iff block _).mp scanned
  refine ⟨lists.consecutive found rfl, fun m mem => ?_⟩
  obtain ⟨d, walk, reads⟩ := lists.entry_of_mem found rfl m mem
  have stands := reads.standsIn
  rwa [walk.text_eq, text_start] at stands

end Source

namespace Component

open Source Cursor

/-! ## The splice -/

/-- The part behind a region as the splice copies it: a comma in front becomes a line feed. -/
def breakComma : Text → Text
  | [] => []
  | b :: rest => if b = comma then lineFeed :: rest else b :: rest

/-- The splice of entries from an offset on asks only for parts of the object that are there: each
starts behind the one before, does not end before it starts, and ends inside the object. -/
def SlicesInRange (block : Text) : (last : Nat) → List MethodMatch → Prop
  | last, [] => last ≤ block.length
  | last, m :: rest =>
      last ≤ m.start ∧ m.start ≤ block.length ∧
        m.entry.body.start + 1 ≤ m.entry.body.stop + 1 ∧ m.entry.body.stop + 1 ≤ block.length ∧
        SlicesInRange block
          (if block[m.entry.body.stop + 1]? = some comma then m.entry.body.stop + 2
            else m.entry.body.stop + 1) rest

theorem slice_eq_cons {t : Text} {i j : Nat} {b : UInt8} (here : t[i]? = some b) (lt : i < j) :
    t.slice i j = b :: t.slice (i + 1) j := by
  obtain ⟨inside, rfl⟩ := List.getElem?_eq_some_iff.mp here
  rw [Text.slice, List.drop_eq_getElem_cons inside, Text.slice,
    show j - i = j - (i + 1) + 1 by omega, List.take_succ_cons]

/-- A byte in front of the next region is the first of the gap. -/
theorem gapsFrom_eq_cons {block : Text} {position : Nat} {spans : List Span} {b : UInt8}
    (here : block[position]? = some b) (before : ∀ s ∈ spans, position < s.start) :
    ∃ gap gaps, gapsFrom block (position + 1) spans = gap :: gaps ∧
      gapsFrom block position spans = (b :: gap) :: gaps := by
  obtain ⟨inside, byte_eq⟩ := List.getElem?_eq_some_iff.mp here
  cases spans with
  | nil => exact ⟨_, [], rfl, by rw [gapsFrom, List.drop_eq_getElem_cons inside, byte_eq]⟩
  | cons s rest =>
      refine ⟨_, _, rfl, ?_⟩
      rw [gapsFrom, slice_eq_cons here (before s List.mem_cons_self)]

/-- Where no comma stands, the gap is copied as it is. -/
theorem gapsFrom_breakComma {block : Text} {position : Nat} {spans : List Span} {gap : Text}
    {gaps : List Text} (other : block[position]? ≠ some comma)
    (gaps_eq : gapsFrom block position spans = gap :: gaps) : breakComma gap = gap := by
  have front : ∀ b rest, gap = b :: rest → block[position]? = some b := by
    rintro b rest rfl
    have leads : b :: rest <+: block.drop position := by
      cases spans with
      | nil =>
          obtain ⟨drop_eq, -⟩ := List.cons.inj gaps_eq
          rw [drop_eq]
      | cons s more =>
          obtain ⟨gap_eq, -⟩ := List.cons.inj gaps_eq
          rw [← gap_eq]
          exact List.take_prefix _ _
    obtain ⟨more, drop_eq⟩ := leads
    rw [← List.head?_drop, ← drop_eq]
    rfl
  cases gap with
  | nil => rfl
  | cons b rest =>
      rw [breakComma, if_neg]
      rintro rfl
      exact other (front comma rest rfl)

theorem interleave_cons_cons (b : UInt8) (gap : Text) (gaps pieces : List Text) :
    interleave ((b :: gap) :: gaps) pieces = b :: interleave (gap :: gaps) pieces := by
  cases pieces <;> simp [interleave]

/-- **One splice after the other**: the gaps with a class header and the body of each entry between
them, where the comma behind a body is a line feed. -/
theorem splice_interleaves {block : Text} : ∀ (found : List MethodMatch) (last : Nat),
    last ≤ block.length → Consecutive last (found.map MethodMatch.region) →
    (∀ m ∈ found, m.StandsIn block) →
    SlicesInRange block last found ∧
      ∃ gap gaps, gapsFrom block last (found.map MethodMatch.region) = gap :: gaps ∧
        spliceMethods block last found =
          interleave (gap :: gaps.map breakComma) (found.map fun m => m.entry.render ++ m.tail block)
  | [], last, inside, _, _ => ⟨inside, _, [], rfl, by simp [spliceMethods, interleave]⟩
  | m :: rest, last, inside, follow, stands => by
      obtain ⟨first, -, more⟩ := follow
      obtain ⟨here, others⟩ := List.forall_mem_cons.mp stands
      have nonempty := here.nonempty
      have short := here.inside
      have behind := here.behind
      by_cases comma_eq : block[m.entry.body.stop + 1]? = some comma
      · -- The next entry starts with a word, so that it starts behind the comma.
        have apart : ∀ s ∈ rest.map MethodMatch.region, m.entry.body.stop + 1 < s.start := by
          intro s mem
          obtain ⟨m', mem', rfl⟩ := List.mem_map.mp mem
          refine Nat.lt_of_le_of_ne (more.starts _ mem) fun same => ?_
          refine (others m' mem').front_ne_comma ?_
          rw [← comma_eq, same]
          rfl
        have follow' : Consecutive (m.entry.body.stop + 2) (rest.map MethodMatch.region) :=
          more.of_starts fun s mem => apart s mem
        have room : m.entry.body.stop + 1 < block.length := (List.getElem?_eq_some_iff.mp comma_eq).1
        obtain ⟨ranges, gap, gaps, gaps_eq, spliced⟩ :=
          splice_interleaves rest (m.entry.body.stop + 2) room follow' others
        obtain ⟨gap', gaps', gaps_eq', whole_eq⟩ := gapsFrom_eq_cons comma_eq apart
        obtain ⟨rfl, rfl⟩ := List.cons.inj (gaps_eq.symm.trans gaps_eq')
        refine ⟨⟨first, by omega, by omega, by omega, by rwa [if_pos comma_eq]⟩, _, _,
          congrArg _ whole_eq, ?_⟩
        simp only [spliceMethods, if_pos comma_eq, spliced]
        simp [interleave, breakComma, interleave_cons_cons, MethodMatch.tail, MethodMatch.region]
      · obtain ⟨ranges, gap, gaps, gaps_eq, spliced⟩ :=
          splice_interleaves rest (m.entry.body.stop + 1) short more others
        have kept := gapsFrom_breakComma comma_eq gaps_eq
        refine ⟨⟨first, by omega, by omega, by omega, by rwa [if_neg comma_eq]⟩, _, _,
          congrArg _ gaps_eq, ?_⟩
        simp only [spliceMethods, if_neg comma_eq, spliced]
        simp [interleave, kept, MethodMatch.tail, MethodMatch.region]

/-- A region is the header and the body of its entry. -/
theorem cover_region {block : Text} {m : MethodMatch} (stands : m.StandsIn block) :
    m.region.cover block = m.head block ++ m.tail block := by
  have behind := Nat.le_succ_of_le (Nat.le_of_lt stands.behind)
  have nonempty := Nat.succ_le_succ (Nat.le_of_lt stands.nonempty)
  have inside := Nat.lt_trans stands.nonempty stands.inside
  exact (Text.slice_append_slice block behind nonempty inside).symm

/-- **Entries have regions of their own, and the upgrade keeps their bodies.** What a scan that
succeeds lists stands in the object as the offsets say, each entry behind the one before. When the
upgrade of an object succeeds, the splice asks only for parts that are there. The object behind the
symbol rules is gaps with a header and a body between them; the result is the same gaps with the
header in class form and the same body, and a comma that opens a gap behind an entry is a line
feed. -/
theorem regions_kept (block : Text) :
    (∀ found, methodMatches block = .ok found →
      (found.Pairwise fun m m' => m.entry.body.stop < m'.start) ∧ ∀ m ∈ found, m.StandsIn block) ∧
    ∀ text, (upgradeMethods block).1 = .ok text →
      let renamed := (defaultSymbolTable.apply block).1
      ∃ found, methodMatches renamed = .ok found ∧ SlicesInRange renamed 0 found ∧
        ∃ gap gaps, gaps.length = found.length ∧
          renamed = interleave (gap :: gaps) (found.map fun m => m.head renamed ++ m.tail renamed) ∧
          text = interleave (gap :: gaps.map breakComma)
            (found.map fun m => m.entry.render ++ m.tail renamed) := by
  constructor
  · intro found scanned
    obtain ⟨follow, stands⟩ := consecutive_of_methodMatches scanned
    exact ⟨List.pairwise_map.mp follow.pairwise, stands⟩
  · intro text upgraded renamed
    rw [upgradeMethods_fst] at upgraded
    cases scanned : methodMatches renamed with
    | error e =>
        rw [scanned] at upgraded
        cases upgraded
    | ok found =>
        rw [scanned] at upgraded
        obtain ⟨follow, stands⟩ := consecutive_of_methodMatches scanned
        obtain ⟨ranges, gap, gaps, gaps_eq, spliced⟩ :=
          splice_interleaves found 0 (Nat.zero_le _) follow stands
        have whole := interleave_gapsFrom_cover renamed _ 0 follow
        have covers : (found.map MethodMatch.region).map (·.cover renamed) =
            found.map fun m => m.head renamed ++ m.tail renamed := by
          rw [List.map_map]
          exact List.map_congr_left fun m mem => cover_region (stands m mem)
        have count := length_gapsFrom renamed (found.map MethodMatch.region) 0
        rw [gaps_eq, List.length_cons, List.length_map] at count
        rw [gaps_eq, covers] at whole
        exact ⟨found, rfl, ranges, gap, gaps, Nat.succ.inj count, whole.symm,
          (Except.ok.inj upgraded).symm.trans spliced⟩

/-- An object with a condition that is no entry, a parameter group that spans a scope and a string,
and an entry behind a comma. -/
def threeHeads : Text :=
  utf8 "if (a) \x7b\x7d b(c = \x7b d: ')' \x7d) \x7b WL.scene \x7d,async e() \x7b\x7d"

def threeHeadsEntries : List MethodMatch :=
  [⟨10, { name := utf8 "b", isAsync := false, params := utf8 "c = \x7b d: ')' \x7d", body := ⟨28, 39⟩ }⟩,
    ⟨41, { name := utf8 "e", isAsync := true, params := [], body := ⟨51, 52⟩ }⟩]

def threeHeadsUpgraded : Text :=
  utf8 "if (a) \x7b\x7d b(c = \x7b d: ')' \x7d) \x7b this.engine.scene \x7d
async e() \x7b\x7d"

theorem regions_kept_threeHeads :
    methodMatches threeHeads = .ok threeHeadsEntries ∧
    (∀ m ∈ threeHeadsEntries, m.StandsIn threeHeads) ∧
    (upgradeMethods threeHeads).1 = .ok threeHeadsUpgraded ∧
    ∃ found, methodMatches (defaultSymbolTable.apply threeHeads).1 = .ok found ∧
      SlicesInRange (defaultSymbolTable.apply threeHeads).1 0 found := by
  have scanned : methodMatches threeHeads = .ok threeHeadsEntries := by rfl
  have upgraded : (upgradeMethods threeHeads).1 = .ok threeHeadsUpgraded := by rfl
  obtain ⟨listed, spliced⟩ := regions_kept threeHeads
  obtain ⟨found, scanned', ranges, -⟩ := spliced _ upgraded
  exact ⟨scanned, (listed _ scanned).2, upgraded, found, scanned', ranges⟩

end Component

end ClassUpgrade
