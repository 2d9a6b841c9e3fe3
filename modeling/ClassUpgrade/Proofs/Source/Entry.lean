/-
# Proofs.Source.Entry — methods objects from their parts

A methods object in good order is written here from its parts: blanks, names,
bracketed texts, entries in either spelling, and entries one behind the other
with or without a comma (`blockText`). The parts carry what makes them well
formed: a name is a word that is not reserved; a bracketed text closes at its
last byte when it is read alone, and every slash met on the way starts a comment.

Reading gives the parts back: `methodHeader?_entry` for one entry, wherever it
stands, and `methodMatches_blockText` for a whole object, with the offsets of
every header and every body.
-/
import Mathlib.Data.List.TakeWhile
import ClassUpgrade.Proofs.Source.Method
import ClassUpgrade.Proofs.Source.Within

namespace ClassUpgrade.Source

set_option autoImplicit false

open Byte Cursor

/-! ## Parts -/

/-- Blanks between tokens. -/
structure Blanks where
  text : Text
  blank : text.all isSpace = true

theorem Blanks.isSpace_of_mem (blanks : Blanks) {b : UInt8} (mem : b ∈ blanks.text) :
    isSpace b = true := List.all_eq_true.mp blanks.blank b mem

/-- At least one blank. -/
structure Spacing extends Blanks where
  ne_nil : text ≠ []

/-- A word that a method can be named by. -/
structure MethodName where
  text : Text
  word : Source.word text = text
  ne_nil : text ≠ []
  free : text ∉ reservedWords

def Bracket.wrap (kind : Bracket) (inner : Text) : Text := kind.opening :: (inner ++ [kind.closing])

/-- A text between two brackets of a kind that, when it is read alone, closes at its last byte;
every slash met on the way starts a comment. -/
structure Group (kind : Bracket) where
  inner : Text
  closes : (start (kind.wrap inner)).closeOf? kind = some (inner.length + 1)
  comments : SlashesComment (start (kind.wrap inner))

/-- The text of a group, its brackets included. -/
def Group.text {kind : Bracket} (g : Group kind) : Text := kind.wrap g.inner

/-- The word `async` with the blanks behind it, or nothing. -/
def markText : Option Spacing → Text
  | none => []
  | some gap => utf8 "async" ++ gap.text

/-- What stands in an entry in front of its parameters. -/
inductive EntryLead where
  /-- `name : [async] function` -/
  | property (name : MethodName) (before after : Blanks) (mark : Option Spacing) (last : Blanks)
  /-- `[async] name` -/
  | short (mark : Option Spacing) (name : MethodName) (last : Blanks)

namespace EntryLead

def name : EntryLead → MethodName
  | property name _ _ _ _ => name
  | short _ name _ => name

def mark : EntryLead → Option Spacing
  | property _ _ _ mark _ => mark
  | short mark _ _ => mark

def text : EntryLead → Text
  | property name before after mark last =>
    name.text ++ (before.text ++ colon :: (after.text ++ (markText mark ++
      (utf8 "function" ++ last.text))))
  | short mark name last => markText mark ++ (name.text ++ last.text)

end EntryLead

/-- A method entry from its parts: `lead(params) {body}`. -/
structure Entry where
  lead : EntryLead
  params : Group .paren
  gap : Blanks
  body : Group .brace

namespace Entry

def header (e : Entry) : MethodHeader := ⟨e.lead.name.text, e.lead.mark.isSome, e.params.inner⟩

/-- The text of an entry up to the brace of its body. -/
def headText (e : Entry) : Text := e.lead.text ++ (e.params.text ++ e.gap.text)

def text (e : Entry) : Text := e.headText ++ e.body.text

end Entry

/-- An entry of a methods object with the comma, if there is one, and the blanks behind it. -/
structure Item where
  entry : Entry
  comma : Bool
  gap : Blanks

/-- The separator behind an entry that has a comma. -/
def Item.ending (separator : UInt8) (i : Item) : Text := if i.comma then [separator] else []

/-- Blanks, then the entries in the given form; a separator stands where an entry has a comma. -/
def laidOut (form : Entry → Text) (separator : UInt8) : (lead : Blanks) → List Item → Text
  | lead, [] => lead.text
  | lead, i :: rest =>
    lead.text ++ (form i.entry ++ (i.ending separator ++ laidOut form separator i.gap rest))

def blockText (lead : Blanks) (items : List Item) : Text := laidOut Entry.text comma lead items

/-- What the scan lists for an entry that starts at an offset. -/
def Entry.matchAt (e : Entry) (start : Nat) : MethodMatch :=
  let brace := start + e.headText.length
  ⟨start, { e.header with body := ⟨brace, brace + e.body.inner.length + 1⟩ }⟩

/-- What the scan lists for a methods object whose text starts at an offset. -/
def matchesFrom : (position : Nat) → (lead : Blanks) → List Item → List MethodMatch
  | _, _, [] => []
  | position, lead, i :: rest =>
    let start := position + lead.text.length
    i.entry.matchAt start ::
      matchesFrom (start + i.entry.text.length + (i.ending comma).length) i.gap rest

/-! ## Reading words and blanks -/

/-- Nothing, or a text that opens with a byte that is neither a blank nor part of a word. -/
def OpensPlain (t : Text) : Prop := ∀ b ∈ t.head?, isSpace b = false ∧ isWordPart b = false

/-- Behind a word and blanks the word does not go on. -/
theorem noWordPart_of_blanks (blanks : Blanks) {z : Text} (opens : OpensPlain z) :
    ∀ b ∈ (blanks.text ++ z).head?, isWordPart b = false := by
  intro b mem
  cases text_eq : blanks.text with
  | nil =>
      rw [text_eq] at mem
      exact (opens b mem).2
  | cons a rest =>
      rw [text_eq] at mem
      obtain rfl : a = b := by simpa using mem
      exact isWordPart_of_isSpace (blanks.isSpace_of_mem (text_eq ▸ List.mem_cons_self))

theorem word_append {name y : Text} (ne_nil : name ≠ []) (word : Source.word name = name)
    (stop : ∀ b ∈ y.head?, isWordPart b = false) : Source.word (name ++ y) = name := by
  obtain ⟨b, rest, rfl⟩ := List.exists_cons_of_ne_nil ne_nil
  rw [Source.word] at word
  split at word
  · rename_i starts
    rw [List.cons_append, Source.word, if_pos starts, takeWhile_append_of_stop stop]
    exact word
  · cases word

/-- A word is the whole of itself. -/
theorem word_word (t : Text) : word (word t) = word t := by
  cases t with
  | nil => rfl
  | cons b rest =>
      by_cases starts : isWordStart b = true
      · simp [word, starts, List.takeWhile_idem]
      · simp [word, starts]

theorem takeWhile_blanks (blanks : Blanks) {y : Text} (stop : ∀ b ∈ y.head?, isSpace b = false) :
    (blanks.text ++ y).takeWhile isSpace = blanks.text := by
  have none : y.takeWhile isSpace = [] := takeWhile_append_of_stop stop []
  rw [List.takeWhile_append_of_pos fun b mem => blanks.isSpace_of_mem mem, none, List.append_nil]

theorem skipSpace_blanks (before : Text) (blanks : Blanks) {y : Text}
    (stop : ∀ b ∈ y.head?, isSpace b = false) :
    (⟨before, blanks.text ++ y⟩ : Cursor).skipSpace = ⟨blanks.text.reverse ++ before, y⟩ := by
  rw [Cursor.skipSpace, spaceLength, takeWhile_blanks blanks stop, advance_append]

theorem hasKeyword_append {keyword y : Text} (stop : ∀ b ∈ y.head?, isWordPart b = false) :
    hasKeyword keyword (keyword ++ y) = true := by
  have leads : Text.startsWith (keyword ++ y) keyword = true :=
    List.isPrefixOf_iff_prefix.mpr (List.prefix_append _ _)
  unfold hasKeyword Text.after?
  rw [if_pos leads, List.drop_left]
  cases y with
  | nil => rfl
  | cons b rest => simp [stop b (by simp)]

/-- A keyword is in front when it is the whole run of word bytes there. -/
theorem hasKeyword_iff {keyword t : Text} (parts : keyword.all isWordPart = true) :
    hasKeyword keyword t = true ↔ t.takeWhile isWordPart = keyword := by
  constructor
  · intro found
    obtain ⟨y, rfl⟩ := hasKeyword_leads found
    have stop : ∀ b ∈ y.head?, isWordPart b = false := by
      intro b front
      obtain ⟨y', rfl⟩ : ∃ y', y = b :: y' := List.head?_eq_some_iff.mp front
      have leads : Text.startsWith (keyword ++ b :: y') keyword = true :=
        List.isPrefixOf_iff_prefix.mpr (List.prefix_append _ _)
      rw [hasKeyword, Text.after?, if_pos leads, List.drop_left] at found
      simpa using found
    have none : y.takeWhile isWordPart = [] := takeWhile_append_of_stop stop []
    rw [List.takeWhile_append_of_pos (List.all_eq_true.mp parts), none, List.append_nil]
  · rintro rfl
    have stop : ∀ b ∈ (t.dropWhile isWordPart).head?, isWordPart b = false := by
      intro b front
      have other := List.head?_dropWhile_not isWordPart t
      rw [front] at other
      simpa using other
    have whole : hasKeyword (t.takeWhile isWordPart)
        (t.takeWhile isWordPart ++ t.dropWhile isWordPart) = true := hasKeyword_append stop
    rwa [List.takeWhile_append_dropWhile] at whole

/-- A text of word bytes opens with no blank. -/
theorem noSpace_of_wordParts {t : Text} (ne_nil : t ≠ []) (parts : t.all isWordPart = true)
    (y : Text) : ∀ b ∈ (t ++ y).head?, isSpace b = false := by
  obtain ⟨a, rest, rfl⟩ := List.exists_cons_of_ne_nil ne_nil
  simp only [List.cons_append, List.head?_cons, Option.mem_def, Option.some.injEq]
  rintro b rfl
  cases blank : isSpace a with
  | false => rfl
  | true =>
      have part := List.all_eq_true.mp parts a List.mem_cons_self
      rw [isWordPart_of_isSpace blank] at part
      cases part

theorem MethodName.noSpace (name : MethodName) (y : Text) :
    ∀ b ∈ (name.text ++ y).head?, isSpace b = false :=
  noSpace_of_wordParts name.ne_nil
    (List.all_eq_true.mpr fun _ mem => isWordPart_of_mem_word (name.word.symm ▸ mem)) y

theorem Spacing.noWordPart (gap : Spacing) (y : Text) :
    ∀ b ∈ (gap.text ++ y).head?, isWordPart b = false := by
  obtain ⟨a, rest, gap_eq⟩ := List.exists_cons_of_ne_nil gap.ne_nil
  simp only [gap_eq, List.cons_append, List.head?_cons, Option.mem_def, Option.some.injEq]
  rintro b rfl
  exact isWordPart_of_isSpace (gap.isSpace_of_mem (gap_eq ▸ List.mem_cons_self))

/-! ## Reading the lead of an entry -/

theorem word_async : Source.word (utf8 "async") = utf8 "async" := by decide

/-- A name without a mark in front of it. -/
theorem methodName_lone (before : Text) (name : MethodName) (blanks : Blanks) {z : Text}
    (opens : OpensPlain z) :
    methodName ⟨before, name.text ++ (blanks.text ++ z)⟩ =
      (name.text, false, ⟨name.text.reverse ++ before, blanks.text ++ z⟩) := by
  have first : (⟨before, name.text ++ (blanks.text ++ z)⟩ : Cursor).word = name.text :=
    word_append name.ne_nil name.word (noWordPart_of_blanks blanks opens)
  have noWord : Source.word z = [] := by
    cases z with
    | nil => rfl
    | cons b rest =>
        have : isWordPart b = false := (opens b (by simp)).2
        simp only [isWordPart, Bool.or_eq_false_iff] at this
        simp [Source.word, this.1]
  unfold methodName
  simp only [first, advance_append]
  split
  · rw [skipSpace_blanks _ blanks fun b mem => (opens b mem).1]
    rw [if_neg (by simp [Cursor.word, noWord])]
  · rfl

/-- A name behind the mark `async`. -/
theorem methodName_marked (before : Text) (gap : Spacing) (name : MethodName) (blanks : Blanks)
    {z : Text} (opens : OpensPlain z) :
    methodName ⟨before, utf8 "async" ++ (gap.text ++ (name.text ++ (blanks.text ++ z)))⟩ =
      (name.text, true,
        ⟨(utf8 "async" ++ (gap.text ++ name.text)).reverse ++ before, blanks.text ++ z⟩) := by
  have first : (⟨before, utf8 "async" ++ (gap.text ++ (name.text ++ (blanks.text ++ z)))⟩ :
      Cursor).word = utf8 "async" := word_append (by decide) word_async (gap.noWordPart _)
  have second : ∀ near, (⟨near, name.text ++ (blanks.text ++ z)⟩ : Cursor).word = name.text :=
    fun _ => word_append name.ne_nil name.word (noWordPart_of_blanks blanks opens)
  have stop := name.noSpace (blanks.text ++ z)
  unfold methodName
  simp only [first, advance_append, if_true, skipSpace_blanks _ gap.toBlanks stop, second,
    spaceLength, takeWhile_blanks gap.toBlanks stop]
  rw [if_pos ⟨by simpa using gap.ne_nil, name.ne_nil⟩]
  simp

/-- A keyword in front, with blanks behind it. -/
theorem optionalKeyword_here (before keyword : Text) (blanks : Blanks) {z : Text}
    (ends : ∀ b ∈ (blanks.text ++ z).head?, isWordPart b = false)
    (stop : ∀ b ∈ z.head?, isSpace b = false) :
    optionalKeyword ⟨before, keyword ++ (blanks.text ++ z)⟩ keyword =
      (true, ⟨blanks.text.reverse ++ (keyword.reverse ++ before), z⟩) := by
  have found : (⟨before, keyword ++ (blanks.text ++ z)⟩ : Cursor).hasKeyword keyword = true :=
    hasKeyword_append ends
  rw [optionalKeyword, if_pos found, advance_append, skipSpace_blanks _ blanks stop]

theorem optionalKeyword_async_function (before y : Text) :
    optionalKeyword ⟨before, utf8 "function" ++ y⟩ (utf8 "async") =
      (false, ⟨before, utf8 "function" ++ y⟩) := rfl

theorem methodMarker_of_ne {c : Cursor} (other : c.peek? ≠ some colon) :
    methodMarker c = (false, c) := by
  rw [methodMarker, expect?, if_neg other]

/-- `: [async] function` in front of what opens the parameters. -/
theorem methodMarker_property (before : Text) (after : Blanks) (mark : Option Spacing)
    (last : Blanks) {z : Text} (opens : OpensPlain z) :
    methodMarker ⟨before, colon :: (after.text ++ (markText mark ++
        (utf8 "function" ++ (last.text ++ z))))⟩ =
      (mark.isSome, ⟨(colon :: (after.text ++ (markText mark ++
        (utf8 "function" ++ last.text)))).reverse ++ before, z⟩) := by
  have entered : (⟨before, colon :: (after.text ++ (markText mark ++
      (utf8 "function" ++ (last.text ++ z))))⟩ : Cursor).expect? colon =
        some ⟨colon :: before, after.text ++ (markText mark ++
          (utf8 "function" ++ (last.text ++ z)))⟩ := rfl
  have keyword : ∀ near, optionalKeyword ⟨near, utf8 "function" ++ (last.text ++ z)⟩
      (utf8 "function") = (true, ⟨last.text.reverse ++ ((utf8 "function").reverse ++ near), z⟩) :=
    fun near => optionalKeyword_here near _ last (noWordPart_of_blanks last opens)
      fun b mem => (opens b mem).1
  have noSpace : ∀ y, ∀ b ∈ (utf8 "function" ++ y).head?, isSpace b = false :=
    noSpace_of_wordParts (by decide) (by decide)
  rw [methodMarker, entered]
  dsimp only
  cases mark with
  | none =>
      rw [markText, List.nil_append, skipSpace_blanks _ after (noSpace _),
        optionalKeyword_async_function]
      dsimp only
      rw [keyword]
      simp
  | some gap =>
      rw [markText, List.append_assoc,
        skipSpace_blanks _ after (noSpace_of_wordParts (by decide) (by decide) _),
        optionalKeyword_here _ _ gap.toBlanks (gap.noWordPart _) (noSpace _)]
      dsimp only
      rw [keyword]
      simp

/-- The lead of an entry in front of its parameters is read as it was written. -/
theorem EntryLead.reads (lead : EntryLead) (before : Text) {z : Text}
    (front : z.head? = some openParen) :
    let c : Cursor := ⟨before, lead.text ++ z⟩
    (methodName c).1 = lead.name.text ∧
      ((methodName c).2.1 || (methodMarker (methodName c).2.2.skipSpace).1) = lead.mark.isSome ∧
      groupOf c = ⟨lead.text.reverse ++ before, z⟩ := by
  have opens : OpensPlain z := by
    intro b mem
    obtain rfl : openParen = b := by simpa [front] using mem
    decide
  have noSpace : ∀ b ∈ z.head?, isSpace b = false := fun b mem => (opens b mem).1
  have noColon : ∀ near, (⟨near, z⟩ : Cursor).peek? ≠ some colon := by
    intro near
    rw [peek?, front]
    decide
  have colonOpens : ∀ y, OpensPlain (colon :: y) := by
    intro y b mem
    obtain rfl : colon = b := by simpa using mem
    decide
  unfold groupOf
  cases lead with
  | property name gap after mark last =>
      have read := methodName_lone before name gap (colonOpens (after.text ++ (markText mark ++
        (utf8 "function" ++ (last.text ++ z)))))
      simp only [EntryLead.text, EntryLead.name, EntryLead.mark, List.append_assoc,
        List.cons_append, read,
        skipSpace_blanks _ gap fun b mem => (colonOpens _ b mem).1,
        methodMarker_property _ after mark last opens]
      simp
  | short mark name last =>
      cases mark with
      | none =>
          simp only [EntryLead.text, EntryLead.name, EntryLead.mark, markText, List.nil_append,
            List.append_assoc, methodName_lone before name last opens,
            skipSpace_blanks _ last noSpace, methodMarker_of_ne (noColon _)]
          simp
      | some gap =>
          simp only [EntryLead.text, EntryLead.name, EntryLead.mark, markText,
            List.append_assoc, methodName_marked before gap name last opens,
            skipSpace_blanks _ last noSpace, methodMarker_of_ne (noColon _)]
          simp

/-! ## Reading a group -/

/-- What opens a bracket speaks for an expression, and what closes it closes. -/
structure Bracket.Delimits (kind : Bracket) : Prop where
  distinct : kind.closing ≠ kind.opening
  operator : kind.opening ∈ expressionOperators
  closer : isCloser kind.closing = true

theorem delimits_brace : Bracket.brace.Delimits := ⟨by decide, by decide, by decide⟩

theorem delimits_paren : Bracket.paren.Delimits := ⟨by decide, by decide, by decide⟩

theorem Group.length_text {kind : Bracket} (g : Group kind) :
    g.text.length = g.inner.length + 2 := by
  simp [Group.text, Bracket.wrap]

/-- What a group holds is between its brackets. -/
theorem Group.slice_append {kind : Bracket} (g : Group kind) (rest : Text) :
    (g.text ++ rest).slice 1 (g.inner.length + 1) = g.inner := by
  simp [Group.text, Bracket.wrap, Text.slice]

/-- A group closes at its last byte wherever it stands. -/
theorem Group.closeOf?_eq {kind : Bracket} (delimits : kind.Delimits) (g : Group kind)
    (before rest : Text) :
    (⟨before, g.text ++ rest⟩ : Cursor).closeOf? kind =
      some (before.length + g.inner.length + 1) := by
  -- the text between the brackets, read by itself and read here
  let gap : Cursor := ⟨[kind.opening], [kind.closing]⟩
  let gap' : Cursor := ⟨kind.opening :: before, kind.closing :: rest⟩
  have alone : (start (kind.wrap g.inner)).advance 1 = (start g.inner).within gap := by
    simp [start, Bracket.wrap, advance, within, gap]
  have here : (⟨before, g.text ++ rest⟩ : Cursor).advance 1 = (start g.inner).within gap' := by
    simp [start, Group.text, Bracket.wrap, advance, within, gap']
  have bracketed : gap.Bracketed :=
    ⟨by simpa [EndsOperator, gap] using delimits.operator,
      by simpa [OpensClosing, gap] using delimits.closer⟩
  have bracketed' : gap'.Bracketed :=
    ⟨by simpa [EndsOperator, gap'] using delimits.operator,
      by simpa [OpensClosing, gap'] using delimits.closer⟩
  obtain ⟨front, d, closes, offset_eq⟩ := (closeOf?_eq_some_iff delimits.distinct).mp g.closes
  have entered : Walk (start (kind.wrap g.inner)) ((start g.inner).within gap) := by
    rw [← alone]
    exact .byte (literalLength_eq_zero_of_peek? front (plain_of_operator delimits.operator).2.2)
  rw [alone] at closes
  obtain ⟨e, rfl, -, moved⟩ := closes.moved bracketed bracketed' (by simp [gap]) _ rfl
    (.inr ⟨by rw [offset_eq, text_start, Nat.add_comm]; rfl, rfl⟩)
    (.inr (g.comments.of_walk entered))
  rw [← here] at moved
  refine (closeOf?_eq_some_iff delimits.distinct).mpr ⟨rfl, _, moved, ?_⟩
  rw [offset_within] at offset_eq ⊢
  simp only [offset, gap, gap', List.length_cons, List.length_nil] at offset_eq ⊢
  omega

/-! ## Reading an entry -/

/-- The header of an entry is read as it was written, up to the brace of the body. -/
theorem methodHeader?_entry (e : Entry) (before : Text) {z : Text}
    (front : z.head? = some openBrace) :
    methodHeader? ⟨before, e.headText ++ z⟩ =
      some (e.header, ⟨e.headText.reverse ++ before, z⟩) := by
  have opened : (e.params.text ++ (e.gap.text ++ z)).head? = some openParen := rfl
  obtain ⟨name_eq, mark_eq, group_eq⟩ := e.lead.reads before opened
  have text_eq : e.headText ++ z = e.lead.text ++ (e.params.text ++ (e.gap.text ++ z)) := by
    simp [Entry.headText]
  rw [text_eq, methodHeader?_eq_some_iff, name_eq, mark_eq, group_eq]
  refine ⟨e.lead.name.free, _, e.params.closeOf?_eq delimits_paren _ _, ?_, ?_, front⟩
  · have inside : ∀ n, n + e.params.inner.length + 1 - n = e.params.inner.length + 1 := by omega
    rw [offset, inside, Group.slice_append, Entry.header]
  · have past : ∀ n, n + e.params.inner.length + 1 + 1 - n = e.params.text.length := by
      intro n
      rw [Group.length_text]
      omega
    have noSpace : ∀ b ∈ z.head?, isSpace b = false := by
      simp only [front, Option.mem_def, Option.some.injEq]
      rintro b rfl
      decide
    rw [offset, past, advance_append, skipSpace_blanks _ e.gap noSpace]
    simp [Entry.headText]

/-- The body of an entry is a scope. -/
theorem scope_body (g : Group .brace) (before rest : Text) :
    (⟨before, g.text ++ rest⟩ : Cursor).scope =
      .ok ⟨before.length, before.length + g.inner.length + 1⟩ := by
  rw [Cursor.scope, g.closeOf?_eq delimits_brace]
  rfl

/-! ## Reading a methods object -/

/-- A byte that the scan for entries passes by. -/
def isIdle (b : UInt8) : Bool := !opensLiteral b && b != openBrace && !isWordStart b

theorem isIdle_of_isSpace {b : UInt8} (blank : isSpace b = true) : isIdle b = true := by
  simp only [isSpace, Bool.or_eq_true, beq_iff_eq] at blank
  rcases blank with ((rfl | rfl) | rfl) | rfl <;> decide

/-- The scan passes by idle bytes. -/
theorem Lists.idle {found : Except UnmatchedScope (List MethodMatch)} :
    ∀ (x before y : Text), (∀ b ∈ x, isIdle b = true) → Lists ⟨x.reverse ++ before, y⟩ found →
      Lists ⟨before, x ++ y⟩ found
  | [], before, y, _, rest => rest
  | b :: x, before, y, idle, rest => by
      have b_idle : isIdle b = true := idle b List.mem_cons_self
      simp only [isIdle, Bool.and_eq_true, Bool.not_eq_true', bne_iff_ne, ne_eq] at b_idle
      obtain ⟨⟨plain, noBrace⟩, noWord⟩ := b_idle
      refine .byte (Source.literalLength_eq_zero (by simpa using plain)) (by simp)
        (by simpa [peek?] using noBrace) (by simp [startsWord, Cursor.word, Source.word, noWord]) ?_
      have onward := Lists.idle x (b :: before) y (fun a mem => idle a (List.mem_cons_of_mem _ mem))
        (by simpa using rest)
      rwa [List.cons_append, advance_cons, advance_zero]

/-- A word may start behind blanks if it may start in front of them. -/
theorem atWordStart_blanks {before : Text} (starts : atWordStart before = true) (blanks : Blanks) :
    atWordStart (blanks.text.reverse ++ before) = true := by
  cases behind : blanks.text.reverse with
  | nil => exact starts
  | cons b rest =>
      have blank : isSpace b = true := blanks.isSpace_of_mem (by
        rw [← List.mem_reverse, behind]
        exact List.mem_cons_self)
      have noDot : b ≠ dot := by
        rintro rfl
        cases blank
      simp [atWordStart, isWordPart_of_isSpace blank, noDot]

theorem word_ne_nil_of_methodName {c : Cursor} (named : (methodName c).1 ≠ []) : c.word ≠ [] := by
  intro none
  apply named
  rw [methodName]
  dsimp only
  rw [none, if_neg (by decide)]

/-- An entry starts with a word. -/
theorem Entry.word_ne_nil (e : Entry) (before z : Text) :
    (⟨before, e.headText ++ z⟩ : Cursor).word ≠ [] := by
  have opened : (e.params.text ++ (e.gap.text ++ z)).head? = some openParen := rfl
  have name_eq := (e.lead.reads before opened).1
  have text_eq : e.headText ++ z = e.lead.text ++ (e.params.text ++ (e.gap.text ++ z)) := by
    simp [Entry.headText]
  rw [text_eq]
  exact word_ne_nil_of_methodName (name_eq ▸ e.lead.name.ne_nil)

/-- A word has a word byte in front. -/
theorem exists_front_of_word {c : Cursor} (word : c.word ≠ []) :
    ∃ b, c.peek? = some b ∧ isWordPart b = true := by
  obtain ⟨b, rest, word_eq⟩ := List.exists_cons_of_ne_nil word
  have leads : b :: rest <+: c.after := word_eq ▸ word_leads c.after
  have mem : b ∈ Source.word c.after := by
    rw [show Source.word c.after = b :: rest from word_eq]
    exact List.mem_cons_self
  obtain ⟨y, after_eq⟩ := leads
  exact ⟨b, by simp [peek?, ← after_eq], isWordPart_of_mem_word mem⟩

theorem literalLength_eq_zero_of_word {c : Cursor} (word : c.word ≠ []) : c.literalLength = 0 := by
  obtain ⟨b, front, part⟩ := exists_front_of_word word
  exact literalLength_eq_zero_of_peek? front (opensLiteral_of_isWordPart part)

/-- The scan lists an entry and goes on behind it. -/
theorem Lists.ofEntry (e : Entry) {near more : Text} {others : List MethodMatch}
    (starts : atWordStart near = true) (rest : Lists ⟨e.text.reverse ++ near, more⟩ (.ok others)) :
    Lists ⟨near, e.text ++ more⟩ (.ok (e.matchAt near.length :: others)) := by
  let here : Cursor := ⟨near, e.text ++ more⟩
  have text_eq : e.text ++ more = e.headText ++ (e.body.text ++ more) := by simp [Entry.text]
  have word : here.word ≠ [] := by
    simp only [here, text_eq]
    exact e.word_ne_nil near _
  have header : methodHeader? here =
      some (e.header, ⟨e.headText.reverse ++ near, e.body.text ++ more⟩) := by
    simp only [here, text_eq]
    exact methodHeader?_entry e near rfl
  have span : (near.length + e.headText.length) + e.body.inner.length + 1 + 1 - near.length =
      e.text.length := by
    simp only [Entry.text, List.length_append, Group.length_text]
    omega
  have near_eq : (e.headText.reverse ++ near).length = near.length + e.headText.length := by
    simp [Nat.add_comm]
  have closed := scope_body e.body (e.headText.reverse ++ near) more
  rw [near_eq] at closed
  have wordStarts : here.startsWord = true := by simp [startsWord, word, here, starts]
  have onward : Lists (here.advance (near.length + e.headText.length + e.body.inner.length + 1 + 1 -
      here.offset)) (.ok others) := by
    rw [show here.offset = near.length from rfl, span, advance_append]
    exact rest
  exact .entry (literalLength_eq_zero_of_word word) wordStarts header closed onward

/-- A word may start behind an entry and its comma. -/
theorem atWordStart_behind_item (i : Item) (near : Text) :
    atWordStart ((i.ending comma).reverse ++ (i.entry.text.reverse ++ near)) = true := by
  cases comma_eq : i.comma with
  | true => simp [Item.ending, comma_eq]; rfl
  | false => simp [Item.ending, comma_eq, Entry.text, Group.text, Bracket.wrap]; rfl

theorem idle_ending (i : Item) : ∀ b ∈ i.ending comma, isIdle b = true := by
  cases comma_eq : i.comma with
  | true =>
      simp only [Item.ending, comma_eq, if_true, List.mem_singleton]
      rintro b rfl
      decide
  | false => simp [Item.ending, comma_eq]

/-- The scan lists the entries that a methods object was written from. -/
theorem lists_blockText : ∀ (items : List Item) (lead : Blanks) (before : Text),
    atWordStart before = true →
      Lists ⟨before, blockText lead items⟩ (.ok (matchesFrom before.length lead items))
  | [], lead, before, _ => by
      have passed := Lists.idle lead.text before []
        (fun b mem => isIdle_of_isSpace (lead.isSpace_of_mem mem)) (.finish rfl)
      simpa [blockText, laidOut, matchesFrom] using passed
  | i :: rest, lead, before, starts => by
      let near : Text := lead.text.reverse ++ before
      have ih := lists_blockText rest i.gap _ (atWordStart_behind_item i near)
      have behind : Lists ⟨i.entry.text.reverse ++ near, i.ending comma ++ blockText i.gap rest⟩
          (.ok (matchesFrom _ i.gap rest)) :=
        .idle _ _ _ (idle_ending i) ih
      have entry := Lists.ofEntry i.entry (atWordStart_blanks starts lead) behind
      have passed := Lists.idle lead.text before _
        (fun b mem => isIdle_of_isSpace (lead.isSpace_of_mem mem)) entry
      have near_eq : near.length = before.length + lead.text.length := by simp [near, Nat.add_comm]
      have position : ((i.ending comma).reverse ++ (i.entry.text.reverse ++ near)).length =
          near.length + i.entry.text.length + (i.ending comma).length := by
        simp only [List.length_append, List.length_reverse]
        omega
      rw [position, near_eq] at passed
      exact passed

/-- **A methods object in good order is read as it was written**: the scan lists its entries and no
others, in order, each with its header and with the braces of its body. -/
theorem methodMatches_blockText (lead : Blanks) (items : List Item) :
    methodMatches (blockText lead items) = .ok (matchesFrom 0 lead items) :=
  (methodMatches_eq_iff _ _).mpr (lists_blockText items lead [] rfl)

end ClassUpgrade.Source
