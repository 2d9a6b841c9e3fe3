/-
# Proofs.Component.Method — the class methods of a methods object

A methods object in good order (`blockText`) that the symbol table leaves as it
is comes out with the same layout: each entry in class form, a line feed for
each comma behind an entry, and all blanks kept (`upgradeMethods_blockText`).
The splice walks along the entries listed, so its proof is one induction on the
entries, with the part of the object already copied in front (`splice_items`).
-/
import ClassUpgrade.Component.Method
import ClassUpgrade.Proofs.Component.Splice
import ClassUpgrade.Proofs.Source.Entry
import ClassUpgrade.Proofs.Text.Part

namespace ClassUpgrade

set_option autoImplicit false

open Byte

namespace Source

open Cursor

def Entry.classText (e : Entry) : Text :=
  (if e.lead.mark.isSome then utf8 "async " else []) ++
    (e.lead.name.text ++ (e.params.text ++ (space :: e.body.text)))

/-- The class header of an entry with its body behind the brace. -/
theorem render_append_body (e : Entry) :
    e.header.render ++ (e.body.inner ++ [closeBrace]) = e.classText := by
  have opening : utf8 "(" = [openParen] := rfl
  have closing : utf8 ") \x7b" = [closeParen, space, openBrace] := rfl
  rw [MethodHeader.render, opening, closing]
  show (if e.lead.mark.isSome then utf8 "async " else []) ++ e.lead.name.text ++ _ ++ _ ++ _ ++
    _ = _
  simp [Entry.header, Entry.classText, Group.text, Bracket.wrap, Bracket.paren, Bracket.brace]

/-- No comma opens a methods object in good order. -/
theorem head?_blockText_ne_comma (lead : Blanks) (items : List Item) :
    (blockText lead items).head? ≠ some comma := by
  cases text_eq : lead.text with
  | cons b rest =>
      have blank : isSpace b = true := lead.isSpace_of_mem (text_eq ▸ List.mem_cons_self)
      have front : (blockText lead items).head? = some b := by
        cases items <;> simp [blockText, laidOut, text_eq]
      rw [front]
      rintro ⟨rfl⟩
      cases blank
  | nil =>
      cases items with
      | nil => simp [blockText, laidOut, text_eq]
      | cons i rest =>
          have word := i.entry.word_ne_nil [] (i.entry.body.text ++
            (i.ending comma ++ blockText i.gap rest))
          obtain ⟨b, front, part⟩ := exists_front_of_word word
          have same : (blockText lead (i :: rest)).head? = some b := by
            simpa [blockText, laidOut, text_eq, Entry.text, peek?] using front
          rw [same]
          rintro ⟨rfl⟩
          cases part

/-! ## One item after the other -/

/-- A text and the item behind it, up to the blanks that follow the item. -/
def Item.behind (i : Item) (lead : Blanks) (copied : Text) : Text :=
  copied ++ (lead.text ++ (i.entry.text ++ i.ending Byte.comma))

theorem append_blockText_cons (i : Item) (rest : List Item) (lead : Blanks) (copied : Text) :
    copied ++ blockText lead (i :: rest) = i.behind lead copied ++ blockText i.gap rest := by
  simp [Item.behind, blockText, laidOut]

theorem matchesFrom_cons (i : Item) (rest : List Item) (lead : Blanks) (copied : Text) :
    matchesFrom copied.length lead (i :: rest) =
      i.entry.matchAt (copied.length + lead.text.length) ::
        matchesFrom (i.behind lead copied).length i.gap rest := by
  simp [matchesFrom, Item.behind, Nat.add_assoc]

/-- The offsets listed for an item are those of its parts: the blanks before it, its body with both
braces and without the first, and what stands behind. -/
theorem slices_of_item (i : Item) (rest : List Item) (lead : Blanks) (copied : Text) :
    let m := i.entry.matchAt (copied.length + lead.text.length)
    let block := copied ++ blockText lead (i :: rest)
    block.slice copied.length m.start = lead.text ∧
      m.entry.body.cover block = i.entry.body.text ∧
      block.slice (m.entry.body.start + 1) (m.entry.body.stop + 1) =
        i.entry.body.inner ++ [closeBrace] ∧
      m.entry.body.stop + 1 + (i.ending comma).length = (i.behind lead copied).length ∧
      block[m.entry.body.stop + 1]? = (i.ending comma ++ blockText i.gap rest).head? := by
  intro m block
  let e := i.entry
  let more : Text := i.ending comma ++ blockText i.gap rest
  have text_eq : block = copied ++ (lead.text ++ (e.text ++ more)) := rfl
  refine ⟨Text.slice_eq_of_append text_eq rfl rfl, ?_, ?_, ?_, ?_⟩
  · refine Text.slice_eq_of_append (x := copied ++ (lead.text ++ e.headText)) (z := more) ?_ ?_ ?_
    · simp [text_eq, Entry.text, e]
    · simp [m, Entry.matchAt, e, Nat.add_assoc]
    · simp [m, Entry.matchAt, Group.length_text, Nat.add_assoc]
  · refine Text.slice_eq_of_append (x := copied ++ (lead.text ++ (e.headText ++ [openBrace])))
      (z := more) ?_ ?_ ?_
    · simp [text_eq, Entry.text, Group.text, Bracket.wrap, Bracket.brace, e]
    · simp [m, Entry.matchAt, e, Nat.add_assoc]
    · simp [m, Entry.matchAt, Nat.add_assoc, Nat.add_comm, Nat.add_left_comm]
  · simp [m, Entry.matchAt, Item.behind, Entry.text, Group.length_text, Nat.add_assoc,
      Nat.add_left_comm]
  · refine Text.getElem?_eq_of_append (x := copied ++ (lead.text ++ e.text)) ?_ ?_
    · simp [text_eq, e, more]
    · simp [m, Entry.matchAt, Entry.text, Group.length_text, e, Nat.add_assoc]

end Source

namespace Component

open Source

/-- Behind a part already copied, the splice lays the entries out in class form. -/
theorem splice_items : ∀ (items : List Item) (lead : Blanks) (copied : Text),
    spliceMethods (copied ++ blockText lead items) copied.length
        (matchesFrom copied.length lead items) =
      laidOut Entry.classText lineFeed lead items
  | [], lead, copied => by simp [matchesFrom, spliceMethods, blockText, laidOut]
  | i :: rest, lead, copied => by
      obtain ⟨gap_eq, -, body_eq, position_eq, behind_eq⟩ := slices_of_item i rest lead copied
      have ih := splice_items rest i.gap (i.behind lead copied)
      have entry_eq : ∀ t, lead.text ++ i.entry.header.render ++
          (i.entry.body.inner ++ [closeBrace]) ++ t = lead.text ++ (i.entry.classText ++ t) := by
        intro t
        rw [← render_append_body]
        simp
      rw [← append_blockText_cons, ← position_eq] at ih
      rw [matchesFrom_cons, ← position_eq, spliceMethods, gap_eq, body_eq, behind_eq]
      rw [show (i.entry.matchAt (copied.length + lead.text.length)).entry.toMethodHeader =
        i.entry.header from rfl, entry_eq, entry_eq]
      cases comma_eq : i.comma with
      | true =>
          simp only [Item.ending, comma_eq, if_true, List.length_singleton] at ih
          simp [Item.ending, comma_eq, laidOut, ih]
      | false =>
          have noComma := head?_blockText_ne_comma i.gap rest
          simp only [Item.ending, comma_eq, Bool.false_eq_true, if_false, List.length_nil] at ih
          simp [Item.ending, comma_eq, laidOut, ih, noComma]

/-- Behind a part already copied, the entries listed have the headers written and span their
bodies. -/
theorem matchesFrom_cover : ∀ (items : List Item) (lead : Blanks) (copied : Text),
    (matchesFrom copied.length lead items).map
        (fun m => (m.entry.toMethodHeader, m.entry.body.cover (copied ++ blockText lead items))) =
      items.map fun i => (i.entry.header, i.entry.body.text)
  | [], lead, copied => rfl
  | i :: rest, lead, copied => by
      obtain ⟨-, body_eq, -, -, -⟩ := slices_of_item i rest lead copied
      have ih := matchesFrom_cover rest i.gap (i.behind lead copied)
      rw [← append_blockText_cons] at ih
      rw [matchesFrom_cons, List.map_cons, List.map_cons, ih, body_eq]
      rfl

/-- **The methods of an object in good order become class methods in place.** When no symbol rule
applies, the upgrade succeeds and keeps the layout: each entry takes its class form, each comma
behind an entry becomes a line feed, all blanks stay. The entries listed are those of the object,
in order, with their names, marks and parameters, and their spans are those of their bodies. -/
theorem upgradeMethods_blockText (lead : Blanks) (items : List Item)
    (stable : (defaultSymbolTable.apply (blockText lead items)).1 = blockText lead items) :
    (upgradeMethods (blockText lead items)).1 = .ok (laidOut Entry.classText lineFeed lead items) ∧
      methodEntries (blockText lead items) =
        .ok ((matchesFrom 0 lead items).map MethodMatch.entry) ∧
      (matchesFrom 0 lead items).map
          (fun m => (m.entry.toMethodHeader, m.entry.body.cover (blockText lead items))) =
        items.map fun i => (i.entry.header, i.entry.body.text) := by
  have spliced := splice_items items lead []
  rw [List.nil_append] at spliced
  refine ⟨?_, by rw [methodEntries, methodMatches_blockText]; rfl, matchesFrom_cover items lead []⟩
  simp only [upgradeMethods, stable, methodMatches_blockText]
  exact congrArg Except.ok spliced

/-- An object with a method named like the mark, whose parameters and body hold brackets in a string
and in a comment, and with a marked function. -/
def twoMethods : List Item :=
  let blank : Blanks := ⟨utf8 " ", by decide⟩
  [{ entry :=
      { lead := .short none ⟨utf8 "async", by decide, by decide, by decide⟩ blank
        params := ⟨utf8 "a = ')'", by rfl, .of_free (by decide)⟩
        gap := blank
        body := ⟨utf8 "/*\x7d*/", by rfl,
          .token (by decide) (.token (by decide) (.of_free (by decide)))⟩ }
     comma := true
     gap := ⟨utf8 "\n", by decide⟩ },
   { entry :=
      { lead := .property ⟨utf8 "b", by decide, by decide, by decide⟩ blank blank
          (some ⟨blank, by decide⟩) blank
        params := ⟨[], by rfl, .of_free (by decide)⟩
        gap := blank
        body := ⟨utf8 "if (c) \x7b\x7d", by rfl, .of_free (by decide)⟩ }
     comma := true
     gap := blank }]

theorem upgradeMethods_twoMethods :
    let block := utf8
      " async (a = ')') \x7b/*\x7d*/\x7d,\nb : async function () \x7bif (c) \x7b\x7d\x7d, "
    blockText ⟨utf8 " ", by decide⟩ twoMethods = block ∧
      (defaultSymbolTable.apply block).1 = block ∧
      (upgradeMethods block).1 =
        .ok (utf8 " async(a = ')') \x7b/*\x7d*/\x7d\n\nasync b() \x7bif (c) \x7b\x7d\x7d\n ") ∧
      methodEntries block = .ok
        [{ name := utf8 "async", isAsync := false, params := utf8 "a = ')'", body := ⟨17, 23⟩ },
          { name := utf8 "b", isAsync := true, params := [], body := ⟨48, 58⟩ }] := by
  intro block
  have text_eq : blockText ⟨utf8 " ", by decide⟩ twoMethods = block := by decide
  have stable : (defaultSymbolTable.apply block).1 = block := by decide
  obtain ⟨upgraded, listed, -⟩ :=
    upgradeMethods_blockText ⟨utf8 " ", by decide⟩ twoMethods (text_eq.symm ▸ stable)
  rw [text_eq] at upgraded listed
  exact ⟨text_eq, stable, upgraded.trans (by rfl), listed.trans (by rfl)⟩

end Component

end ClassUpgrade
