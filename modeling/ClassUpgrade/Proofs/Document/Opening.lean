/-
# Proofs.Document.Opening — what stands in front of the first statement

A document opens with a line that names an interpreter, if it has one, and with
blanks and comments. Two scanners read them: that of the opt-outs collects the
comments, and that of the rewriter passes over them. Both move by the same
steps, so that they stop at the same place of every document (`readFrom_snd`).

An `Opening` is a document taken apart: the words of the first line, the pieces
in front of the first statement, and the rest. What is read off it are its
comments (`readFrom_opening`), so that what it opts out of is what they say.

* `opening_read`: the comments, the place where both scanners stop, and the rule;
* `opening_read_twoDirectives`: two directives in either order.
-/
import ClassUpgrade.Proofs.Document.Ignore
import ClassUpgrade.Proofs.Source.Cursor

namespace ClassUpgrade.Document

set_option autoImplicit false

open Byte Source

/-! ## Two scanners, one place -/

/-- The comments that open a text and the text in which they end. -/
def readFrom : (skip : Nat) → Text → List Text × Text
  | _, [] => ([], [])
  | skip + 1, _ :: rest => readFrom skip rest
  | 0, b :: rest =>
    if isSpace b then readFrom 0 rest
    else
      match commentLength (b :: rest) with
      | 0 => ([], b :: rest)
      | n + 1 => ((b :: rest).take (n + 1) :: (readFrom n rest).1, (readFrom n rest).2)

theorem readFrom_fst : ∀ (skip : Nat) (t : Text), (readFrom skip t).1 = commentsFrom skip t
  | skip, [] => by cases skip <;> rfl
  | skip + 1, _ :: rest => readFrom_fst skip rest
  | 0, b :: rest => by
      rw [readFrom, commentsFrom]
      split
      · exact readFrom_fst 0 rest
      · cases commentLength (b :: rest) with
        | zero => rfl
        | succ n => exact congrArg _ (readFrom_fst n rest)

/-- **Collecting comments stops where passing over them does**, in every text. -/
theorem readFrom_snd : ∀ (skip : Nat) (t : Text), (readFrom skip t).2 = t.drop (triviaFrom skip t)
  | skip, [] => by cases skip <;> rfl
  | skip + 1, _ :: rest => readFrom_snd skip rest
  | 0, b :: rest => by
      rw [readFrom, triviaFrom]
      split
      · exact readFrom_snd 0 rest
      · cases commentLength (b :: rest) with
        | zero => rfl
        | succ n => exact readFrom_snd n rest

/-! ## Pieces -/

/-- A blank, or a comment that ends; the line feed that ends a line comment belongs to it. -/
inductive Piece where
  | blank (b : UInt8) (isBlank : isSpace b = true)
  | line (words : Text) (oneLine : lineFeed ∉ words)
  | block (words : Text) (unclosed : ¬ [star, slash] <:+: words)

namespace Piece

def text : Piece → Text
  | blank b _ => [b]
  | line words _ => slash :: slash :: words ++ [lineFeed]
  | block words _ => slash :: star :: words ++ [star, slash]

/-- The comment in a piece, without the line feed that ends it. -/
def comment? : Piece → Option Text
  | blank _ _ => none
  | line words _ => some (slash :: slash :: words)
  | block words _ => some (slash :: star :: words ++ [star, slash])

def texts (pieces : List Piece) : Text := pieces.flatMap text

def comments (pieces : List Piece) : List Text := pieces.filterMap comment?

end Piece

/-- A line ends at a line feed or at the end of the text. -/
theorem line_append {words rest : Text} (oneLine : lineFeed ∉ words)
    (ends : ∀ b ∈ rest.head?, b = lineFeed) : Text.line (words ++ rest) = words := by
  have inside : ∀ b ∈ words, (b != lineFeed) = true := by
    intro b mem
    rw [bne_iff_ne]
    rintro rfl
    exact oneLine mem
  rw [Text.line, List.takeWhile_append_of_pos inside]
  cases rest with
  | nil => exact List.append_nil words
  | cons b rest =>
      obtain rfl := ends b rfl
      exact List.append_nil words

theorem blockTail_append : ∀ {words : Text}, ¬ [star, slash] <:+: words → ∀ rest,
    blockTail (words ++ star :: slash :: rest) = words.length + 2
  | [], _, rest => by simp [blockTail]
  | b :: words, unclosed, rest => by
      have unclosed' : ¬ [star, slash] <:+: words := fun closed =>
        unclosed (closed.trans (List.suffix_cons b words).isInfix)
      have open_still : ¬ (b = star ∧ (words ++ star :: slash :: rest).head? = some slash) := by
        rintro ⟨rfl, next⟩
        cases words with
        | nil => exact absurd (Option.some.inj next) (by decide)
        | cons c words =>
            obtain rfl := Option.some.inj next
            exact unclosed ⟨[], words, rfl⟩
      rw [List.cons_append, blockTail, if_neg open_still, blockTail_append unclosed' rest,
        List.length_cons]

/-- A comment is passed over byte by byte. -/
theorem readFrom_append : ∀ (passed rest : Text),
    readFrom passed.length (passed ++ rest) = readFrom 0 rest
  | [], _ => rfl
  | _ :: passed, rest => readFrom_append passed rest

/-- A comment in front is collected. -/
theorem readFrom_comment {comment rest : Text} (front : comment.head? = some slash)
    (length_eq : commentLength (comment ++ rest) = comment.length) :
    readFrom 0 (comment ++ rest) = (comment :: (readFrom 0 rest).1, (readFrom 0 rest).2) := by
  obtain ⟨words, rfl⟩ := List.head?_eq_some_iff.mp front
  rw [List.cons_append] at length_eq ⊢
  rw [readFrom, if_neg (by decide), length_eq, List.length_cons]
  dsimp only
  rw [readFrom_append, List.take_succ_cons, List.take_left]

/-- **What one piece adds to the comments.** -/
theorem readFrom_piece (piece : Piece) (rest : Text) :
    readFrom 0 (piece.text ++ rest) =
      (piece.comment?.toList ++ (readFrom 0 rest).1, (readFrom 0 rest).2) := by
  cases piece with
  | blank b isBlank =>
      rw [Piece.text, List.singleton_append, readFrom, if_pos isBlank]
      rfl
  | line words oneLine =>
      have length_eq : commentLength (slash :: slash :: words ++ lineFeed :: rest) =
          (slash :: slash :: words).length := by
        rw [List.cons_append, List.cons_append, commentLength, if_pos ⟨rfl, rfl⟩,
          line_append oneLine (by simp)]
        rfl
      have onward : readFrom 0 (lineFeed :: rest) = readFrom 0 rest := by
        rw [readFrom, if_pos (by decide)]
      rw [Piece.text, List.append_assoc, List.singleton_append, readFrom_comment rfl length_eq,
        onward]
      rfl
  | block words unclosed =>
      refine readFrom_comment rfl ?_
      rw [Piece.text, List.append_assoc, List.cons_append, List.cons_append, commentLength,
        if_neg (by decide), if_pos ⟨rfl, rfl⟩]
      have closed := blockTail_append unclosed rest
      simpa using closed

/-- **What pieces in a row add to the comments**, piece by piece. -/
theorem readFrom_pieces (pieces : List Piece) (rest : Text) :
    readFrom 0 (Piece.texts pieces ++ rest) =
      (Piece.comments pieces ++ (readFrom 0 rest).1, (readFrom 0 rest).2) := by
  induction pieces with
  | nil => rfl
  | cons piece pieces ih =>
      have texts_eq : Piece.texts (piece :: pieces) ++ rest =
          piece.text ++ (Piece.texts pieces ++ rest) := by
        rw [Piece.texts, List.flatMap_cons, List.append_assoc, Piece.texts]
      have comments_eq : Piece.comments (piece :: pieces) =
          piece.comment?.toList ++ Piece.comments pieces := by
        rw [Piece.comments, List.filterMap_cons]
        cases piece.comment? <;> rfl
      rw [texts_eq, readFrom_piece, ih, comments_eq, List.append_assoc]

/-- A text that neither a blank nor a comment opens. -/
structure Starts (rest : Text) : Prop where
  inked : ∀ b ∈ rest.head?, isSpace b = false
  noLine : Text.startsWith rest (utf8 "//") = false
  noBlock : Text.startsWith rest (utf8 "/*") = false

theorem readFrom_starts {rest : Text} (starts : Starts rest) : readFrom 0 rest = ([], rest) := by
  cases rest with
  | nil => rfl
  | cons b rest =>
      have noComment : commentLength (b :: rest) = 0 := by
        cases rest with
        | nil => rfl
        | cons c rest =>
            have noLine : ¬ (b = slash ∧ c = slash) := by
              rintro ⟨rfl, rfl⟩
              cases starts.noLine
            have noBlock : ¬ (b = slash ∧ c = Byte.star) := by
              rintro ⟨rfl, rfl⟩
              cases starts.noBlock
            rw [commentLength, if_neg noLine, if_neg noBlock]
      rw [readFrom, if_neg (by simp [starts.inked b rfl]), noComment]

/-! ## Documents taken apart -/

/-- A document taken apart: the words behind `#!` on a first line that names an interpreter, the
pieces in front of the first statement, and the rest. -/
structure Opening where
  interpreter? : Option Text
  pieces : List Piece
  rest : Text
  oneLine : ∀ words ∈ interpreter?, lineFeed ∉ words
  lineEnds : interpreter?.isSome = true →
    ∀ b ∈ (Piece.texts pieces ++ rest).head?, b = lineFeed
  starts : Starts rest
  unnamed : interpreter? = none → pieces = [] → Text.startsWith rest (utf8 "#!") = false

namespace Opening

/-- The line that names an interpreter, without its line feed. -/
def namingLine (d : Opening) : Text := (d.interpreter?.map (utf8 "#!" ++ ·)).getD []

/-- What stands in front of the first statement. -/
def front (d : Opening) : Text := d.namingLine ++ Piece.texts d.pieces

def text (d : Opening) : Text := d.namingLine ++ (Piece.texts d.pieces ++ d.rest)

/-- The comments in front of the first statement, in order. -/
def comments (d : Opening) : List Text := Piece.comments d.pieces

end Opening

/-- Nothing but a first line that names an interpreter starts with its mark. -/
theorem Opening.unmarked {d : Opening} (noName : d.interpreter? = none) :
    Text.startsWith (Piece.texts d.pieces ++ d.rest) (utf8 "#!") = false := by
  cases pieces_eq : d.pieces with
  | nil => exact d.unnamed noName pieces_eq
  | cons piece pieces =>
      cases piece with
      | blank b isBlank =>
          have other : hash ≠ b := by
            rintro rfl
            cases isBlank
          have apart : (hash == b) = false := beq_eq_false_iff_ne.mpr other
          exact congrArg (· && _) apart
      | line words _ => rfl
      | block words _ => rfl

theorem afterShebang_opening (d : Opening) : afterShebang d.text = Piece.texts d.pieces ++ d.rest := by
  unfold afterShebang Opening.text Opening.namingLine
  cases named : d.interpreter? with
  | none =>
      rw [Option.map_none, Option.getD_none, List.nil_append, d.unmarked named,
        if_neg Bool.false_ne_true]
  | some words =>
      have oneLine : lineFeed ∉ utf8 "#!" ++ words :=
        List.not_mem_append (by decide) (d.oneLine words named)
      have marked : Text.startsWith (utf8 "#!" ++ words ++ (Piece.texts d.pieces ++ d.rest)) (utf8 "#!") =
          true := rfl
      rw [Option.map_some, Option.getD_some, if_pos marked,
        line_append oneLine (d.lineEnds (by rw [named]; rfl)), List.drop_left]

/-- The line that names an interpreter, as far as a document has one. -/
def interpreterLine (doc : Text) : Text :=
  if Text.startsWith doc (utf8 "#!") then Text.line doc else []

theorem afterShebang_eq_drop (doc : Text) :
    afterShebang doc = doc.drop (interpreterLine doc).length := by
  unfold afterShebang interpreterLine
  split
  · rfl
  · rfl

/-- The place at which the rewriter starts when it passes over the line that names an interpreter. -/
theorem after_skipTrivia (doc : Text) :
    (Cursor.ofOffset doc (interpreterLine doc).length).skipTrivia.after =
      (readFrom 0 (afterShebang doc)).2 := by
  rw [Cursor.skipTrivia, Cursor.after_advance, readFrom_snd, afterShebang_eq_drop]
  rfl

/-- **What is read of a document taken apart** are its comments, up to its rest. -/
theorem readFrom_opening (d : Opening) :
    readFrom 0 (afterShebang d.text) = (d.comments, d.rest) := by
  rw [afterShebang_opening, readFrom_pieces, readFrom_starts d.starts, List.append_nil]
  rfl

theorem leadingComments_opening (d : Opening) : leadingComments d.text = d.comments := by
  rw [leadingComments, ← readFrom_fst, readFrom_opening]

/-- The rewriter stops in front of the rest. -/
theorem skipTrivia_opening (d : Opening) :
    (Cursor.ofOffset d.text (interpreterLine d.text).length).skipTrivia =
      ⟨d.front.reverse, d.rest⟩ := by
  have after_eq : (Cursor.ofOffset d.text (interpreterLine d.text).length).skipTrivia.after =
      d.rest := by
    rw [after_skipTrivia, readFrom_opening]
  have text_eq : (Cursor.ofOffset d.text (interpreterLine d.text).length).skipTrivia.text =
      (⟨d.front.reverse, d.rest⟩ : Cursor).text := by
    rw [Cursor.skipTrivia, Cursor.text_advance, Cursor.text_ofOffset]
    simp [Cursor.text, Opening.text, Opening.front]
  refine Cursor.eq_of_text_offset text_eq ?_
  have length_eq := Cursor.offset_add_length
    (Cursor.ofOffset d.text (interpreterLine d.text).length).skipTrivia
  have length_eq' := Cursor.offset_add_length ⟨d.front.reverse, d.rest⟩
  rw [after_eq, text_eq] at length_eq
  dsimp only at length_eq'
  omega

/-- **What stands in front of the first statement.** Of a document taken apart the leading comments
are read, in order, up to the rest, which is also where the rewriter stops that starts behind the
line that names an interpreter. What the document opts out of is the same with any rest and with the
comments in any order: everything when one of them is a directive without names, else the stages
that they name. -/
theorem opening_read (d : Opening) :
    leadingComments d.text = d.comments ∧
    readFrom 0 (afterShebang d.text) = (d.comments, d.rest) ∧
    (Cursor.ofOffset d.text (interpreterLine d.text).length).skipTrivia =
      ⟨d.front.reverse, d.rest⟩ ∧
    (∀ d' : Opening, d'.comments.Perm d.comments → ignoreRule d'.text = ignoreRule d.text) ∧
    ((ignoreRule d.text).all = true ↔ ∃ c ∈ d.comments, OptsOut c) ∧
    ((ignoreRule d.text).all = false → ∀ stage,
      (ignoreRule d.text).ignores stage = true ↔ ∃ c ∈ d.comments, OptsOutOf stage c) := by
  refine ⟨leadingComments_opening d, readFrom_opening d, skipTrivia_opening d, ?_, ?_, ?_⟩
  · intro d' perm
    refine ignoreRule_congr fun c => ?_
    rw [leadingComments_opening, leadingComments_opening, perm.mem_iff]
  · rw [all_ignoreRule_iff, leadingComments_opening]
  · intro partly stage
    have noneOptsOut : ¬ ∃ c ∈ d.comments, OptsOut c := by
      rw [← leadingComments_opening, ← all_ignoreRule_iff, partly]
      exact Bool.false_ne_true
    rw [ignores_ignoreRule_iff, leadingComments_opening]
    refine exists_congr fun c => and_congr_right fun mem => or_iff_right fun optsOut => ?_
    exact noneOptsOut ⟨c, mem, optsOut⟩

/-- A line comment that opts out of a stage. -/
def linePiece : Piece := .line (utf8 " wle-js-upgrade:ignore entrypoint") (by decide)

/-- A block comment that opts out of another stage, in capitals and with a comma too many. -/
def blockPiece : Piece := .block (utf8 "wle-js-upgrade:ignore Components,") (by decide)

/-- A script for an interpreter with a directive of either kind. -/
def twoDirectives : Opening where
  interpreter? := some (utf8 "node")
  pieces := [.blank lineFeed rfl, linePiece, blockPiece]
  rest := utf8 "init();"
  oneLine := by rintro _ ⟨⟩; decide
  lineEnds := by rintro - _ ⟨⟩; rfl
  starts := ⟨by rintro _ ⟨⟩; rfl, rfl, rfl⟩
  unnamed := by rintro ⟨⟩

/-- The directives alone, in the other order. -/
def twoDirectivesSwapped : Opening where
  interpreter? := none
  pieces := [blockPiece, .blank space rfl, linePiece]
  rest := []
  oneLine := by rintro _ ⟨⟩
  lineEnds := by rintro ⟨⟩
  starts := ⟨by rintro _ ⟨⟩, rfl, rfl⟩
  unnamed := by rintro - ⟨⟩

/-- The stages of both directives are ignored, in either order of the directives, and no other. -/
theorem opening_read_twoDirectives :
    leadingComments twoDirectives.text =
      [utf8 "// wle-js-upgrade:ignore entrypoint", utf8 "/*wle-js-upgrade:ignore Components,*/"] ∧
    ignoreRule twoDirectivesSwapped.text = ignoreRule twoDirectives.text ∧
    (ignoreRule twoDirectives.text).all = false ∧
    (ignoreRule twoDirectives.text).ignores componentStage = true ∧
    (ignoreRule twoDirectives.text).ignores (utf8 "imports") = false := by
  obtain ⟨comments_eq, -, -, permuted, -, stages⟩ := opening_read twoDirectives
  have partly : (ignoreRule twoDirectives.text).all = false := by decide +kernel
  refine ⟨comments_eq.trans rfl, permuted twoDirectivesSwapped ?_, partly, ?_, by decide +kernel⟩
  · exact List.Perm.swap _ _ []
  · refine (stages partly componentStage).mpr ⟨_, List.mem_cons_of_mem _ List.mem_cons_self, ?_⟩
    exact ⟨utf8 " Components,", by decide +kernel, by decide +kernel, by decide⟩

end ClassUpgrade.Document
