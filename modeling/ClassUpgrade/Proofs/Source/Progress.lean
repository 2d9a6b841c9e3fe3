/-
# Proofs.Source.Progress — loops over a text go forward and stay inside

The walks of this library run over what is left of a text, so no offset in them
can be wrong. A program goes by offsets instead: it indexes the text, cuts it,
and goes on where a scanner tells it to. Here the walks are written once more in
that way, round by round and with every access checked: an index or a slice
outside the text has no value, and a round that asks for one has no outcome.

`Ends` says that such a loop comes to an answer: every round has an outcome, and
the next one starts strictly further on and not behind the end of the text. From
it follows a bound on the number of rounds (`Ends.run_eq`). The scanners are the
ground it stands on: each ends between the offset that it is asked about and the
end of the text. What a loop comes to is what the walk answers:

* `closeRound_ends`: the search for a closing bracket;
* `Lists.ends`: the scan for method entries, with the header read by offsets
  (`headerAt?_eq`).
-/
import ClassUpgrade.Proofs.Source.Entry

namespace ClassUpgrade.Source

set_option autoImplicit false

open Byte Cursor

/-! ## Scanners are as long as the text at most -/

theorem quotedTail_le_length (quote : UInt8) : ∀ (t : Text) (escaped : Bool),
    quotedTail quote escaped t ≤ t.length
  | [], escaped => by simp [quotedTail]
  | a :: t, true => by
      have ih := quotedTail_le_length quote t false
      simp only [quotedTail, List.length_cons]
      omega
  | a :: t, false => by
      have plain := quotedTail_le_length quote t false
      have taken := quotedTail_le_length quote t true
      simp only [quotedTail, List.length_cons]
      split
      · omega
      · split
        · omega
        · split <;> omega

theorem blockTail_le_length (t : Text) : blockTail t ≤ t.length := by
  induction t with
  | nil => simp [blockTail]
  | cons a t ih =>
      rw [blockTail, List.length_cons]
      split
      · rename_i closes
        cases t with
        | nil => cases closes.2
        | cons c t =>
            rw [List.length_cons]
            omega
      · omega

theorem commentLength_le_length (t : Text) : commentLength t ≤ t.length := by
  unfold commentLength
  split
  · rename_i b c rest
    have line : (Text.line rest).length ≤ rest.length := (List.takeWhile_prefix _).length_le
    have block := blockTail_le_length rest
    simp only [List.length_cons]
    split
    · omega
    · split <;> omega
  · exact Nat.zero_le _

theorem regexLength_le_length (t : Text) : regexLength t ≤ t.length := by
  unfold regexLength
  split
  · exact Nat.zero_le _
  · split
    · rename_i n found
      have := regexTail_le_length _ _ _ _ found
      rw [List.length_cons]
      omega
    · exact Nat.zero_le _

theorem quotedLength_le_length (t : Text) : quotedLength t ≤ t.length := by
  cases t with
  | nil => exact Nat.zero_le _
  | cons quote rest => exact Nat.succ_le_succ (quotedTail_le_length quote rest false)

theorem literalLength_le_length (before t : Text) : literalLength before t ≤ t.length := by
  unfold literalLength
  split
  · exact Nat.zero_le _
  · split
    · exact quotedLength_le_length _
    · split
      · split
        · exact commentLength_le_length _
        · split
          · exact regexLength_le_length _
          · exact Nat.zero_le _
      · exact Nat.zero_le _

theorem triviaFrom_le_length : ∀ (t : Text) (skip : Nat), triviaFrom skip t ≤ t.length
  | [], skip => by simp [triviaFrom]
  | b :: rest, skip + 1 => Nat.succ_le_succ (triviaFrom_le_length rest skip)
  | b :: rest, 0 => by
      rw [triviaFrom]
      split
      · exact Nat.succ_le_succ (triviaFrom_le_length rest 0)
      · split
        · exact Nat.zero_le _
        · exact Nat.succ_le_succ (triviaFrom_le_length rest _)

theorem triviaLength_le_length (t : Text) : triviaLength t ≤ t.length := triviaFrom_le_length t 0

theorem spaceLength_le_length (t : Text) : spaceLength t ≤ t.length :=
  (List.takeWhile_prefix isSpace).length_le

/-! ## Where a scanner ends -/

/-- The offset at which a scanner of a given length ends. -/
def endOf (length : Text → Nat) (t : Text) (i : Nat) : Nat := i + length (t.drop i)

/-- **A scanner ends inside the text**, not before the offset that it is asked about. -/
theorem endOf_bounds {length : Text → Nat} (le : ∀ t : Text, length t ≤ t.length) {t : Text}
    {i : Nat} (inside : i ≤ t.length) : i ≤ endOf length t i ∧ endOf length t i ≤ t.length := by
  have := le (t.drop i)
  rw [List.length_drop] at this
  unfold endOf
  omega

/-- The offset behind the literal that starts at an offset; without one, the offset itself. -/
def literalEnd (t : Text) (i : Nat) : Nat := endOf (literalLength (t.take i).reverse) t i

/-- The offset behind a string or template that is closed by `quote` and opens at an offset. -/
def quotedEnd (quote : UInt8) (t : Text) (i : Nat) : Nat := endOf (quotedTail quote false) t (i + 1)

theorem quotedEnd_bounds (quote : UInt8) {t : Text} {i : Nat} (inside : i < t.length) :
    i ≤ quotedEnd quote t i ∧ quotedEnd quote t i ≤ t.length := by
  obtain ⟨after, within⟩ :=
    endOf_bounds (fun t => quotedTail_le_length quote t false) (Nat.succ_le_of_lt inside)
  exact ⟨Nat.le_of_succ_le after, within⟩

def commentEnd (t : Text) (i : Nat) : Nat := endOf commentLength t i

def regexEnd (t : Text) (i : Nat) : Nat := endOf regexLength t i

def triviaEnd (t : Text) (i : Nat) : Nat := endOf triviaLength t i

def spaceEnd (t : Text) (i : Nat) : Nat := endOf spaceLength t i

/-! ## Checked access

A byte that is asked for only behind a comparison with the length is a plain `t[i]? = some b`, which
is false behind the end. What is asked for without one is bound, so that there is nothing to go on
with when it is not there. -/

/-- The part of a text between two offsets, when both are offsets of it and in order. -/
def slice? (t : Text) (i j : Nat) : Option Text :=
  if i ≤ j ∧ j ≤ t.length then some (t.slice i j) else none

/-- The end of the literal at an offset. What opens a literal is asked of the byte there. -/
def literalEnd? (t : Text) (i : Nat) : Option Nat :=
  if i < t.length then some (literalEnd t i) else none

/-- The identifier at an offset, empty behind the end of the text. -/
def wordAt? (t : Text) (i : Nat) : Option Text :=
  if t.length ≤ i then some [] else slice? t i (endOf (fun rest => (word rest).length) t i)

/-- Whether an identifier that opens with `b` at an offset is neither a tail nor a member. -/
def startsWordAt? (t : Text) (i : Nat) (b : UInt8) : Option Bool :=
  if isWordStart b then
    if i = 0 then some true else (t[i - 1]?).map fun b => !isWordPart b && b != dot
  else some false

def keywordAt? (keyword t : Text) (i : Nat) : Option Bool := do
  let rest ← slice? t i t.length
  if Text.startsWith rest keyword then
    if i + keyword.length = t.length then some true
    else (t[i + keyword.length]?).map fun b => !isWordPart b
  else some false

theorem slice?_eq {t : Text} {i j : Nat} (le : i ≤ j) (inside : j ≤ t.length) :
    slice? t i j = some (t.slice i j) := if_pos ⟨le, inside⟩

/-- A place lies in a text at an offset. -/
structure Cursor.At (c : Cursor) (t : Text) (i : Nat) : Prop where
  text_eq : c.text = t
  offset_eq : c.offset = i

theorem Cursor.at_ofOffset {t : Text} {i : Nat} (inside : i ≤ t.length) : (ofOffset t i).At t i :=
  ⟨text_ofOffset t i, by rw [offset_ofOffset, Nat.min_eq_left inside]⟩

/-- The walk stays in one text. -/
theorem Cursor.Walk.place {c d : Cursor} {t : Text} {i : Nat} (walk : Walk c d) (here : c.At t i) :
    d.At t d.offset := ⟨walk.text_eq.trans here.text_eq, rfl⟩

namespace Cursor.At

variable {c : Cursor} {t : Text} {i : Nat}

theorem eq_ofOffset (here : c.At t i) : c = ofOffset t i := by
  obtain ⟨rfl, rfl⟩ := here
  exact (ofOffset_offset c).symm

theorem after_eq (here : c.At t i) : c.after = t.drop i := by
  rw [here.eq_ofOffset]
  rfl

theorem before_eq (here : c.At t i) : c.before = (t.take i).reverse := by
  rw [here.eq_ofOffset]
  rfl

theorem le_length (here : c.At t i) : i ≤ t.length := by
  obtain ⟨rfl, rfl⟩ := here
  exact c.offset_le_length

theorem length_after (here : c.At t i) : i + c.after.length = t.length := by
  obtain ⟨rfl, rfl⟩ := here
  exact c.offset_add_length

theorem peek?_eq (here : c.At t i) : c.peek? = t[i]? := by
  obtain ⟨rfl, rfl⟩ := here
  exact c.peek?_eq_getElem?

theorem advance (here : c.At t i) {n : Nat} (inside : n ≤ c.after.length) :
    (c.advance n).At t (i + n) := by
  refine ⟨by rw [text_advance, here.text_eq], ?_⟩
  rw [offset_advance, here.offset_eq, Nat.min_eq_left inside]

theorem advance_one (here : c.At t i) {b : UInt8} (front : t[i]? = some b) :
    (c.advance 1).At t (i + 1) :=
  here.advance (List.length_pos_iff.mpr (ne_nil_of_peek? (here.peek?_eq.trans front)))

theorem skipSpace (here : c.At t i) : c.skipSpace.At t (spaceEnd t i) := by
  rw [Cursor.skipSpace, spaceEnd, endOf, ← here.after_eq]
  exact here.advance (spaceLength_le_length c.after)

theorem pastWord (here : c.At t i) : (c.advance c.word.length).At t (i + c.word.length) :=
  here.advance (word_leads c.after).length_le

theorem literalEnd_eq (here : c.At t i) : literalEnd t i = i + c.literalLength := by
  rw [Cursor.literalLength, here.before_eq, here.after_eq]
  rfl

theorem literalEnd?_eq (here : c.At t i) (more : c.after ≠ []) :
    literalEnd? t i = some (i + c.literalLength) := by
  have := here.length_after
  have := List.length_pos_iff.mpr more
  rw [literalEnd?, if_pos (by omega), here.literalEnd_eq]

/-- The text from an offset to its end. -/
theorem slice?_rest (here : c.At t i) : slice? t i t.length = some c.after := by
  rw [slice?_eq here.le_length (Nat.le_refl _), here.after_eq, Text.slice, ← List.length_drop,
    List.take_length]

theorem expect?_eq (here : c.At t i) (b : UInt8) :
    c.expect? b = if t[i]? = some b then some (c.advance 1) else none := by
  rw [expect?, here.peek?_eq]

theorem wordAt?_eq (here : c.At t i) : wordAt? t i = some c.word := by
  have word_eq : Source.word (t.drop i) = c.word := by rw [Cursor.word, here.after_eq]
  have whole := here.length_after
  have inside : c.word.length ≤ c.after.length := (word_leads c.after).length_le
  unfold wordAt? endOf
  dsimp only
  rw [word_eq]
  split
  · have none : c.word = [] := List.length_eq_zero_iff.mp (by omega)
    rw [none]
  · rw [slice?_eq (by omega) (by omega), Text.slice, ← here.after_eq, Nat.add_sub_cancel_left,
      ← take_word]

/-- The byte in front of a place is the last one before it. -/
theorem getElem?_pred (here : c.At t i) (pos : i ≠ 0) : t[i - 1]? = c.before.head? := by
  have le := here.le_length
  rw [here.before_eq, List.head?_reverse, List.getLast?_take, if_neg pos]
  rw [List.getElem?_eq_getElem (by omega), Option.some_or]

theorem startsWordAt?_eq (here : c.At t i) {b : UInt8} (front : t[i]? = some b) :
    startsWordAt? t i b = some c.startsWord := by
  obtain ⟨rest, after_eq⟩ := peek?_eq_some_iff.mp (here.peek?_eq.trans front)
  unfold startsWordAt? startsWord Cursor.word
  rw [after_eq, Source.word]
  split
  · rw [List.isEmpty_cons, Bool.not_false, Bool.true_and]
    split
    · rename_i first
      have none : c.before = [] := List.length_eq_zero_iff.mp (here.offset_eq.trans first)
      rw [none]
      rfl
    · rename_i later
      rw [here.getElem?_pred later]
      cases before_eq : c.before with
      | nil => exact absurd (by rw [← here.offset_eq, Cursor.offset, before_eq]; rfl) later
      | cons a before => rfl
  · rfl

theorem exists_byte (here : c.At t i) (more : c.after ≠ []) : ∃ b, t[i]? = some b := by
  obtain ⟨b, rest, after_eq⟩ := List.exists_cons_of_ne_nil more
  exact ⟨b, here.peek?_eq ▸ peek?_eq_some_iff.mpr ⟨rest, after_eq⟩⟩

/-- A word opens with a byte that is no brace. -/
theorem exists_front (here : c.At t i) (starts : c.startsWord = true) :
    ∃ b, t[i]? = some b ∧ b ≠ openBrace := by
  obtain ⟨b, front, part⟩ := exists_front_of_word (List.length_pos_iff.mp (word_length_pos starts))
  refine ⟨b, here.peek?_eq ▸ front, ?_⟩
  rintro rfl
  cases part

theorem keywordAt?_eq (here : c.At t i) (keyword : Text) :
    keywordAt? keyword t i = some (c.hasKeyword keyword) := by
  have whole := here.length_after
  rw [keywordAt?, here.slice?_rest]
  simp only [Option.bind_eq_bind, Option.bind_some, Cursor.hasKeyword, Source.hasKeyword, Text.after?]
  split
  · rename_i leads
    have inside := (List.isPrefixOf_iff_prefix.mp leads).length_le
    have behind := here.advance inside
    rw [← behind.peek?_eq, peek?, after_advance]
    cases rest : c.after.drop keyword.length with
    | nil =>
        have := List.drop_eq_nil_iff.mp rest
        exact if_pos (by omega)
    | cons b rest' =>
        have : keyword.length < c.after.length := by
          have := congrArg List.length rest
          rw [List.length_drop, List.length_cons] at this
          omega
        exact if_neg (by omega)
  · rfl

end Cursor.At

/-! ## Loops -/

/-- What a round of a loop over a text comes to: the answer of the loop, or the state and the offset
of the next round. -/
inductive Round (σ α : Type) where
  | answer (a : α)
  | next (s : σ) (i : Nat)
  deriving DecidableEq, Repr

section Loop

variable {σ α : Type}

/-- A loop over a text that comes to an answer: every round has an outcome, and the next round
starts strictly further on, not behind the end of the text. -/
inductive Ends (t : Text) (round : σ → Nat → Option (Round σ α)) : σ → Nat → α → Prop where
  | answer {s : σ} {i : Nat} {a : α} (inside : i ≤ t.length) (now : round s i = some (.answer a)) :
      Ends t round s i a
  | next {s s' : σ} {i j : Nat} {a : α} (now : round s i = some (.next s' j)) (further : i < j)
      (inside : j ≤ t.length) (rest : Ends t round s' j a) : Ends t round s i a

/-- The loop itself, for a number of rounds. -/
def runRounds (round : σ → Nat → Option (Round σ α)) : (rounds : Nat) → σ → Nat → Option α
  | 0, _, _ => none
  | rounds + 1, s, i => do
    match ← round s i with
    | .answer a => some a
    | .next s' j => runRounds round rounds s' j

/-- A loop that comes to an answer needs one round for each byte in front of it, and one more. -/
theorem Ends.run_eq {t : Text} {round : σ → Nat → Option (Round σ α)} {s : σ} {i : Nat} {a : α}
    (ends : Ends t round s i a) :
    ∀ rounds, t.length < i + rounds → runRounds round rounds s i = some a := by
  induction ends with
  | answer inside now =>
      intro rounds enough
      obtain ⟨k, rfl⟩ : ∃ k, rounds = k + 1 := ⟨rounds - 1, by omega⟩
      simp [runRounds, now]
  | next now further inside _ ih =>
      intro rounds enough
      obtain ⟨k, rfl⟩ : ∃ k, rounds = k + 1 := ⟨rounds - 1, by omega⟩
      simp [runRounds, now, ih k (by omega)]

/-- A round of a loop that passes over literals: past the literal in front, if there is one, and
else what `read` makes of the byte there; at the end of the text the loop is over. -/
def outsideLiterals (t : Text) (atEnd : σ → α) (read : σ → Nat → UInt8 → Option (Round σ α))
    (s : σ) (i : Nat) : Option (Round σ α) :=
  if t.length ≤ i then some (.answer (atEnd s))
  else do
    let next ← literalEnd? t i
    if next ≠ i then some (.next s next) else read s i (← t[i]?)

variable {t : Text} {atEnd : σ → α} {read : σ → Nat → UInt8 → Option (Round σ α)} {s s' : σ}
  {c : Cursor} {i j : Nat} {a : α} {b : UInt8}

theorem Ends.finish (here : c.At t i) (done : c.after = []) :
    Ends t (outsideLiterals t atEnd read) s i (atEnd s) := by
  have whole := here.length_after
  rw [done, List.length_nil] at whole
  exact .answer here.le_length (if_pos (by omega))

theorem Ends.literal (here : c.At t i) (starts : c.literalLength ≠ 0)
    (rest : Ends t (outsideLiterals t atEnd read) s (i + c.literalLength) a) :
    Ends t (outsideLiterals t atEnd read) s i a := by
  have more : c.after ≠ [] := by
    intro done
    exact starts (by rw [Cursor.literalLength, done]; rfl)
  have whole := here.length_after
  have inside : c.literalLength ≤ c.after.length := literalLength_le_length _ _
  refine .next ?_ (by omega) (by omega) rest
  have room : ¬ t.length ≤ i := by omega
  simp [outsideLiterals, room, here.literalEnd?_eq more, starts]

/-- Outside literals the round is what the byte in front makes it. -/
theorem outsideLiterals_eq (here : c.At t i) (plain : c.literalLength = 0) (front : t[i]? = some b) :
    outsideLiterals t atEnd read s i = read s i b := by
  have room : ¬ t.length ≤ i := by
    have := (List.getElem?_eq_some_iff.mp front).1
    omega
  have more := ne_nil_of_peek? (here.peek?_eq.trans front)
  simp [outsideLiterals, room, here.literalEnd?_eq more, plain, front]

theorem Ends.step (here : c.At t i) (plain : c.literalLength = 0) (front : t[i]? = some b)
    (now : read s i b = some (.next s' j)) (further : i < j) (inside : j ≤ t.length)
    (rest : Ends t (outsideLiterals t atEnd read) s' j a) :
    Ends t (outsideLiterals t atEnd read) s i a :=
  .next ((outsideLiterals_eq here plain front).trans now) further inside rest

theorem Ends.stop (here : c.At t i) (plain : c.literalLength = 0) (front : t[i]? = some b)
    (now : read s i b = some (.answer a)) : Ends t (outsideLiterals t atEnd read) s i a :=
  .answer here.le_length ((outsideLiterals_eq here plain front).trans now)

end Loop

/-! ## The search for a closing bracket -/

/-- What the search for the close of a bracket makes of a byte, with `depth` brackets open. -/
def closeStep (kind : Bracket) (depth : Int) (i : Nat) (b : UInt8) : Option (Round Int (Option Nat)) :=
  if b = kind.opening then some (.next (depth + 1) (i + 1))
  else if b = kind.closing then
    if depth = 1 then some (.answer (some i)) else some (.next (depth - 1) (i + 1))
  else some (.next depth (i + 1))

def closeRound (kind : Bracket) (t : Text) : Int → Nat → Option (Round Int (Option Nat)) :=
  outsideLiterals t (fun _ => none) (closeStep kind)

/-- One step of the search along the walk, outside literals. -/
theorem closeFrom_of_plain (kind : Bracket) {before rest : Text} {b : UInt8}
    (plain : literalLength before (b :: rest) = 0) (depth : Nat) :
    closeFrom kind before 0 depth (b :: rest) =
      if b = kind.opening then closeFrom kind (b :: before) 0 (depth + 1) rest
      else if b = kind.closing then
        match depth with
        | 0 => some before.length
        | depth + 1 => closeFrom kind (b :: before) 0 depth rest
      else closeFrom kind (b :: before) 0 depth rest := by
  cases depth <;> simp only [closeFrom, plain]

/-- **The search for a closing bracket ends**, from every offset and with any number of brackets
open. When there is one to close, it answers what the walk does. -/
theorem closeRound_ends (kind : Bracket) (t : Text) :
    ∀ (rest before : Text) (skip : Nat) (depth : Int) (i : Nat),
      ((⟨before, rest⟩ : Cursor).advance skip).At t i →
        ∃ a, Ends t (closeRound kind t) depth i a ∧
          ∀ n : Nat, depth = n + 1 → a = closeFrom kind before skip n rest
  | [], before, skip, depth, i, here => by
      rw [advance_of_nil rfl] at here
      exact ⟨none, .finish here rfl, fun n _ => by simp [closeFrom]⟩
  | b :: rest, before, skip + 1, depth, i, here => by
      rw [advance_cons] at here
      exact closeRound_ends kind t rest (b :: before) skip depth i here
  | b :: rest, before, 0, depth, i, here => by
      rw [advance_zero] at here
      cases literal : literalLength before (b :: rest) with
      | succ k =>
          have length_eq : (⟨before, b :: rest⟩ : Cursor).literalLength = k + 1 := literal
          have moved := here.advance (n := k + 1) (length_eq ▸ literalLength_le_length _ _)
          rw [advance_cons] at moved
          obtain ⟨a, ends, same⟩ := closeRound_ends kind t rest (b :: before) k depth _ moved
          refine ⟨a, .literal here (by omega) (length_eq ▸ ends), fun n open_eq => ?_⟩
          simp only [same n open_eq, closeFrom, literal]
      | zero =>
          have front : t[i]? = some b := here.peek?_eq.symm
          have inside : i < t.length := (List.getElem?_eq_some_iff.mp front).1
          have step := closeFrom_of_plain kind literal
          have onward : ∀ depth', ∃ a, Ends t (closeRound kind t) depth' (i + 1) a ∧
              ∀ n : Nat, depth' = n + 1 → a = closeFrom kind (b :: before) 0 n rest :=
            fun depth' => closeRound_ends kind t rest (b :: before) 0 depth' _
              (here.advance_one front)
          by_cases opens : b = kind.opening
          · obtain ⟨a, ends, same⟩ := onward (depth + 1)
            refine ⟨a, .step here literal front (if_pos opens) (by omega) inside ends, ?_⟩
            intro n open_eq
            rw [step, if_pos opens, same (n + 1) (by omega)]
          by_cases closes : b = kind.closing
          · by_cases last : depth = 1
            · have now : closeStep kind depth i b = some (.answer (some i)) := by
                rw [closeStep, if_neg opens, if_pos closes, if_pos last]
              refine ⟨some i, .stop here literal front now, ?_⟩
              intro n open_eq
              obtain rfl : n = 0 := by omega
              rw [step, if_neg opens, if_pos closes]
              exact congrArg some here.offset_eq.symm
            · obtain ⟨a, ends, same⟩ := onward (depth - 1)
              have now : closeStep kind depth i b = some (.next (depth - 1) (i + 1)) := by
                rw [closeStep, if_neg opens, if_pos closes, if_neg last]
              refine ⟨a, .step here literal front now (by omega) inside ends, ?_⟩
              intro n open_eq
              obtain ⟨k, rfl⟩ : ∃ k, n = k + 1 := ⟨n - 1, by omega⟩
              rw [step, if_neg opens, if_pos closes, same k (by omega)]
          · obtain ⟨a, ends, same⟩ := onward depth
            have now : closeStep kind depth i b = some (.next depth (i + 1)) := by
              rw [closeStep, if_neg opens, if_neg closes]
            refine ⟨a, .step here literal front now (by omega) inside ends, ?_⟩
            intro n open_eq
            rw [step, if_neg opens, if_neg closes, same n open_eq]

/-- The brace in the string is passed over with the string. -/
example : runRounds (closeRound .brace (utf8 "\x7b'\x7d' \x7d")) 6 1 1 = some (some 5) := by decide

theorem exists_closeRound_ends (kind : Bracket) {t : Text} {i : Nat} (inside : i ≤ t.length)
    (depth : Int) : ∃ a, Ends t (closeRound kind t) depth i a := by
  obtain ⟨a, ends, -⟩ := closeRound_ends kind t (t.drop i) (t.take i).reverse 0 depth i
    (at_ofOffset inside)
  exact ⟨a, ends⟩

/-- Behind an opening bracket the loop answers where it is closed. -/
theorem closeOf?_ends {kind : Bracket} {t : Text} {i : Nat} (front : t[i]? = some kind.opening) :
    Ends t (closeRound kind t) 1 (i + 1) ((ofOffset t i).closeOf? kind) := by
  have inside : i < t.length := (List.getElem?_eq_some_iff.mp front).1
  have here := at_ofOffset (Nat.le_of_lt inside)
  have opened : (ofOffset t i).expect? kind.opening = some ((ofOffset t i).advance 1) :=
    (here.expect?_eq _).trans (if_pos front)
  obtain ⟨a, ends, same⟩ := closeRound_ends kind t _ _ 0 1 (i + 1) (here.advance_one front)
  have answer : a = (ofOffset t i).closeOf? kind := by
    rw [same 0 rfl, closeOf?, opened]
    rfl
  rwa [answer] at ends

/-- The search for the end of a scope, which starts behind the brace. -/
theorem scopeEnd_ends {t : Text} {i : Nat} (front : t[i]? = some openBrace) :
    Ends t (closeRound .brace t) 1 (i + 1) (scopeEnd t i).toOption := by
  have ends : Ends t (closeRound .brace t) 1 (i + 1) ((ofOffset t i).closeOf? .brace) :=
    closeOf?_ends front
  rw [scopeEnd, if_neg (by omega), Int.toNat_natCast]
  cases closed : (ofOffset t i).closeOf? .brace with
  | none =>
      rw [closed] at ends
      exact ends
  | some stop =>
      rw [closed] at ends
      exact ends

/-- The search for the end of a group, which starts at the parenthesis itself. -/
theorem groupEnd?_ends {t : Text} {i : Nat} (front : t[i]? = some openParen) :
    Ends t (closeRound .paren t) 0 i (groupEnd? t i) := by
  have inside : i < t.length := (List.getElem?_eq_some_iff.mp front).1
  have here := at_ofOffset (Nat.le_of_lt inside)
  have plain : (ofOffset t i).literalLength = 0 :=
    literalLength_eq_zero_of_peek? (here.peek?_eq.trans front) (by decide)
  exact .step here plain front (if_pos rfl) (Nat.lt_succ_self i) inside (closeOf?_ends front)

theorem Cursor.At.scopeEnd_eq {c : Cursor} {t : Text} {i : Nat} (here : c.At t i) :
    scopeEnd t i = c.scope.map Span.stop := by
  rw [scopeEnd, if_neg (by omega), Int.toNat_natCast, ← here.eq_ofOffset, Cursor.scope]
  cases c.closeOf? .brace with
  | none => simp [Except.map, here.offset_eq]
  | some stop => rfl

/-- The place behind a scope. -/
theorem Cursor.At.pastScope {c : Cursor} {t : Text} {i : Nat} {span : Span} (here : c.At t i)
    (closed : c.scope = .ok span) : (c.advance span.length).At t (span.stop + 1) :=
  ⟨by rw [text_advance, here.text_eq], offset_behind_scope closed⟩

/-! ## The header of an entry, by offsets -/

/-- The name at an offset, whether a leading `async` marks it, and the offset behind it. -/
def nameAt? (t : Text) (i : Nat) : Option (Text × Bool × Nat) := do
  let first ← wordAt? t i
  let j := i + first.length
  if first = utf8 "async" then
    let k := spaceEnd t j
    let second ← wordAt? t k
    if j < k ∧ second ≠ [] then some (second, true, k + second.length) else some (first, false, j)
  else some (first, false, j)

/-- Whether a keyword stands at an offset, and the offset behind it and the blanks after it. -/
def optionalKeywordAt? (t : Text) (i : Nat) (keyword : Text) : Option (Bool × Nat) := do
  if ← keywordAt? keyword t i then some (true, spaceEnd t (i + keyword.length)) else some (false, i)

/-- The offset behind an optional `: [async] [function]`, with whether `async` was there. -/
def markerAt? (t : Text) (i : Nat) : Option (Bool × Nat) :=
  if t[i]? = some colon then do
    let (marked, k) ← optionalKeywordAt? t (spaceEnd t (i + 1)) (utf8 "async")
    let (_, k) ← optionalKeywordAt? t k (utf8 "function")
    some (marked, k)
  else some (false, i)

/-- The header at an offset, if there is one, with the offset of the brace of the body. -/
def headerAt? (t : Text) (i : Nat) : Option (Option (MethodHeader × Nat)) := do
  let (name, marked, j) ← nameAt? t i
  if reservedWords.contains name then some none
  else do
    let (markedAgain, k) ← markerAt? t (spaceEnd t j)
    if t[k]? = some openParen then
      match groupEnd? t k with
      | none => some none
      | some close => do
        let params ← slice? t (k + 1) close
        let brace := spaceEnd t (close + 1)
        if t[brace]? = some openBrace then some (some (⟨name, marked || markedAgain, params⟩, brace))
        else some none
    else some none

namespace Cursor.At

variable {c : Cursor} {t : Text} {i : Nat}

theorem nameAt?_eq (here : c.At t i) :
    nameAt? t i = some ((methodName c).1, (methodName c).2.1, (methodName c).2.2.offset) := by
  have past := here.pastWord
  have spaced := past.skipSpace
  have gap : spaceEnd t (i + c.word.length) =
      i + c.word.length + spaceLength (c.advance c.word.length).after := by
    rw [spaceEnd, endOf, past.after_eq]
  unfold nameAt? methodName
  simp only [here.wordAt?_eq, spaced.wordAt?_eq, Option.bind_eq_bind, Option.bind_some]
  split
  · have pos : i + c.word.length < spaceEnd t (i + c.word.length) ↔
        spaceLength (c.advance c.word.length).after ≠ 0 := by omega
    simp only [pos]
    split
    · rw [spaced.pastWord.offset_eq]
    · rw [past.offset_eq]
  · rw [past.offset_eq]

theorem optionalKeywordAt?_eq (here : c.At t i) (keyword : Text) :
    optionalKeywordAt? t i keyword =
      some ((optionalKeyword c keyword).1, (optionalKeyword c keyword).2.offset) := by
  simp only [optionalKeywordAt?, here.keywordAt?_eq, Option.bind_eq_bind, Option.bind_some,
    optionalKeyword]
  split
  · rename_i found
    rw [(here.advance (hasKeyword_leads found).length_le).skipSpace.offset_eq]
  · rw [here.offset_eq]

theorem markerAt?_eq (here : c.At t i) :
    markerAt? t i = some ((methodMarker c).1, (methodMarker c).2.offset) := by
  unfold markerAt? methodMarker
  split
  · rename_i front
    have opened : c.expect? colon = some (c.advance 1) := (here.expect?_eq colon).trans (if_pos front)
    have spaced := (here.advance_one front).skipSpace
    have parts : (utf8 "async").all isWordPart = true := by decide
    have marked := (optionalKeyword_walk parts _).place spaced
    simp only [opened, spaced.optionalKeywordAt?_eq, marked.optionalKeywordAt?_eq,
      Option.bind_eq_bind, Option.bind_some]
  · rename_i other
    have absent : c.expect? colon = none := (here.expect?_eq colon).trans (if_neg other)
    simp only [absent, here.offset_eq]

/-- Where a group closes, what is in it and the place behind it are offsets of the text. -/
theorem group_closes (here : c.At t i) {n : Nat} (closed : c.closeOf? .paren = some n) :
    slice? t (i + 1) n = some (c.after.slice 1 (n - i)) ∧
      (c.advance (n + 1 - i)).At t (n + 1) := by
  obtain ⟨e, closes, rfl, later, past, goes⟩ := closeOf?_walk (by decide) (by decide) closed
  have text_eq : e.text = t := by rw [closes.walk.text_eq, text_advance, here.text_eq]
  have behind : (e.advance 1).At t (e.offset + 1) :=
    ⟨by rw [text_advance, text_eq], offset_advance_one closes.front.2⟩
  rw [here.offset_eq] at goes later
  refine ⟨?_, goes ▸ behind⟩
  rw [slice?_eq later (Nat.le_of_succ_le behind.le_length), here.after_eq]
  simp only [Text.slice, List.drop_drop, Nat.sub_sub]

/-- **The header is read by offsets as it is read along the walk**, and no access on the way is
outside the text. -/
theorem headerAt?_eq (here : c.At t i) :
    headerAt? t i = some ((methodHeader? c).map fun read => (read.1, read.2.offset)) := by
  have named := here.nameAt?_eq
  have spaced := ((methodName_walk c).place here).skipSpace
  have marker := spaced.markerAt?_eq
  have group := (methodMarker_walk _).place spaced
  unfold headerAt? methodHeader?
  -- what the lead comes to only matters by its place from here on
  generalize methodName c = lead at *
  obtain ⟨name, marked, d⟩ := lead
  simp only [named, marker, Option.bind_eq_bind, Option.bind_some]
  generalize methodMarker d.skipSpace = tail at *
  obtain ⟨markedAgain, g⟩ := tail
  dsimp only at group ⊢
  split
  · rfl
  · by_cases front : t[g.offset]? = some openParen
    · rw [if_pos front, groupEnd?, ← group.eq_ofOffset]
      cases closed : g.closeOf? .paren with
      | none => rfl
      | some close =>
          obtain ⟨params, behind⟩ := group.group_closes closed
          simp only [params, Option.bind_some, behind.skipSpace.peek?_eq]
          split
          · simp [behind.skipSpace.offset_eq]
          · rfl
    · have absent : g.closeOf? .paren = none := by
        have other : g.expect? openParen = none := (group.expect?_eq openParen).trans (if_neg front)
        simp [closeOf?, Bracket.paren, other]
      rw [if_neg front, absent]
      rfl

end Cursor.At

/-! ## The scan for method entries -/

/-- What the scan for method entries makes of a byte, with the entries found so far. -/
def methodStep (t : Text) (found : List MethodMatch) (i : Nat) (b : UInt8) :
    Option (Round (List MethodMatch) (Except UnmatchedScope (List MethodMatch))) := do
  if b = openBrace then
    match scopeEnd t i with
    | .error e => some (.answer (.error e))
    | .ok stop => some (.next found (stop + 1))
  else if ← startsWordAt? t i b then
    match ← headerAt? t i with
    | none => do
      let word ← wordAt? t i
      some (.next found (i + word.length))
    | some (header, brace) =>
      match scopeEnd t brace with
      | .error e => some (.answer (.error e))
      | .ok stop =>
        some (.next (found ++ [⟨i, { header with body := ⟨brace, stop⟩ }⟩]) (stop + 1))
  else some (.next found (i + 1))

def methodRound (t : Text) :
    List MethodMatch → Nat →
      Option (Round (List MethodMatch) (Except UnmatchedScope (List MethodMatch))) :=
  outsideLiterals t Except.ok (methodStep t)

/-- **The scan for method entries ends**, with what the rules derive behind the entries found so
far. -/
theorem Lists.ends {c : Cursor} {r : Except UnmatchedScope (List MethodMatch)} (lists : Lists c r) :
    ∀ {t : Text} {i : Nat}, c.At t i → ∀ found,
      Ends t (methodRound t) found i (r.map (found ++ ·)) := by
  induction lists with
  | finish done =>
      intro t i here found
      have ends : Ends t (methodRound t) found i (.ok found) := .finish here done
      simpa [Except.map] using ends
  | literal starts _ ih =>
      intro t i here found
      exact .literal here starts (ih (here.advance (literalLength_le_length _ _)) found)
  | unmatched plain front failed =>
      intro t i here found
      rw [here.peek?_eq] at front
      refine .stop here plain front ?_
      simp [methodStep, here.scopeEnd_eq, failed, Except.map]
  | @nested c span r plain front closed _ ih =>
      intro t i here found
      obtain ⟨-, later, -, -⟩ := scope_walk closed
      have behind := here.pastScope closed
      rw [here.peek?_eq] at front
      refine .step here plain front ?_ ?_ behind.le_length (ih behind found)
      · simp [methodStep, here.scopeEnd_eq, closed, Except.map]
      · rw [here.offset_eq] at later
        omega
  | @word c r plain starts noHeader _ ih =>
      intro t i here found
      obtain ⟨b, front, noBrace⟩ := here.exists_front starts
      have pos := word_length_pos starts
      refine .step here plain front ?_ (by omega) here.pastWord.le_length (ih here.pastWord found)
      simp [methodStep, noBrace, here.startsWordAt?_eq front, starts, here.headerAt?_eq, noHeader,
        here.wordAt?_eq]
  | openBody plain starts read failed =>
      intro t i here found
      obtain ⟨b, front, noBrace⟩ := here.exists_front starts
      have body := (methodHeader?_walk read).1.place here
      refine .stop here plain front ?_
      simp [methodStep, noBrace, here.startsWordAt?_eq front, starts, here.headerAt?_eq, read,
        body.scopeEnd_eq, failed, Except.map]
  | @entry c brace header body r plain starts read closed _ ih =>
      intro t i here found
      obtain ⟨b, front, noBrace⟩ := here.exists_front starts
      obtain ⟨lead, later, -⟩ := methodHeader?_walk read
      obtain ⟨start_eq, further, -, onward⟩ := scope_walk closed
      have place := lead.place here
      have behind : (c.advance (body.stop + 1 - c.offset)).At t (body.stop + 1) := by
        have goes := (lead.trans onward).advance_sub
        rw [offset_behind_scope closed] at goes
        exact goes ▸ place.pastScope closed
      have ends := ih behind (found ++ [⟨c.offset, { header with body }⟩])
      have same : (r.map (⟨c.offset, { header with body }⟩ :: ·)).map (found ++ ·) =
          r.map ((found ++ [⟨c.offset, { header with body }⟩]) ++ ·) := by
        cases r <;> simp [Except.map]
      rw [same]
      have span_eq : body = ⟨brace.offset, body.stop⟩ := by rw [← start_eq]
      rw [here.offset_eq] at later
      refine .step here plain front ?_ (by omega) behind.le_length ends
      simp [methodStep, noBrace, here.startsWordAt?_eq front, starts, here.headerAt?_eq, read,
        place.scopeEnd_eq, closed, Except.map, here.offset_eq, ← span_eq]
  | @byte c r plain more noBrace noWord _ ih =>
      intro t i here found
      obtain ⟨b, front⟩ := here.exists_byte more
      have other : b ≠ openBrace := by
        rintro rfl
        exact noBrace (here.peek?_eq.trans front)
      have behind := here.advance_one front
      refine .step here plain front ?_ (by omega) behind.le_length (ih behind found)
      simp [methodStep, other, here.startsWordAt?_eq front, noWord]

/-- The scan from the front of a text. -/
theorem methodMatches_ends (t : Text) : Ends t (methodRound t) [] 0 (methodMatches t) := by
  have ends := (lists_methodMatches t).ends ⟨text_start t, offset_start t⟩ []
  have same : (methodMatches t).map (([] : List MethodMatch) ++ ·) = methodMatches t := by
    cases methodMatches t <;> rfl
  rwa [same] at ends

end ClassUpgrade.Source
