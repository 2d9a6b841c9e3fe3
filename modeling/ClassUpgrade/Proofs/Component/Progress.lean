/-
# Proofs.Component.Progress — the loops over a document go forward and stay inside

A document is gone through by a loop inside a loop: the inner one looks for the
next registration from an offset on, the outer one takes a registration and goes
on at its end. Both are written here by offsets, with every access checked, as
`Proofs.Source.Progress` does it for the loops beneath them: the head of a
registration (`headAt?`), the search for the next one (`registrationRound`), the
list of definitions (`definitionRound`) and the upgrade (`upgradeRound`).

The inner loop ends by the rules of the survey (`Surveys.ends`). What the outer
loops rest on is said once (`Surveys.uncons`): the registration that is found
starts no earlier than the search and ends strictly behind its start and inside
the document, its scopes lie inside it, and the survey behind it is what is left
of the survey. All of it together is `every_loop_ends`.
-/
import ClassUpgrade.Component.Class
import ClassUpgrade.Proofs.Component.Survey
import ClassUpgrade.Proofs.Source.Progress

namespace ClassUpgrade.Component

set_option autoImplicit false

open Byte Source Source.Cursor

/-! ## The head of a registration, by offsets -/

/-- The quoted type name at an offset, if there is one, and the offset behind its closing quote. -/
def quotedNameAt? (t : Text) (i : Nat) : Option (Option (Text × Nat)) :=
  match t[i]? with
  | none => some none
  | some quote =>
    if isQuote quote then do
      let opened ← slice? t (i + 1) t.length
      let close := i + 1 + (opened.takeWhile (· != quote)).length
      if t[close]? = some quote then
        let name ← slice? t (i + 1) close
        if name.isEmpty || name.contains lineFeed || name.contains backslash then some none
        else some (some (name, close + 1))
      else some none
    else some none

/-- The registration head at an offset, if there is one: the type name and the offset of the
brace. -/
def headAt? (t : Text) (i : Nat) : Option (Option (Text × Nat)) := do
  let object ← wordAt? t i
  let dotAt := spaceEnd t (i + registrationObject.length)
  if object = registrationObject ∧ t[dotAt]? = some dot then
    let function ← wordAt? t (spaceEnd t (dotAt + 1))
    let parenAt := spaceEnd t (spaceEnd t (dotAt + 1) + registrationFunction.length)
    if function = registrationFunction ∧ t[parenAt]? = some openParen then
      match ← quotedNameAt? t (spaceEnd t (parenAt + 1)) with
      | none => some none
      | some (name, behind) =>
        let commaAt := spaceEnd t behind
        let braceAt := spaceEnd t (commaAt + 1)
        if t[commaAt]? = some comma ∧ t[braceAt]? = some openBrace then some (some (name, braceAt))
        else some none
    else some none
  else some none

section Head

variable {c : Cursor} {t : Text} {i : Nat}

theorem quotedNameAt?_eq (here : c.At t i) :
    quotedNameAt? t i = some ((quotedName? c).map fun read => (read.1, read.2.offset)) := by
  unfold quotedNameAt? quotedName?
  rw [← here.peek?_eq]
  cases front : c.peek? with
  | none => rfl
  | some quote =>
      dsimp only
      by_cases isQuote : isQuote quote = true
      · have opened := here.advance_one (here.peek?_eq ▸ front)
        have inside := (List.takeWhile_prefix (l := (c.advance 1).after) (· != quote)).length_le
        have past := opened.advance inside
        have name_eq :
            slice? t (i + 1) (i + 1 + ((c.advance 1).after.takeWhile (· != quote)).length) =
              some ((c.advance 1).after.takeWhile (· != quote)) := by
          rw [slice?_eq (by omega) past.le_length, Text.slice, ← opened.after_eq,
            Nat.add_sub_cancel_left]
          exact congrArg some (List.prefix_iff_eq_take.mp (List.takeWhile_prefix _)).symm
        rw [if_pos isQuote, opened.slice?_rest]
        simp only [Option.bind_eq_bind, Option.bind_some, isQuote, guard, if_true, Option.pure_def,
          name_eq, past.expect?_eq]
        generalize (c.advance 1).after.takeWhile (· != quote) = name at *
        split
        · rename_i closes
          have behind := (past.advance_one closes).offset_eq
          cases name.isEmpty <;> cases name.contains lineFeed <;> cases name.contains backslash <;>
            simp [behind, failure]
        · rfl
      · rw [if_neg isQuote]
        simp only [Option.bind_eq_bind, Option.bind_some, isQuote, guard, Bool.false_eq_true, if_false]
        rfl

/-- The head read by offsets is the head read along the walk, and no access on the way is outside
the text. -/
theorem headAt?_eq (here : c.At t i) :
    headAt? t i = some ((registrationHead? c).map fun read => (read.1, read.2.offset)) := by
  unfold headAt? registrationHead?
  simp only [here.wordAt?_eq, Option.bind_eq_bind, Option.bind_some, guard]
  by_cases object : c.word = registrationObject
  · have spaced := (object ▸ here.pastWord : (c.advance registrationObject.length).At t _).skipSpace
    simp only [object, beq_self_eq_true, if_true, true_and, Option.pure_def, Option.bind_some,
      spaced.expect?_eq]
    split
    · rename_i dotted
      have called := (spaced.advance_one dotted).skipSpace
      simp only [Option.bind_some]
      -- only the place behind the dot matters from here on
      generalize ((c.advance registrationObject.length).skipSpace.advance 1).skipSpace = d at called ⊢
      generalize spaceEnd t (spaceEnd t (i + registrationObject.length) + 1) = j at called ⊢
      simp only [called.wordAt?_eq, Option.bind_some]
      by_cases function : d.word = registrationFunction
      · have spaced := (function ▸ called.pastWord :
          (d.advance registrationFunction.length).At t _).skipSpace
        simp only [function, beq_self_eq_true, if_true, true_and, Option.bind_some,
          spaced.expect?_eq]
        split
        · rename_i opened
          have quoted := (spaced.advance_one opened).skipSpace
          simp only [quotedNameAt?_eq quoted, Option.bind_some]
          cases read : quotedName? _ with
          | none => rfl
          | some named =>
              obtain ⟨name, e⟩ := named
              have behind := ((quotedName?_walk read).place quoted).skipSpace
              simp only [Option.map_some, Option.bind_some, behind.expect?_eq]
              by_cases further : t[spaceEnd t e.offset]? = some comma
              · have brace := (behind.advance_one further).skipSpace
                simp only [further, true_and, if_true, Option.bind_some, brace.peek?_eq, beq_iff_eq]
                split
                · simp [brace.offset_eq]
                · rfl
              · simp [further]
        · rfl
      · simp [function, failure]
    · rfl
  · simp [object, failure]

end Head

/-! ## The survey follows one set of rules -/

def surveyAt (c : Cursor) : Survey := surveyFrom c.before 0 c.after

theorem surveys_surveyAt (c : Cursor) : Surveys c (surveyAt c) :=
  surveys_surveyFrom c.after c.before 0

/-- Bytes to pass over are passed over before anything is read. -/
theorem surveyFrom_eq_surveyAt : ∀ (t before : Text) (skip : Nat),
    surveyFrom before skip t = surveyAt ((⟨before, t⟩ : Cursor).advance skip)
  | t, before, 0 => rfl
  | [], before, skip + 1 => by rw [advance_of_nil rfl]; rfl
  | b :: rest, before, skip + 1 => by
      rw [advance_cons, ← surveyFrom_eq_surveyAt rest (b :: before) skip, surveyFrom]

/-- One step of the survey, outside literals. -/
theorem surveyAt_of_plain {c : Cursor} (more : c.after ≠ []) (plain : c.literalLength = 0) :
    surveyAt c =
      if c.startsWord then
        match registrationHead? c with
        | none => surveyAt (c.advance (c.word.length - 1 + 1))
        | some (typeName, brace) =>
          match complete c.offset typeName brace with
          | .error e => ⟨[], some e⟩
          | .ok r =>
            let behind := surveyAt (c.advance (r.stop - r.start - 1 + 1))
            { behind with found := r :: behind.found }
      else surveyAt (c.advance 1) := by
  obtain ⟨before, after⟩ := c
  cases after with
  | nil => exact absurd rfl more
  | cons b rest =>
      have plain' : literalLength before (b :: rest) = 0 := plain
      have onward : ∀ k, surveyFrom (b :: before) k rest =
          surveyAt ((⟨before, b :: rest⟩ : Cursor).advance (k + 1)) := by
        intro k
        rw [advance_cons]
        exact surveyFrom_eq_surveyAt rest (b :: before) k
      rw [surveyAt, surveyFrom]
      dsimp only
      rw [plain']
      dsimp only
      cases Cursor.startsWord ⟨before, b :: rest⟩ with
      | false => exact onward 0
      | true =>
          rw [if_pos rfl, if_pos rfl]
          cases registrationHead? ⟨before, b :: rest⟩ with
          | none => exact onward _
          | some head =>
              obtain ⟨name, brace⟩ := head
              dsimp only
              cases complete _ name brace with
              | error e => rfl
              | ok r =>
                  dsimp only
                  rw [onward]

/-- The rules derive only what the survey answers. -/
theorem surveyAt_of_surveys {c : Cursor} {s : Survey} (surveyed : Surveys c s) : surveyAt c = s := by
  induction surveyed with
  | finish done =>
      rw [surveyAt, done]
      rfl
  | @literal c s starts _ ih =>
      obtain ⟨before, after⟩ := c
      cases after with
      | nil => exact absurd rfl starts
      | cons b rest =>
          obtain ⟨k, length_eq⟩ := Nat.exists_eq_succ_of_ne_zero starts
          have literal : literalLength before (b :: rest) = k + 1 := length_eq
          rw [length_eq, advance_cons, ← surveyFrom_eq_surveyAt] at ih
          simp [surveyAt, surveyFrom, literal, ih]
  | byte plain more noWord _ ih =>
      rw [surveyAt_of_plain more plain, if_neg (by simp [noWord]), ih]
  | word plain starts noHead _ ih =>
      have pos := word_length_pos starts
      rw [surveyAt_of_plain (ne_nil_of_startsWord starts) plain, if_pos starts, noHead]
      dsimp only
      rw [Nat.sub_add_cancel pos, ih]
  | unmatched plain starts head failed =>
      rw [surveyAt_of_plain (ne_nil_of_startsWord starts) plain, if_pos starts, head]
      dsimp only
      rw [failed]
  | registration plain starts head completed _ ih =>
      have nonempty := (registration_walk head completed).2.1
      rw [surveyAt_of_plain (ne_nil_of_startsWord starts) plain, if_pos starts, head]
      dsimp only
      rw [completed]
      dsimp only
      rw [Nat.sub_add_cancel (by omega), ih]

/-! ## The search for the next registration -/

/-- The first registration of a survey, or what it failed for. -/
def Survey.first (s : Survey) : Except UnmatchedScope (Option Registration) :=
  match s.found, s.failure with
  | r :: _, _ => .ok (some r)
  | [], some e => .error e
  | [], none => .ok none

def registrationFrom (doc : Text) (i : Nat) : Except UnmatchedScope (Option Registration) :=
  (surveyAt (ofOffset doc i)).first

/-- What the search for the next registration makes of a byte. Completing a registration asks for a
byte only behind a comparison with the length, and for no part of the document. -/
def registrationStep (doc : Text) (_ : Unit) (i : Nat) (b : UInt8) :
    Option (Round Unit (Except UnmatchedScope (Option Registration))) := do
  if ← startsWordAt? doc i b then
    match ← headAt? doc i with
    | none => do
      let word ← wordAt? doc i
      some (.next () (i + word.length))
    | some (name, brace) =>
      some (.answer ((complete i name (ofOffset doc brace)).map some))
  else some (.next () (i + 1))

def registrationRound (doc : Text) :
    Unit → Nat → Option (Round Unit (Except UnmatchedScope (Option Registration))) :=
  outsideLiterals doc (fun _ => .ok none) (registrationStep doc)

/-- **The search for the next registration ends**, with the first one of the survey. -/
theorem Surveys.ends {c : Cursor} {s : Survey} (surveyed : Surveys c s) :
    ∀ {doc : Text} {i : Nat}, c.At doc i → Ends doc (registrationRound doc) () i s.first := by
  induction surveyed with
  | finish done => exact fun here => .finish here done
  | literal starts _ ih =>
      exact fun here => .literal here starts (ih (here.advance (literalLength_le_length _ _)))
  | byte plain more noWord _ ih =>
      intro doc i here
      obtain ⟨b, front⟩ := here.exists_byte more
      have behind := here.advance_one front
      refine .step here plain front ?_ (Nat.lt_succ_self i) behind.le_length (ih behind)
      simp [registrationStep, here.startsWordAt?_eq front, noWord]
  | word plain starts noHead _ ih =>
      intro doc i here
      obtain ⟨b, front, -⟩ := here.exists_front starts
      have pos := word_length_pos starts
      refine .step here plain front ?_ (by omega) here.pastWord.le_length (ih here.pastWord)
      simp [registrationStep, here.startsWordAt?_eq front, starts, headAt?_eq here, noHead,
        here.wordAt?_eq]
  | @unmatched c brace name e plain starts head failed =>
      intro doc i here
      obtain ⟨b, front, -⟩ := here.exists_front starts
      have place := (registrationHead?_walk head).1.place here
      refine .stop here plain front ?_
      rw [here.offset_eq] at failed
      simp [registrationStep, here.startsWordAt?_eq front, starts, headAt?_eq here, head,
        ← place.eq_ofOffset, failed, Except.map, Survey.first]
  | @registration c brace name r s plain starts head completed _ _ =>
      intro doc i here
      obtain ⟨b, front, -⟩ := here.exists_front starts
      have place := (registrationHead?_walk head).1.place here
      refine .stop here plain front ?_
      rw [here.offset_eq] at completed
      simp [registrationStep, here.startsWordAt?_eq front, starts, headAt?_eq here, head,
        ← place.eq_ofOffset, completed, Except.map, Survey.first]

theorem registrationFrom_ends {doc : Text} {i : Nat} (inside : i ≤ doc.length) :
    Ends doc (registrationRound doc) () i (registrationFrom doc i) :=
  (surveys_surveyAt _).ends (at_ofOffset inside)

/-! ## Registrations one behind the other -/

/-- A registration that is found from an offset on lies behind it in the document, is not empty, and
has its scopes inside it. -/
structure Registration.Inside (doc : Text) (position : Nat) (r : Registration) : Prop where
  behind : position ≤ r.start
  nonempty : r.start < r.stop
  inside : r.stop ≤ doc.length
  properties : r.properties.start < r.properties.stop ∧ r.properties.stop < r.stop
  methods : ∀ span, r.methods = some span → span.start < span.stop ∧ span.stop < r.stop

theorem Registration.Inside.mono {doc : Text} {position position' : Nat} {r : Registration}
    (inside : r.Inside doc position') (le : position ≤ position') : r.Inside doc position :=
  { inside with behind := Nat.le_trans le inside.behind }

/-- A registration that is read at a place lies behind it. -/
theorem inside_of_read {c brace : Cursor} {doc name : Text} {i : Nat} {r : Registration}
    (here : c.At doc i) (head : registrationHead? c = some (name, brace))
    (completed : complete c.offset name brace = .ok r) : r.Inside doc i := by
  obtain ⟨start_eq, nonempty, inside, -, -⟩ := registration_walk head completed
  obtain ⟨properties, before, further⟩ := complete_scopes completed
  rw [here.text_eq] at inside
  refine ⟨by rw [start_eq, here.offset_eq], nonempty, inside, ?_, fun methods same => ?_⟩
  · obtain ⟨properties_start, later, -⟩ := scope_walk properties
    exact ⟨properties_start ▸ later, before⟩
  · obtain ⟨within, d, -, scope⟩ := further methods same
    obtain ⟨methods_start, later, -⟩ := scope_walk scope
    exact ⟨methods_start ▸ later, within⟩

/-- **What a survey finds first lies behind its place, and the survey goes on at its end.** -/
theorem Surveys.uncons {c : Cursor} {s : Survey} (surveyed : Surveys c s) :
    ∀ {doc : Text} {i : Nat}, c.At doc i → ∀ r rest, s.found = r :: rest →
      r.Inside doc i ∧ surveyAt (ofOffset doc r.stop) = ⟨rest, s.failure⟩ := by
  induction surveyed with
  | finish | unmatched => exact fun _ r rest none => nomatch none
  | literal _ _ ih =>
      intro doc i here r rest found
      obtain ⟨inside, behind⟩ := ih (here.advance (literalLength_le_length _ _)) r rest found
      exact ⟨inside.mono (Nat.le_add_right _ _), behind⟩
  | byte _ more _ _ ih =>
      intro doc i here r rest found
      obtain ⟨inside, behind⟩ := ih (here.advance (List.length_pos_iff.mpr more)) r rest found
      exact ⟨inside.mono (Nat.le_add_right _ _), behind⟩
  | word _ _ _ _ ih =>
      intro doc i here r rest found
      obtain ⟨inside, behind⟩ := ih here.pastWord r rest found
      exact ⟨inside.mono (Nat.le_add_right _ _), behind⟩
  | @registration c brace name r s _ _ head completed onward _ =>
      intro doc i here r' rest found
      obtain ⟨rfl, rfl⟩ := List.cons.inj found
      obtain ⟨-, -, -, -, offset_eq⟩ := registration_walk head completed
      have behind : (c.advance (r.stop - r.start)).At doc r.stop :=
        ⟨by rw [text_advance, here.text_eq], offset_eq⟩
      exact ⟨inside_of_read here head completed, behind.eq_ofOffset ▸ surveyAt_of_surveys onward⟩

/-- The next registration lies behind the offset that it is looked for from. -/
theorem registrationFrom_inside {doc : Text} {i : Nat} {r : Registration} (inside : i ≤ doc.length)
    (next : registrationFrom doc i = .ok (some r)) : r.Inside doc i := by
  have surveyed := surveys_surveyAt (ofOffset doc i)
  unfold registrationFrom at next
  generalize surveyAt (ofOffset doc i) = s at surveyed next
  obtain ⟨found, failure⟩ := s
  cases found with
  | nil => cases failure <;> cases next
  | cons r' rest =>
      obtain rfl := Option.some.inj (Except.ok.inj next)
      exact (surveyed.uncons (at_ofOffset inside) r' rest rfl).1

/-! ## The definitions of a document -/

/-- The text strictly between the ends of a span. -/
def inner? (doc : Text) (span : Span) : Option Text := slice? doc (span.start + 1) span.stop

def definition? (doc : Text) (r : Registration) : Option Definition := do
  let properties ← inner? doc r.properties
  let methods ←
    match r.methods with
    | none => some []
    | some span => inner? doc span
  some ⟨r.typeName, properties, methods⟩

theorem Registration.Inside.definition?_eq {doc : Text} {position : Nat} {r : Registration}
    (inside : r.Inside doc position) : definition? doc r = some (r.definition doc) := by
  have whole := inside.inside
  have within : ∀ span : Span, span.start < span.stop ∧ span.stop < r.stop →
      inner? doc span = some (span.inner doc) :=
    fun span bounds => slice?_eq bounds.1 (by omega)
  unfold definition? Registration.definition
  rw [within _ inside.properties]
  cases methods_eq : r.methods with
  | none => rfl
  | some span => simp [within span (inside.methods span methods_eq)]

/-- A round of the list of definitions: the next registration, from the end of the last one on. -/
def definitionRound (doc : Text) (found : List Definition) (i : Nat) :
    Option (Round (List Definition) (Except UnmatchedScope (List Definition))) :=
  match registrationFrom doc i with
  | .error e => some (.answer (.error e))
  | .ok none => some (.answer (.ok found))
  | .ok (some r) => do
    let d ← definition? doc r
    some (.next (found ++ [d]) r.stop)

/-- **The list of definitions ends**: each registration of the survey is found from the end of the
one before. -/
theorem definitionRound_ends (doc : Text) (failure : Option UnmatchedScope) :
    ∀ (rest : List Registration) (i : Nat) (found : List Definition), i ≤ doc.length →
      surveyAt (ofOffset doc i) = ⟨rest, failure⟩ →
        Ends doc (definitionRound doc) found i
          (match failure with
          | none => .ok (found ++ rest.map (·.definition doc))
          | some e => .error e)
  | [], i, found, inside, surveyed => by
      refine .answer inside ?_
      unfold definitionRound registrationFrom
      rw [surveyed]
      cases failure <;> simp [Survey.first]
  | r :: rest, i, found, inside, surveyed => by
      have rules := surveys_surveyAt (ofOffset doc i)
      rw [surveyed] at rules
      obtain ⟨here, behind⟩ := rules.uncons (at_ofOffset inside) r rest rfl
      have ih := definitionRound_ends doc failure rest r.stop (found ++ [r.definition doc])
        here.inside behind
      have further := Nat.lt_of_le_of_lt here.behind here.nonempty
      refine .next ?_ further here.inside (by simpa using ih)
      simp [definitionRound, registrationFrom, surveyed, Survey.first, here.definition?_eq]

/-! ## The upgrade of a document -/

/-- What the upgrade of a document carries from one registration to the next. -/
structure Upgrading where
  output : Text
  findings : Findings
  log : List Log.Record

/-- The class of a registration behind the text that is kept in front of it. -/
def Upgrading.push (s : Upgrading) (kept text typeName : Text) (imports : List Import) :
    Upgrading where
  output := s.output ++ kept ++ text
  findings := (s.findings.recordAll imports).addComponent typeName
  log := s.log ++ [foundRecord typeName]

/-- A round of the upgrade: the text up to the next registration is kept, and the class of the
registration follows. -/
def upgradeRound (doc : Text) (s : Upgrading) (i : Nat) : Option (Round Upgrading Upgrade) :=
  match registrationFrom doc i with
  | .error e => some (.answer ⟨.error (.unmatchedScope e), s.findings, s.log⟩)
  | .ok none => do
    let kept ← slice? doc i doc.length
    some (.answer ⟨.ok (s.output ++ kept), s.findings, s.log⟩)
  | .ok (some r) => do
    let d ← definition? doc r
    match upgradeDefinition d with
    | (.error e, imports) => some (.answer ⟨.error e, s.findings.recordAll imports, s.log⟩)
    | (.ok text, imports) => do
      let kept ← slice? doc i r.start
      some (.next (s.push kept text r.typeName imports) r.stop)

/-- What an upgrade comes to behind what is done already. -/
def Upgrade.behind (u : Upgrade) (output : Text) (log : List Log.Record) : Upgrade where
  outcome := u.outcome.map (output ++ ·)
  findings := u.findings
  log := log ++ u.log

theorem Upgrade.behind_nil (u : Upgrade) : u.behind [] [] = u := by
  obtain ⟨outcome, findings, log⟩ := u
  cases outcome <;> rfl

/-- **The upgrade of a document ends**, with what the upgrade of the registrations surveyed comes
to. -/
theorem upgradeRound_ends (doc : Text) (failure : Option UnmatchedScope) :
    ∀ (rest : List Registration) (i : Nat) (s : Upgrading), i ≤ doc.length →
      surveyAt (ofOffset doc i) = ⟨rest, failure⟩ →
        Ends doc (upgradeRound doc) s i
          ((upgradeFrom doc failure i s.findings rest).behind s.output s.log)
  | [], i, s, inside, surveyed => by
      refine .answer inside ?_
      unfold upgradeRound registrationFrom
      rw [surveyed]
      cases failure with
      | none =>
          simp [Survey.first, (at_ofOffset inside).slice?_rest, upgradeFrom, Upgrade.behind,
            Except.map, ofOffset]
      | some e => simp [Survey.first, upgradeFrom, Upgrade.behind, Except.map]
  | r :: rest, i, s, inside, surveyed => by
      have rules := surveys_surveyAt (ofOffset doc i)
      rw [surveyed] at rules
      obtain ⟨here, behind⟩ := rules.uncons (at_ofOffset inside) r rest rfl
      have kept : slice? doc i r.start = some (doc.slice i r.start) :=
        slice?_eq here.behind (Nat.le_trans (Nat.le_of_lt here.nonempty) here.inside)
      have further := Nat.lt_of_le_of_lt here.behind here.nonempty
      rcases class_eq : upgradeDefinition (r.definition doc) with ⟨e | text, imports⟩
      · refine .answer inside ?_
        simp [upgradeRound, registrationFrom, surveyed, Survey.first, here.definition?_eq,
          class_eq, upgradeFrom, Upgrade.behind, Except.map]
      · let s' := s.push (doc.slice i r.start) text r.typeName imports
        have ih := upgradeRound_ends doc failure rest r.stop s' here.inside behind
        have same : (upgradeFrom doc failure i s.findings (r :: rest)).behind s.output s.log =
            (upgradeFrom doc failure r.stop s'.findings rest).behind s'.output s'.log := by
          simp only [upgradeFrom, class_eq, Upgrade.behind, s', Upgrading.push]
          cases (upgradeFrom doc failure r.stop _ rest).outcome <;> simp [Except.map]
        rw [same]
        refine .next ?_ further here.inside ih
        simp [upgradeRound, registrationFrom, surveyed, Survey.first, here.definition?_eq, class_eq,
          kept, s']

/-! ## A whole document -/

theorem definitions_ends (doc : Text) : Ends doc (definitionRound doc) [] 0
    ((registrations doc).map (·.map (·.definition doc))) := by
  obtain ⟨found, failure, survey_eq⟩ : ∃ found failure, survey doc = ⟨found, failure⟩ :=
    ⟨_, _, rfl⟩
  have ends := definitionRound_ends doc failure found 0 [] (Nat.zero_le _) survey_eq
  rw [registrations, survey_eq]
  cases failure <;> exact ends

theorem upgrade_ends (doc : Text) (findings : Findings) :
    Ends doc (upgradeRound doc) ⟨[], findings, []⟩ 0 (upgrade doc findings) := by
  have ends := upgradeRound_ends doc (survey doc).failure (survey doc).found 0 ⟨[], findings, []⟩
    (Nat.zero_le _) rfl
  rwa [Upgrade.behind_nil] at ends

/-- Every scanner ends inside a text, and every loop over the text comes to its answer: each round
reads inside the text only, and the next one starts strictly further on. -/
structure StaysInside (t : Text) : Prop where
  literal : ∀ i ≤ t.length, i ≤ literalEnd t i ∧ literalEnd t i ≤ t.length
  comment : ∀ i ≤ t.length, i ≤ commentEnd t i ∧ commentEnd t i ≤ t.length
  /-- A string or template, taken to open at the offset, with any byte for its quote. -/
  quoted : ∀ quote, ∀ i < t.length, i ≤ quotedEnd quote t i ∧ quotedEnd quote t i ≤ t.length
  regex : ∀ i ≤ t.length, i ≤ regexEnd t i ∧ regexEnd t i ≤ t.length
  trivia : ∀ i ≤ t.length, i ≤ triviaEnd t i ∧ triviaEnd t i ≤ t.length
  space : ∀ i ≤ t.length, i ≤ spaceEnd t i ∧ spaceEnd t i ≤ t.length
  /-- The search for a closing bracket, wherever it starts and whatever is open there. -/
  bracket : ∀ kind (depth : Int), ∀ i ≤ t.length, ∃ a, Ends t (closeRound kind t) depth i a
  /-- The end of a scope is looked for behind its brace. -/
  scope : ∀ i, t[i]? = some openBrace →
    Ends t (closeRound .brace t) 1 (i + 1) (scopeEnd t i).toOption
  group : ∀ i, t[i]? = some openParen → Ends t (closeRound .paren t) 0 i (groupEnd? t i)
  methods : Ends t (methodRound t) [] 0 (methodMatches t)
  registration : ∀ i ≤ t.length, Ends t (registrationRound t) () i (registrationFrom t i)
  /-- What is found from the end of one registration on starts there or further on, and ends
  strictly behind its start. -/
  found : ∀ i ≤ t.length, ∀ r, registrationFrom t i = .ok (some r) → r.Inside t i
  definitions : Ends t (definitionRound t) [] 0 ((registrations t).map (·.map (·.definition t)))
  upgrade : ∀ findings, Ends t (upgradeRound t) ⟨[], findings, []⟩ 0 (upgrade t findings)

/-- **Every loop over a text goes forward, ends, and stays inside the text**, whatever the text
is. -/
theorem every_loop_ends (t : Text) : StaysInside t where
  literal _ inside := endOf_bounds (literalLength_le_length _) inside
  comment _ inside := endOf_bounds commentLength_le_length inside
  quoted quote _ inside := quotedEnd_bounds quote inside
  regex _ inside := endOf_bounds regexLength_le_length inside
  trivia _ inside := endOf_bounds triviaLength_le_length inside
  space _ inside := endOf_bounds spaceLength_le_length inside
  bracket kind depth _ inside := exists_closeRound_ends kind inside depth
  scope _ front := scopeEnd_ends front
  group _ front := groupEnd?_ends front
  methods := methodMatches_ends t
  registration _ inside := registrationFrom_ends inside
  found _ inside _ next := registrationFrom_inside inside next
  definitions := definitions_ends t
  upgrade := upgrade_ends t

end ClassUpgrade.Component
