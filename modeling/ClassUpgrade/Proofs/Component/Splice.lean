/-
# Proofs.Component.Splice — an upgrade replaces registrations and nothing else

The upgrade of a document walks along the registrations that the survey found,
copying the text before each and putting a class in its place. Here the result
is said without a position: the parts of the document outside the spans of its
registrations (`gaps`) are taken in turn with the classes (`interleave`). The
same gaps taken in turn with the registrations themselves are the document
(`interleave_gaps_cover`), so no byte outside the spans is lost, repeated or
moved.

* `upgradeFrom_cons_ok`: one step of a run over the registrations of a survey;
* `upgradeFrom_ok`: what such a run comes to, by induction on the registrations;
* `upgrade_interleaves`: the statement for a whole document.
-/
import ClassUpgrade.Component.Class
import ClassUpgrade.Proofs.Component.Survey
import ClassUpgrade.Proofs.Text.Part

namespace ClassUpgrade

set_option autoImplicit false

/-! ## Gaps between spans -/

namespace Source

/-- The bytes that a span covers, both ends included. -/
def Span.cover (s : Span) (t : Text) : Text := t.slice s.start (s.stop + 1)

/-- The parts of a text outside spans that follow each other, from an offset on. -/
def gapsFrom (t : Text) : (position : Nat) → List Span → List Text
  | position, [] => [t.drop position]
  | position, s :: rest => t.slice position s.start :: gapsFrom t (s.stop + 1) rest

/-- The parts of a text outside spans that follow each other: one more than there are spans. -/
def gaps (t : Text) (spans : List Span) : List Text := gapsFrom t 0 spans

theorem length_gapsFrom (t : Text) : ∀ (spans : List Span) (position : Nat),
    (gapsFrom t position spans).length = spans.length + 1
  | [], _ => rfl
  | s :: rest, _ => by rw [gapsFrom, List.length_cons, length_gapsFrom t rest, List.length_cons]

/-- Gaps and pieces taken in turn, a gap first. -/
def interleave : (gaps pieces : List Text) → Text
  | gap :: gaps, piece :: pieces => gap ++ piece ++ interleave gaps pieces
  | gaps, [] => gaps.flatten
  | [], pieces => pieces.flatten

/-- Spans that follow each other: none is empty, and each ends before the next one starts. -/
def Consecutive : (position : Nat) → List Span → Prop
  | _, [] => True
  | position, s :: rest => position ≤ s.start ∧ s.start ≤ s.stop ∧ Consecutive (s.stop + 1) rest

theorem interleave_gapsFrom_cover (t : Text) : ∀ (spans : List Span) (position : Nat),
    Consecutive position spans →
      interleave (gapsFrom t position spans) (spans.map (·.cover t)) = t.drop position
  | [], position, _ => by simp [gapsFrom, interleave]
  | s :: rest, position, ⟨after, nonempty, more⟩ => by
      rw [gapsFrom, List.map_cons, interleave, interleave_gapsFrom_cover t rest _ more,
        List.append_assoc, Span.cover, Text.slice_append_drop t (by omega),
        Text.slice_append_drop t after]

end Source

namespace Component

open Source

theorem consecutive_of_pairwise : ∀ (found : List Registration) (position : Nat),
    (∀ r ∈ found, position ≤ r.start ∧ r.start < r.stop) →
    (found.Pairwise fun r r' => r.stop ≤ r'.start) →
      Consecutive position (found.map Registration.span)
  | [], _, _, _ => trivial
  | r :: rest, position, bounds, ordered => by
      obtain ⟨first, ordered'⟩ := List.pairwise_cons.mp ordered
      obtain ⟨after, nonempty⟩ := bounds r List.mem_cons_self
      have stop_eq : r.span.stop + 1 = r.stop := by simp only [Registration.span]; omega
      refine ⟨after, by simp only [Registration.span]; omega, ?_⟩
      rw [stop_eq]
      exact consecutive_of_pairwise rest r.stop
        (fun r' mem => ⟨first r' mem, (bounds r' (List.mem_cons_of_mem _ mem)).2⟩) ordered'

/-- The registrations of a document cut it into gaps that, with the registrations themselves put
back, are the document. -/
theorem interleave_gaps_cover {doc : Text} {found : List Registration}
    (surveyed : registrations doc = .ok found) :
    interleave (gaps doc (found.map Registration.span))
      (found.map fun r => r.span.cover doc) = doc := by
  have spans : Consecutive 0 (found.map Registration.span) :=
    consecutive_of_pairwise found 0
      (fun r mem => ⟨Nat.zero_le _, (registration_bounds surveyed r mem).1⟩)
      (registrations_pairwise surveyed)
  have restored := interleave_gapsFrom_cover doc _ 0 spans
  rw [List.map_map] at restored
  exact restored

/-! ## The upgrade -/

theorem components_record (f : Findings) (i : Import) :
    (f.record i).components = f.components := by
  unfold Findings.record
  split <;> rfl

theorem components_recordAll (f : Findings) (is : List Import) :
    (f.recordAll is).components = f.components := by
  unfold Findings.recordAll
  induction is generalizing f with
  | nil => rfl
  | cons i rest ih => rw [List.foldl_cons, ih, components_record]

/-- What an upgraded definition comes to: a class with its properties and its methods upgraded, and
the imports of both with the base class behind them. -/
theorem upgradeDefinition_ok {d : Definition} {text : Text}
    (upgraded : (upgradeDefinition d).1 = .ok text) :
    ∃ methods, (upgradeMethods d.methods).1 = .ok methods ∧
      text = classText (className d.typeName) d.typeName (propertyTypeRule.apply d.properties).1
        methods ∧
      (upgradeDefinition d).2 = (propertyTypeRule.apply d.properties).2 ++
        (upgradeMethods d.methods).2 ++ [⟨.engine, baseClass⟩] := by
  unfold upgradeDefinition at upgraded ⊢
  dsimp only at upgraded ⊢
  by_cases unnamed : className d.typeName = []
  · rw [if_pos unnamed] at upgraded
    cases upgraded
  · rw [if_neg unnamed] at upgraded ⊢
    split at upgraded
    · cases upgraded
    · rename_i methods imports methods_eq
      rw [methods_eq]
      exact ⟨methods, rfl, (Except.ok.inj upgraded).symm, rfl⟩

/-- One step of a run that succeeds: the class of the first registration, and the run over the
others from behind it. -/
theorem upgradeFrom_cons_ok {doc out : Text} {failure : Option UnmatchedScope} {position : Nat}
    {findings : Findings} {r : Registration} {rest : List Registration}
    (upgraded : (upgradeFrom doc failure position findings (r :: rest)).outcome = .ok out) :
    ∃ text imports tail, upgradeDefinition (r.definition doc) = (.ok text, imports) ∧
      (upgradeFrom doc failure r.stop
        ((findings.recordAll imports).addComponent r.typeName) rest).outcome = .ok tail ∧
      out = doc.slice position r.start ++ text ++ tail ∧
      (upgradeFrom doc failure position findings (r :: rest)).findings =
        (upgradeFrom doc failure r.stop
          ((findings.recordAll imports).addComponent r.typeName) rest).findings := by
  unfold upgradeFrom at upgraded
  split at upgraded
  · cases upgraded
  · rename_i text imports class_eq
    dsimp only at upgraded
    cases more : (upgradeFrom doc failure r.stop
        ((findings.recordAll imports).addComponent r.typeName) rest).outcome with
    | error e =>
        rw [more] at upgraded
        cases upgraded
    | ok tail =>
        rw [more] at upgraded
        exact ⟨text, imports, tail, class_eq, more, (Except.ok.inj upgraded).symm,
          by simp only [upgradeFrom, class_eq]⟩

/-- A run over registrations that succeeds: the survey had not failed, each definition has a
class, the classes take the places of the registrations, and their type names are recorded. -/
theorem upgradeFrom_ok (doc : Text) (failure : Option UnmatchedScope) :
    ∀ (found : List Registration) (position : Nat) (findings : Findings) (out : Text),
      (∀ r ∈ found, r.start < r.stop) →
      (upgradeFrom doc failure position findings found).outcome = .ok out →
        failure = none ∧ (∃ classes,
          (found.map fun r => (upgradeDefinition (r.definition doc)).1) = classes.map .ok ∧
          out = interleave (gapsFrom doc position (found.map Registration.span)) classes) ∧
        (upgradeFrom doc failure position findings found).findings.components =
          findings.components ++ found.map Registration.typeName
  | [], position, findings, out, _, upgraded => by
      unfold upgradeFrom at upgraded ⊢
      cases failure with
      | some e => cases upgraded
      | none =>
          refine ⟨rfl, ⟨[], rfl, ?_⟩, by simp⟩
          rw [← Except.ok.inj upgraded]
          simp [gapsFrom, interleave]
  | r :: rest, position, findings, out, nonempty, upgraded => by
      obtain ⟨text, imports, tail, class_eq, more, out_eq, findings_eq⟩ :=
        upgradeFrom_cons_ok upgraded
      obtain ⟨whole, ⟨classes, classes_eq, tail_eq⟩, names_eq⟩ :=
        upgradeFrom_ok doc failure rest r.stop _ tail
          (fun r' mem => nonempty r' (List.mem_cons_of_mem _ mem)) more
      have stop_eq : r.span.stop + 1 = r.stop := by
        have := nonempty r List.mem_cons_self
        simp only [Registration.span]
        omega
      refine ⟨whole, ⟨text :: classes, by simp [class_eq, classes_eq], ?_⟩, ?_⟩
      · rw [out_eq, List.map_cons, gapsFrom, interleave, stop_eq, tail_eq]
        rfl
      · rw [findings_eq, names_eq]
        simp [Findings.addComponent, components_recordAll]

theorem registrations_of_failure_none {doc : Text} (whole : (survey doc).failure = none) :
    registrations doc = .ok (survey doc).found := by
  unfold registrations
  split
  · rename_i survey_eq
    rw [survey_eq]
  · rename_i survey_eq
    rw [survey_eq] at whole
    cases whole

/-- What an upgrade that succeeds has done, over the registrations of the survey. -/
theorem upgrade_ok {doc out : Text} {findings : Findings}
    (upgraded : (upgrade doc findings).outcome = .ok out) :
    ∃ found, registrations doc = .ok found ∧ (∃ classes,
        (found.map fun r => (upgradeDefinition (r.definition doc)).1) = classes.map .ok ∧
        out = interleave (gaps doc (found.map Registration.span)) classes) ∧
      (upgrade doc findings).findings.components =
        findings.components ++ found.map Registration.typeName := by
  have nonempty : ∀ r ∈ (survey doc).found, r.start < r.stop :=
    fun r mem => ((surveys_survey doc).bounds r mem).2.1
  obtain ⟨whole, facts⟩ := upgradeFrom_ok doc _ _ 0 findings out nonempty upgraded
  exact ⟨_, registrations_of_failure_none whole, facts⟩

/-- Each registration of an upgrade that succeeds has a class. -/
theorem class_of_mem {doc : Text} {found : List Registration} {classes : List Text}
    (classes_eq : (found.map fun r => (upgradeDefinition (r.definition doc)).1) = classes.map .ok)
    {r : Registration} (mem : r ∈ found) :
    ∃ text ∈ classes, (upgradeDefinition (r.definition doc)).1 = .ok text := by
  have listed : (upgradeDefinition (r.definition doc)).1 ∈ classes.map Except.ok := by
    rw [← classes_eq]
    exact List.mem_map_of_mem mem
  obtain ⟨text, text_mem, text_eq⟩ := List.mem_map.mp listed
  exact ⟨text, text_mem, text_eq.symm⟩

/-- **An upgrade puts classes in the places of the registrations and keeps every other byte.**
When it succeeds the survey has found registrations with spans inside the document, none empty,
each behind the one before. The result is the gaps between them with a class for each, made from
its definition alone, and their type names are added to the findings in order. A document whose
survey fails is not upgraded. -/
theorem upgrade_interleaves (doc : Text) (findings : Findings) :
    (∀ out, (upgrade doc findings).outcome = .ok out →
      ∃ found, registrations doc = .ok found ∧
        (∀ r ∈ found, r.span.start ≤ r.span.stop ∧ r.span.stop < doc.length) ∧
        (found.Pairwise fun r r' => r.span.stop < r'.span.start) ∧
        interleave (gaps doc (found.map Registration.span))
          (found.map fun r => r.span.cover doc) = doc ∧
        (∃ classes,
          (found.map fun r => (upgradeDefinition (r.definition doc)).1) = classes.map .ok ∧
          out = interleave (gaps doc (found.map Registration.span)) classes) ∧
        (upgrade doc findings).findings.components =
          findings.components ++ found.map Registration.typeName) ∧
    ∀ e, registrations doc = .error e → ∃ e', (upgrade doc findings).outcome = .error e' := by
  refine ⟨fun out upgraded => ?_, fun e failed => ?_⟩
  · obtain ⟨found, surveyed, classes, names⟩ := upgrade_ok upgraded
    refine ⟨found, surveyed, fun r mem => ?_, ?_, interleave_gaps_cover surveyed, classes, names⟩
    · have := registration_bounds surveyed r mem
      simp only [Registration.span]
      omega
    · refine (registrations_pairwise surveyed).imp_of_mem fun {r r'} mem _ le => ?_
      have := registration_bounds surveyed r mem
      simp only [Registration.span]
      omega
  · cases outcome : (upgrade doc findings).outcome with
    | error e' => exact ⟨e', rfl⟩
    | ok out =>
        obtain ⟨found, surveyed, -⟩ := upgrade_ok outcome
        rw [surveyed] at failed
        cases failed

/-- A document with two registrations, the second one with methods, and statements around them. -/
def twoRegistrations : Text :=
  utf8 "a; WL.registerComponent('b', \x7b\x7d); c; " ++
    utf8 "WL.registerComponent('d-e', \x7bf: WL.Type.Int\x7d, \x7bg: function() \x7b\x7d\x7d); h"

/-- The document with classes in the places of its registrations. -/
def twoRegistrationsUpgraded : Text :=
  utf8 "a; export class B extends Component \x7b\n    static TypeName = 'b';\n" ++
    utf8 "    static Properties = \x7b\x7d;\n\x7d c; " ++
    utf8 "export class DE extends Component \x7b\n    static TypeName = 'd-e';\n" ++
    utf8 "    static Properties = \x7bf: Type.Int\x7d;\ng() \x7b\x7d\x7d h"

set_option maxRecDepth 10000 in
theorem upgrade_twoRegistrations :
    let found : List Registration :=
      [⟨3, 33, utf8 "b", ⟨29, 30⟩, none⟩, ⟨37, 103, utf8 "d-e", ⟨65, 80⟩, some ⟨83, 100⟩⟩]
    let kept := gaps twoRegistrations (found.map Registration.span)
    (upgrade twoRegistrations .empty).outcome = .ok twoRegistrationsUpgraded ∧
    registrations twoRegistrations = .ok found ∧
    kept = [utf8 "a; ", utf8 " c; ", utf8 " h"] ∧
    (found.Pairwise fun r r' => r.span.stop < r'.span.start) ∧
    interleave kept (found.map fun r => r.span.cover twoRegistrations) = twoRegistrations ∧
    (∃ classes,
      (found.map fun r => (upgradeDefinition (r.definition twoRegistrations)).1) =
        classes.map .ok ∧
      twoRegistrationsUpgraded = interleave kept classes) ∧
    (upgrade twoRegistrations .empty).findings.components = [utf8 "b", utf8 "d-e"] := by
  intro found kept
  have upgraded : (upgrade twoRegistrations .empty).outcome = .ok twoRegistrationsUpgraded := by rfl
  have surveyed : registrations twoRegistrations = .ok found := by rfl
  obtain ⟨found', surveyed', -, ordered, restored, classes, names⟩ :=
    (upgrade_interleaves twoRegistrations .empty).1 _ upgraded
  obtain rfl : found' = found := Except.ok.inj (surveyed'.symm.trans surveyed)
  exact ⟨upgraded, surveyed, by rfl, ordered, restored, classes, names⟩

end Component

end ClassUpgrade
