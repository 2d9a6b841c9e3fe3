/-
# Proofs.Document.Prologue — where the prologue of a document is lost

The prologue of a document is the line at its front that names an interpreter,
and the comments after it whose directives opt out. It is read from the front
of the document only, and import lines are put in front of the document. So an
upgrade that replaces a registration leaves no prologue behind: `transform_ok`
says what a run can come to, `ignoreRule_importLead` that a text under import
lines opts out of nothing.

The loss outlives the run. A text under import lines stays one along further
runs (`Reruns.opens`), so that a document which opted out of being replaced is
replaced after all as soon as one of those texts is stale.

* `keepsPrologue_iff`: a run keeps the prologue exactly when it leaves the
  document alone or there was none to keep;
* `prologue_kept_iff`: the same, with what becomes of an opt-out from
  replacement along all further runs;
* `bootScript_everReplaced`: a document that opts out and is replaced by the second run.
-/
import ClassUpgrade.Document.Transform
import ClassUpgrade.Proofs.Component.Import
import ClassUpgrade.Proofs.Document.Ignore

namespace ClassUpgrade.Document

set_option autoImplicit false

open Byte Source Component

/-! ## What a run comes to -/

/-- A document that no run upgrades: it opts out, or it has no registrations. -/
def Untouched (doc : Text) : Prop :=
  (ignoreRule doc).ignores componentStage = true ∨ registrations doc = .ok []

theorem transformComponents_ok {doc : Text} {t : Transformation}
    (ran : (transformComponents doc).1 = .ok t) :
    t.entrypointReplaced = false ∧
      ((registrations doc = .ok [] ∧ t.content = doc) ∨
        ∃ r rest, registrations doc = .ok (r :: rest) ∧
          ∃ body, t.content = importLead ++ body) := by
  unfold transformComponents at ran
  split at ran
  · cases ran
  · dsimp only at ran
    split at ran
    · cases ran
    · rename_i body upgraded
      obtain rfl := Except.ok.inj ran
      obtain ⟨found, surveyed, -⟩ := upgrade_ok upgraded
      refine ⟨rfl, ?_⟩
      cases found with
      | nil =>
          refine .inl ⟨surveyed, ?_⟩
          rw [upgrade_of_registrations .empty surveyed] at upgraded ⊢
          exact (Except.ok.inj upgraded).symm
      | cons r rest =>
          obtain ⟨lines, lines_eq⟩ :=
            renderImports_opens (baseClass_mem_upgrade surveyed upgraded)
          refine .inr ⟨r, rest, surveyed, lines ++ lineFeed :: body, ?_⟩
          have some_lines : importLead ++ lines ≠ [] :=
            List.append_ne_nil_of_left_ne_nil (by decide) lines
          simp only [withImports, lines_eq, if_neg some_lines, List.append_assoc]

/-- **What a run that succeeds can come to**: the template takes the place of a stale entrypoint
that does not opt out, the document stays as it is, or it ends up under import lines. -/
theorem transform_ok {template : Except Text Text} {doc : Text} {t : Transformation}
    (ran : (transform template doc).1 = .ok t) :
    (t.entrypointReplaced = true ∧ (ignoreRule doc).ignores entrypointStage = false ∧
        isStaleEntrypoint doc = true ∧ template = .ok t.content) ∨
      (t.entrypointReplaced = false ∧ Untouched doc ∧ t.content = doc) ∨
      (t.entrypointReplaced = false ∧ ¬ Untouched doc ∧
        ∃ body, t.content = importLead ++ body) := by
  unfold transform at ran
  dsimp only at ran
  split at ran
  · rename_i all
    obtain rfl := Except.ok.inj ran
    exact .inr (.inl ⟨rfl, .inl (ignores_of_all _ all), rfl⟩)
  · split at ran
    · rename_i stale
      rw [Bool.and_eq_true, Bool.not_eq_true'] at stale
      split at ran
      · cases ran
      · obtain rfl := Except.ok.inj ran
        exact .inl ⟨rfl, stale.1, stale.2, rfl⟩
    · split at ran
      · rename_i optOut
        obtain rfl := Except.ok.inj ran
        exact .inr (.inl ⟨rfl, .inl optOut, rfl⟩)
      · rename_i heeded
        obtain ⟨kept, ⟨none_found, same⟩ | ⟨r, rest, found, opens⟩⟩ := transformComponents_ok ran
        · exact .inr (.inl ⟨kept, .inr none_found, same⟩)
        · refine .inr (.inr ⟨kept, ?_, opens⟩)
          rintro (optOut | none_found)
          · exact heeded optOut
          · rw [found] at none_found
            cases none_found

/-- A run that does not put the template in place of the document. -/
theorem transform_kept {template : Except Text Text} {doc : Text} {t : Transformation}
    (ran : (transform template doc).1 = .ok t) (kept : t.entrypointReplaced = false) :
    (Untouched doc ∧ t.content = doc) ∨
      (¬ Untouched doc ∧ ∃ body, t.content = importLead ++ body) := by
  obtain ⟨replaced, -⟩ | ⟨-, facts⟩ | ⟨-, facts⟩ := transform_ok ran
  · rw [replaced] at kept
    cases kept
  · exact .inl facts
  · exact .inr facts

/-- A run that puts the template in place of the document. -/
theorem transform_replaced {template : Except Text Text} {doc : Text} {t : Transformation}
    (ran : (transform template doc).1 = .ok t) (replaced : t.entrypointReplaced = true) :
    (ignoreRule doc).ignores entrypointStage = false ∧ isStaleEntrypoint doc = true ∧
      template = .ok t.content := by
  obtain ⟨-, facts⟩ | ⟨kept, -⟩ | ⟨kept, -⟩ := transform_ok ran
  · exact facts
  · rw [replaced] at kept
    cases kept
  · rw [replaced] at kept
    cases kept

theorem transform_of_stale {doc : Text} (text : Text)
    (heeded : (ignoreRule doc).ignores entrypointStage = false)
    (stale : isStaleEntrypoint doc = true) :
    ∃ t, (transform (.ok text) doc).1 = .ok t ∧ t.entrypointReplaced = true := by
  have not_all : ¬ (ignoreRule doc).all = true := by
    intro all
    rw [ignores_of_all _ all] at heeded
    cases heeded
  refine ⟨{ unchanged text false with entrypointReplaced := true }, ?_, rfl⟩
  simp [transform, not_all, heeded, stale]

/-! ## The prologue -/

/-- The line that names an interpreter and every opt-out of `doc` are those of `out` too. -/
def KeepsPrologue (doc out : Text) : Prop :=
  (Text.startsWith doc (utf8 "#!") = true → Text.line out = Text.line doc) ∧
    ∀ stage, (ignoreRule doc).ignores stage = true → (ignoreRule out).ignores stage = true

/-- A document that names no interpreter and opts out of nothing. -/
def NoPrologue (doc : Text) : Prop :=
  Text.startsWith doc (utf8 "#!") = false ∧ ∀ stage, (ignoreRule doc).ignores stage = false

theorem ignoreRule_importLead (body : Text) : ignoreRule (importLead ++ body) = .nothing := by
  rfl

theorem line_importLead_ne {doc : Text} (body : Text)
    (named : Text.startsWith doc (utf8 "#!") = true) :
    Text.line (importLead ++ body) ≠ Text.line doc := by
  obtain ⟨rest, rfl⟩ := List.isPrefixOf_iff_prefix.mp named
  intro same
  have heads : (Text.line (importLead ++ body)).head? = (Text.line (utf8 "#!" ++ rest)).head? :=
    congrArg List.head? same
  have : some (0x69 : UInt8) = some hash := heads
  exact absurd this (by decide)

/-- Under import lines there is no prologue left to find. -/
theorem keepsPrologue_importLead_iff (doc body : Text) :
    KeepsPrologue doc (importLead ++ body) ↔ NoPrologue doc := by
  constructor
  · rintro ⟨line, stages⟩
    refine ⟨?_, fun stage => ?_⟩
    · rw [← Bool.not_eq_true]
      exact fun named => line_importLead_ne body named (line named)
    · rw [← Bool.not_eq_true]
      intro optOut
      have lost := stages stage optOut
      rw [ignoreRule_importLead] at lost
      cases lost
  · rintro ⟨unnamed, heeded⟩
    refine ⟨fun named => ?_, fun stage optOut => ?_⟩
    · rw [unnamed] at named
      cases named
    · rw [heeded stage] at optOut
      cases optOut

/-- **A run keeps the prologue exactly when it leaves the document alone or there is none.** -/
theorem keepsPrologue_iff {template : Except Text Text} {doc : Text} {t : Transformation}
    (ran : (transform template doc).1 = .ok t) (kept : t.entrypointReplaced = false) :
    KeepsPrologue doc t.content ↔ Untouched doc ∨ NoPrologue doc := by
  obtain ⟨untouched, same⟩ | ⟨touched, body, content_eq⟩ := transform_kept ran kept
  · rw [same]
    exact ⟨fun _ => .inl untouched, fun _ => ⟨fun _ => rfl, fun _ optOut => optOut⟩⟩
  · rw [content_eq, keepsPrologue_importLead_iff]
    exact ⟨.inr, Or.rec (absurd · touched) id⟩

/-! ## Further runs -/

/-- The texts that a document becomes by runs on what the run before has left, none of which put
the template in its place. -/
inductive Reruns (template : Except Text Text) : Text → Text → Prop
  | here (doc : Text) : Reruns template doc doc
  | again {doc last : Text} {t : Transformation} (ran : (transform template doc).1 = .ok t)
      (kept : t.entrypointReplaced = false) (more : Reruns template t.content last) :
      Reruns template doc last

/-- Some run, after runs that did not, puts the template in place of the document. -/
def EverReplaced (template : Except Text Text) (doc : Text) : Prop :=
  ∃ last t, Reruns template doc last ∧
    (transform template last).1 = .ok t ∧ t.entrypointReplaced = true

theorem Reruns.opens {template : Except Text Text} {doc last : Text}
    (runs : Reruns template doc last) (opens : ∃ body, doc = importLead ++ body) :
    ∃ body, last = importLead ++ body := by
  induction runs with
  | here doc => exact opens
  | again ran kept more ih =>
      refine ih ?_
      obtain ⟨-, same⟩ | ⟨-, under⟩ := transform_kept ran kept
      · exact same ▸ opens
      · exact under

theorem Reruns.eq_of_untouched {template : Except Text Text} {doc last : Text}
    (runs : Reruns template doc last) (untouched : Untouched doc) : last = doc := by
  induction runs with
  | here doc => rfl
  | again ran kept more ih =>
      obtain ⟨-, same⟩ | ⟨touched, -⟩ := transform_kept ran kept
      · rw [same] at ih
        exact ih untouched
      · exact absurd untouched touched

theorem not_everReplaced_of_untouched {template : Except Text Text} {doc : Text}
    (untouched : Untouched doc) (optOut : (ignoreRule doc).ignores entrypointStage = true) :
    ¬ EverReplaced template doc := by
  rintro ⟨last, t, runs, ran, replaced⟩
  obtain rfl := runs.eq_of_untouched untouched
  have heeded := (transform_replaced ran replaced).1
  rw [optOut] at heeded
  cases heeded

/-- A run that does not replace a document decides nothing about the runs after it. -/
theorem everReplaced_iff_again {template : Except Text Text} {doc : Text} {t : Transformation}
    (ran : (transform template doc).1 = .ok t) (kept : t.entrypointReplaced = false) :
    EverReplaced template doc ↔ EverReplaced template t.content := by
  constructor
  · rintro ⟨last, t', runs, ran', replaced⟩
    cases runs with
    | here =>
        rw [ran] at ran'
        obtain rfl := Except.ok.inj ran'
        rw [replaced] at kept
        cases kept
    | again first _ more =>
        rw [ran] at first
        obtain rfl := Except.ok.inj first
        exact ⟨last, t', more, ran', replaced⟩
  · rintro ⟨last, t', runs, ran', replaced⟩
    exact ⟨last, t', .again ran kept runs, ran', replaced⟩

/-- Under import lines nothing is opted out of: what is stale is replaced. -/
theorem everReplaced_importLead_iff (template : Except Text Text) (body : Text) :
    EverReplaced template (importLead ++ body) ↔ (∃ text, template = .ok text) ∧
      ∃ last, Reruns template (importLead ++ body) last ∧ isStaleEntrypoint last = true := by
  constructor
  · rintro ⟨last, t, runs, ran, replaced⟩
    obtain ⟨-, stale, text⟩ := transform_replaced ran replaced
    exact ⟨⟨_, text⟩, last, runs, stale⟩
  · rintro ⟨⟨text, rfl⟩, last, runs, stale⟩
    obtain ⟨body', last_eq⟩ := runs.opens ⟨body, rfl⟩
    have heeded : (ignoreRule last).ignores entrypointStage = false := by
      rw [last_eq, ignoreRule_importLead]
      rfl
    obtain ⟨t, ran, replaced⟩ := transform_of_stale text heeded stale
    exact ⟨last, t, runs, ran, replaced⟩

/-- **When the prologue of a document is kept, and when its opt-out from replacement holds.** A
run that does not put the template in place of the document keeps the line that names an
interpreter and every opt-out exactly when it leaves the document alone or there are none. A
document that opts out of replacement is replaced by a later run exactly when the first run upgrades
it, a template can be read, and some text that the runs lead to is stale. -/
theorem prologue_kept_iff {template : Except Text Text} {doc : Text} {t : Transformation}
    (ran : (transform template doc).1 = .ok t) (kept : t.entrypointReplaced = false) :
    (KeepsPrologue doc t.content ↔ Untouched doc ∨ NoPrologue doc) ∧
      ((ignoreRule doc).ignores entrypointStage = true →
        (EverReplaced template doc ↔
          ¬ Untouched doc ∧ (∃ text, template = .ok text) ∧
            ∃ last, Reruns template t.content last ∧ isStaleEntrypoint last = true)) := by
  refine ⟨keepsPrologue_iff ran kept, fun optOut => ?_⟩
  obtain ⟨untouched, -⟩ | ⟨touched, body, content_eq⟩ := transform_kept ran kept
  · exact iff_of_false (not_everReplaced_of_untouched untouched optOut)
      fun facts => facts.1 untouched
  · rw [everReplaced_iff_again ran kept, content_eq, everReplaced_importLead_iff,
      and_iff_right touched]

/-- A script for an interpreter that opts out of replacement and loads the runtime the way
entrypoints before the current template do. -/
def bootScript : Text := Text.join [lineFeed] ([
    "#!node",
    "// wle-js-upgrade:ignore entrypoint",
    "WL.registerComponent('a', \x7b\x7d);loadRuntime(RuntimeBaseName, \x7b"].map utf8)

/-- The script under the import line of its class: the interpreter is no longer named at the
front, and the directive no longer stands before the first statement. -/
def bootScriptUpgraded : Text := Text.join [lineFeed] ([
    "import \x7bComponent\x7d from '@wonderlandengine/api';",
    "",
    "#!node",
    "// wle-js-upgrade:ignore entrypoint",
    "export class A extends Component \x7b",
    "    static TypeName = 'a';",
    "    static Properties = \x7b\x7d;",
    "\x7dloadRuntime(RuntimeBaseName, \x7b"].map utf8)

set_option maxRecDepth 8000 in
theorem transform_bootScript (template : Except Text Text) :
    ∃ t, (transform template bootScript).1 = .ok t ∧ t.entrypointReplaced = false ∧
      t.content = bootScriptUpgraded :=
  ⟨_, rfl, rfl, rfl⟩

set_option maxRecDepth 8000 in
/-- The first run loses the prologue of the script, and the second run replaces it. -/
theorem bootScript_everReplaced :
    ∃ t, (transform (.ok bundledTemplate) bootScript).1 = .ok t ∧ t.entrypointReplaced = false ∧
      ¬ KeepsPrologue bootScript t.content ∧
      (ignoreRule bootScript).ignores entrypointStage = true ∧
      EverReplaced (.ok bundledTemplate) bootScript := by
  obtain ⟨t, ran, kept, content_eq⟩ := transform_bootScript (.ok bundledTemplate)
  have optOut : (ignoreRule bootScript).ignores entrypointStage = true := rfl
  have named : Text.startsWith bootScript (utf8 "#!") = true := rfl
  have stale : isStaleEntrypoint bootScriptUpgraded = true := rfl
  obtain ⟨prologue, replacement⟩ := prologue_kept_iff ran kept
  have touched : ¬ Untouched bootScript := by
    obtain ⟨-, same⟩ | ⟨touched, -⟩ := transform_kept ran kept
    · exact absurd (content_eq.symm.trans same) (by decide)
    · exact touched
  have lost : ¬ KeepsPrologue bootScript t.content := by
    rw [prologue]
    rintro (untouched | ⟨unnamed, -⟩)
    · exact touched untouched
    · rw [named] at unnamed
      cases unnamed
  exact ⟨t, ran, kept, lost, optOut,
    (replacement optOut).mpr ⟨touched, ⟨_, rfl⟩, _, .here _, content_eq ▸ stale⟩⟩

end ClassUpgrade.Document
