/-
# Proofs.Files.Path — cleaning settles a path

A path and the list of its segments are two forms of one thing
(`segments_ofSegments`, `ofSegments_segments`). `Reduced` says which lists of
segments cleaning has nothing to take from: no segment is empty or names the
place itself, and the segments for the directory above stand at the front, or
nowhere in a rooted path.

* `reduced_reduce`: what `reduce` leaves is of that form, whatever it was given;
* `reduce_of_reduced`: a list of that form is left as it is;
* `clean_clean`: so a path that was cleaned is cleaned for good;
* `mem_segments_clean`: cleaning makes up no segment but the place itself.
-/
import ClassUpgrade.Files.Path
import Mathlib.Data.List.Basic

namespace ClassUpgrade

set_option autoImplicit false

open Byte

theorem Text.splitOn_eq (separator : UInt8) :
    ∀ t : Text, Text.splitOn separator t = List.splitOn separator t
  | [] => (List.splitOn_nil separator).symm
  | b :: rest => by
      have ih := Text.splitOn_eq separator rest
      obtain ⟨piece, pieces, pieces_eq⟩ :=
        List.exists_cons_of_ne_nil (List.splitOn_ne_nil separator rest)
      rw [Text.splitOn, ih, List.splitOn_cons_eq_if_modifyHead, pieces_eq]
      by_cases same : b = separator
      · simp [same]
      · simp [same]

namespace Path

/-! ## Paths and their segments -/

theorem segments_ne_nil (p : Text) : segments p ≠ [] := by
  rw [segments, Text.splitOn_eq]
  exact List.splitOn_ne_nil slash p

theorem ofSegments_segments (p : Text) : ofSegments (segments p) = p := by
  rw [segments, Text.splitOn_eq]
  exact List.intercalate_splitOn slash

theorem segments_ofSegments {l : List Text} (ne_nil : l ≠ []) (free : ∀ s ∈ l, slash ∉ s) :
    segments (ofSegments l) = l := by
  rw [segments, Text.splitOn_eq]
  exact List.splitOn_intercalate slash free ne_nil

theorem ofSegments_singleton (s : Text) : ofSegments [s] = s := by
  rw [ofSegments, Text.join, List.intercalate_singleton]

theorem segments_append_slash (p q : Text) :
    segments (p ++ slash :: q) = segments p ++ segments q := by
  simp only [segments, Text.splitOn_eq, List.splitOn_eq_splitOnP]
  exact List.splitOnP_append_cons p q (beq_self_eq_true slash)

theorem free_of_mem_segments {s : Text} : ∀ {p : Text}, s ∈ segments p → slash ∉ s
  | [], mem => by
      obtain rfl := List.mem_singleton.mp mem
      exact List.not_mem_nil
  | b :: rest, mem => by
      obtain ⟨piece, pieces, pieces_eq⟩ := List.exists_cons_of_ne_nil (segments_ne_nil rest)
      have ih : ∀ t ∈ piece :: pieces, slash ∉ t := fun t mem =>
        free_of_mem_segments (p := rest) (pieces_eq ▸ mem)
      rw [segments, Text.splitOn, ← segments, pieces_eq] at mem
      dsimp only at mem
      split at mem
      · rcases List.mem_cons.mp mem with rfl | mem
        · exact List.not_mem_nil
        · exact ih s mem
      · rename_i other
        rcases List.mem_cons.mp mem with rfl | mem
        · exact List.not_mem_cons_of_ne_of_not_mem (Ne.symm other) (ih piece List.mem_cons_self)
        · exact ih s (List.mem_cons_of_mem piece mem)

theorem ofSegments_cons {s : Text} {l : List Text} (ne_nil : l ≠ []) :
    ofSegments (s :: l) = s ++ slash :: ofSegments l := by
  obtain ⟨t, rest, rfl⟩ := List.exists_cons_of_ne_nil ne_nil
  rw [ofSegments, Text.join, List.intercalate_cons_cons, List.append_assoc]
  rfl

theorem ofSegments_append : ∀ {l m : List Text}, l ≠ [] → m ≠ [] →
    ofSegments (l ++ m) = ofSegments l ++ slash :: ofSegments m
  | [], _, ne_nil, _ => absurd rfl ne_nil
  | [s], m, _, ne_nil => by
      rw [ofSegments_singleton, List.singleton_append, ofSegments_cons ne_nil]
  | s :: t :: l, m, _, ne_nil => by
      rw [List.cons_append, ofSegments_cons (by simp), ofSegments_append (by simp) ne_nil,
        ofSegments_cons (l := t :: l) (by simp), List.append_assoc, List.cons_append]

theorem mem_ofSegments {b : UInt8} : ∀ {l : List Text}, b ∈ ofSegments l →
    b = slash ∨ ∃ s ∈ l, b ∈ s
  | [], mem => absurd mem List.not_mem_nil
  | [s], mem => .inr ⟨s, List.mem_singleton_self s, by rwa [ofSegments_singleton] at mem⟩
  | s :: t :: rest, mem => by
      rw [ofSegments_cons (List.cons_ne_nil t rest), List.mem_append, List.mem_cons] at mem
      rcases mem with mem | rfl | mem
      · exact .inr ⟨s, List.mem_cons_self, mem⟩
      · exact .inl rfl
      · refine (mem_ofSegments mem).imp_right ?_
        rintro ⟨u, mem_u, mem⟩
        exact ⟨u, List.mem_cons_of_mem s mem_u, mem⟩

theorem infix_ofSegments {s : Text} : ∀ {l : List Text}, s ∈ l → s <:+: ofSegments l
  | [t], mem => by
      obtain rfl := List.mem_singleton.mp mem
      rewrite [ofSegments_singleton]
      exact List.infix_rfl
  | t :: u :: rest, mem => by
      rw [ofSegments_cons (List.cons_ne_nil u rest)]
      obtain rfl | mem := List.mem_cons.mp mem
      · exact (List.prefix_append s _).isInfix
      · refine (infix_ofSegments mem).trans (List.IsSuffix.isInfix ⟨t ++ [slash], ?_⟩)
        rw [List.append_assoc, List.singleton_append]

/-- A byte of a segment is a byte of the path. -/
theorem mem_of_mem_segments {b : UInt8} {s p : Text} (segment : s ∈ segments p) (mem : b ∈ s) :
    b ∈ p := by
  have within := infix_ofSegments segment
  rw [ofSegments_segments] at within
  exact within.subset mem

/-! ## Reduced lists of segments -/

/-- Segments that cleaning has nothing to take from. -/
structure Reduced (rooted : Bool) (l : List Text) : Prop where
  named : ∀ s ∈ l, s ≠ [] ∧ s ≠ here ∧ slash ∉ s
  aboveFirst : l.Pairwise fun s t => t = above → s = above
  belowRoot : rooted = true → above ∉ l

namespace Reduced

variable {rooted : Bool} {l m : List Text} {s : Text}

theorem nil (rooted : Bool) : Reduced rooted [] := ⟨by simp, .nil, by simp⟩

theorem of_sublist (reduced : Reduced rooted l) (sub : m.Sublist l) : Reduced rooted m :=
  ⟨fun s mem => reduced.named s (sub.subset mem), reduced.aboveFirst.sublist sub,
    fun isRooted mem => reduced.belowRoot isRooted (sub.subset mem)⟩

/-- A name goes on any reduced list. -/
theorem concat (reduced : Reduced rooted l) (named : s ≠ [] ∧ s ≠ here ∧ slash ∉ s)
    (down : s ≠ above) : Reduced rooted (l ++ [s]) := by
  refine ⟨?_, ?_, fun isRooted mem => ?_⟩
  · rw [List.forall_mem_append]
    exact ⟨reduced.named, List.forall_mem_singleton.mpr named⟩
  · refine List.pairwise_append.mpr ⟨reduced.aboveFirst, List.pairwise_singleton _ _, ?_⟩
    intro t _ u mem up
    exact absurd ((List.mem_singleton.mp mem).symm.trans up) down
  · rcases List.mem_append.mp mem with mem | mem
    · exact reduced.belowRoot isRooted mem
    · exact down (List.mem_singleton.mp mem).symm

/-- The segment for the directory above goes on segments of its own kind. -/
theorem concat_above (reduced : Reduced false l) (ups : ∀ t ∈ l, t = above) :
    Reduced false (l ++ [above]) := by
  refine ⟨?_, ?_, fun isRooted => by cases isRooted⟩
  · rw [List.forall_mem_append]
    exact ⟨reduced.named, List.forall_mem_singleton.mpr (by decide)⟩
  · exact List.pairwise_append.mpr
      ⟨reduced.aboveFirst, List.pairwise_singleton _ _, fun t mem _ _ _ => ups t mem⟩

/-- Where the last segment leads up, all do. -/
theorem eq_above (reduced : Reduced rooted (l ++ [above])) : ∀ t ∈ l, t = above := by
  intro t mem
  have before := (List.pairwise_append.mp reduced.aboveFirst).2.2
  exact before t mem above (List.mem_singleton_self above) rfl

end Reduced

/-- **What is left after reducing is reduced**, whatever was kept before (last first). -/
theorem reduced_reduce {rooted : Bool} {done l : List Text} (kept : Reduced rooted done.reverse)
    (free : ∀ s ∈ l, slash ∉ s) : Reduced rooted (reduce rooted done l) := by
  fun_induction reduce rooted done l with
  | case1 done => exact kept
  | case2 done s rest skipped ih => exact ih kept fun t mem => free t (List.mem_cons_of_mem s mem)
  | case3 rest isRooted skipped ih =>
      exact ih kept fun t mem => free t (List.mem_cons_of_mem above mem)
  | case4 rest notRooted skipped ih =>
      obtain rfl : rooted = false := by simpa using notRooted
      refine ih ?_ fun t mem => free t (List.mem_cons_of_mem above mem)
      exact (Reduced.nil false).concat_above (by simp)
  | case5 rest others skipped ih =>
      refine ih ?_ fun t mem => free t (List.mem_cons_of_mem above mem)
      rw [List.reverse_cons] at kept
      cases rooted with
      | true => exact absurd (by simp) (kept.belowRoot rfl)
      | false =>
          rw [List.reverse_cons, List.reverse_cons]
          refine kept.concat_above fun t mem => ?_
          rcases List.mem_append.mp mem with mem | mem
          · exact kept.eq_above t mem
          · exact List.mem_singleton.mp mem
  | case6 rest last others other skipped ih =>
      refine ih ?_ fun t mem => free t (List.mem_cons_of_mem above mem)
      rw [List.reverse_cons] at kept
      exact kept.of_sublist (List.sublist_append_left _ _)
  | case7 done s rest skipped down ih =>
      refine ih ?_ fun t mem => free t (List.mem_cons_of_mem s mem)
      rw [not_or] at skipped
      rw [List.reverse_cons]
      exact kept.concat ⟨skipped.1, skipped.2, free s List.mem_cons_self⟩ down

/-- **A reduced list is left as it is.** -/
theorem reduce_of_reduced {rooted : Bool} {done l : List Text}
    (reduced : Reduced rooted (done.reverse ++ l)) : reduce rooted done l = done.reverse ++ l := by
  induction l generalizing done with
  | nil => rw [reduce, List.append_nil]
  | cons s rest ih =>
      have named := reduced.named s (by simp)
      have onward : reduce rooted (s :: done) rest = done.reverse ++ s :: rest := by
        rw [ih (by simpa using reduced)]
        simp
      unfold reduce
      rw [if_neg (not_or.mpr ⟨named.1, named.2.1⟩)]
      split
      · rename_i up
        subst up
        cases done with
        | nil =>
            have notRooted : rooted = false := by
              cases rooted with
              | false => rfl
              | true => exact absurd (by simp) (reduced.belowRoot rfl)
            subst notRooted
            exact onward
        | cons last others =>
            have up : last = above :=
              (List.pairwise_append.mp reduced.aboveFirst).2.2 last (by simp) above (by simp) rfl
            dsimp only
            rw [if_pos up]
            exact onward
      · exact onward

/-! ## Cleaned paths -/

/-- The segments that cleaning keeps. -/
theorem reduced_kept (p : Text) : Reduced (isRooted p) (reduce (isRooted p) [] (segments p)) :=
  reduced_reduce (Reduced.nil _) fun _ mem => free_of_mem_segments mem

theorem ofSegments_ne_nil {l : List Text} (ne_nil : l ≠ []) (named : ∀ s ∈ l, s ≠ []) :
    ofSegments l ≠ [] := by
  obtain ⟨s, rest, rfl⟩ := List.exists_cons_of_ne_nil ne_nil
  have nonempty := named s List.mem_cons_self
  cases rest with
  | nil => rwa [ofSegments_singleton]
  | cons t rest =>
      rw [ofSegments_cons (List.cons_ne_nil t rest)]
      exact List.append_ne_nil_of_left_ne_nil nonempty _

theorem isRooted_ofSegments {l : List Text} (ne_nil : l ≠ [])
    (named : ∀ s ∈ l, s ≠ [] ∧ slash ∉ s) : isRooted (ofSegments l) = false := by
  obtain ⟨s, rest, rfl⟩ := List.exists_cons_of_ne_nil ne_nil
  obtain ⟨nonempty, free⟩ := named s List.mem_cons_self
  obtain ⟨b, tail, rfl⟩ := List.exists_cons_of_ne_nil nonempty
  have front : (ofSegments ((b :: tail) :: rest)).head? = some b := by
    cases rest with
    | nil => rw [ofSegments_singleton]; rfl
    | cons t rest => rw [ofSegments_cons (by simp)]; rfl
  rw [isRooted, front, beq_eq_false_iff_ne, ne_eq, Option.some.injEq]
  rintro rfl
  exact free List.mem_cons_self

/-- What a relative path comes to: the place itself, or reduced segments. -/
theorem clean_relative {p : Text} (relative : isRooted p = false) :
    clean p = here ∨ ∃ l, l ≠ [] ∧ Reduced false l ∧ clean p = ofSegments l := by
  have kept := reduced_kept p
  rw [relative] at kept
  unfold clean
  simp only [relative, Bool.false_eq_true, if_false, List.isEmpty_iff]
  split
  · exact .inl rfl
  · rename_i ne_nil
    exact .inr ⟨_, ne_nil, kept, rfl⟩

/-- What a rooted path comes to. -/
theorem clean_rooted {p : Text} (rooted : isRooted p = true) :
    ∃ l, Reduced true l ∧ clean p = slash :: ofSegments l := by
  have kept := reduced_kept p
  rw [rooted] at kept
  refine ⟨_, kept, ?_⟩
  simp [clean, rooted]

theorem segments_of_reduced {rooted : Bool} {l : List Text} (ne_nil : l ≠ [])
    (reduced : Reduced rooted l) : segments (ofSegments l) = l :=
  segments_ofSegments ne_nil fun s mem => (reduced.named s mem).2.2

theorem clean_ofSegments {l : List Text} (ne_nil : l ≠ []) (reduced : Reduced false l) :
    clean (ofSegments l) = ofSegments l := by
  have relative : isRooted (ofSegments l) = false :=
    isRooted_ofSegments ne_nil fun s mem => ⟨(reduced.named s mem).1, (reduced.named s mem).2.2⟩
  have kept : reduce false [] l = l := reduce_of_reduced reduced
  simp [clean, relative, segments_of_reduced ne_nil reduced, kept, ne_nil]

/-- **Cleaning settles a path**: a cleaned path is cleaned for good. -/
theorem clean_clean (p : Text) : clean (clean p) = clean p := by
  cases rooted : isRooted p with
  | false =>
      rcases clean_relative rooted with at_here | ⟨l, ne_nil, reduced, clean_eq⟩
      · rw [at_here]
        rfl
      · rw [clean_eq, clean_ofSegments ne_nil reduced]
  | true =>
      obtain ⟨l, reduced, clean_eq⟩ := clean_rooted rooted
      have kept : reduce true [] (segments (slash :: ofSegments l)) = l := by
        have front : segments (slash :: ofSegments l) = [] :: segments (ofSegments l) :=
          segments_append_slash [] (ofSegments l)
        rw [front, reduce, if_pos (.inl rfl)]
        by_cases empty : l = []
        · rw [empty]
          rfl
        · rw [segments_of_reduced empty reduced]
          exact reduce_of_reduced reduced
      have again : isRooted (slash :: ofSegments l) = true := by simp [isRooted]
      rw [clean_eq]
      simp [clean, again, kept]

/-! ## What cleaning keeps -/

theorem mem_of_mem_reduce {rooted : Bool} {done l : List Text} {s : Text}
    (mem : s ∈ reduce rooted done l) : s ∈ done ∨ s ∈ l := by
  fun_induction reduce rooted done l with
  | case1 done => exact .inl (List.mem_reverse.mp mem)
  | case2 done t rest _ ih => exact (ih mem).imp_right (List.mem_cons_of_mem t)
  | case3 rest _ _ ih => exact (ih mem).imp_right (List.mem_cons_of_mem above)
  | case4 rest _ _ ih =>
      refine .inr ((ih mem).elim (fun up => ?_) (List.mem_cons_of_mem above))
      exact List.mem_cons.mpr (.inl (List.mem_singleton.mp up))
  | case5 rest others _ ih =>
      obtain kept | later := ih mem
      · exact .inl ((List.mem_cons.mp kept).elim (fun same => List.mem_cons.mpr (.inl same)) id)
      · exact .inr (List.mem_cons_of_mem above later)
  | case6 rest last others _ _ ih =>
      exact (ih mem).imp (List.mem_cons_of_mem last) (List.mem_cons_of_mem above)
  | case7 done t rest _ _ ih =>
      obtain kept | later := ih mem
      · exact (List.mem_cons.mp kept).elim (fun same => .inr (List.mem_cons.mpr (.inl same))) .inl
      · exact .inr (List.mem_cons_of_mem t later)

theorem mem_segments_ofSegments {l : List Text} (free : ∀ s ∈ l, slash ∉ s) {s : Text}
    (mem : s ∈ segments (ofSegments l)) : s = [] ∨ s ∈ l := by
  cases l with
  | nil => exact .inl (List.mem_singleton.mp mem)
  | cons t rest =>
      rw [segments_ofSegments (List.cons_ne_nil t rest) free] at mem
      exact .inr mem

/-- **The segments of a cleaned path** are segments of the path, but for the place itself and empty
ones at a root. -/
theorem mem_segments_clean {p s : Text} (mem : s ∈ segments (clean p)) :
    s = [] ∨ s = here ∨ s ∈ segments p := by
  have kept : ∀ t ∈ reduce (isRooted p) [] (segments p), t ∈ segments p := fun t mem =>
    (mem_of_mem_reduce mem).resolve_left List.not_mem_nil
  have named (mem : s ∈ segments (ofSegments (reduce (isRooted p) [] (segments p)))) :
      s = [] ∨ s = here ∨ s ∈ segments p :=
    (mem_segments_ofSegments (fun t mem => free_of_mem_segments (kept t mem)) mem).imp_right
      fun mem => .inr (kept s mem)
  unfold clean at mem
  dsimp only at mem
  split at mem
  · rw [← List.nil_append (slash :: _), segments_append_slash, List.mem_append] at mem
    exact mem.elim (fun root => .inl (List.mem_singleton.mp root)) named
  · split at mem
    · exact .inr (.inl (List.mem_singleton.mp mem))
    · exact named mem

end Path

end ClassUpgrade
