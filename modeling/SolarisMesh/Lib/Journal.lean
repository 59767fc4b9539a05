import Mathlib.Data.Finset.Basic
import Mathlib.Data.Finset.Lattice.Lemmas

/-!
# Journals of differences and checkpoints

A component keeps a state and a growing set of identifiers, and writes to a log after each
change: either the difference, with the identifiers it adds, or a checkpoint of the state,
without identifiers. A restart reads the state back from the log, and the identifiers from
everything the log ever recorded. The state is only asked back up to `view`, which forgets
what a restart may reset.

The state survives whatever is written when. The identifiers survive exactly if no
checkpoint was written by a change that adds some.
-/

namespace SolarisMesh.Lib.Journal

open Finset

variable {L S V I : Type*}

/-- How a log is read back. -/
structure Reader (L S V I : Type*) where
  restore : L → Option S
  history : L → Finset I
  /-- The part of a state that a restart has to bring back. -/
  view : S → V

/-- A running component and its log. -/
structure Live (L S I : Type*) where
  state : S
  ids : Finset I
  log : L

variable [DecidableEq I]

/-- One change; the label is the set of identifiers that the log does not get to see. -/
inductive Step (r : Reader L S V I) : Live L S I → Finset I → Live L S I → Prop
  /-- Nothing is written: nothing changes but what a restart may reset. -/
  | unwritten {s s' : S} {ids : Finset I} {log : L} (hview : r.view s' = r.view s) :
      Step r ⟨s, ids, log⟩ ∅ ⟨s', ids, log⟩
  | difference {s s' : S} {ids added : Finset I} {log log' : L} (hfresh : Disjoint added ids)
      (hrestore : ∀ p, r.restore log = some p → r.view p = r.view s →
        ∃ p', r.restore log' = some p' ∧ r.view p' = r.view s')
      (hhistory : r.history log' = r.history log ∪ added) :
      Step r ⟨s, ids, log⟩ ∅ ⟨s', ids ∪ added, log'⟩
  | checkpoint {s s' : S} {ids added : Finset I} {log log' : L} (hfresh : Disjoint added ids)
      (hrestore : ∃ p', r.restore log' = some p' ∧ r.view p' = r.view s')
      (hhistory : r.history log' = r.history log) :
      Step r ⟨s, ids, log⟩ added ⟨s', ids ∪ added, log'⟩

/-- A run with the labels of its steps. -/
inductive Run (r : Reader L S V I) : Live L S I → List (Finset I) → Live L S I → Prop
  | nil (a : Live L S I) : Run r a [] a
  | cons {a b c : Live L S I} {lost : Finset I} {losts : List (Finset I)} :
      Step r a lost b → Run r b losts c → Run r a (lost :: losts) c

/-- The log gives back the live state, up to `view`. -/
def Tracks (r : Reader L S V I) (a : Live L S I) : Prop :=
  ∃ p, r.restore a.log = some p ∧ r.view p = r.view a.state

variable {r : Reader L S V I} {a b : Live L S I} {lost : Finset I} {losts : List (Finset I)}

lemma Step.tracks (h : Step r a lost b) (ha : Tracks r a) : Tracks r b := by
  obtain ⟨p, hp, hview⟩ := ha
  cases h with
  | unwritten hsame => exact ⟨p, hp, hview.trans hsame.symm⟩
  | difference _ hrestore _ => exact hrestore p hp hview
  | checkpoint _ hrestore _ => exact hrestore

lemma Step.history_subset (h : Step r a lost b) (ha : r.history a.log ⊆ a.ids) :
    r.history b.log ⊆ b.ids := by
  cases h with
  | unwritten _ => exact ha
  | difference _ _ hhistory =>
    rw [hhistory]
    exact union_subset_union_left ha
  | checkpoint _ _ hhistory =>
    rw [hhistory]
    exact ha.trans subset_union_left

/-- What the log misses grows by the label of the step. -/
lemma Step.missing (h : Step r a lost b) (ha : r.history a.log ⊆ a.ids) :
    b.ids \ r.history b.log = (a.ids \ r.history a.log) ∪ lost := by
  cases h with
  | unwritten _ => simp
  | @difference _ _ ids added log _ hfresh _ hhistory =>
    show (ids ∪ added) \ _ = (ids \ _) ∪ ∅
    rw [hhistory, union_empty]
    ext i
    have hnew : i ∈ added → i ∉ ids := fun hi => disjoint_left.mp hfresh hi
    simp only [mem_sdiff, mem_union]
    tauto
  | @checkpoint _ _ ids _ log _ hfresh _ hhistory =>
    show (ids ∪ lost) \ _ = (ids \ _) ∪ lost
    rw [hhistory, union_sdiff_distrib]
    -- an identifier that is new to the component is new to its log
    have hlost : lost \ r.history log = lost :=
      sdiff_eq_self_of_disjoint (hfresh.mono_right ha)
    rw [hlost]

lemma Run.tracks (h : Run r a losts b) (ha : Tracks r a) : Tracks r b := by
  induction h with
  | nil _ => exact ha
  | cons hstep _ ih => exact ih (hstep.tracks ha)

lemma Run.missing_eq_empty_iff (h : Run r a losts b) (ha : r.history a.log ⊆ a.ids) :
    b.ids \ r.history b.log = ∅ ↔ a.ids \ r.history a.log = ∅ ∧ ∀ l ∈ losts, l = ∅ := by
  induction h with
  | nil a => simp
  | cons hstep _ ih =>
    rw [ih (hstep.history_subset ha), hstep.missing ha, union_eq_empty]
    simp [and_assoc]

lemma Run.history_subset (h : Run r a losts b) (ha : r.history a.log ⊆ a.ids) :
    r.history b.log ⊆ b.ids := by
  induction h with
  | nil _ => exact ha
  | cons hstep _ ih => exact ih (hstep.history_subset ha)

/-- The log knows every identifier exactly if no step kept one from it. -/
lemma Run.history_eq_iff (h : Run r a losts b) (ha : r.history a.log = a.ids) :
    r.history b.log = b.ids ↔ ∀ l ∈ losts, l = ∅ := by
  have hmissing := h.missing_eq_empty_iff ha.subset
  rw [ha, Finset.sdiff_self] at hmissing
  have hsubset := h.history_subset ha.subset
  constructor
  · intro heq
    exact (hmissing.mp (by rw [heq, Finset.sdiff_self])).2
  · intro hlost
    exact hsubset.antisymm (sdiff_eq_empty_iff_subset.mp (hmissing.mpr ⟨rfl, hlost⟩))

end SolarisMesh.Lib.Journal
