import SolarisMesh.Ledger.Fencing

/-!
# The order of a ledger's records

Records stand in the order of their sequences. So the last record of a run is the one with
the greatest sequence, and both backends read the same high-water of a run.
-/

namespace SolarisMesh.Ledger

open List SolarisMesh.Types

variable {V : Type}

/-- Records are in the order of their sequences, which the counter has reached. -/
structure LedgerState.Ordered (state : LedgerState V) : Prop where
  sorted : state.records.Pairwise (·.seq < ·.seq)
  bounded : ∀ r ∈ state.records, r.seq ≤ state.nextSequence

lemma LedgerState.Ordered.empty : (LedgerState.empty V).Ordered :=
  ⟨.nil, by simp [LedgerState.empty]⟩

namespace Appended

variable {runId : RunId} {state state' : LedgerState V} {written : List (LedgerRecord V)}

lemma ordered (h : Appended runId state state' written) (hi : state.Ordered) :
    state'.Ordered where
  sorted := by
    rw [h.records]
    refine pairwise_append.mpr ⟨hi.sorted, h.sorted, fun r hr r' hr' => ?_⟩
    exact Nat.lt_of_le_of_lt (hi.bounded r hr) (h.sequences r' hr').1
  bounded r hr := by
    rw [h.records] at hr
    rcases mem_append.mp hr with hr | hr
    · exact Nat.le_trans (hi.bounded r hr) h.counter
    · exact (h.sequences r hr).2

lemma recordsForRun_self (h : Appended runId state state' written) :
    state'.recordsForRun runId = state.recordsForRun runId ++ written := by
  have hall : written.filter (fun r => r.runId = runId) = written :=
    filter_eq_self.mpr fun r hr => by simpa using h.run r hr
  rw [LedgerState.recordsForRun, h.records, filter_append, hall, LedgerState.recordsForRun]

lemma recordsForRun_of_ne (h : Appended runId state state' written) {run : RunId}
    (hne : run ≠ runId) : state'.recordsForRun run = state.recordsForRun run := by
  have hnone : written.filter (fun r => r.runId = run) = [] :=
    filter_eq_nil_iff.mpr fun r hr => by simpa [h.run r hr] using Ne.symm hne
  rw [LedgerState.recordsForRun, h.records, filter_append, hnone, append_nil,
    LedgerState.recordsForRun]

end Appended

namespace LedgerState

lemma lastSequence_le (state : LedgerState V) (hi : state.Ordered) (runId : RunId) :
    state.lastSequence runId ≤ state.nextSequence := by
  unfold lastSequence
  cases hlast : (state.recordsForRun runId).getLast? with
  | none => simp
  | some r =>
    have hmem : r ∈ state.records := mem_of_mem_filter (mem_of_getLast? hlast)
    simpa using hi.bounded r hmem

/-- In an increasing list the last element is the maximum. -/
lemma foldl_max_of_sorted {l : List ℕ} (h : l.Pairwise (· < ·)) (start : ℕ)
    (hstart : ∀ q ∈ l, start ≤ q) : l.foldl max start = l.getLast?.getD start := by
  induction l generalizing start with
  | nil => rfl
  | cons q l ih =>
    obtain ⟨hhead, htail⟩ := pairwise_cons.mp h
    rw [foldl_cons, max_eq_right (hstart q mem_cons_self),
      ih htail q fun q' hq' => (hhead q' hq').le, List.getLast?_cons]
    rfl

lemma runSequence_eq_lastSequence {state : LedgerState V} (hi : state.Ordered)
    (runId : RunId) : state.runSequence runId = state.lastSequence runId := by
  have hsorted : ((state.recordsForRun runId).map (·.seq)).Pairwise (· < ·) :=
    pairwise_map.mpr (hi.sorted.filter _)
  rw [runSequence, lastSequence, foldl_max_of_sorted hsorted 0 (fun _ _ => Nat.zero_le _),
    List.getLast?_map]

end LedgerState

section Effects

variable {state : LedgerState V}

@[simp] lemma LedgerState.setLease_ordered {runId : RunId} {row : WorkflowMutationLeaseRow} :
    (state.setLease runId row).Ordered ↔ state.Ordered :=
  ⟨fun h => ⟨h.sorted, h.bounded⟩, fun h => ⟨h.sorted, h.bounded⟩⟩

@[simp] lemma LedgerState.setLease_lastSequence {runId run : RunId}
    {row : WorkflowMutationLeaseRow} :
    (state.setLease runId row).lastSequence run = state.lastSequence run := rfl

end Effects

end SolarisMesh.Ledger
