import SolarisMesh.Ledger.Stored
import Mathlib.Data.Finset.Card

/-!
# The tasks charged to a root

An admission counts the tasks of the root run and its descendants. The in-memory ledger compares
run ids byte for byte; the SQLite query lets letters match in either case, so it charges at least
as much. The runs of a tree agree in what stands before their first colon.
-/

namespace SolarisMesh.Ledger

open List Lib SolarisMesh.Types

/-! ## Run ids in a tree -/

variable {root : RunId} {tasks : List TaskRecord}

lemma isRootOrDescendant_iff {run : RunId} :
    isRootOrDescendant root run = true ↔ Names.InTree ':' run.toList root.toList := by
  simp only [isRootOrDescendant, Bool.or_eq_true, decide_eq_true_eq, isPrefixOf_iff_prefix,
    String.toList_append, Names.InTree, ← String.toList_inj]
  refine or_congr Iff.rfl ⟨?_, ?_⟩
  · rintro ⟨rest, hrest⟩
    exact ⟨rest, by rw [← hrest, append_assoc]; rfl⟩
  · rintro ⟨rest, hrest⟩
    exact ⟨rest, by rw [hrest, append_assoc]; rfl⟩

/-- What stands before the first colon of a run id. -/
def topRun (runId : RunId) : List Char := Names.top ':' runId.toList

/-- SQLite selects the runs that begin with the root and a colon, in any case. -/
lemma selectsRootOrDescendant_iff {run : RunId} :
    selectsRootOrDescendant root run = true ↔ run = root ∨ ∃ before, before <+: run.toList ∧
      before.map Like.foldCase = (root.toList ++ [':']).map Like.foldCase := by
  have hquote : Like.quote '\\' (root.toList ++ [':']) = Like.quote '\\' root.toList ++ [':'] := by
    simp [Like.quote]
  have hpattern :=
    Like.like_quote_iff '\\' (by decide) (root.toList ++ [':']) run.toList
  rw [hquote, append_assoc] at hpattern
  simp only [selectsRootOrDescendant, Bool.or_eq_true, decide_eq_true_eq]
  rw [Like.escapeChar_passes (by decide) (by decide)]
  exact or_congr Iff.rfl hpattern

lemma selects_of_isRootOrDescendant {run : RunId} (h : isRootOrDescendant root run = true) :
    selectsRootOrDescendant root run = true := by
  rw [selectsRootOrDescendant_iff]
  obtain hsame | ⟨rest, hrest⟩ := isRootOrDescendant_iff.1 h
  · exact .inl (String.toList_inj.1 hsame)
  · exact .inr ⟨root.toList ++ [':'], ⟨rest, by rw [hrest, append_assoc]; rfl⟩, rfl⟩

/-! ## Charged tasks -/

section Charged

variable {V : Type} [LedgerPayload V]

/-- The id of the task a record is about. -/
def LedgerRecord.taskId? (record : LedgerRecord V) : Option TaskId :=
  (LedgerPayload.toTask record.payload).map (·.taskId)

/-- The tasks charged to a root: those of the runs whose id is the root's or starts with it and a
colon, byte for byte. -/
def LedgerState.chargedTaskIds (state : LedgerState V) (rootRunId : RunId) : Finset TaskId :=
  ((state.taskRecords (isRootOrDescendant rootRunId)).filterMap LedgerRecord.taskId?).toFinset

variable {state : LedgerState V} {charged : List TaskRecord} {record : LedgerRecord V}

omit [LedgerPayload V] in
lemma LedgerState.mem_taskRecords {charged : RunId → Bool} : record ∈ state.taskRecords charged ↔
      record ∈ state.records ∧ charged record.runId = true ∧
        record.recordType = "task_created" := by
  simp [LedgerState.taskRecords]

/-- Whatever the backend, every task of the tree is among those it charges. -/
lemma mem_chargedTasks [LawfulLedgerPayload V] {backend : Backend} {batch : TaskAdmission V}
    (h : chargedTasks backend state batch = .ok charged)
    (hrecord : record ∈ state.taskRecords (isRootOrDescendant batch.rootRunId)) :
    ∃ task ∈ charged, record.taskId? = some task.taskId := by
  unfold LedgerRecord.taskId?
  cases backend with
  | inMemory =>
    obtain ⟨task, hmem, htask⟩ := exists_mem_of_mapM_eq_ok h ((mem_insertionSort _).2 hrecord)
    rw [decodeTask, orElseThrow_eq_ok] at htask
    exact ⟨task, hmem, by rw [htask]; rfl⟩
  | sqlite =>
    obtain ⟨hmem, htree, htype⟩ := LedgerState.mem_taskRecords.1 hrecord
    simp only [chargedTasks, existingRootTasksSqlite, bind_eq_ok, pure_eq_ok] at h
    obtain ⟨tasks, hread, _, _, rfl⟩ := h
    obtain ⟨task, hmem, htask⟩ := exists_mem_of_mapM_eq_ok hread
      (LedgerState.mem_taskRecords.2 ⟨hmem, selects_of_isRootOrDescendant htree, htype⟩)
    exact ⟨task, hmem, LawfulLedgerPayload.taskId_reread _ _ (orElseThrow_eq_ok.1 htask)⟩

lemma chargedTaskIds_subset [LawfulLedgerPayload V] {backend : Backend} {batch : TaskAdmission V}
    (h : chargedTasks backend state batch = .ok charged) :
    state.chargedTaskIds batch.rootRunId ⊆ (charged.map (·.taskId)).toFinset := by
  intro id hid
  simp only [LedgerState.chargedTaskIds, mem_toFinset, mem_filterMap] at hid
  obtain ⟨record, hrecord, hid⟩ := hid
  obtain ⟨task, hmem, htask⟩ := mem_chargedTasks h hrecord
  rw [hid] at htask
  rw [mem_toFinset, Option.some.inj htask]
  exact mem_map_of_mem hmem

end Charged

/-! ## The new tasks of a batch -/

variable {existing admitted : List TaskRecord}

lemma newTasks_eq_ok {batchIds : List TaskId}
    (h : newTasks existing batchIds tasks = .ok admitted) :
    (∀ task ∈ admitted, task.taskId ∉ existing.map (·.taskId) ∧ task.taskId ∉ batchIds) ∧
      (admitted.map (·.taskId)).Nodup ∧ admitted.Sublist tasks := by
  induction tasks generalizing batchIds admitted with
  | nil =>
    cases h
    simp
  | cons task tasks ih =>
    rw [newTasks] at h
    split at h
    · rw [check_bind_eq_ok] at h
      obtain ⟨hnew, hnodup, hsublist⟩ := ih h.2
      exact ⟨hnew, hnodup, hsublist.cons _⟩
    · next hnone =>
      simp only [require_eq_ok, decide_eq_true_eq, bind_eq_ok, pure_eq_ok] at h
      obtain ⟨_, hfresh, rest, hrest, rfl⟩ := h
      obtain ⟨hnew, hnodup, hsublist⟩ := ih hrest
      have hunknown : task.taskId ∉ existing.map (·.taskId) := by
        intro hmem
        obtain ⟨previous, hprevious, hid⟩ := mem_map.1 hmem
        have := List.find?_eq_none.1 hnone previous (mem_reverse.2 hprevious)
        simp [hid] at this
      refine ⟨fun t ht => ?_, nodup_cons.2 ⟨fun hmem => ?_, hnodup⟩, hsublist.cons_cons _⟩
      · obtain rfl | ht := mem_cons.1 ht
        · exact ⟨hunknown, hfresh⟩
        · exact ⟨(hnew t ht).1, fun hmem => (hnew t ht).2 (mem_cons_of_mem _ hmem)⟩
      · obtain ⟨other, hother, hid⟩ := mem_map.1 hmem
        exact (hnew other hother).2 (hid ▸ mem_cons_self)

lemma validateCollaborationBatch_eq_ok {max : ℕ}
    (h : validateCollaborationBatch existing max tasks = .ok admitted) :
    newTasks existing [] tasks = .ok admitted ∧
      (existing.map (·.taskId)).toFinset.card + admitted.length ≤ max := by
  simp only [validateCollaborationBatch, bind_eq_ok, require_eq_ok, decide_eq_true_eq,
    pure_eq_ok] at h
  obtain ⟨_, hnew, _, hcount, rfl⟩ := h
  exact ⟨hnew, by rwa [card_toFinset]⟩

end SolarisMesh.Ledger
