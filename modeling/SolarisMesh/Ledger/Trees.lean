import SolarisMesh.Ledger.Payload
import SolarisMesh.Ledger.Sequence
import SolarisMesh.Lib.Utf8

/-!
# The records of a tree of runs

The trait collects the records run by run and sorts them. SQLite selects them in one query, by a
range of run ids that are compared byte for byte. The trait reads back every row of the tree, the
queries read only what they select, and the greatest sequence no row at all.
-/

namespace SolarisMesh.Ledger

open List Lib SolarisMesh.Types LedgerState LedgerPayload

variable {V : Type} [LedgerPayload V]

/-- SQLite compares texts by their bytes. -/
def textLt (left right : String) : Bool :=
  decide (Utf8.encode left.toList < Utf8.encode right.toList)

/-- `run_id = ?1 OR (run_id >= ?2 AND run_id < ?3)` with the bounds of `tree_run_bounds`. -/
def selectsTree (rootRunId runId : RunId) : Bool :=
  runId = rootRunId || (!textLt runId (rootRunId ++ ":") && textLt runId (rootRunId ++ ";"))

namespace LedgerState

variable (state : LedgerState V) (rootRunId : RunId)

omit [LedgerPayload V] in
/-- `SELECT DISTINCT run_id … ORDER BY run_id`. -/
def runIds : List RunId :=
  (state.records.map (·.runId)).dedup.mergeSort fun left right => !textLt right left

/-- `records_for_run` of the SQLite ledger, and of its answer the records after a sequence. -/
def runAfter (afterSequence : ℕ) (runId : RunId) : IoResult (List (LedgerRecord V)) := do
  return (← querySqliteRecords (state.recordsForRun runId)).filter (afterSequence < ·.seq)

/-- The default of the trait. -/
def recordsAfterTree (afterSequence limit : ℕ) : IoResult (List (LedgerRecord V)) := do
  let records ← (state.runIds.filter (isRootOrDescendant rootRunId)).mapM
    (state.runAfter afterSequence)
  return (records.flatten.mergeSort fun left right => left.seq ≤ right.seq).take limit

/-- The default of the trait, with `usize::MAX` for the limit. -/
def lastSequenceTree : IoResult ℕ := do
  return ((← state.recordsAfterTree rootRunId 0 u64Max).getLast?.map (·.seq)).getD 0

/-- The query of the SQLite ledger, over rows in the order of their primary key. -/
def recordsAfterTreeSqlite (afterSequence limit : ℕ) : IoResult (List (LedgerRecord V)) :=
  if i64Max.toNat < afterSequence then .ok []
  else
    querySqliteRecords ((state.records.filter fun record =>
      afterSequence < record.seq && selectsTree rootRunId record.runId).take
        (min limit i64Max.toNat))

omit [LedgerPayload V] in
/-- `SELECT MAX(sequence)` over the tree, 0 without records. -/
def lastSequenceTreeSqlite : IoResult ℕ :=
  .ok (((state.records.filter (selectsTree rootRunId ·.runId)).map (·.seq)).foldl max 0)

end LedgerState

/-! ## The range of run ids -/

lemma isPrefixOf_encode_iff (start text : List Char) :
    Utf8.encode start <+: Utf8.encode text ↔ start <+: text := by
  constructor
  · rintro ⟨rest, hrest⟩
    have hdecoded := congrArg Utf8.decode hrest
    rw [Utf8.decode_encode_append, Utf8.decode_encode, Option.map_eq_some_iff] at hdecoded
    obtain ⟨more, -, hmore⟩ := hdecoded
    exact ⟨more, hmore⟩
  · rintro ⟨rest, rfl⟩
    exact ⟨_, (Utf8.encode_append start rest).symm⟩

/-- The range is the run ids that start with the root and a colon. -/
lemma selectsTree_eq (rootRunId : RunId) :
    selectsTree rootRunId = isRootOrDescendant rootRunId := by
  have hnext : ∀ c : UInt8, ¬ c < 58 → c < 59 → c = 58 := by
    intro c hge hlt
    rw [UInt8.lt_iff_toNat_lt] at hge hlt
    exact UInt8.toNat_inj.1 (Nat.le_antisymm (Nat.le_of_lt_succ hlt) (Nat.le_of_not_lt hge))
  funext runId
  have hbetween := Names.between_iff_initial UInt8.lt_irrefl (by decide) hnext
    (Utf8.encode rootRunId.toList) (Utf8.encode runId.toList)
  have hcolon : Utf8.encode (rootRunId ++ ":").toList = Utf8.encode rootRunId.toList ++ [58] := by
    rw [String.toList_append, Utf8.encode_append]
    rfl
  have hsemicolon : Utf8.encode (rootRunId ++ ";").toList =
      Utf8.encode rootRunId.toList ++ [59] := by
    rw [String.toList_append, Utf8.encode_append]
    rfl
  rw [Bool.eq_iff_iff, selectsTree, isRootOrDescendant, textLt, textLt, hsemicolon,
    Bool.or_eq_true, Bool.or_eq_true, isPrefixOf_iff_prefix, ← isPrefixOf_encode_iff, hcolon,
    ← hbetween]
  simp

/-! ## One query for all runs -/

lemma foldl_max_filter_pos (l : List ℕ) (start : ℕ) :
    (l.filter (0 < ·)).foldl max start = l.foldl max start := by
  induction l generalizing start with
  | nil => rfl
  | cons q l ih =>
    rw [filter_cons]
    split
    · exact ih _
    · next hzero =>
      obtain rfl : q = 0 := by simpa using hzero
      rw [ih, foldl_cons, Nat.max_zero]

/-- A row with the payload that its text reads back as. -/
def LedgerRecord.readBack (record : LedgerRecord V) : LedgerRecord V :=
  { record with payload := (LedgerPayload.reread record.payload).getD record.payload }

lemma querySqliteRecords_of_readable {records : List (LedgerRecord V)}
    (hreadable : ∀ record ∈ records, (reread record.payload).isSome = true) :
    querySqliteRecords records = .ok (records.map LedgerRecord.readBack) := by
  refine mapM_eq_ok.2 (forall₂_map_right_iff.2 (forall₂_same.2 fun record hrecord => ?_))
  obtain ⟨payload, hpayload⟩ := Option.isSome_iff_exists.1 (hreadable record hrecord)
  rw [decodeSqliteRecord, LedgerRecord.readBack, hpayload]
  rfl

lemma readable_of_querySqliteRecords {records found : List (LedgerRecord V)}
    (hfound : querySqliteRecords records = .ok found) :
    ∀ record ∈ records, (reread record.payload).isSome = true := by
  intro record hrecord
  obtain ⟨_, -, hdecoded⟩ := exists_mem_of_mapM_eq_ok hfound hrecord
  simp only [decodeSqliteRecord, bind_eq_ok, orElseThrow_eq_ok] at hdecoded
  obtain ⟨payload, hpayload, -⟩ := hdecoded
  exact Option.isSome_iff_exists.2 ⟨payload, hpayload⟩

namespace LedgerState

omit [LedgerPayload V] in
/-- The records of the root and of the runs below it with a larger sequence. -/
def treeAfter (state : LedgerState V) (rootRunId : RunId) (afterSequence : ℕ) :
    List (LedgerRecord V) :=
  state.records.filter fun record =>
    afterSequence < record.seq && isRootOrDescendant rootRunId record.runId

/-- The stored text of every payload of the tree can be read. -/
def TreeReadable (state : LedgerState V) (rootRunId : RunId) : Prop :=
  ∀ record ∈ state.records, isRootOrDescendant rootRunId record.runId = true →
    (reread record.payload).isSome = true

/-- Each run of the tree is read as a whole. -/
lemma treeReadable_of_recordsAfterTree {state : LedgerState V} {rootRunId : RunId}
    {afterSequence limit : ℕ} {found : List (LedgerRecord V)}
    (hfound : state.recordsAfterTree rootRunId afterSequence limit = .ok found) :
    state.TreeReadable rootRunId := by
  intro record hrecord htree
  have hrun : record.runId ∈ state.runIds.filter (isRootOrDescendant rootRunId) := by
    simp only [mem_filter, runIds, mem_mergeSort, mem_dedup, mem_map]
    exact ⟨⟨record, hrecord, rfl⟩, htree⟩
  obtain ⟨runs, hruns, -⟩ := bind_eq_ok.1 hfound
  obtain ⟨_, -, hquery⟩ := exists_mem_of_mapM_eq_ok hruns hrun
  obtain ⟨_, hrecords, -⟩ := bind_eq_ok.1 hquery
  exact readable_of_querySqliteRecords hrecords record
    (mem_filter.2 ⟨hrecord, decide_eq_true rfl⟩)

end LedgerState

section Trees

variable {state : LedgerState V} (hsorted : state.records.Pairwise (·.seq < ·.seq))
include hsorted

omit [LedgerPayload V] in
/-- The rows of the runs of the tree, sorted. -/
lemma rowsAfterTree_eq (rootRunId : RunId) (afterSequence : ℕ) :
    ((state.runIds.filter (isRootOrDescendant rootRunId)).flatMap fun runId =>
        (state.recordsForRun runId).filter (afterSequence < ·.seq)).mergeSort
          (fun left right => left.seq ≤ right.seq) =
      state.treeAfter rootRunId afterSequence := by
  have hnodup : state.records.Nodup := hsorted.imp fun h heq => by simp [heq] at h
  have hruns : state.runIds.Nodup :=
    (mergeSort_perm _ _).nodup_iff.2 (nodup_dedup _)
  refine @List.Perm.eq_of_pairwise _
    (fun left right => decide (left.seq ≤ right.seq) = true) _ _ ?_ (pairwise_mergeSort ?_ ?_ _)
    ((hsorted.filter _).imp fun h => decide_eq_true h.le)
    ((mergeSort_perm _ _).trans ((perm_ext_iff_of_nodup ?_ (hnodup.filter _)).2 ?_))
  · intro a b ha hb hab hba
    simp only [mem_mergeSort, mem_flatMap, recordsForRun, mem_filter]
      at ha
    obtain ⟨_, -, ⟨ha, -⟩, -⟩ := ha
    have hsequences := pairwise_map.2 (hsorted.imp Nat.ne_of_lt)
    exact inj_on_of_nodup_map hsequences ha (mem_filter.1 hb).1
      (Nat.le_antisymm (of_decide_eq_true hab) (of_decide_eq_true hba))
  · intro a b c
    simpa using Nat.le_trans
  · intro a b
    simpa using Nat.le_total a.seq b.seq
  · -- a record is of one run, and each run is visited once
    refine nodup_flatMap.2 ⟨fun _ _ => (hnodup.filter _).filter _, (hruns.filter _).imp ?_⟩
    intro left right hne record hleft hright
    simp only [recordsForRun, mem_filter, decide_eq_true_eq] at hleft hright
    exact hne (hleft.1.2.symm.trans hright.1.2)
  · intro record
    simp only [mem_flatMap, mem_filter, recordsForRun, runIds,
      mem_mergeSort, mem_dedup, mem_map, decide_eq_true_eq, Bool.and_eq_true]
    constructor
    · rintro ⟨runId, ⟨-, htree⟩, ⟨hmem, rfl⟩, hafter⟩
      exact ⟨hmem, hafter, htree⟩
    · rintro ⟨hmem, hafter, htree⟩
      exact ⟨_, ⟨⟨record, hmem, rfl⟩, htree⟩, ⟨hmem, rfl⟩, hafter⟩

lemma recordsAfterTree_eq {rootRunId : RunId} (hreadable : state.TreeReadable rootRunId)
    (afterSequence limit : ℕ) :
    state.recordsAfterTree rootRunId afterSequence limit =
      .ok (((state.treeAfter rootRunId afterSequence).take limit).map LedgerRecord.readBack) := by
  have hruns : (state.runIds.filter (isRootOrDescendant rootRunId)).mapM
        (state.runAfter afterSequence) =
      .ok ((state.runIds.filter (isRootOrDescendant rootRunId)).map fun runId =>
        ((state.recordsForRun runId).filter (afterSequence < ·.seq)).map
          LedgerRecord.readBack) := by
    refine mapM_eq_ok.2 (forall₂_map_right_iff.2 (forall₂_same.2 fun runId hrunId => ?_))
    rw [runAfter, querySqliteRecords_of_readable fun record hrecord => ?_]
    · exact congrArg Except.ok filter_map
    · obtain ⟨hmem, hrun⟩ := mem_filter.1 hrecord
      exact hreadable record hmem (of_decide_eq_true hrun ▸ (mem_filter.1 hrunId).2)
  have hsort (rows : List (LedgerRecord V)) : (rows.mergeSort fun left right =>
      left.seq ≤ right.seq).map LedgerRecord.readBack =
        (rows.map LedgerRecord.readBack).mergeSort fun left right => left.seq ≤ right.seq :=
    map_mergeSort fun _ _ _ _ => rfl
  rw [recordsAfterTree, hruns, ← rowsAfterTree_eq hsorted, map_take, hsort, map_flatMap,
    flatMap_def]
  rfl

omit [LedgerPayload V] in
/-- There are fewer sequences after a given one than SQLite can count. -/
lemma length_treeAfter_le (hfits : ∀ record ∈ state.records, record.seq ≤ i64Max.toNat)
    (rootRunId : RunId) (afterSequence : ℕ) :
    (state.treeAfter rootRunId afterSequence).length ≤ i64Max.toNat := by
  have hsequences : ((state.treeAfter rootRunId afterSequence).map (·.seq)).Nodup :=
    pairwise_map.2 ((hsorted.filter _).imp Nat.ne_of_lt)
  have hsubset : (state.treeAfter rootRunId afterSequence).map (·.seq) ⊆
      List.range' 1 i64Max.toNat := by
    intro sequence hsequence
    obtain ⟨record, hrecord, rfl⟩ := mem_map.1 hsequence
    obtain ⟨hmem, hselected⟩ := mem_filter.1 hrecord
    rw [Bool.and_eq_true, decide_eq_true_eq] at hselected
    have hle := hfits record hmem
    rw [mem_range'_1]
    omega
  have hlength := (hsequences.subperm hsubset).length_le
  rwa [length_map, length_range'] at hlength

end Trees

/-- Over the rows of the table in the order of their primary key, which is an `i64`, the queries
answer what the trait's defaults answer exactly if every row of the tree can be read. Both are then
the records of the tree after a sequence. -/
theorem tree_queries_agree_iff (state : LedgerState V)
    (hsorted : state.records.Pairwise (·.seq < ·.seq))
    (hfits : ∀ record ∈ state.records, record.seq ≤ i64Max.toNat) (rootRunId : RunId) :
    (((∀ afterSequence limit,
        state.recordsAfterTreeSqlite rootRunId afterSequence limit =
          state.recordsAfterTree rootRunId afterSequence limit) ∧
        state.lastSequenceTreeSqlite rootRunId = state.lastSequenceTree rootRunId) ↔
      state.TreeReadable rootRunId) ∧
    (state.TreeReadable rootRunId → ∀ afterSequence limit,
      state.recordsAfterTree rootRunId afterSequence limit =
        .ok (((state.treeAfter rootRunId afterSequence).take limit).map
          LedgerRecord.readBack)) := by
  refine ⟨⟨fun h => ?_, fun hreadable => ⟨fun afterSequence limit => ?_, ?_⟩⟩,
    fun hreadable => recordsAfterTree_eq hsorted hreadable⟩
  · -- the greatest sequence is always answered, so the default reads every row
    have hlast := h.2.symm
    rw [lastSequenceTreeSqlite, lastSequenceTree, bind_eq_ok] at hlast
    obtain ⟨_, hfound, -⟩ := hlast
    exact treeReadable_of_recordsAfterTree hfound
  · rw [recordsAfterTree_eq hsorted hreadable, recordsAfterTreeSqlite, selectsTree_eq]
    split
    · next hlarge =>
      -- no stored sequence is that large
      rw [treeAfter, filter_eq_nil_iff.2, take_nil, map_nil]
      intro record hrecord
      have hle := hfits record hrecord
      simp only [Bool.and_eq_true, decide_eq_true_eq]
      omega
    · have hlimit : (state.treeAfter rootRunId afterSequence).take (min limit i64Max.toNat) =
          (state.treeAfter rootRunId afterSequence).take limit := by
        rw [← take_take, take_of_length_le
          (length_treeAfter_le hsorted hfits rootRunId afterSequence)]
      rw [← hlimit]
      refine querySqliteRecords_of_readable fun record hrecord => ?_
      obtain ⟨hmem, hselected⟩ := mem_filter.1 (mem_of_mem_take hrecord)
      exact hreadable record hmem (Bool.and_eq_true_iff.1 hselected).2
  · have hseq : ((state.treeAfter rootRunId 0).map LedgerRecord.readBack).map (·.seq) =
        (state.treeAfter rootRunId 0).map (·.seq) := by
      rw [map_map]
      rfl
    have hlength := length_treeAfter_le hsorted hfits rootRunId 0
    rw [lastSequenceTree, recordsAfterTree_eq hsorted hreadable,
      take_of_length_le (hlength.trans (by decide)), lastSequenceTreeSqlite,
      selectsTree_eq, ← foldl_max_filter_pos, filter_map, filter_filter,
      foldl_max_of_sorted (pairwise_map.2 (hsorted.filter _)) 0
        (fun _ _ => Nat.zero_le _)]
    show _ = Except.ok _
    rw [← List.getLast?_map, hseq]
    rfl

/-- One record of the JSON ledger. -/
def plainRow (seq : ℕ) (runId : RunId) (payload : Json) : LedgerRecord Json :=
  ⟨1, seq, runId, 0, .syncCritical, "event", payload⟩

/-- Three runs, the last of which only starts like the root. -/
def threeRuns : LedgerState Json :=
  { empty Json with
    records := [plainRow 1 "r:a" .null, plainRow 2 "r" .null, plainRow 4 "r;" .null] }

theorem tree_queries_agree_threeRuns :
    threeRuns.recordsAfterTreeSqlite "r" 0 5 = threeRuns.recordsAfterTree "r" 0 5 ∧
      threeRuns.lastSequenceTreeSqlite "r" = threeRuns.lastSequenceTree "r" ∧
      threeRuns.lastSequenceTreeSqlite "r" = .ok 2 := by
  have hreadable : threeRuns.TreeReadable "r" := by
    intro record hrecord _
    simp only [threeRuns, mem_cons, not_mem_nil, or_false] at hrecord
    obtain rfl | rfl | rfl := hrecord <;> rfl
  obtain ⟨hrecords, hlast⟩ :=
    (tree_queries_agree_iff threeRuns (by decide) (by decide) "r").1.2 hreadable
  exact ⟨hrecords 0 5, hlast, by rfl⟩

/-- A payload that nests deeper than a text may, which is stored and never read again. -/
def deepRow : LedgerState Json :=
  { empty Json with records := [plainRow 1 "r" (nested 127)] }

theorem tree_queries_differ_deep :
    (deepRow.lastSequenceTreeSqlite "r").isOk = true ∧
      (deepRow.lastSequenceTree "r").isOk = false := by
  decide +kernel

end SolarisMesh.Ledger
