import SolarisMesh.Ledger.Charged
import SolarisMesh.Ledger.Payload

/-!
# Quotas of task admission

What holds of every history of admissions and other appends: an admission leaves at most its
limit of tasks charged to its root, a refused one leaves no trace, a repeated one writes nothing,
and a task has one payload in the tree of its run. The last needs that no task of an admission has
another payload above its root: an admission that names a descendant as its root does not see the
tasks above it.
-/

namespace SolarisMesh.Ledger

open LedgerState List Lib SolarisMesh.Types LedgerPayload LedgerRecord

variable {V : Type}

section Written

variable [LedgerPayload V] {backend : Backend} {state state' : LedgerState V}
  {batch : TaskAdmission V} {records : List (LedgerRecord V)}

/-- No record of a batch beside its tasks is one of a task. -/
def TaskAdmission.PlainAdditional (batch : TaskAdmission V) : Prop :=
  ∀ p ∈ batch.additional, p.1 ≠ .ephemeral → p.2.1 ≠ "task_created"

/-- The task records an admission writes are those of its new tasks. -/
lemma ofTask_of_mem_written {admitted : List TaskRecord} {existing : List (LedgerRecord V)}
    (hplain : batch.PlainAdditional)
    (hcontent : records.map content =
      admitted.map taskCreated ++ batch.additional.filter (isKept existing))
    {record : LedgerRecord V} (hmem : record ∈ records)
    (htype : record.recordType = "task_created") :
    ∃ task ∈ admitted, record.payload = ofTask task := by
  have hpending : record.content ∈ admitted.map taskCreated ++
      batch.additional.filter (isKept existing) := hcontent ▸ mem_map_of_mem hmem
  rcases mem_append.1 hpending with hnew | hkept
  · obtain ⟨task, htask, heq⟩ := mem_map.1 hnew
    exact ⟨task, htask, (congrArg (·.2.2) heq).symm⟩
  · obtain ⟨hadditional, hkept⟩ := mem_filter.1 hkept
    have hdurable : record.content.1 ≠ .ephemeral := by
      simp only [isKept, Bool.and_eq_true, decide_eq_true_eq] at hkept
      exact hkept.1
    exact absurd htype (hplain _ hadditional hdurable)

lemma LedgerState.mem_chargedTaskIds {root : RunId} {id : TaskId} :
    id ∈ state.chargedTaskIds root ↔
      ∃ record ∈ state.taskRecords (isRootOrDescendant root), record.taskId? = some id := by
  simp [LedgerState.chargedTaskIds]

/-! ## The limit, and a repeated admission -/

/-- The tasks and the durable records of a batch stand in the ledger already. -/
structure TaskAdmission.AlreadyAdmitted (batch : TaskAdmission V) (state : LedgerState V) :
    Prop where
  tasks : ∀ task ∈ batch.tasks, ∃ record ∈ state.taskRecords (isRootOrDescendant batch.rootRunId),
    toTask record.payload = some task
  additional : ∀ p ∈ batch.additional, p.1 ≠ .ephemeral →
    ∃ record ∈ state.recordsForRun batch.runId, record.recordType = p.2.1 ∧
      same record.payload p.2.2 = true

/-- The stored batch markers of a run are read back as equal values. -/
def LedgerState.MarkersReadBack (state : LedgerState V) (runId : RunId) : Prop :=
  ∀ record ∈ state.recordsForRun runId, record.recordType = "collaboration_batch_prepared" →
    ∀ payload, reread record.payload = some payload →
      same payload record.payload = true

/-- What a backend reads of a run has an equal marker for each stored one. -/
lemma mem_existingMetadata {existing : List (LedgerRecord V)} {runId : RunId}
    (hread : state.MarkersReadBack runId)
    (h : existingMetadata backend state runId = .ok existing) {record : LedgerRecord V}
    (hmem : record ∈ state.recordsForRun runId)
    (htype : record.recordType = "collaboration_batch_prepared") :
    ∃ found ∈ existing, found.recordType = record.recordType ∧
      same found.payload record.payload = true := by
  cases backend with
  | inMemory =>
    cases h
    exact ⟨record, hmem, rfl, same_refl _⟩
  | sqlite =>
    obtain ⟨found, hfound, hdecoded⟩ := exists_mem_of_mapM_eq_ok h hmem
    simp only [decodeSqliteRecord, bind_eq_ok, orElseThrow_eq_ok, pure_eq_ok] at hdecoded
    obtain ⟨payload, hpayload, rfl⟩ := hdecoded
    exact ⟨_, hfound, rfl, hread record hmem htype payload hpayload⟩

variable [LawfulLedgerPayload V]

/-- After an admission the root has at most the limit of tasks. -/
lemma card_chargedTaskIds_le
    (hpending : admissionPending backend state batch = .ok (records.map content))
    (hstored : StoredRecords batch.runId state state' records) (hplain : batch.PlainAdditional) :
    (state'.chargedTaskIds batch.rootRunId).card ≤ batch.maxTasks := by
  obtain ⟨charged, existing, admitted, hcharged, -, hvalid, hcontent⟩ :=
    admissionPending_eq_ok hpending
  obtain ⟨-, hcount⟩ := validateCollaborationBatch_eq_ok hvalid
  have hsubset : state'.chargedTaskIds batch.rootRunId ⊆
      (charged.map (·.taskId)).toFinset ∪ (admitted.map (·.taskId)).toFinset := by
    intro id hid
    obtain ⟨record, hrecord, hid⟩ := mem_chargedTaskIds.1 hid
    obtain ⟨hmem, htree, htype⟩ := mem_taskRecords.1 hrecord
    rw [hstored.records] at hmem
    rcases mem_append.1 hmem with hold | hnew
    · refine Finset.mem_union_left _ (chargedTaskIds_subset hcharged ?_)
      exact mem_chargedTaskIds.2
        ⟨record, mem_taskRecords.2 ⟨hold, htree, htype⟩, hid⟩
    · obtain ⟨task, htask, hpayload⟩ := ofTask_of_mem_written hplain hcontent hnew htype
      rw [taskId?, hpayload, LawfulLedgerPayload.taskId_ofTask] at hid
      rw [← Option.some.inj hid]
      exact Finset.mem_union_right _ (mem_toFinset.2 (mem_map_of_mem htask))
  calc (state'.chargedTaskIds batch.rootRunId).card
      ≤ (charged.map (·.taskId)).toFinset.card + (admitted.map (·.taskId)).toFinset.card :=
        (Finset.card_le_card hsubset).trans (Finset.card_union_le _ _)
    _ ≤ (charged.map (·.taskId)).toFinset.card + admitted.length :=
        Nat.add_le_add_left ((toFinset_card_le _).trans (length_map _).le) _
    _ ≤ batch.maxTasks := hcount

/-- A repeated admission writes the durable records that are no batch markers, and no others. -/
lemma written_of_alreadyAdmitted (hread : state.MarkersReadBack batch.runId)
    (hrepeated : batch.AlreadyAdmitted state)
    (hpending : admissionPending backend state batch = .ok (records.map content)) :
    records.map content = batch.additional.filter fun p =>
      p.1 ≠ .ephemeral && p.2.1 ≠ "collaboration_batch_prepared" := by
  obtain ⟨charged, existing, admitted, hcharged, hexisting, hvalid, hcontent⟩ :=
    admissionPending_eq_ok hpending
  obtain ⟨hnew, -, hsublist⟩ := newTasks_eq_ok (validateCollaborationBatch_eq_ok hvalid).1
  have hknown : ∀ task ∈ batch.tasks, task.taskId ∈ charged.map (·.taskId) := by
    intro task htask
    obtain ⟨record, hrecord, hdecoded⟩ := hrepeated.tasks task htask
    obtain ⟨found, hfound, hid⟩ := mem_chargedTasks hcharged hrecord
    rw [taskId?, hdecoded] at hid
    exact mem_map.2 ⟨found, hfound, (Option.some.inj hid).symm⟩
  have hnone : admitted = [] := eq_nil_iff_forall_not_mem.2 fun task htask =>
    (hnew task htask).1 (hknown task (hsublist.subset htask))
  rw [hcontent, hnone, map_nil, nil_append]
  refine filter_congr fun p hp => ?_
  obtain ⟨durability, recordType, payload⟩ := p
  by_cases hdurable : durability = .ephemeral
  · simp [isKept, hdurable]
  by_cases hmarker : recordType = "collaboration_batch_prepared"
  · -- the marker is found in what the run holds
    subst hmarker
    obtain ⟨record, hrecord, htype, hsame⟩ := hrepeated.additional _ hp hdurable
    obtain ⟨found, hfound, htype', hsame'⟩ :=
      mem_existingMetadata hread hexisting hrecord htype
    have hany : existing.any (fun record =>
        record.recordType = "collaboration_batch_prepared" &&
          same record.payload payload) = true :=
      any_eq_true.2 ⟨found, hfound, by
        rw [Bool.and_eq_true, decide_eq_true_eq]
        exact ⟨htype'.trans htype, LawfulLedgerPayload.same_trans _ _ _ hsame' hsame⟩⟩
    simp [isKept, hany]
  · simp [isKept, hdurable, hmarker]

end Written

/-! ## One payload for each task -/

section Unique

variable [LedgerPayload V] {backend : Backend} {state state' : LedgerState V}
  {batch : TaskAdmission V} {records : List (LedgerRecord V)}

/-- The records of a task in one tree have one payload. -/
def LedgerState.OnePayloadPerTask (state : LedgerState V) : Prop :=
  ∀ r ∈ state.records, ∀ r' ∈ state.records, r.recordType = "task_created" →
    r'.recordType = "task_created" → topRun r.runId = topRun r'.runId →
    ∀ id, r.taskId? = some id → r'.taskId? = some id → r.payload = r'.payload

lemma LedgerState.OnePayloadPerTask.subset (h : state.OnePayloadPerTask)
    (hsubset : ∀ r ∈ state'.records, r.recordType = "task_created" → r ∈ state.records) :
    state'.OnePayloadPerTask := fun r hr r' hr' htype htype' =>
  h r (hsubset r hr htype) r' (hsubset r' hr' htype') htype htype'

/-- The tree of the run has no other payload for a task of the batch outside the tree of the root,
where the admission does not look. -/
def TaskAdmission.AgreesAbove (batch : TaskAdmission V) (state : LedgerState V) : Prop :=
  ∀ task ∈ batch.tasks, ∀ r ∈ state.records, r.recordType = "task_created" →
    topRun r.runId = topRun batch.runId → isRootOrDescendant batch.rootRunId r.runId = false →
      r.taskId? = some task.taskId → r.payload = ofTask task

/-- An admission to a run writes no task that its tree has with another payload. -/
lemma LedgerState.OnePayloadPerTask.admitted [LawfulLedgerPayload V]
    (h : state.OnePayloadPerTask)
    (hpending : admissionPending backend state batch = .ok (records.map content))
    (hstored : StoredRecords batch.runId state state' records) (hplain : batch.PlainAdditional)
    (habove : batch.AgreesAbove state) : state'.OnePayloadPerTask := by
  obtain ⟨charged, existing, admitted, hcharged, -, hvalid, hcontent⟩ :=
    admissionPending_eq_ok hpending
  obtain ⟨hfresh, hnodup, hsublist⟩ := newTasks_eq_ok (validateCollaborationBatch_eq_ok hvalid).1
  have hwritten : ∀ r ∈ records, r.recordType = "task_created" → ∃ task ∈ admitted,
      r.payload = ofTask task ∧ r.taskId? = some task.taskId := by
    intro r hr htype
    obtain ⟨task, htask, hpayload⟩ := ofTask_of_mem_written hplain hcontent hr htype
    exact ⟨task, htask, hpayload, by
      rw [taskId?, hpayload, LawfulLedgerPayload.taskId_ofTask]⟩
  -- an old record below the root is charged, so no new task has its id
  have hagrees : ∀ r ∈ state.records, ∀ r' ∈ records, r.recordType = "task_created" →
      r'.recordType = "task_created" → topRun r.runId = topRun r'.runId →
      ∀ id, r.taskId? = some id → r'.taskId? = some id → r.payload = r'.payload := by
    intro r hr r' hr' htype htype' htop id hid hid'
    obtain ⟨task', htask', hpayload', htaskId'⟩ := hwritten r' hr' htype'
    have hid : r.taskId? = some task'.taskId := hid.trans (hid'.symm.trans htaskId')
    by_cases htree : isRootOrDescendant batch.rootRunId r.runId = true
    · obtain ⟨task, htask, htaskId⟩ :=
        mem_chargedTasks hcharged (mem_taskRecords.2 ⟨hr, htree, htype⟩)
      have hsame : task'.taskId = task.taskId := Option.some.inj (hid.symm.trans htaskId)
      exact absurd (hsame ▸ mem_map_of_mem htask) (hfresh task' htask').1
    · rw [hpayload']
      rw [hstored.run r' hr'] at htop
      exact habove task' (hsublist.subset htask') r hr htype htop (Bool.eq_false_iff.2 htree) hid
  intro r hr r' hr' htype htype' htop id hid hid'
  rw [hstored.records] at hr hr'
  rcases mem_append.1 hr with hr | hr <;> rcases mem_append.1 hr' with hr' | hr'
  · exact h r hr r' hr' htype htype' htop id hid hid'
  · exact hagrees r hr r' hr' htype htype' htop id hid hid'
  · exact (hagrees r' hr' r hr htype' htype htop.symm id hid' hid).symm
  · obtain ⟨task, htask, hpayload, htaskId⟩ := hwritten r hr htype
    obtain ⟨task', htask', hpayload', htaskId'⟩ := hwritten r' hr' htype'
    have hsame : task.taskId = task'.taskId := by
      rw [hid] at htaskId
      rw [hid'] at htaskId'
      rw [← Option.some.inj htaskId, Option.some.inj htaskId']
    rw [hpayload, hpayload', inj_on_of_nodup_map hnodup htask htask' hsame]

end Unique

/-! ## Whole histories -/

/-- An admission brings no task that has another payload where it does not look, and no record but
batch markers a second time; only its tasks are written as task records. -/
structure LedgerCall.Accountable [LedgerPayload V] (state : LedgerState V) (call : LedgerCall V) :
    Prop where
  above : ∀ batch lease, call.asAdmission = some (batch, lease) → batch.AgreesAbove state
  repeated : ∀ batch lease, call.asAdmission = some (batch, lease) →
    batch.AlreadyAdmitted state → ∀ p ∈ batch.additional, p.1 ≠ .ephemeral →
      p.2.1 = "collaboration_batch_prepared"
  readBack : ∀ batch lease, call.asAdmission = some (batch, lease) →
    state.MarkersReadBack batch.runId
  plain : ∀ batch lease, call.asAdmission = some (batch, lease) → batch.PlainAdditional
  noTasks : ∀ runId recordType, call.appendsTo = some (runId, recordType) →
    recordType ≠ "task_created"

section Histories

variable [DecidableEq V] [LedgerPayload V] [LawfulLedgerPayload V] {backend : Backend}
  {state : LedgerState V} {call : LedgerCall V}

lemma onePayloadPerTask_next (h : state.OnePayloadPerTask) (hcall : call.Accountable state) :
    ((ledgerMachine V backend).next state call).OnePayloadPerTask := by
  have hstores : Stores backend state call ((ledgerMachine V backend).next state call) :=
    execute_stores backend state call
  generalize (ledgerMachine V backend).next state call = state' at hstores ⊢
  cases hstores with
  | kept hstored =>
    refine h.subset fun r hr _ => ?_
    rwa [hstored.records, append_nil] at hr
  | appended happends hstored htype =>
    refine h.subset fun r hr hrtype => ?_
    rw [hstored.records] at hr
    rcases mem_append.1 hr with hr | hr
    · exact hr
    · exact absurd ((htype r hr).symm.trans hrtype) (hcall.noTasks _ _ happends)
  | admitted hadmission hpending hstored hcontent =>
    subst hcontent
    exact h.admitted hpending hstored (hcall.plain _ _ hadmission) (hcall.above _ _ hadmission)
  | deleted hrecords hcounter =>
    refine h.subset fun r hr _ => ?_
    rw [hrecords] at hr
    exact mem_of_mem_filter hr

/-- The quota holds, a refusal leaves no trace and a repeated admission writes nothing. -/
lemma admission_next {batch : TaskAdmission V} {lease : Option (WorkflowMutationLease × ℤ)}
    (hcall : call.Accountable state) (hadmission : call.asAdmission = some (batch, lease)) :
    (∀ records, (ledgerMachine V backend).answer state call = .ok (.records records) →
      (((ledgerMachine V backend).next state call).chargedTaskIds batch.rootRunId).card ≤
          batch.maxTasks ∧
        (batch.AlreadyAdmitted state → records = [] ∧
          ((ledgerMachine V backend).next state call).records = state.records)) ∧
      ∀ e, (ledgerMachine V backend).answer state call = .error e →
        (ledgerMachine V backend).next state call = state := by
  obtain ⟨clock, hexecute⟩ := execute_admission backend state hadmission
  simp only [Machine.answer, Machine.next, ledgerMachine, hexecute, answered]
  rcases hresult : RuntimeLedger.admitTasksAndAppend backend state batch lease clock with
    ⟨state', e | records⟩
  · refine ⟨fun records h => (by cases h), fun e' h => ?_⟩
    exact admitTasksAndAppend_refused hresult
  · refine ⟨fun records' h => ?_, fun e h => (by cases h)⟩
    cases h
    obtain ⟨hstored, hpending, -⟩ := admitTasksAndAppend_stored hresult
    refine ⟨card_chargedTaskIds_le hpending hstored (hcall.plain _ _ hadmission),
      fun hrepeated => ?_⟩
    have hwritten := written_of_alreadyAdmitted (hcall.readBack batch lease hadmission) hrepeated
      hpending
    have hnone : batch.additional.filter (fun p =>
        p.1 ≠ .ephemeral && p.2.1 ≠ "collaboration_batch_prepared") = [] := by
      refine filter_eq_nil_iff.2 fun p hp => ?_
      simp only [Bool.and_eq_true, decide_eq_true_eq, not_and, not_not]
      exact hcall.repeated batch lease hadmission hrepeated p hp
    rw [hnone] at hwritten
    obtain rfl := map_eq_nil_iff.1 hwritten
    exact ⟨rfl, by rw [hstored.records, append_nil]⟩

/-- In every history of accountable calls each admission keeps the quota of its root, is refused
without a trace, and writes nothing when it is repeated; and a task has one payload in a tree. -/
theorem accountable_admissions_sound {calls : List (LedgerCall V)}
    (hcalls : ∀ x ∈ (ledgerMachine V backend).trace (.empty V) calls,
      x.event.Accountable x.before)
    {x : Machine.Step (LedgerState V) (LedgerCall V) (LedgerAnswer V)}
    (hx : x ∈ (ledgerMachine V backend).trace (.empty V) calls) :
    (∀ batch lease, x.event.asAdmission = some (batch, lease) →
      (∀ records, x.answer = .ok (.records records) →
        (x.after.chargedTaskIds batch.rootRunId).card ≤ batch.maxTasks ∧
          (batch.AlreadyAdmitted x.before → records = [] ∧ x.after.records = x.before.records)) ∧
        ∀ e, x.answer = .error e → x.after = x.before) ∧
      ∀ root, ∀ r ∈ x.after.taskRecords (isRootOrDescendant root),
        ∀ r' ∈ x.after.taskRecords (isRootOrDescendant root), ∀ id,
          r.taskId? = some id → r'.taskId? = some id → r.payload = r'.payload := by
  have hbefore : x.before.OnePayloadPerTask :=
    Machine.trace_invariant (fun _ _ => onePayloadPerTask_next)
      (by simp [LedgerState.OnePayloadPerTask, LedgerState.empty]) hcalls x hx
  have hcall := hcalls x hx
  rw [Machine.eq_stepAt_of_mem_trace _ hx]
  refine ⟨fun batch lease hadmission => admission_next hcall hadmission, ?_⟩
  intro root r hr r' hr' id hid hid'
  obtain ⟨hmem, htree, htype⟩ := mem_taskRecords.1 hr
  obtain ⟨hmem', htree', htype'⟩ := mem_taskRecords.1 hr'
  have htop : topRun r.runId = topRun r'.runId :=
    (isRootOrDescendant_iff.1 htree).top_eq.trans (isRootOrDescendant_iff.1 htree').top_eq.symm
  exact onePayloadPerTask_next hbefore hcall r hmem r' hmem' htype htype' htop id hid hid'

end Histories

/-! ## Two histories -/

/-- A queued task without a Team. -/
def plainTask (taskId : TaskId) (role : Option String) : TaskRecord where
  runId := "a"
  taskId := taskId
  revision := 0
  taskKey := none
  teamId := none
  workflowId := none
  nodeId := none
  role := role
  dependsOn := []
  content := none
  expectedWriteScope := []
  ownerAgentId := none
  state := .queued
  outcomeRef := none
  failureClass := none

/-- The admission of one task. -/
def admitOne (rootRunId runId : RunId) (maxTasks : ℕ) (task : TaskRecord) : LedgerCall Json :=
  .admission ⟨rootRunId, runId, maxTasks, [task], [], fun _ => 0⟩ 0

/-- A Team is prepared by an admission without tasks. -/
def prepareTeam : LedgerCall Json :=
  .admission ⟨"a", "a", 0, [],
    [(.syncCritical, "collaboration_team_prepared", .object [("teams", .array [])])],
    fun _ => 0⟩ 0

lemma accountable_admission {state : LedgerState Json} {batch : TaskAdmission Json} (clock : ℤ)
    (habove : ∀ task ∈ batch.tasks, ∀ r ∈ state.records, r.recordType = "task_created" →
      topRun r.runId = topRun batch.runId → isRootOrDescendant batch.rootRunId r.runId = false →
        r.taskId? = some task.taskId → r.payload = ofTask task)
    (hnew : ∀ p ∈ batch.additional, p.2.1 ≠ "task_created" ∧
      ∀ r ∈ state.recordsForRun batch.runId, r.recordType ≠ p.2.1) :
    (LedgerCall.admission batch clock).Accountable state where
  above _ _ h := by
    cases h
    exact habove
  repeated _ _ h hrepeated p hp hdurable := by
    cases h
    obtain ⟨r, hr, htype, -⟩ := hrepeated.additional p hp hdurable
    exact absurd htype ((hnew p hp).2 r hr)
  readBack _ _ _ := by
    intro record _ _ payload hread
    obtain ⟨-, hsame⟩ := Option.ite_none_right_eq_some.1 hread
    rw [Option.some.inj hsame]
    exact same_refl _
  plain _ _ h p hp _ := by
    cases h
    exact (hnew p hp).1
  noTasks _ _ h := by cases h

/-- A Team is prepared, a task admitted twice under the top of its run, and another one under a
descendant as root. -/
def repeatedAdmission : List (LedgerCall Json) :=
  [prepareTeam, admitOne "a" "a:b" 1 (plainTask "t" none), admitOne "a" "a:b" 1
    (plainTask "t" none), admitOne "a:b:c" "a:b:c" 1 (plainTask "u" none)]

theorem repeated_admission_sound :
    (∀ x ∈ (ledgerMachine Json .sqlite).trace (.empty Json) repeatedAdmission,
      x.event.Accountable x.before) ∧
      ∀ x ∈ (ledgerMachine Json .sqlite).trace (.empty Json) repeatedAdmission,
        ∀ batch lease, x.event.asAdmission = some (batch, lease) →
          ∀ records, x.answer = .ok (.records records) →
            (x.after.chargedTaskIds batch.rootRunId).card ≤ batch.maxTasks := by
  have hcalls : ∀ x ∈ (ledgerMachine Json .sqlite).trace (.empty Json) repeatedAdmission,
      x.event.Accountable x.before := by
    intro x hx
    simp only [repeatedAdmission, Machine.trace_cons, Machine.trace_nil, mem_cons,
      not_mem_nil, or_false] at hx
    rcases hx with rfl | rfl | rfl | rfl <;>
      exact accountable_admission 0 (by decide +kernel) (by decide +kernel)
  exact ⟨hcalls, fun x hx batch lease hbatch records hanswer =>
    (((accountable_admissions_sound hcalls hx).1 batch lease hbatch).1 records hanswer).1⟩

/-- A task is admitted under its run, then another of its id under a descendant as root. -/
def nestedRoots : List (LedgerCall Json) :=
  [admitOne "a" "a" 1 (plainTask "t" none), admitOne "a:b" "a:b" 1
    (plainTask "t" (some "reviewer"))]

/-- An admission whose root is a descendant does not see the tasks above it. -/
theorem nested_roots_bind_task_twice :
    ¬ ∀ (backend : Backend) (calls : List (LedgerCall Json)) (root : RunId),
      let final := (ledgerMachine Json backend).run (.empty Json) calls
      ∀ r ∈ final.taskRecords (isRootOrDescendant root),
        ∀ r' ∈ final.taskRecords (isRootOrDescendant root), ∀ id,
          r.taskId? = some id → r'.taskId? = some id → r.payload = r'.payload := by
  intro h
  have hbound : ∃ r ∈ ((ledgerMachine Json .sqlite).run (.empty Json) nestedRoots).taskRecords
        (isRootOrDescendant "a"),
      ∃ r' ∈ ((ledgerMachine Json .sqlite).run (.empty Json) nestedRoots).taskRecords
        (isRootOrDescendant "a"),
      r.taskId? = some "t" ∧ r'.taskId? = some "t" ∧ r.payload ≠ r'.payload := by
    decide +kernel
  obtain ⟨r, hr, r', hr', hid, hid', hne⟩ := hbound
  exact hne (h .sqlite nestedRoots "a" r hr r' hr' "t" hid hid')

-- only batch markers are recognised: a repeated preparation is written again
example : ((ledgerMachine Json .sqlite).run (.empty Json) [prepareTeam, prepareTeam]).records.map
    content =
      [(.syncCritical, "collaboration_team_prepared", .object [("teams", .array [])]),
        (.syncCritical, "collaboration_team_prepared", .object [("teams", .array [])])] := by
  decide +kernel

end SolarisMesh.Ledger
