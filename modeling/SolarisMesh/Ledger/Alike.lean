import SolarisMesh.Ledger.Quota

/-!
# The two backends take the same admissions

Two ledgers are alike when they hold the same records but for the time stamps. From alike ledgers
an admission is accepted or refused by both backends and writes the same records, as long as the
texts in SQLite read back as they were written and no run of another letter case is in the way.
-/

namespace SolarisMesh.Ledger

open LedgerState List Lib SolarisMesh.Types LedgerPayload

variable {V : Type}

/-- A record without its time stamp. -/
def LedgerRecord.untimed (record : LedgerRecord V) : LedgerRecord V :=
  { record with timestampUnixMs := 0 }

/-- The same records but for the time stamps, and the same counter. -/
structure Alike (left right : LedgerState V) : Prop where
  records : left.records.map LedgerRecord.untimed = right.records.map LedgerRecord.untimed
  counter : left.nextSequence = right.nextSequence

section Alike

open LedgerRecord (untimed)

variable {left right : LedgerState V}

lemma filter_untimed {l l' : List (LedgerRecord V)}
    (h : l.map untimed = l'.map untimed) (p : LedgerRecord V → Bool)
    (hp : ∀ r, p r.untimed = p r) :
    (l.filter p).map untimed = (l'.filter p).map untimed := by
  have hfilter : ∀ l : List (LedgerRecord V), (l.filter p).map untimed =
      (l.map untimed).filter p := by
    intro l
    rw [filter_map]
    exact congrArg _ (filter_congr fun r _ => (hp r).symm)
  rw [hfilter, h, ← hfilter]

/-- What does not depend on the time stamp is the same of alike records. -/
lemma map_untimed {β : Type} {l l' : List (LedgerRecord V)}
    (h : l.map untimed = l'.map untimed) (f : LedgerRecord V → β)
    (hf : ∀ r, f r.untimed = f r) : l.map f = l'.map f := by
  have hmap : ∀ l : List (LedgerRecord V), l.map f = (l.map untimed).map f := by
    intro l
    rw [map_map]
    exact map_congr_left fun r _ => (hf r).symm
  rw [hmap, h, ← hmap]

lemma Alike.recordsForRun (h : Alike left right) (runId : RunId) :
    (left.recordsForRun runId).map untimed =
      (right.recordsForRun runId).map untimed :=
  filter_untimed h.records _ fun _ => rfl

/-- What the records of a run are like in one ledger, they are like in the other. -/
lemma Alike.forall_run (h : Alike left right) {runId : RunId} {P : String → V → Prop}
    (hright : ∀ r ∈ right.recordsForRun runId, P r.recordType r.payload) :
    ∀ r ∈ left.recordsForRun runId, P r.recordType r.payload := by
  intro r hr
  obtain ⟨r', hr', hsame⟩ := mem_map.1 (h.recordsForRun runId ▸ mem_map_of_mem hr)
  obtain ⟨-, -, -, -, -, htype, hpayload⟩ := LedgerRecord.mk.inj hsame
  exact htype ▸ hpayload ▸ hright r' hr'

lemma Alike.taskPayloads (h : Alike left right) (charged : RunId → Bool) :
    (left.taskRecords charged).map (·.payload) = (right.taskRecords charged).map (·.payload) :=
  map_untimed (filter_untimed h.records _ fun _ => rfl) _ fun _ => rfl

lemma Alike.insertRecord (h : Alike left right) (seq : ℕ) (runId : RunId) (time time' : ℤ)
    (durability : DurabilityClass) (recordType : String) (payload : V) :
    Alike (left.insertRecord seq runId time durability recordType payload).1
        (right.insertRecord seq runId time' durability recordType payload).1 ∧
      (left.insertRecord seq runId time durability recordType payload).2.untimed =
        (right.insertRecord seq runId time' durability recordType payload).2.untimed :=
  ⟨⟨by simp [LedgerState.insertRecord, h.records, untimed], rfl⟩, rfl⟩

lemma Alike.pushPending (h : Alike left right) (runId : RunId) (time time' : ℤ)
    (pending : List (PendingRecord V)) :
    Alike (pushPending runId time left pending).1 (pushPending runId time' right pending).1 ∧
      (Ledger.pushPending runId time left pending).2.map untimed =
        (Ledger.pushPending runId time' right pending).2.map untimed := by
  induction pending generalizing left right with
  | nil => exact ⟨h, rfl⟩
  | cons head pending ih =>
    obtain ⟨durability, recordType, payload⟩ := head
    obtain ⟨hinserted, hrecord⟩ := h.insertRecord (left.nextSequence + 1) runId time time'
      durability recordType payload
    have hright : right.insertRecord (left.nextSequence + 1) runId time' durability recordType
        payload = right.insertRecord (right.nextSequence + 1) runId time' durability recordType
        payload := by rw [h.counter]
    rw [hright] at hinserted hrecord
    obtain ⟨hfinal, hrecords⟩ := ih hinserted
    exact ⟨hfinal, congrArg₂ List.cons hrecord hrecords⟩

end Alike

/-! ## The order of the charged tasks does not matter -/

section Order

lemma find?_eq_of_perm {α : Type} {p : α → Bool} {l l' : List α} (hperm : l.Perm l')
    (hunique : ∀ a ∈ l, ∀ b ∈ l, p a = true → p b = true → a = b) : l.find? p = l'.find? p := by
  cases h : l.find? p with
  | none =>
    refine (List.find?_eq_none.2 fun a ha => ?_).symm
    exact List.find?_eq_none.1 h a (hperm.mem_iff.2 ha)
  | some a =>
    have hp := List.find?_some h
    have ha := mem_of_find?_eq_some h
    exact (find?_eq_some_of_unique (hperm.mem_iff.1 ha) hp fun b hb hb' =>
      hunique b (hperm.mem_iff.2 hb) a ha hb' hp).symm

/-- No two of the tasks have one id. -/
def Consistent (tasks : List TaskRecord) : Prop :=
  ∀ a ∈ tasks, ∀ b ∈ tasks, a.taskId = b.taskId → a = b

variable {existing : List TaskRecord}

lemma newTasks_perm {existing' : List TaskRecord} (hperm : existing.Perm existing')
    (hconsistent : Consistent existing) (tasks : List TaskRecord) (batchIds : List TaskId) :
    newTasks existing batchIds tasks = newTasks existing' batchIds tasks := by
  induction tasks generalizing batchIds with
  | nil => rfl
  | cons task tasks ih =>
    have hfind : existing.reverse.find? (fun t => decide (t.taskId = task.taskId)) =
        existing'.reverse.find? (fun t => decide (t.taskId = task.taskId)) := by
      refine find?_eq_of_perm
        ((reverse_perm existing).trans (hperm.trans (reverse_perm existing').symm)) ?_
      intro a ha b hb hida hidb
      refine hconsistent a (mem_reverse.1 ha) b (mem_reverse.1 hb) ?_
      rw [of_decide_eq_true hida, of_decide_eq_true hidb]
    rw [newTasks, newTasks, hfind]
    split
    · rw [ih]
    · rw [ih]

lemma requireUniqueTasks_of_consistent {seen tasks : List TaskRecord}
    (h : Consistent (seen ++ tasks)) : requireUniqueTasks seen tasks = .ok () := by
  induction tasks generalizing seen with
  | nil => rfl
  | cons task tasks ih =>
    have hfound : (seen.find? (·.taskId = task.taskId)).all (· = task) = true := by
      cases hfind : seen.find? (·.taskId = task.taskId) with
      | none => rfl
      | some previous =>
        have hmem := mem_of_find?_eq_some hfind
        have hid := List.find?_some hfind
        simp only [decide_eq_true_eq] at hid
        exact decide_eq_true (h previous (mem_append_left _ hmem) task (by simp) hid)
    have hrest : requireUniqueTasks (task :: seen) tasks = .ok () := by
      refine ih fun a ha b hb => h a ?_ b ?_
      · simpa [or_left_comm] using ha
      · simpa [or_left_comm] using hb
    rw [requireUniqueTasks, hfound, hrest]
    rfl

end Order

/-! ## One admission -/

variable {state : LedgerState V}

section Admission

open LedgerRecord (untimed)

variable [LedgerPayload V]

/-- An admission finds the same in both backends: no run of another letter case has tasks, the
tasks of the tree are read back and agree, the records of the run are read back, and there is
room for the new records. -/
@[mk_iff]
structure TaskAdmission.Settled (batch : TaskAdmission V) (state : LedgerState V) : Prop where
  caseMatters : ∀ r ∈ state.taskRecords (selectsRootOrDescendant batch.rootRunId),
    isRootOrDescendant batch.rootRunId r.runId = true
  tasksReadBack : ∀ r ∈ state.taskRecords (isRootOrDescendant batch.rootRunId),
    rereadTask r.payload = toTask r.payload
  tasksAgree : Consistent
    ((state.taskRecords (isRootOrDescendant batch.rootRunId)).filterMap
      fun r => toTask r.payload)
  runReadBack : ∀ r ∈ state.recordsForRun batch.runId,
    reread r.payload = some r.payload
  room : state.nextSequence + batch.tasks.length + batch.additional.length ≤ i64Max.toNat

/-- The tasks of the runs that `charged` selects. -/
def LedgerState.tasksOf (state : LedgerState V) (charged : RunId → Bool) : List TaskRecord :=
  (state.taskRecords charged).filterMap fun r => toTask r.payload

/-- Every task record of the selected runs is one of a task. -/
def LedgerState.tasksDecode (state : LedgerState V) (charged : RunId → Bool) : Bool :=
  (state.taskRecords charged).all fun r => (toTask r.payload : Option _).isSome

variable {left right : LedgerState V} {batch : TaskAdmission V}

lemma Alike.tasksOf (h : Alike left right) (charged : RunId → Bool) :
    left.tasksOf charged = right.tasksOf charged := by
  have hpayloads : ∀ state : LedgerState V, state.tasksOf charged =
      ((state.taskRecords charged).map (·.payload)).filterMap toTask := by
    intro state
    rw [filterMap_map]
    rfl
  rw [hpayloads, h.taskPayloads, ← hpayloads]

lemma Alike.tasksDecode (h : Alike left right) (charged : RunId → Bool) :
    left.tasksDecode charged = right.tasksDecode charged := by
  have hpayloads : ∀ state : LedgerState V, state.tasksDecode charged =
      ((state.taskRecords charged).map (·.payload)).all
        fun v => (toTask v : Option _).isSome := by
    intro state
    rw [all_map]
    rfl
  rw [hpayloads, h.taskPayloads, ← hpayloads]

/-- The in-memory ledger charges the tasks of the tree, in some order. -/
lemma existingRootTasksInMemory_eq (state : LedgerState V) (visit : RunId → ℕ) (root : RunId) :
    ∃ charged, charged.Perm (state.tasksOf (isRootOrDescendant root)) ∧
      existingRootTasksInMemory state visit root =
        if state.tasksDecode (isRootOrDescendant root) then .ok charged
        else .error (otherError "decode task_created payload") := by
  have hperm := perm_insertionSort (fun a b : LedgerRecord V => visit a.runId ≤ visit b.runId)
    (state.taskRecords (isRootOrDescendant root))
  refine ⟨_, hperm.filterMap (fun r => toTask r.payload), ?_⟩
  have hall := hperm.all_eq (f := fun r => (toTask r.payload : Option _).isSome)
  rw [LedgerState.tasksDecode, ← hall]
  exact mapM_orElseThrow _ (fun r : LedgerRecord V => toTask r.payload) _

/-- SQLite charges the same tasks in the order of their records. -/
lemma existingRootTasksSqlite_eq (h : batch.Settled state) :
    existingRootTasksSqlite state batch.rootRunId =
      if state.tasksDecode (isRootOrDescendant batch.rootRunId) then
        .ok (state.tasksOf (isRootOrDescendant batch.rootRunId))
      else .error (otherError "decode task_created payload") := by
  have hselected : state.taskRecords (selectsRootOrDescendant batch.rootRunId) =
      state.taskRecords (isRootOrDescendant batch.rootRunId) := by
    refine filter_congr fun r hr => ?_
    by_cases htype : r.recordType = "task_created"
    · have hiff : selectsRootOrDescendant batch.rootRunId r.runId = true ↔
          isRootOrDescendant batch.rootRunId r.runId = true :=
        ⟨fun hselects => h.caseMatters r (mem_taskRecords.2 ⟨hr, hselects, htype⟩),
          selects_of_isRootOrDescendant⟩
      rw [Bool.eq_iff_iff.2 hiff]
    · simp [htype]
  have hall : (state.taskRecords (isRootOrDescendant batch.rootRunId)).all
      (fun r => (rereadTask r.payload : Option _).isSome) =
        state.tasksDecode (isRootOrDescendant batch.rootRunId) := by
    rw [Bool.eq_iff_iff, LedgerState.tasksDecode, all_eq_true, all_eq_true]
    exact forall₂_congr fun r hr => by rw [h.tasksReadBack r hr]
  have htasks : (state.taskRecords (isRootOrDescendant batch.rootRunId)).filterMap
      (fun r => rereadTask r.payload) =
        state.tasksOf (isRootOrDescendant batch.rootRunId) :=
    filterMap_congr fun r hr => h.tasksReadBack r hr
  unfold existingRootTasksSqlite
  rw [hselected, mapM_orElseThrow, hall, htasks]
  split
  · have hunique : requireUniqueTasks [] (state.tasksOf (isRootOrDescendant batch.rootRunId)) =
        .ok () := requireUniqueTasks_of_consistent h.tasksAgree
    exact congrArg₂ Except.bind hunique rfl
  · rfl

lemma prepareAdditionalRecords_untimed {existing existing' : List (LedgerRecord V)}
    (h : existing.map untimed = existing'.map untimed) (runId : RunId)
    (tasks : List TaskRecord) (additional : List (PendingRecord V)) :
    prepareAdditionalRecords runId existing tasks additional =
      prepareAdditionalRecords runId existing' tasks additional := by
  have huntimed : ∀ existing : List (LedgerRecord V),
      prepareAdditionalRecords runId existing tasks additional =
        prepareAdditionalRecords runId (existing.map untimed) tasks additional := by
    intro existing
    unfold prepareAdditionalRecords collaborationMetadataFromRecords
    simp only [foldlM_map, any_map]
    rfl
  rw [huntimed, h, ← huntimed]

/-- Both backends prepare the same records, or refuse with the same error. -/
lemma admissionPending_agree (h : Alike left right) (hsettled : batch.Settled right) :
    admissionPending .inMemory left batch = admissionPending .sqlite right batch := by
  obtain ⟨charged, hperm, hcharged⟩ :=
    existingRootTasksInMemory_eq left batch.visit batch.rootRunId
  have hmetadata : existingMetadataSqlite right batch.runId =
      .ok (right.recordsForRun batch.runId) := by
    refine mapM_eq_ok.2 (forall₂_same.2 fun r hr => ?_)
    rw [decodeSqliteRecord, hsettled.runReadBack r hr]
    rfl
  show admissionRecordsInMemory left batch.visit batch.rootRunId batch.runId batch.maxTasks
    batch.tasks batch.additional = admissionRecordsSqlite right batch.rootRunId batch.runId
      batch.maxTasks batch.tasks batch.additional
  rw [h.tasksOf] at hperm
  have hconsistent : Consistent charged := fun a ha b hb =>
    hsettled.tasksAgree a (hperm.mem_iff.1 ha) b (hperm.mem_iff.1 hb)
  unfold admissionRecordsInMemory admissionRecordsSqlite
  rw [hcharged, existingRootTasksSqlite_eq hsettled, h.tasksDecode]
  by_cases hdecode : right.tasksDecode (isRootOrDescendant batch.rootRunId) = true
  · rw [if_pos hdecode, if_pos hdecode]
    show admissionRecords charged (.ok (left.recordsForRun batch.runId)) batch.runId
      batch.maxTasks batch.tasks batch.additional = admissionRecords _
        (existingMetadataSqlite right batch.runId) batch.runId batch.maxTasks batch.tasks
        batch.additional
    unfold admissionRecords
    have hcount : (charged.map (·.taskId)).dedup.length = _ := (hperm.map _).dedup.length_eq
    unfold validateCollaborationBatch
    rw [hmetadata, newTasks_perm hperm hconsistent, hcount]
    simp only [Except.bind, bind, prepareAdditionalRecords_untimed (h.recordsForRun batch.runId)]
  · rw [if_neg hdecode, if_neg hdecode]
    rfl

/-- There is room for what an admission prepared. -/
lemma length_pending_le (hsettled : batch.Settled right) {pending : List (PendingRecord V)}
    (h : admissionPending .sqlite right batch = .ok pending) :
    right.nextSequence + pending.length ≤ i64Max.toNat := by
  obtain ⟨charged, existing, admitted, -, -, hvalid, rfl⟩ := admissionPending_eq_ok h
  have hadmitted := (newTasks_eq_ok (validateCollaborationBatch_eq_ok hvalid).1).2.2.length_le
  have hkept := length_filter_le (isKept existing) batch.additional
  have hroom := hsettled.room
  rw [length_append, length_map]
  omega

lemma u64CheckedAdd_of_le {a b : ℕ} (h : a + b ≤ i64Max.toNat) :
    u64CheckedAdd a b = some (a + b) := by
  have hmax : i64Max.toNat ≤ u64Max := by decide
  exact if_pos (h.trans hmax)

/-- Both backends take the admission and push the same records, or refuse it. -/
lemma admitTasksAndAppend_agree (h : Alike left right) (hsettled : batch.Settled right)
    (clock : ℤ) :
    Alike (RuntimeLedger.admitTasksAndAppend .inMemory left batch none clock).1
        (RuntimeLedger.admitTasksAndAppend .sqlite right batch none clock).1 ∧
      (RuntimeLedger.admitTasksAndAppend .inMemory left batch none clock).2.map
          (List.map untimed) =
        (RuntimeLedger.admitTasksAndAppend .sqlite right batch none clock).2.map
          (List.map untimed) := by
  have hagree := admissionPending_agree h hsettled
  simp only [RuntimeLedger.admitTasksAndAppend, admitTasksAndAppendInMemoryInner,
    admitTasksAndAppendSqliteInner, checkAdmissionInMemory, validateWorkflowMutationLease, hagree]
  cases hpending : admissionPending .sqlite right batch with
  | error e => exact ⟨h, rfl⟩
  | ok pending =>
    have hroom := length_pending_le hsettled hpending
    have hroom' : u64CheckedAdd left.nextSequence pending.length =
        some (left.nextSequence + pending.length) := u64CheckedAdd_of_le (h.counter ▸ hroom)
    obtain ⟨hpushed, hrecords⟩ := h.pushPending batch.runId clock clock pending
    simp only [bind, Except.bind, pure, Except.pure, hroom', orElseThrow,
      appendPending_eq allocateSqliteSequence_eq, if_pos (Or.inr hroom), committed]
    exact ⟨hpushed, congrArg Except.ok hrecords⟩

end Admission

/-! ## Sequences of admissions -/

def LeaseAnswer.untimed : LeaseAnswer V → LeaseAnswer V
  | .record stored => .record stored.untimed
  | .records stored => .records (stored.map LedgerRecord.untimed)
  | answer => answer

open LeaseAnswer (untimed)

section Sequences

variable [DecidableEq V] [LedgerPayload V]

/-- The tasks charged are those of the runs in the tree of the root. -/
def ChargesTree (backend : Backend) (state : LedgerState V) (batch : TaskAdmission V) : Prop :=
  ∀ charged, chargedTasks backend state batch = .ok charged →
    ∀ task, task ∈ charged ↔
      ∃ r ∈ state.records, r.recordType = "task_created" ∧
        (r.runId = batch.rootRunId ∨ (batch.rootRunId ++ ":").toList <+: r.runId.toList) ∧
        toTask r.payload = some task

omit [DecidableEq V] in
lemma LedgerState.mem_tasksOf {root : RunId} {task : TaskRecord} :
    task ∈ state.tasksOf (isRootOrDescendant root) ↔
      ∃ r ∈ state.records, r.recordType = "task_created" ∧
        (r.runId = root ∨ (root ++ ":").toList <+: r.runId.toList) ∧
        toTask r.payload = some task := by
  simp only [LedgerState.tasksOf, mem_filterMap, mem_taskRecords,
    isRootOrDescendant, Bool.or_eq_true, decide_eq_true_eq, isPrefixOf_iff_prefix]
  constructor
  · rintro ⟨r, ⟨hr, htree, htype⟩, htask⟩
    exact ⟨r, hr, htype, htree, htask⟩
  · rintro ⟨r, hr, htype, htree, htask⟩
    exact ⟨r, ⟨hr, htree, htype⟩, htask⟩

omit [DecidableEq V] in
lemma chargesTree_inMemory (state : LedgerState V) (batch : TaskAdmission V) :
    ChargesTree .inMemory state batch := by
  intro charged hcharged task
  obtain ⟨charged', hperm, hequation⟩ :=
    existingRootTasksInMemory_eq state batch.visit batch.rootRunId
  have hsame : charged' = charged := by
    have h : existingRootTasksInMemory state batch.visit batch.rootRunId = .ok charged := hcharged
    rw [hequation] at h
    split at h
    · exact Except.ok.inj h
    · cases h
  rw [← mem_tasksOf, ← hsame, hperm.mem_iff]

/-- Along every sequence of settled admissions, alike ledgers of the two backends accept and
refuse the same, write the same records, and charge a root with the tasks of its tree. -/
theorem settled_admissions_agree {left right : LedgerState V} (hstart : Alike left right)
    (batches : List (TaskAdmission V × ℤ))
    (hsettled : ∀ y ∈ (ledgerMachine V .sqlite).trace right
        (batches.map fun b => .admission b.1 b.2),
      ∀ batch lease, y.event.asAdmission = some (batch, lease) → batch.Settled y.before) :
    List.Forall₂ (fun x y =>
        x.answer.map untimed = y.answer.map untimed ∧
        Alike x.after y.after ∧
        ∀ batch lease, y.event.asAdmission = some (batch, lease) →
          ChargesTree .inMemory x.before batch ∧ ChargesTree .sqlite y.before batch)
      ((ledgerMachine V .inMemory).trace left (batches.map fun b => .admission b.1 b.2))
      ((ledgerMachine V .sqlite).trace right (batches.map fun b => .admission b.1 b.2)) := by
  refine Machine.trace_forall₂ (R := Alike)
    (C := fun state event => ∃ batch clock, event = .admission batch clock ∧ batch.Settled state)
    ?_ hstart fun y hy => ?_
  · rintro s t _ halike ⟨batch, clock, rfl, hbatch⟩
    obtain ⟨hnext, hrecords⟩ := admitTasksAndAppend_agree halike hbatch clock
    refine ⟨hnext, ?_, hnext, fun batch' lease hevent => ?_⟩
    · have htag : ∀ result : IoResult (List (LedgerRecord V)),
          (result.map LeaseAnswer.records).map untimed =
            (result.map (List.map LedgerRecord.untimed)).map LeaseAnswer.records := by
        rintro (e | records) <;> rfl
      exact (htag _).trans ((congrArg _ hrecords).trans (htag _).symm)
    · cases hevent
      refine ⟨chargesTree_inMemory s batch, fun charged hcharged task => ?_⟩
      have h : existingRootTasksSqlite t batch.rootRunId = .ok charged := hcharged
      rw [existingRootTasksSqlite_eq hbatch] at h
      split at h
      · rw [← Except.ok.inj h]
        exact mem_tasksOf
      · cases h
  · obtain ⟨⟨batch, clock⟩, -, heq⟩ := mem_map.1 (Machine.event_mem_of_mem_trace _ hy)
    exact ⟨batch, clock, heq.symm, hsettled y hy batch none (by rw [← heq]; rfl)⟩

end Sequences

instance (batch : TaskAdmission Json) (state : LedgerState Json) : Decidable
    (batch.Settled state) :=
  have : ∀ tasks, Decidable (Consistent tasks) := fun tasks =>
    inferInstanceAs (Decidable (∀ a ∈ tasks, ∀ b ∈ tasks, a.taskId = b.taskId → a = b))
  decidable_of_iff' _ (TaskAdmission.settled_iff batch state)

/-- A task of another tree, one below the root, and one of the root, which repeats the second. -/
def treeOfTasks : List (TaskAdmission Json × ℤ) :=
  [(⟨"c", "c:d", 1, [plainTask "t" none], [], fun _ => 0⟩, 0),
    (⟨"a", "a:b", 1, [plainTask "t" none], [], fun _ => 0⟩, 0),
    (⟨"a", "a", 2, [plainTask "t" none, plainTask "u" none], [], fun _ => 0⟩, 0)]

/-- The last admission finds the task of the run below its root, and both backends accept it. -/
theorem tree_of_tasks_agrees :
    let calls := treeOfTasks.map fun b => LedgerCall.admission b.1 b.2
    ((ledgerMachine Json .sqlite).trace (.empty Json) calls).map (fun y =>
        ((y.before.taskRecords (isRootOrDescendant "a")).length, y.answer.isOk)) =
          [(0, true), (0, true), (1, true)] ∧
      List.Forall₂ (fun x y => x.answer.map untimed = y.answer.map untimed)
        ((ledgerMachine Json .inMemory).trace (.empty Json) calls)
        ((ledgerMachine Json .sqlite).trace (.empty Json) calls) := by
  have halike : Alike (LedgerState.empty Json) (.empty Json) := ⟨rfl, rfl⟩
  have hagree := settled_admissions_agree halike treeOfTasks fun y hy batch lease hevent => by
    simp only [treeOfTasks, map_cons, map_nil, Machine.trace_cons, Machine.trace_nil, mem_cons,
      not_mem_nil, or_false] at hy
    rcases hy with rfl | rfl | rfl <;> cases hevent <;> decide +kernel
  exact ⟨by decide +kernel, hagree.imp fun x y h => h.1⟩

/-- A task below the run `R`, then one of the run `r` alone. -/
def letterCases : List (LedgerCall Json) :=
  [admitOne "R" "R:x" 1 (plainTask "t" none), admitOne "r" "r" 1 (plainTask "u" none)]

/-- SQLite charges `r` with the task of `R:x` and refuses what the in-memory ledger accepts. -/
theorem letter_case_splits_backends :
    ¬ ∀ calls : List (LedgerCall Json), (∀ call ∈ calls, call.asAdmission.isSome) →
      List.Forall₂ (fun x y => x.answer.isOk = y.answer.isOk)
        ((ledgerMachine Json .inMemory).trace (.empty Json) calls)
        ((ledgerMachine Json .sqlite).trace (.empty Json) calls) := by
  intro h
  have hsame := h letterCases (by decide)
  revert hsame
  decide +kernel

end SolarisMesh.Ledger
