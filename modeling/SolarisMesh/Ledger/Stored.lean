import SolarisMesh.Ledger.Calls

/-!
# What a call stores

Every call keeps the records, appends records to one run, or deletes a run. An appended record
is durable and has the type the call names; the records of an admission are those its check
prepared.
-/

namespace SolarisMesh.Ledger

open List Lib SolarisMesh.Types RuntimeLedger

variable {V : Type}

/-- What a call chose of a record; the ledger adds the rest. -/
def LedgerRecord.content (record : LedgerRecord V) : PendingRecord V :=
  (record.durability, record.recordType, record.payload)

/-- Durable records of one run were appended. Below the last sequence there is, the new ones
follow all earlier ones. -/
structure StoredRecords (runId : RunId) (state state' : LedgerState V)
    (written : List (LedgerRecord V)) : Prop where
  records : state'.records = state.records ++ written
  run : ∀ r ∈ written, r.runId = runId
  durable : ∀ r ∈ written, r.durability ≠ .ephemeral
  counter : state.nextSequence < u64Max → state.nextSequence ≤ state'.nextSequence
  sequences : state.nextSequence < u64Max →
    ∀ r ∈ written, state.nextSequence < r.seq ∧ r.seq ≤ state'.nextSequence
  sorted : state.nextSequence < u64Max → written.Pairwise (·.seq < ·.seq)

lemma StoredRecords.of_appended {runId : RunId} {state middle state' : LedgerState V}
    {written : List (LedgerRecord V)} (h : Appended runId state middle written)
    (hdurable : ∀ r ∈ written, r.durability ≠ .ephemeral)
    (hrecords : state'.records = middle.records)
    (hcounter : state'.nextSequence = middle.nextSequence) :
    StoredRecords runId state state' written where
  records := hrecords.trans h.records
  run := h.run
  durable := hdurable
  counter _ := hcounter ▸ h.counter
  sequences _ := hcounter ▸ h.sequences
  sorted _ := h.sorted

/-- The run a call appends to and the type of what it appends; an admission apart. -/
def LedgerCall.appendsTo : LedgerCall V → Option (RunId × String)
  | .append runId _ recordType _ _ => some (runId, recordType)
  | .compareAndAppend runId _ recordType _ _ _ => some (runId, recordType)
  | .leased (.append lease _ _ recordType _) => some (lease.runId, recordType)
  | .leased (.compareAndAppend lease _ _ recordType _ _ _) => some (lease.runId, recordType)
  | _ => none

/-! ## Appends -/

section Appends

variable {state state' : LedgerState V} {runId : RunId} {durability : DurabilityClass}
  {recordType : String} {payload : V} {clock : ℤ} {record : LedgerRecord V}

lemma storedRecords_nil (runId : RunId) (hrecords : state'.records = state.records)
    (hcounter : state'.nextSequence = state.nextSequence) :
    StoredRecords runId state state' [] :=
  .of_appended (.refl runId state) (by simp) hrecords hcounter

lemma storedRecords_insert {seq : ℕ} (hseq : seq = state.nextSequence + 1)
    (hdurable : durability ≠ .ephemeral)
    (hrecords : state'.records =
      (state.insertRecord seq runId clock durability recordType payload).1.records)
    (hcounter : state'.nextSequence = seq) :
    StoredRecords runId state state'
      [(state.insertRecord seq runId clock durability recordType payload).2] :=
  .of_appended (appended_insertRecord state runId clock durability recordType payload hseq)
    (by simpa [LedgerState.insertRecord] using hdurable) hrecords hcounter

variable {backend : Backend}

/-- A plain append stores its record unless that is ephemeral. -/
lemma append_stored
    (h : append backend state runId durability recordType payload clock =
      .ok (state', record)) : record.recordType = recordType ∧
      (durability = .ephemeral ∧ state' = state ∨
        durability ≠ .ephemeral ∧ StoredRecords runId state state' [record]) := by
  unfold append at h
  by_cases hephemeral : durability = .ephemeral
  · subst hephemeral
    cases backend with
    | inMemory =>
      simp only [appendInMemory, ne_eq, not_true_eq_false, if_false, Except.ok.injEq,
        Prod.mk.injEq] at h
      obtain ⟨rfl, rfl⟩ := h
      exact ⟨rfl, .inl ⟨rfl, rfl⟩⟩
    | sqlite =>
      simp only [appendSqlite, if_true, bind_eq_ok, pure_eq_ok, Prod.mk.injEq] at h
      obtain ⟨seq, _, rfl, rfl⟩ := h
      exact ⟨rfl, .inl ⟨rfl, rfl⟩⟩
  · cases backend with
    | inMemory =>
      simp only [appendInMemory, ne_eq, hephemeral, not_false_eq_true, if_true, Except.ok.injEq,
        Prod.mk.injEq] at h
      obtain ⟨rfl, rfl⟩ := h
      refine ⟨rfl, .inr ⟨hephemeral, ⟨rfl, by simp [LedgerState.insertRecord],
        by simpa [LedgerState.insertRecord] using hephemeral, ?_, ?_, ?_⟩⟩⟩
      all_goals
        intro hroom
        have hseq : u64SaturatingAdd state.nextSequence 1 = state.nextSequence + 1 :=
          Nat.min_eq_right hroom
        simp [LedgerState.insertRecord, hseq]
    | sqlite =>
      simp only [appendSqlite, hephemeral, if_false, bind_eq_ok, pure_eq_ok] at h
      obtain ⟨seq, hseq, h⟩ := h
      obtain ⟨rfl, rfl⟩ := Prod.mk.inj h
      exact ⟨rfl, .inr ⟨hephemeral,
        storedRecords_insert (allocateSqliteSequence_eq_ok hseq) hephemeral rfl rfl⟩⟩

/-- A logical append stores nothing or its record, under either backend. -/
lemma compareAndAppend_stored [DecidableEq V] [LedgerPayload V] {fields : List String}
    (h : compareAndAppend backend state runId durability recordType fields payload
      clock = .ok (state', record)) : durability ≠ .ephemeral ∧
    ∃ written, StoredRecords runId state state' written ∧
      ∀ r ∈ written, r.recordType = recordType := by
  obtain ⟨hdurable, written, happ, hlogical⟩ : durability ≠ .ephemeral ∧
      ∃ written, Appended runId state state' written ∧ ∀ r ∈ written, r.Logical recordType := by
    cases backend with
    | inMemory => exact compareAndAppendInMemoryLocked_appended h
    | sqlite => exact (compareAndAppendSqliteTransaction_appended h).imp_right And.left
  exact ⟨hdurable, written, .of_appended happ (fun r hr => (hlogical r hr).1) rfl rfl,
    fun r hr => (hlogical r hr).2⟩

lemma Fenced.stored {lease : WorkflowMutationLease} {now : ℤ} {extending : Bool}
    {written : List (LedgerRecord V)} (h : Fenced lease now extending written state state')
    (hdurable : ∀ r ∈ written, r.durability ≠ .ephemeral) :
    StoredRecords lease.runId state state' written := by
  obtain ⟨row, row', middle, -, -, -, -, happ, rfl, -⟩ := h.used
  exact .of_appended happ hdurable rfl rfl

lemma pushPending_appended (runId : RunId) (timestamp : ℤ) (pending : List (PendingRecord V))
    (state : LedgerState V) :
    Appended runId state (pushPending runId timestamp state pending).1
        (pushPending runId timestamp state pending).2 ∧
      (pushPending runId timestamp state pending).2.map LedgerRecord.content = pending := by
  induction pending generalizing state with
  | nil => exact ⟨.refl runId state, rfl⟩
  | cons head pending ih =>
    obtain ⟨durability, recordType, payload⟩ := head
    obtain ⟨happ, hcontent⟩ := ih
      (state.insertRecord (state.nextSequence + 1) runId timestamp durability recordType payload).1
    refine ⟨(appended_insertRecord state runId timestamp durability recordType payload rfl).trans
      happ, ?_⟩
    exact congrArg₂ List.cons rfl hcontent

end Appends

/-! ## Admissions -/

variable [LedgerPayload V]

section Admissions

/-- The additional record is one to write: it is durable, and no batch marker the run already
holds. -/
def isKept (existing : List (LedgerRecord V)) : PendingRecord V → Bool
  | (durability, recordType, payload) =>
    durability ≠ .ephemeral && !(recordType = "collaboration_batch_prepared" &&
      existing.any fun record => record.recordType = recordType &&
        LedgerPayload.same record.payload payload)

/-- The tasks the backend charges to the root of an admission. -/
def chargedTasks (backend : Backend) (state : LedgerState V) (batch : TaskAdmission V) :
    IoResult (List TaskRecord) :=
  match backend with
  | .inMemory => existingRootTasksInMemory state batch.visit batch.rootRunId
  | .sqlite => existingRootTasksSqlite state batch.rootRunId

/-- The records of the run as the backend reads them. -/
def existingMetadata (backend : Backend) (state : LedgerState V) (runId : RunId) :
    IoResult (List (LedgerRecord V)) :=
  match backend with
  | .inMemory => .ok (state.recordsForRun runId)
  | .sqlite => existingMetadataSqlite state runId

def taskCreated (task : TaskRecord) : PendingRecord V :=
  (.syncCritical, "task_created", LedgerPayload.ofTask task)

variable {backend : Backend} {state state' : LedgerState V} {batch : TaskAdmission V}

lemma prepareAdditionalRecords_eq_ok {runId : RunId} {existing : List (LedgerRecord V)}
    {tasks : List TaskRecord} {additional kept : List (PendingRecord V)}
    (h : prepareAdditionalRecords runId existing tasks additional = .ok kept) :
    kept = additional.filter (isKept existing) := by
  unfold prepareAdditionalRecords at h
  split at h
  · next hnone =>
    -- without a marker only the ephemeral records are left out
    rw [← pure_eq_ok.1 h]
    refine filter_congr fun x hx => ?_
    have htype : x.2.1 ≠ "collaboration_batch_prepared" := by
      intro heq
      simp only [Bool.not_eq_true', any_eq_false, decide_eq_true_eq] at hnone
      exact hnone x hx heq
    simp [isKept, htype]
  · simp only [bind_eq_ok, pure_eq_ok] at h
    obtain ⟨durable, _, metadata, _, _, _, rfl⟩ := h
    rfl

variable {pending : List (PendingRecord V)} {lease : Option (WorkflowMutationLease × ℤ)}

/-- An admission writes the new tasks of the batch, then its additional records. -/
lemma admissionPending_eq_ok (h : admissionPending backend state batch = .ok pending) :
    ∃ charged existing admitted, chargedTasks backend state batch = .ok charged ∧
      existingMetadata backend state batch.runId = .ok existing ∧
      validateCollaborationBatch charged batch.maxTasks batch.tasks = .ok admitted ∧
      pending = admitted.map taskCreated ++ batch.additional.filter (isKept existing) := by
  unfold admissionPending at h
  cases backend with
  | inMemory | sqlite =>
    simp only [admissionRecordsInMemory, admissionRecordsSqlite, admissionRecords, bind_eq_ok,
      pure_eq_ok] at h
    obtain ⟨charged, hcharged, admitted, hadmitted, existing, hexisting, kept, hkept, rfl⟩ := h
    exact ⟨charged, existing, admitted, hcharged, hexisting, hadmitted,
      by rw [prepareAdditionalRecords_eq_ok hkept]; rfl⟩

lemma admissionPending_durable (h : admissionPending backend state batch = .ok pending) :
    ∀ p ∈ pending, p.1 ≠ .ephemeral := by
  obtain ⟨_, existing, admitted, -, -, -, rfl⟩ := admissionPending_eq_ok h
  intro p hp
  rcases mem_append.1 hp with hp | hp
  · obtain ⟨task, -, rfl⟩ := mem_map.1 hp
    simp [taskCreated]
  · have := (mem_filter.1 hp).2
    simp only [isKept, Bool.and_eq_true, decide_eq_true_eq] at this
    exact this.1

/-- The admission stored what its check prepared, each record under a sequence of its own. -/
structure Admitted (backend : Backend) (state : LedgerState V) (batch : TaskAdmission V)
    (records : List (LedgerRecord V)) (state' : LedgerState V) : Prop where
  stored : StoredRecords batch.runId state state' records
  pending : admissionPending backend state batch = .ok (records.map LedgerRecord.content)
  counter : state'.nextSequence = state.nextSequence + records.length

/-- What an admission pushes is stored, each record under a sequence of its own. -/
lemma storedRecords_pushPending {timestamp : ℤ}
    (h : admissionPending backend state batch = .ok pending)
    (hrecords : state'.records = (pushPending batch.runId timestamp state pending).1.records)
    (hcounter : state'.nextSequence =
      (pushPending batch.runId timestamp state pending).1.nextSequence) :
    Admitted backend state batch (pushPending batch.runId timestamp state pending).2 state' := by
  obtain ⟨happ, hcontent⟩ := pushPending_appended batch.runId timestamp pending state
  refine ⟨.of_appended happ (fun r hr => ?_) hrecords hcounter, by rw [hcontent, h], ?_⟩
  · have hmem : r.content ∈ pending := hcontent ▸ mem_map_of_mem hr
    exact admissionPending_durable h _ hmem
  · have hlength := congrArg List.length hcontent
    rw [length_map] at hlength
    rw [hcounter, pushPending_counter, hlength]

lemma admitTasksAndAppend_stored {clock : ℤ} {records : List (LedgerRecord V)}
    (h : admitTasksAndAppend backend state batch lease clock =
      (state', .ok records)) : Admitted backend state batch records state' := by
  unfold admitTasksAndAppend at h
  cases backend with
  | inMemory =>
    simp only [admitTasksAndAppendInMemoryInner] at h
    split at h
    · simp at h
    · next pending hchecked =>
      have hpending : admissionPending .inMemory state batch = .ok pending := by
        simp only [checkAdmissionInMemory, bind_eq_ok, pure_eq_ok] at hchecked
        obtain ⟨_, _, _, hpending, _, _, rfl⟩ := hchecked
        exact hpending
      split at h
      · simp only [Prod.mk.injEq, Except.ok.injEq] at h
        obtain ⟨rfl, rfl⟩ := h
        exact storedRecords_pushPending hpending rfl rfl
      · simp only [Prod.mk.injEq, Except.ok.injEq] at h
        obtain ⟨rfl, rfl⟩ := h
        refine storedRecords_pushPending hpending ?_ ?_
        all_goals
          unfold advanceWorkflowMutationLeaseInMemory
          split <;> rfl
  | sqlite =>
    cases hinner : admitTasksAndAppendSqliteInner state batch lease clock with
    | error e => simp [hinner, committed] at h
    | ok result =>
      obtain ⟨final, written⟩ := result
      simp only [hinner, committed, Prod.mk.injEq, Except.ok.injEq] at h
      obtain ⟨rfl, rfl⟩ := h
      simp only [admitTasksAndAppendSqliteInner, bind_eq_ok, Prod.exists] at hinner
      obtain ⟨_, _, pending, hpending, appended, records, happend, hinner⟩ := hinner
      rw [appendPending_eq allocateSqliteSequence_eq] at happend
      split at happend
      · obtain ⟨rfl, rfl⟩ := Prod.mk.inj (Except.ok.inj happend)
        split at hinner
        · obtain ⟨rfl, rfl⟩ := Prod.mk.inj (pure_eq_ok.1 hinner)
          exact storedRecords_pushPending hpending rfl rfl
        · simp only [advanceWorkflowMutationLeaseSqlite, updateHeartbeat, bind_eq_ok, pure_eq_ok,
            Prod.mk.injEq] at hinner
          obtain ⟨advanced, ⟨extended, hextended, hadvanced⟩, rfl, rfl⟩ := hinner
          obtain ⟨row, -, -, -, rfl⟩ := updateSqliteLease_eq_ok hextended
          simp only [advanceSqliteObservedSequence, bind_eq_ok] at hadvanced
          obtain ⟨_, _, hupdate⟩ := hadvanced
          obtain ⟨row', -, -, -, rfl⟩ := updateSqliteLease_eq_ok hupdate
          exact storedRecords_pushPending hpending rfl rfl
      · cases happend

/-- A refused admission leaves the ledger as it was. -/
lemma admitTasksAndAppend_refused {clock : ℤ} {e : IoError}
    (h : admitTasksAndAppend backend state batch lease clock = (state', .error e)) :
    state' = state := by
  unfold admitTasksAndAppend at h
  cases backend with
  | inMemory =>
    simp only [admitTasksAndAppendInMemoryInner] at h
    split at h
    · exact (Prod.mk.inj h).1.symm
    · split at h <;> simp at h
  | sqlite =>
    cases hinner : admitTasksAndAppendSqliteInner state batch lease clock with
    | error e =>
      rw [hinner] at h
      exact (Prod.mk.inj h).1.symm
    | ok result => simp [hinner, committed] at h

end Admissions

/-! ## Every call -/

inductive Stores (backend : Backend) (state : LedgerState V) :
    LedgerCall V → LedgerState V → Prop
  | kept {call runId state'} (h : StoredRecords runId state state' []) :
      Stores backend state call state'
  | appended {call runId recordType written state'}
      (hcall : LedgerCall.appendsTo call = some (runId, recordType))
      (h : StoredRecords runId state state' written)
      (htype : ∀ r ∈ written, r.recordType = recordType) : Stores backend state call state'
  | admitted {call batch lease pending written state'}
      (hcall : LedgerCall.asAdmission call = some (batch, lease))
      (hpending : admissionPending backend state batch = .ok pending)
      (h : StoredRecords batch.runId state state' written)
      (hcontent : written.map LedgerRecord.content = pending) : Stores backend state call state'
  | deleted {runId state'}
      (hrecords : state'.records = state.records.filter (·.runId ≠ runId))
      (hcounter : state'.nextSequence = state.nextSequence) :
      Stores backend state (.leased (.deleteRun runId)) state'

section Calls

variable {backend : Backend} {state state' : LedgerState V}

variable {lease : Option (WorkflowMutationLease × ℤ)}

lemma admitTasksAndAppend_stores {call : LedgerCall V} {batch : TaskAdmission V}
    (hcall : call.asAdmission = some (batch, lease)) (clock : ℤ) : Stores backend state call
      (admitTasksAndAppend backend state batch lease clock).1 := by
  rcases hresult : admitTasksAndAppend backend state batch lease clock with
    ⟨final, e | records⟩
  · exact .kept (storedRecords_nil batch.runId
      (congrArg _ (admitTasksAndAppend_refused hresult))
      (congrArg _ (admitTasksAndAppend_refused hresult)))
  · obtain ⟨hstored, hpending, -⟩ := admitTasksAndAppend_stored hresult
    exact .admitted hcall hpending hstored rfl

variable [DecidableEq V]

/-- What a call under a lease stores; admissions apart. -/
lemma executeLeaseCall_stores {call : LeaseCall V} {answer : LeaseAnswer V}
    (hcall : LedgerCall.asAdmission (.leased call) = none)
    (h : executeLeaseCall backend state call = .ok (state', answer)) :
    Stores backend state (.leased call) state' := by
  cases call
  case release lease =>
    obtain ⟨released, hrelease, h⟩ := map_eq_ok.1 h
    cases h
    obtain ⟨row, row', -, -, -, rfl, -⟩ := release_eq_ok hrelease
    exact .kept (storedRecords_nil lease.runId rfl rfl)
  case deleteRun => cases backend <;> cases h <;> exact .deleted rfl rfl
  case admission => cases hcall
  all_goals obtain ⟨_, h, -⟩ := answering_eq_ok h
  case acquire =>
    obtain ⟨row, rfl, -⟩ := (acquire_granted h).row
    exact .kept (storedRecords_nil "" rfl rfl)
  case renew => exact .kept ((renew_fenced h).stored (by simp))
  case commitRestore => exact .kept ((commitRestore_fenced h).stored (by simp))
  case append =>
    obtain ⟨-, hfenced, hdurable, htype⟩ := append_fenced h
    exact .appended rfl (hfenced.stored (by simpa using hdurable)) (by simpa using htype)
  case compareAndAppend =>
    obtain ⟨-, written, hfenced, hlogical⟩ := compareAndAppend_fenced h
    exact .appended rfl (hfenced.stored fun r hr => (hlogical r hr).1) fun r hr => (hlogical r hr).2

lemma execute_stores (backend : Backend) (state : LedgerState V) (call : LedgerCall V) :
    Stores backend state call (execute backend state call).1 := by
  have hkept : Stores backend state call state := .kept (storedRecords_nil "" rfl rfl)
  cases call with
  | append runId durability recordType payload clock =>
    rw [execute, answered]
    refine committed_elim (Stores backend state _) hkept fun happend => ?_
    obtain ⟨htype, ⟨-, hsame⟩ | ⟨-, hstored⟩⟩ := append_stored happend
    · exact .kept (storedRecords_nil runId (congrArg _ hsame) (congrArg _ hsame))
    · exact .appended rfl hstored (by simpa using htype)
  | compareAndAppend runId durability recordType fields payload clock =>
    rw [execute, answered]
    refine committed_elim (Stores backend state _) hkept fun happend => ?_
    obtain ⟨-, written, hstored, htype⟩ := compareAndAppend_stored happend
    exact .appended rfl hstored htype
  | admission batch clock => exact admitTasksAndAppend_stores rfl clock
  | leased call =>
    cases call with
    | admission lease now root maxTasks tasks additional clock visit =>
      exact admitTasksAndAppend_stores rfl clock
    | acquire | renew | commitRestore | release | append | compareAndAppend | deleteRun =>
      exact committed_elim (Stores backend state _) hkept (executeLeaseCall_stores rfl)

/-- A call that asks for an admission is answered by one. -/
lemma execute_admission (backend : Backend) (state : LedgerState V) {call : LedgerCall V}
    {batch : TaskAdmission V} (hcall : call.asAdmission = some (batch, lease)) :
    ∃ clock, execute backend state call = answered .records
      (admitTasksAndAppend backend state batch lease clock) := by
  cases call with
  | append | compareAndAppend => cases hcall
  | admission batch clock =>
    cases hcall
    exact ⟨clock, rfl⟩
  | leased call =>
    cases call with
    | admission lease now root maxTasks tasks additional clock visit =>
      cases hcall
      exact ⟨clock, rfl⟩
    | acquire | renew | commitRestore | release | append | compareAndAppend | deleteRun =>
      cases hcall

end Calls

end SolarisMesh.Ledger
