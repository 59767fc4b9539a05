import SolarisMesh.Ledger.Sequence

/-!
# All calls on a ledger

Beside the calls under a lease, a ledger takes plain appends, logical appends and task
admissions. The in-memory ledger changes its state in place under its lock, so an admission is
modelled with the state it leaves behind whether it succeeds or not; SQLite rolls a failed
transaction back. What a successful call stores is said once, for every call.
-/

namespace SolarisMesh.Ledger

open Lib SolarisMesh.Types

variable {V : Type}

/-! ## Plain appends -/

variable (state : LedgerState V)

def appendInMemory (runId : RunId) (durability : DurabilityClass) (recordType : String)
    (payload : V) (clockUnixMs : ℤ) : LedgerState V × LedgerRecord V :=
  let seq := u64SaturatingAdd state.nextSequence 1
  let (inserted, record) := state.insertRecord seq runId clockUnixMs durability recordType payload
  if durability ≠ .ephemeral then (inserted, record) else (state, record)

def appendSqlite (runId : RunId) (durability : DurabilityClass) (recordType : String) (payload : V)
    (clockUnixMs : ℤ) : IoResult (LedgerState V × LedgerRecord V) :=
  if durability = .ephemeral then do
    let seq ← orElseThrow sequenceExhausted (u64CheckedAdd state.nextSequence 1)
    return (state, (state.insertRecord seq runId clockUnixMs durability recordType payload).2)
  else do
    let seq ← allocateSqliteSequence state.nextSequence
    return state.insertRecord seq runId clockUnixMs durability recordType payload

/-! ## Task admission -/

/-- A batch of tasks with the records that belong to it; `visit` is the order in which the
in-memory ledger visits its runs. -/
structure TaskAdmission (V : Type) where
  rootRunId : RunId
  runId : RunId
  maxTasks : ℕ
  tasks : List TaskRecord
  additional : List (PendingRecord V)
  visit : RunId → ℕ

/-- Pushes checked records one after the other. -/
def pushPending (runId : RunId) (timestampUnixMs : ℤ) (state : LedgerState V) :
    List (PendingRecord V) → LedgerState V × List (LedgerRecord V)
  | [] => (state, [])
  | (durability, recordType, payload) :: pending =>
    let (inserted, record) := state.insertRecord (state.nextSequence + 1) runId timestampUnixMs
      durability recordType payload
    let (final, records) := pushPending runId timestampUnixMs inserted pending
    (final, record :: records)

lemma pushPending_counter (runId : RunId) (timestamp : ℤ) (pending : List (PendingRecord V))
    (state : LedgerState V) :
    (pushPending runId timestamp state pending).1.nextSequence =
      state.nextSequence + pending.length := by
  induction pending generalizing state with
  | nil => rfl
  | cons head pending ih =>
    refine (ih _).trans ?_
    rw [List.length_cons, Nat.add_comm pending.length, ← Nat.add_assoc]

/-- Without a token there is nothing to check. -/
def validateWorkflowMutationLease : Option (WorkflowMutationLease × ℤ) → IoResult Unit
  | none => .ok ()
  | some (lease, nowUnixMs) => do requireCurrent (← state.leaseRow lease) lease nowUnixMs

/-- The lease row of the token's run, moved on by an admission. -/
def advanceWorkflowMutationLeaseInMemory (lease : WorkflowMutationLease) (nowUnixMs : ℤ)
    (observedSequence : ℕ) : LedgerState V :=
  match state.workflowMutationLeases lease.runId with
  | none => state
  | some current => state.setLease lease.runId
      { current with
        heartbeatAtUnixMs := nowUnixMs, expiresAtUnixMs := leaseExpiry nowUnixMs,
        observedSequence := observedSequence }

def advanceWorkflowMutationLeaseSqlite (lease : WorkflowMutationLease) (nowUnixMs : ℤ)
    (observedSequence : ℕ) : IoResult (LedgerState V) := do
  let extended ← updateHeartbeat state lease nowUnixMs (leaseExpiry nowUnixMs)
  advanceSqliteObservedSequence extended lease observedSequence

/-- A transaction: the new state if it commits, the old one if it is rolled back. -/
def committed {α : Type} : IoResult (LedgerState V × α) → LedgerState V × IoResult α
  | .ok (state', a) => (state', .ok a)
  | .error e => (state, .error e)

variable {state} in
lemma committed_elim {α : Type} {result : IoResult (LedgerState V × α)} (P : LedgerState V → Prop)
    (hsame : P state) (hdone : ∀ {state' a}, result = .ok (state', a) → P state') :
    P (committed state result).1 := by
  cases result with
  | error e => exact hsame
  | ok done => exact hdone rfl

variable [DecidableEq V] [LedgerPayload V]

def admissionPending (backend : Backend) (state : LedgerState V) (batch : TaskAdmission V) :
    IoResult (List (PendingRecord V)) :=
  match backend with
  | .inMemory => admissionRecordsInMemory state batch.visit batch.rootRunId batch.runId
      batch.maxTasks batch.tasks batch.additional
  | .sqlite => admissionRecordsSqlite state batch.rootRunId batch.runId batch.maxTasks batch.tasks
      batch.additional

/-- The checks of an in-memory admission: the lease, the batch and the room for its records. -/
def checkAdmissionInMemory (batch : TaskAdmission V)
    (workflowLease : Option (WorkflowMutationLease × ℤ)) : IoResult (List (PendingRecord V)) := do
  validateWorkflowMutationLease state workflowLease
  let pending ← admissionPending .inMemory state batch
  let _ ← orElseThrow sequenceExhausted (u64CheckedAdd state.nextSequence pending.length)
  return pending

/-- `admit_tasks_and_append_in_memory_inner`: all checks, then the pushes. -/
def admitTasksAndAppendInMemoryInner (batch : TaskAdmission V)
    (workflowLease : Option (WorkflowMutationLease × ℤ)) (clockUnixMs : ℤ) :
    LedgerState V × IoResult (List (LedgerRecord V)) :=
  match checkAdmissionInMemory state batch workflowLease with
  | .error e => (state, .error e)
  | .ok pending =>
    let timestampUnixMs := (workflowLease.map (·.2)).getD clockUnixMs
    let (pushed, records) := pushPending batch.runId timestampUnixMs state pending
    match workflowLease with
    | none => (pushed, .ok records)
    | some (lease, nowUnixMs) =>
      let observed := ((pushed.recordsForRun batch.runId).getLast?.map (·.seq)).getD
        lease.observedSequence
      (advanceWorkflowMutationLeaseInMemory pushed lease nowUnixMs observed, .ok records)

/-- `admit_tasks_and_append_sqlite_inner`, the body of its transaction. -/
def admitTasksAndAppendSqliteInner (batch : TaskAdmission V)
    (workflowLease : Option (WorkflowMutationLease × ℤ)) (clockUnixMs : ℤ) :
    IoResult (LedgerState V × List (LedgerRecord V)) := do
  validateWorkflowMutationLease state workflowLease
  let pending ← admissionPending .sqlite state batch
  let (appended, records) ←
    appendPending allocateSqliteSequence batch.runId clockUnixMs state pending
  match workflowLease with
  | none => return (appended, records)
  | some (lease, nowUnixMs) =>
    let observed := (records.getLast?.map (·.seq)).getD lease.observedSequence
    return (← advanceWorkflowMutationLeaseSqlite appended lease nowUnixMs observed, records)

/-! ## The ledger as a machine -/

/-- A call on the ledger. -/
inductive LedgerCall (V : Type) where
  | append (runId : RunId) (durability : DurabilityClass) (recordType : String) (payload : V)
      (clockUnixMs : ℤ)
  | compareAndAppend (runId : RunId) (durability : DurabilityClass) (recordType : String)
      (identityFields : List String) (payload : V) (clockUnixMs : ℤ)
  | admission (batch : TaskAdmission V) (clockUnixMs : ℤ)
  | leased (call : LeaseCall V)

abbrev LedgerAnswer (V : Type) := IoResult (LeaseAnswer V)

/-- The admission a call asks for, with the token it goes under. -/
def LedgerCall.asAdmission :
    LedgerCall V → Option (TaskAdmission V × Option (WorkflowMutationLease × ℤ))
  | .admission batch _ => some (batch, none)
  | .leased (.admission lease nowUnixMs rootRunId maxTasks tasks additional _ visit) =>
    some (⟨rootRunId, lease.runId, maxTasks, tasks, additional, visit⟩, some (lease, nowUnixMs))
  | _ => none

namespace RuntimeLedger

variable (backend : Backend) (state : LedgerState V)

def append (runId : RunId) (durability : DurabilityClass) (recordType : String) (payload : V)
    (clockUnixMs : ℤ) : IoResult (LedgerState V × LedgerRecord V) :=
  match backend with
  | .inMemory => .ok (appendInMemory state runId durability recordType payload clockUnixMs)
  | .sqlite => appendSqlite state runId durability recordType payload clockUnixMs

def compareAndAppend (runId : RunId) (durability : DurabilityClass) (recordType : String)
    (identityFields : List String) (payload : V) (clockUnixMs : ℤ) :
    IoResult (LedgerState V × LedgerRecord V) :=
  match backend with
  | .inMemory => compareAndAppendInMemoryLocked state runId durability recordType identityFields
      payload clockUnixMs
  | .sqlite => compareAndAppendSqliteTransaction state runId durability recordType identityFields
      payload clockUnixMs

def admitTasksAndAppend (batch : TaskAdmission V)
    (workflowLease : Option (WorkflowMutationLease × ℤ)) (clockUnixMs : ℤ) :
    LedgerState V × IoResult (List (LedgerRecord V)) :=
  match backend with
  | .inMemory => admitTasksAndAppendInMemoryInner state batch workflowLease clockUnixMs
  | .sqlite =>
    committed state (admitTasksAndAppendSqliteInner state batch workflowLease clockUnixMs)

def execute : LedgerCall V → LedgerState V × LedgerAnswer V
  | .append runId durability recordType payload clockUnixMs =>
    answered .record
      (committed state (append backend state runId durability recordType payload clockUnixMs))
  | .compareAndAppend runId durability recordType identityFields payload clockUnixMs =>
    answered .record (committed state (compareAndAppend backend state runId durability recordType
      identityFields payload clockUnixMs))
  | .admission batch clockUnixMs =>
    answered .records (admitTasksAndAppend backend state batch none clockUnixMs)
  | .leased (.admission lease nowUnixMs rootRunId maxTasks tasks additional clockUnixMs visit) =>
    answered .records (admitTasksAndAppend backend state
      ⟨rootRunId, lease.runId, maxTasks, tasks, additional, visit⟩ (some (lease, nowUnixMs))
      clockUnixMs)
  | .leased call => committed state (executeLeaseCall backend state call)

end RuntimeLedger

/-- Calls on one ledger, one after the other. -/
def ledgerMachine (V : Type) [DecidableEq V] [LedgerPayload V] (backend : Backend) :
    Machine (LedgerState V) (LedgerCall V) (LedgerAnswer V) where
  step := RuntimeLedger.execute backend

/-! ## In place and as a transaction -/

omit [DecidableEq V] [LedgerPayload V] in
/-- Allocating one sequence after the other goes through if the last one fits. -/
lemma appendPending_eq {allocate : ℕ → IoResult ℕ} {bound : ℕ}
    (hallocate : ∀ n, allocate n = if n + 1 ≤ bound then .ok (n + 1) else .error sequenceExhausted)
    (runId : RunId) (timestamp : ℤ) (pending : List (PendingRecord V)) (state : LedgerState V) :
    appendPending allocate runId timestamp state pending =
      if pending = [] ∨ state.nextSequence + pending.length ≤ bound then
        .ok (pushPending runId timestamp state pending)
      else .error sequenceExhausted := by
  induction pending generalizing state with
  | nil => rfl
  | cons head pending ih =>
    obtain ⟨durability, recordType, payload⟩ := head
    simp only [appendPending, hallocate, ih, List.length_cons, reduceCtorEq, false_or, pushPending]
    by_cases hfits : state.nextSequence + (pending.length + 1) ≤ bound
    · have hnext : state.nextSequence + 1 ≤ bound := by omega
      have hrest : pending = [] ∨ state.nextSequence + 1 + pending.length ≤ bound :=
        .inr (by omega)
      rw [if_pos hfits, if_pos hnext]
      exact congrArg₂ Except.bind (if_pos hrest) rfl
    · rw [if_neg hfits]
      by_cases hnext : state.nextSequence + 1 ≤ bound
      · have hrest : ¬(pending = [] ∨ state.nextSequence + 1 + pending.length ≤ bound) := by
          rintro (rfl | h)
          · exact hfits (by simpa using hnext)
          · omega
        rw [if_pos hnext]
        exact congrArg₂ Except.bind (if_neg hrest) rfl
      · rw [if_neg hnext]
        rfl

lemma allocateSqliteSequence_eq (n : ℕ) : allocateSqliteSequence n =
    if n + 1 ≤ i64Max.toNat then .ok (n + 1) else .error sequenceExhausted := rfl

omit [DecidableEq V] [LedgerPayload V] in
lemma pushPending_rest (runId : RunId) (timestamp : ℤ) (pending : List (PendingRecord V))
    (state : LedgerState V) :
    (pushPending runId timestamp state pending).1.workflowMutationLeases =
        state.workflowMutationLeases ∧
      (pushPending runId timestamp state pending).1.logicalRecords = state.logicalRecords := by
  induction pending generalizing state with
  | nil => exact ⟨rfl, rfl⟩
  | cons head pending ih => exact ih _

end SolarisMesh.Ledger
