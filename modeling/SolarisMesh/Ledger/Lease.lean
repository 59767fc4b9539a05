import SolarisMesh.Ledger.Append
import SolarisMesh.Lib.Machine

/-!
# Workflow mutation leases

A run is mutated under a lease: a row per run that names the owner, an epoch that grows
with every acquisition, and an expiry. Appends under a lease check the row and write in
one atomic step. The in-memory ledger holds its lock over each operation, the SQLite
ledger runs each one in an immediate transaction.
-/

namespace SolarisMesh.Ledger

open Lib SolarisMesh.Types

/-- `DEFAULT_LEASE_SECONDS * 1_000`. -/
def workflowMutationLeaseMillis : ℤ := 90000

def leaseExpiry (nowUnixMs : ℤ) : ℤ :=
  i64SaturatingAdd nowUnixMs workflowMutationLeaseMillis

def leaseContended (runId : RunId) : IoError :=
  ⟨.wouldBlock, s!"Workflow Run {runId} has an active mutation lease"⟩

def leaseLost (runId : RunId) : IoError :=
  ⟨.permissionDenied, s!"Workflow Run {runId} mutation lease was lost"⟩

def requireOwner (ownerId : String) : IoResult Unit :=
  require (ownerId ≠ "") ⟨.invalidInput, "Workflow mutation lease owner must not be empty"⟩

def requireDurableWorkflowRecord (durability : DurabilityClass) : IoResult Unit :=
  require (durability ≠ .ephemeral)
    ⟨.invalidInput, "Workflow mutation lease cannot protect an ephemeral record"⟩

def rejectClockRollback (previousMs nowMs : ℤ) : IoResult Unit :=
  require (previousMs ≤ nowMs)
    ⟨.invalidData, "system clock moved backwards while a Workflow mutation lease was active"⟩

/-- The row lets the token work at `nowUnixMs`. -/
def requireCurrent (current : WorkflowMutationLeaseRow) (lease : WorkflowMutationLease)
    (nowUnixMs : ℤ) : IoResult Unit := do
  rejectClockRollback current.heartbeatAtUnixMs nowUnixMs
  require (current.ownerId = some lease.ownerId && current.epoch = lease.epoch &&
    nowUnixMs < current.expiresAtUnixMs) (leaseLost lease.runId)

variable {V : Type}

variable (state : LedgerState V) (lease : WorkflowMutationLease) (nowUnixMs : ℤ)
  (durability : DurabilityClass)

/-- The lease row of the token's run. -/
def LedgerState.leaseRow : IoResult WorkflowMutationLeaseRow :=
  orElseThrow (leaseLost lease.runId) (state.workflowMutationLeases lease.runId)

/-- A holder whose lease has not run out keeps others off; no one acquires with a clock
behind the last heartbeat. -/
def requireAcquirable (existing : Option WorkflowMutationLeaseRow) (runId : RunId)
    (ownerId : String) (nowUnixMs : ℤ) : IoResult Unit :=
  match existing with
  | none => .ok ()
  | some row => do
    require (!(row.ownerId.any (· ≠ ownerId) && nowUnixMs < row.expiresAtUnixMs))
      (leaseContended runId)
    rejectClockRollback row.heartbeatAtUnixMs nowUnixMs

def existingEpoch (existing : Option WorkflowMutationLeaseRow) : ℕ :=
  (existing.map (·.epoch)).getD 0

def epochExhausted : IoError := otherError "Workflow mutation lease epoch exhausted"

/-- Installs the row of a successful acquisition and issues its token. -/
def LedgerState.grantLease (runId : RunId) (ownerId : String) (nowUnixMs : ℤ)
    (epoch observedSequence : ℕ) : LedgerState V × WorkflowMutationLease :=
  let committed := ((state.workflowMutationLeases runId).map (·.committedSequence)).getD 0
  (state.setLease runId
    { ownerId := some ownerId, epoch := epoch, heartbeatAtUnixMs := nowUnixMs,
      expiresAtUnixMs := leaseExpiry nowUnixMs, observedSequence := observedSequence,
      committedSequence := committed },
    { runId := runId, ownerId := ownerId, epoch := epoch,
      expiresAtUnixMs := leaseExpiry nowUnixMs, observedSequence := observedSequence })

/-! ## In-memory ledger -/

def acquireWorkflowMutationLeaseInMemory (runId : RunId) (ownerId : String) (nowUnixMs : ℤ) :
    IoResult (LedgerState V × WorkflowMutationLease) := do
  requireOwner ownerId
  let existing := state.workflowMutationLeases runId
  requireAcquirable existing runId ownerId nowUnixMs
  let epoch ← orElseThrow epochExhausted (u64CheckedAdd (existingEpoch existing) 1)
  return state.grantLease runId ownerId nowUnixMs epoch (state.lastSequence runId)

def renewWorkflowMutationLeaseInMemory : IoResult (LedgerState V × WorkflowMutationLease) := do
  let current ← state.leaseRow lease
  requireCurrent current lease nowUnixMs
  let renewed := { current with
    heartbeatAtUnixMs := nowUnixMs, expiresAtUnixMs := leaseExpiry nowUnixMs }
  return (state.setLease lease.runId renewed,
    { lease with
      expiresAtUnixMs := leaseExpiry nowUnixMs, observedSequence := current.observedSequence })

def commitWorkflowRestoreInMemory (expectedSequence : ℕ) (nowUnixMs : ℤ) :
    IoResult (LedgerState V × WorkflowRestoreCommit) := do
  let currentSequence := state.lastSequence lease.runId
  let current ← state.leaseRow lease
  requireCurrent current lease nowUnixMs
  let observed := { current with
    heartbeatAtUnixMs := nowUnixMs, expiresAtUnixMs := leaseExpiry nowUnixMs,
    observedSequence := currentSequence }
  if currentSequence ≠ expectedSequence then
    return (state.setLease lease.runId observed, .stale currentSequence)
  else
    return (state.setLease lease.runId { observed with committedSequence := expectedSequence },
      .current)

def releaseWorkflowMutationLeaseInMemory : IoResult (LedgerState V) := do
  let current ← state.leaseRow lease
  require (current.ownerId = some lease.ownerId && current.epoch = lease.epoch)
    (leaseLost lease.runId)
  return state.setLease lease.runId
    { current with ownerId := none, heartbeatAtUnixMs := 0, expiresAtUnixMs := 0 }

def appendUnderWorkflowLeaseInMemory (recordType : String) (payload : V) :
    IoResult (LedgerState V × LedgerRecord V) := do
  requireDurableWorkflowRecord durability
  let current ← state.leaseRow lease
  requireCurrent current lease nowUnixMs
  let seq ← nextSequenceInMemory state.nextSequence
  let (appended, record) :=
    state.insertRecord seq lease.runId nowUnixMs durability recordType payload
  return (appended.setLease lease.runId { current with observedSequence := seq }, record)

variable [DecidableEq V] [LedgerPayload V]

def compareAndAppendUnderWorkflowLeaseInMemory (recordType : String) (identityFields : List String)
    (payload : V) (clockUnixMs : ℤ) : IoResult (LedgerState V × LedgerRecord V) := do
  let current ← state.leaseRow lease
  requireCurrent current lease nowUnixMs
  let (appended, record) ← compareAndAppendInMemoryLocked state lease.runId durability
    recordType identityFields payload clockUnixMs
  return (appended.setLease lease.runId
    { current with observedSequence := appended.lastSequence lease.runId }, record)

def admitTasksAndAppendUnderWorkflowLeaseInMemory (rootRunId : RunId) (maxTasks : ℕ)
    (tasks : List TaskRecord) (additional : List (PendingRecord V)) (visit : RunId → ℕ) :
    IoResult (LedgerState V × List (LedgerRecord V)) := do
  let current ← state.leaseRow lease
  requireCurrent current lease nowUnixMs
  let pending ←
    admissionRecordsInMemory state visit rootRunId lease.runId maxTasks tasks additional
  let (appended, records) ←
    appendPending nextSequenceInMemory lease.runId nowUnixMs state pending
  let observed := ((appended.recordsForRun lease.runId).getLast?.map (·.seq)).getD
    lease.observedSequence
  return (appended.setLease lease.runId
    { current with
      heartbeatAtUnixMs := nowUnixMs, expiresAtUnixMs := leaseExpiry nowUnixMs,
      observedSequence := observed }, records)

/-- Deletes the records of the run; its lease row and the counter stay. -/
def deleteRunExactInMemory (runId : RunId) : LedgerState V :=
  { state with records := state.records.filter (·.runId ≠ runId) }

/-! ## SQLite ledger -/

section Sqlite

omit [DecidableEq V] [LedgerPayload V]

variable (state : LedgerState V) (lease : WorkflowMutationLease) (nowUnixMs : ℤ)

def acquireWorkflowMutationLeaseSqlite (runId : RunId) (ownerId : String) (nowUnixMs : ℤ) :
    IoResult (LedgerState V × WorkflowMutationLease) := do
  requireOwner ownerId
  let observedSequence := state.runSequence runId
  let existing := state.workflowMutationLeases runId
  requireAcquirable existing runId ownerId nowUnixMs
  let epoch ← orElseThrow epochExhausted (u64CheckedAdd (existingEpoch existing) 1)
  let _ ← u64ToSqlite epoch "Workflow mutation lease epoch"
  let _ ← u64ToSqlite observedSequence "Workflow mutation observed sequence"
  let _ ← u64ToSqlite ((existing.map (·.committedSequence)).getD 0)
    "Workflow mutation committed sequence"
  return state.grantLease runId ownerId nowUnixMs epoch observedSequence

def requireSqliteCurrent : IoResult WorkflowMutationLeaseRow := do
  let current ← state.leaseRow lease
  requireCurrent current lease nowUnixMs
  return current

/-- `UPDATE … WHERE run_id = … AND owner_id = … AND epoch = …` on the lease table; anything
but one changed row means the lease was lost. -/
def updateSqliteLease (set : WorkflowMutationLeaseRow → WorkflowMutationLeaseRow) :
    IoResult (LedgerState V) := do
  let _ ← u64ToSqlite lease.epoch "Workflow mutation lease epoch"
  let current ← state.leaseRow lease
  require (current.ownerId = some lease.ownerId && current.epoch = lease.epoch)
    (leaseLost lease.runId)
  return state.setLease lease.runId (set current)

def updateHeartbeat (expiresAtUnixMs : ℤ) : IoResult (LedgerState V) :=
  updateSqliteLease state lease fun row =>
    { row with heartbeatAtUnixMs := nowUnixMs, expiresAtUnixMs := expiresAtUnixMs }

def advanceSqliteObservedSequence (observedSequence : ℕ) : IoResult (LedgerState V) := do
  let _ ← u64ToSqlite observedSequence "Workflow mutation observed sequence"
  updateSqliteLease state lease fun row => { row with observedSequence := observedSequence }

def renewWorkflowMutationLeaseSqlite : IoResult (LedgerState V × WorkflowMutationLease) := do
  let current ← requireSqliteCurrent state lease nowUnixMs
  let renewed ← updateHeartbeat state lease nowUnixMs (leaseExpiry nowUnixMs)
  return (renewed, { lease with
    expiresAtUnixMs := leaseExpiry nowUnixMs, observedSequence := current.observedSequence })

def commitWorkflowRestoreSqlite (expectedSequence : ℕ) (nowUnixMs : ℤ) :
    IoResult (LedgerState V × WorkflowRestoreCommit) := do
  let _ ← requireSqliteCurrent state lease nowUnixMs
  let currentSequence := state.runSequence lease.runId
  let committed := if currentSequence = expectedSequence then expectedSequence
    else ((state.workflowMutationLeases lease.runId).map (·.committedSequence)).getD 0
  let _ ← u64ToSqlite currentSequence "Workflow mutation observed sequence"
  let _ ← u64ToSqlite committed "Workflow mutation committed sequence"
  let updated ← updateSqliteLease state lease fun row =>
    { row with
      heartbeatAtUnixMs := nowUnixMs, expiresAtUnixMs := leaseExpiry nowUnixMs,
      observedSequence := currentSequence, committedSequence := committed }
  return (updated,
    if currentSequence = expectedSequence then .current else .stale currentSequence)

def releaseWorkflowMutationLeaseSqlite : IoResult (LedgerState V) :=
  updateSqliteLease state lease fun row =>
    { row with ownerId := none, heartbeatAtUnixMs := 0, expiresAtUnixMs := 0 }

def appendUnderWorkflowLeaseSqlite (durability : DurabilityClass) (recordType : String)
    (payload : V) : IoResult (LedgerState V × LedgerRecord V) := do
  requireDurableWorkflowRecord durability
  let _ ← requireSqliteCurrent state lease nowUnixMs
  let seq ← allocateSqliteSequence state.nextSequence
  let (appended, record) :=
    state.insertRecord seq lease.runId nowUnixMs durability recordType payload
  return (← advanceSqliteObservedSequence appended lease seq, record)

/-- Deletes the records of the run with their logical bindings; its lease row and the
counter stay. -/
def deleteRunExactSqlite (runId : RunId) : LedgerState V :=
  let kept := state.records.filter (·.runId ≠ runId)
  { state with
    records := kept
    logicalRecords := state.logicalRecords.filter fun row => kept.any (·.seq = row.sequence) }

end Sqlite

def compareAndAppendUnderWorkflowLeaseSqlite (state : LedgerState V)
    (lease : WorkflowMutationLease) (nowUnixMs : ℤ) (durability : DurabilityClass)
    (recordType : String) (identityFields : List String) (payload : V) (clockUnixMs : ℤ) :
    IoResult (LedgerState V × LedgerRecord V) := do
  requireDurableWorkflowRecord durability
  let _ ← requireSqliteCurrent state lease nowUnixMs
  let (appended, record) ← compareAndAppendSqliteTransaction state lease.runId durability
    recordType identityFields payload clockUnixMs
  return (← advanceSqliteObservedSequence appended lease (appended.runSequence lease.runId),
    record)

def admitTasksAndAppendUnderWorkflowLeaseSqlite (state : LedgerState V)
    (lease : WorkflowMutationLease) (nowUnixMs : ℤ) (rootRunId : RunId) (maxTasks : ℕ)
    (tasks : List TaskRecord) (additional : List (PendingRecord V)) (clockUnixMs : ℤ) :
    IoResult (LedgerState V × List (LedgerRecord V)) := do
  let _ ← requireSqliteCurrent state lease nowUnixMs
  let pending ← admissionRecordsSqlite state rootRunId lease.runId maxTasks tasks additional
  let (appended, records) ←
    appendPending allocateSqliteSequence lease.runId clockUnixMs state pending
  let observed := (records.getLast?.map (·.seq)).getD lease.observedSequence
  let extended ← updateHeartbeat appended lease nowUnixMs (leaseExpiry nowUnixMs)
  return (← advanceSqliteObservedSequence extended lease observed, records)

/-! ## The `RuntimeLedger` trait -/

inductive Backend where
  | inMemory | sqlite
deriving DecidableEq, Repr

section RuntimeLedger

variable (backend : Backend) (state : LedgerState V)

section Tokens

omit [DecidableEq V] [LedgerPayload V]

def acquireWorkflowMutationLease (runId : RunId) (ownerId : String) (nowUnixMs : ℤ) :
    IoResult (LedgerState V × WorkflowMutationLease) :=
  match backend with
  | .inMemory => acquireWorkflowMutationLeaseInMemory state runId ownerId nowUnixMs
  | .sqlite => acquireWorkflowMutationLeaseSqlite state runId ownerId nowUnixMs

variable (lease : WorkflowMutationLease)

def renewWorkflowMutationLease (nowUnixMs : ℤ) : IoResult (LedgerState V × WorkflowMutationLease) :=
  match backend with
  | .inMemory => renewWorkflowMutationLeaseInMemory state lease nowUnixMs
  | .sqlite => renewWorkflowMutationLeaseSqlite state lease nowUnixMs

def commitWorkflowRestore (expectedSequence : ℕ) (nowUnixMs : ℤ) :
    IoResult (LedgerState V × WorkflowRestoreCommit) :=
  match backend with
  | .inMemory => commitWorkflowRestoreInMemory state lease expectedSequence nowUnixMs
  | .sqlite => commitWorkflowRestoreSqlite state lease expectedSequence nowUnixMs

def releaseWorkflowMutationLease : IoResult (LedgerState V) :=
  match backend with
  | .inMemory => releaseWorkflowMutationLeaseInMemory state lease
  | .sqlite => releaseWorkflowMutationLeaseSqlite state lease

def appendUnderWorkflowLease (nowUnixMs : ℤ) (durability : DurabilityClass) (recordType : String)
    (payload : V) : IoResult (LedgerState V × LedgerRecord V) :=
  match backend with
  | .inMemory =>
    appendUnderWorkflowLeaseInMemory state lease nowUnixMs durability recordType payload
  | .sqlite =>
    appendUnderWorkflowLeaseSqlite state lease nowUnixMs durability recordType payload

def deleteRunExact (runId : RunId) : LedgerState V × ℕ :=
  let deleted := (state.recordsForRun runId).length
  match backend with
  | .inMemory => (deleteRunExactInMemory state runId, deleted)
  | .sqlite => (deleteRunExactSqlite state runId, deleted)

end Tokens

def compareAndAppendUnderWorkflowLease (lease : WorkflowMutationLease) (nowUnixMs : ℤ)
    (durability : DurabilityClass) (recordType : String) (identityFields : List String)
    (payload : V) (clockUnixMs : ℤ) : IoResult (LedgerState V × LedgerRecord V) :=
  match backend with
  | .inMemory => compareAndAppendUnderWorkflowLeaseInMemory state lease nowUnixMs durability
      recordType identityFields payload clockUnixMs
  | .sqlite => compareAndAppendUnderWorkflowLeaseSqlite state lease nowUnixMs durability
      recordType identityFields payload clockUnixMs

def admitTasksAndAppendUnderWorkflowLease (lease : WorkflowMutationLease) (nowUnixMs : ℤ)
    (rootRunId : RunId) (maxTasks : ℕ) (tasks : List TaskRecord)
    (additional : List (PendingRecord V)) (clockUnixMs : ℤ) (visit : RunId → ℕ) :
    IoResult (LedgerState V × List (LedgerRecord V)) :=
  match backend with
  | .inMemory => admitTasksAndAppendUnderWorkflowLeaseInMemory state lease nowUnixMs rootRunId
      maxTasks tasks additional visit
  | .sqlite => admitTasksAndAppendUnderWorkflowLeaseSqlite state lease nowUnixMs rootRunId
      maxTasks tasks additional clockUnixMs

end RuntimeLedger

/-! ## The ledger as a machine -/

/-- A call on the ledger with the `now` it is given; `clockUnixMs` is the clock the ledger
reads for itself, `visit` the order in which the in-memory ledger visits its runs. -/
inductive LeaseCall (V : Type) where
  | acquire (runId : RunId) (ownerId : String) (nowUnixMs : ℤ)
  | renew (lease : WorkflowMutationLease) (nowUnixMs : ℤ)
  | commitRestore (lease : WorkflowMutationLease) (expectedSequence : ℕ) (nowUnixMs : ℤ)
  | release (lease : WorkflowMutationLease)
  | append (lease : WorkflowMutationLease) (nowUnixMs : ℤ) (durability : DurabilityClass)
      (recordType : String) (payload : V)
  | compareAndAppend (lease : WorkflowMutationLease) (nowUnixMs : ℤ)
      (durability : DurabilityClass) (recordType : String) (identityFields : List String)
      (payload : V) (clockUnixMs : ℤ)
  | admission (lease : WorkflowMutationLease) (nowUnixMs : ℤ) (rootRunId : RunId) (maxTasks : ℕ)
      (tasks : List TaskRecord) (additional : List (PendingRecord V)) (clockUnixMs : ℤ)
      (visit : RunId → ℕ)
  | deleteRun (runId : RunId)

inductive LeaseAnswer (V : Type) where
  | lease (lease : WorkflowMutationLease)
  | commit (commit : WorkflowRestoreCommit)
  | record (record : LedgerRecord V)
  | records (records : List (LedgerRecord V))
  | deleted (count : ℕ)
  | done

def executeLeaseCall (backend : Backend) (state : LedgerState V) :
    LeaseCall V → IoResult (LedgerState V × LeaseAnswer V)
  | .acquire runId ownerId nowUnixMs =>
    answering .lease (acquireWorkflowMutationLease backend state runId ownerId nowUnixMs)
  | .renew lease nowUnixMs =>
    answering .lease (renewWorkflowMutationLease backend state lease nowUnixMs)
  | .commitRestore lease expectedSequence nowUnixMs =>
    answering .commit (commitWorkflowRestore backend state lease expectedSequence nowUnixMs)
  | .release lease =>
    (releaseWorkflowMutationLease backend state lease).map fun released => (released, .done)
  | .append lease nowUnixMs durability recordType payload =>
    answering .record
      (appendUnderWorkflowLease backend state lease nowUnixMs durability recordType payload)
  | .compareAndAppend lease nowUnixMs durability recordType identityFields payload clockUnixMs =>
    answering .record (compareAndAppendUnderWorkflowLease backend state lease nowUnixMs durability
      recordType identityFields payload clockUnixMs)
  | .admission lease nowUnixMs rootRunId maxTasks tasks additional clockUnixMs visit =>
    answering .records (admitTasksAndAppendUnderWorkflowLease backend state lease nowUnixMs
      rootRunId maxTasks tasks additional clockUnixMs visit)
  | .deleteRun runId =>
    let (remaining, deleted) := deleteRunExact backend state runId
    .ok (remaining, .deleted deleted)

/-- Calls on the ledger by any owners, one after the other; a failed call changes nothing. -/
def leaseMachine (V : Type) [DecidableEq V] [LedgerPayload V] (backend : Backend) :
    Machine (LedgerState V) (LeaseCall V) (IoResult (LeaseAnswer V)) where
  step state call :=
    match executeLeaseCall backend state call with
    | .ok (state', answer) => (state', .ok answer)
    | .error e => (state, .error e)

end SolarisMesh.Ledger
