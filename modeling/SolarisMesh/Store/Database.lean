import SolarisMesh.Lib.Checked
import Mathlib.Data.List.Sort

/-!
# The session store

The tables of the session database and the transactions over a session and its lease. Every
transaction is immediate: it reads and writes in one atomic step, and one that fails is rolled
back. `transact` adds what surrounds it: the files behind the database are checked when the
connection is opened, before the commit and once more after it.
-/

namespace SolarisMesh.Store

open Lib

/-- The errors of the session, task, outbox and collection transactions. -/
inductive SessionStoreError where
  | alreadyExists (sessionId : String)
  | notFound (sessionId : String)
  | tombstoned (sessionId : String)
  | leaseHeld (sessionId ownerId : String) (expiresAtMs : ℤ)
  | staleLease (sessionId : String)
  | revisionConflict (sessionId : String) (expected actual : ℤ)
  | missingRunId (sessionId : String)
  | runIdConflict (sessionId : String)
  | memorySnapshotConflict (sessionId : String)
  | runGcClaimed (requestedRunId claimedRunId : String)
  | invalidOwner
  | sessionIdMismatch (leaseSessionId stateSessionId : String)
  | epochExhausted (sessionId : String)
  | revisionExhausted (sessionId : String)
  | unsafePath
  | invalidHostOutboxInput
  | hostOutboxPayloadTooLarge (maxBytes : ℕ)
  | hostOutboxStaleEpoch
  | hostOutboxDeliveryNotFound
  | hostOutboxDigestMismatch
  | taskInputConflict (sessionId taskKey : String)
  | taskNotFound (sessionId taskKey : String)
  | taskRevisionConflict (taskKey : String) (expected actual : ℤ)
  | taskRevisionExhausted
  | invalidTaskTransition (fromPhase toPhase : String)
  | invalidTaskInput
  /-- A statement the database refuses, named by the operation. -/
  | database (operation : String)
  | io (operation message : String)
deriving DecidableEq, Repr

abbrev Result := Except SessionStoreError

/-! ## Rows -/

/-- A session document: what the store reads of it, and the rest as text. -/
structure Session where
  id : String
  runId : Option String
  /-- `runtime_state.memory_snapshot` -/
  memorySnapshot : Option String
  document : String
deriving DecidableEq, Repr

structure SessionRow where
  session : Session
  revision : ℤ
  runId : Option String
deriving DecidableEq, Repr

structure LeaseRow where
  ownerId : Option String
  epoch : ℤ
  expiresAtMs : Option ℤ
deriving DecidableEq, Repr

structure SessionLease where
  sessionId : String
  ownerId : String
  epoch : ℤ
  revision : ℤ
deriving DecidableEq, Repr

structure ActiveSession where
  session : Session
  lease : SessionLease
deriving DecidableEq, Repr

inductive DurableTaskPhase where
  | created | userCheckpointed | awaitingProvider | providerInFlight | providerCompleted
  | toolsInFlight | toolsCompleted | completed | outcomeUnknown | sideEffectUnknown | aborted
deriving DecidableEq, Repr

structure StoredDurableTask where
  taskKey : String
  inputDigest : List UInt8
  phase : DurableTaskPhase
  callId : Option String
  sessionRevision : ℤ
  taskRevision : ℤ
  terminalResultJson : Option (List UInt8)
deriving DecidableEq, Repr

inductive GcJobPhase where
  | planned | ledgerDeleted | blobsDeleted | complete
deriving DecidableEq, Repr

inductive DestructiveGcStage where
  | ledger | blobs
deriving DecidableEq, Repr

structure StoredGcStageClaim where
  stage : DestructiveGcStage
  token : String
  expiresAtMs : ℤ
deriving DecidableEq, Repr

/-- The run tree of a collection job; `schema` tells a planned tree from a committed one. -/
structure StoredRunTree where
  schema : String
  sessionId : String
  runIds : List String := []
  referenceRoots : List String := []
  exactRunIds : List String := []
  releasedSharedRoots : List String := []
  stageClaim : Option StoredGcStageClaim := none
deriving DecidableEq, Repr

structure StoredGcJob where
  sessionId : String
  phase : GcJobPhase
  runTree : StoredRunTree
  eligibleAtMs : ℤ
deriving DecidableEq, Repr

structure GcRunClaim where
  jobId : String
  sessionId : String
  rootRunId : String
deriving DecidableEq, Repr

structure HostDelivery where
  deliveryId : String
  sessionId : String
  msgId : String
  runEpoch : ℤ
  sequence : ℤ
  digest : String
  payload : List UInt8
  createdAtMs : ℤ
  acknowledgedAtMs : Option ℤ
deriving DecidableEq, Repr

/-- The tables, by key where a key is unique. -/
structure Database where
  sessions : String → Option SessionRow
  leases : String → Option LeaseRow
  tombstones : String → Bool
  /-- `session_run_references`: session and run. -/
  references : List (String × String)
  tasks : String → String → Option StoredDurableTask
  jobs : String → Option StoredGcJob
  claims : List GcRunClaim
  outbox : List HostDelivery
  /-- `session_migration_sources` -/
  migrationSources : List String

def Database.empty : Database where
  sessions _ := none
  leases _ := none
  tombstones _ := false
  references := []
  tasks _ _ := none
  jobs _ := none
  claims := []
  outbox := []
  migrationSources := []

/-! ## Around a transaction -/

/-- How the checks of the files behind the database turn out. -/
structure StorageChecks where
  opened : Bool
  beforeCommit : Bool
  afterCommit : Bool
deriving DecidableEq, Repr

/-- Run a transaction; the last check comes after the commit and rolls nothing back. -/
def transact {σ α : Type} (storage : StorageChecks) (state : σ) (body : Result (σ × α)) :
    σ × Result α :=
  if !storage.opened then (state, .error .unsafePath)
  else
    match body with
    | .error error => (state, .error error)
    | .ok (next, answer) =>
      if !storage.beforeCommit then (state, .error .unsafePath)
      else if !storage.afterCommit then (next, .error .unsafePath)
      else (next, .ok answer)

/-! ## Guards -/

def validateOwner (ownerId : String) : Result Unit :=
  require (ownerId ≠ "") .invalidOwner

def leaseExpiry (nowMs : ℤ) : ℤ :=
  i64SaturatingAdd nowMs 90000

def optionalNonemptyRunId (session : Session) : Result (Option String) :=
  match session.runId with
  | some runId => if isBlank runId then .error (.missingRunId session.id) else .ok (some runId)
  | none => .ok none

def requireNewSessionRunId (session : Session) : Result String := do
  let runId ← optionalNonemptyRunId session
  orElseThrow (.missingRunId session.id) runId

variable (db : Database) (sessionId : String)

def requireNotTombstoned : Result Unit :=
  require (!db.tombstones sessionId) (.tombstoned sessionId)

def requireCurrentLease (lease : SessionLease) (nowMs : ℤ) : Result Unit := do
  requireNotTombstoned db lease.sessionId
  let current ← orElseThrow (.staleLease lease.sessionId) (db.leases lease.sessionId)
  require (current.ownerId = some lease.ownerId && current.epoch = lease.epoch &&
    current.expiresAtMs.any (nowMs < ·)) (.staleLease lease.sessionId)

/-- `query_stored_session`: tombstoned sessions are not found. -/
def queryStoredSession : Result SessionRow :=
  if db.tombstones sessionId then .error (.notFound sessionId)
  else orElseThrow (.notFound sessionId) (db.sessions sessionId)

def querySession : Result SessionRow :=
  orElseThrow (.notFound sessionId) (db.sessions sessionId)

def runIsInTree (runId root : String) : Bool :=
  runId = root ||
    match root.toList.isPrefixOf? runId.toList with
    | some (':' :: _) => true
    | _ => false

def runTreesOverlap (left right : String) : Bool :=
  runIsInTree left right || runIsInTree right left

/-- The run claims of jobs that are not complete, in the order of the runs. -/
def activeClaims : List String :=
  ((db.claims.filter fun claim => (db.jobs claim.jobId).any (·.phase ≠ .complete)).map
    (·.rootRunId)).insertionSort (· ≤ ·)

def requireRunNotGcClaimed (requestedRunId : String) : Result Unit :=
  match (activeClaims db).find? (runTreesOverlap requestedRunId ·) with
  | some claimedRunId => .error (.runGcClaimed requestedRunId claimedRunId)
  | none => .ok ()

def requireRunIdKept (row : SessionRow) (sessionId : String) (requestedRunId : Option String) :
    Result Unit :=
  require (!row.runId.any fun stored => some stored ≠ requestedRunId) (.runIdConflict sessionId)

def requireRevision (lease : SessionLease) (actual : ℤ) : Result Unit :=
  require (actual = lease.revision) (.revisionConflict lease.sessionId lease.revision actual)

def requireMemorySnapshotSetOnce (current requested : Session) : Result Unit :=
  require (!current.memorySnapshot.any fun stored => some stored ≠ requested.memorySnapshot)
    (.memorySnapshotConflict current.id)

/-! ## Writes -/

def Database.setSession (row : SessionRow) : Database :=
  { db with sessions := Function.update db.sessions sessionId (some row) }

def Database.setLease (row : LeaseRow) : Database :=
  { db with leases := Function.update db.leases sessionId (some row) }

/-- Extend the lease if it is still the one named. -/
def Database.refreshLease (lease : SessionLease) (expiresAtMs : ℤ) : Database :=
  match db.leases lease.sessionId with
  | some row =>
    if row.ownerId = some lease.ownerId && row.epoch = lease.epoch then
      db.setLease lease.sessionId { row with expiresAtMs := some expiresAtMs }
    else db
  | none => db

def syncSessionRunReference (runId : Option String) : Database :=
  let kept := db.references.filter (·.1 ≠ sessionId)
  { db with references := kept ++ (runId.map fun runId => (sessionId, runId)).toList }

/-! ## Transactions on a session -/

def createActive (session : Session) (ownerId : String) (nowMs : ℤ) :
    Result (Database × SessionLease) := do
  validateOwner ownerId
  let runId ← requireNewSessionRunId session
  requireNotTombstoned db session.id
  requireRunNotGcClaimed db runId
  require (db.sessions session.id).isNone (.alreadyExists session.id)
  let inserted := db.setSession session.id ⟨session, 0, some runId⟩
  let referenced := syncSessionRunReference inserted session.id (some runId)
  return (referenced.setLease session.id ⟨some ownerId, 1, some (leaseExpiry nowMs)⟩,
    ⟨session.id, ownerId, 1, 0⟩)

/-- The epoch under which `ownerId` may take the lease. -/
def acquiredEpoch (current : Option LeaseRow) (sessionId ownerId : String) (nowMs : ℤ) :
    Result ℤ :=
  match current with
  | none => .ok 1
  | some current =>
    match current.ownerId, current.expiresAtMs with
    | some holder, some expiry =>
      if holder ≠ ownerId ∧ nowMs < expiry then .error (.leaseHeld sessionId holder expiry)
      else orElseThrow (.epochExhausted sessionId) (i64CheckedAdd current.epoch 1)
    | _, _ => orElseThrow (.epochExhausted sessionId) (i64CheckedAdd current.epoch 1)

def loadActive (ownerId : String) (nowMs : ℤ) : Result (Database × ActiveSession) := do
  validateOwner ownerId
  requireNotTombstoned db sessionId
  let stored ← queryStoredSession db sessionId
  let runId ← optionalNonemptyRunId stored.session
  let referenced := syncSessionRunReference db sessionId runId
  let epoch ← acquiredEpoch (db.leases sessionId) sessionId ownerId nowMs
  return (referenced.setLease sessionId ⟨some ownerId, epoch, some (leaseExpiry nowMs)⟩,
    ⟨stored.session, ⟨sessionId, ownerId, epoch, stored.revision⟩⟩)

/-- The session row, the lease and the run reference after a write of the session. -/
def Database.writeSession (lease : SessionLease) (session : Session)
    (requestedRunId : Option String) (nextRevision nowMs : ℤ) : Database :=
  let updated := db.setSession lease.sessionId ⟨session, nextRevision, session.runId⟩
  let refreshed := updated.refreshLease lease (leaseExpiry nowMs)
  syncSessionRunReference refreshed lease.sessionId requestedRunId

/-- The lease comes back with the revision it wrote. -/
def save (lease : SessionLease) (session : Session) (nowMs : ℤ) :
    Result (Database × SessionLease) := do
  require (lease.sessionId = session.id) (.sessionIdMismatch lease.sessionId session.id)
  validateOwner lease.ownerId
  requireNotTombstoned db lease.sessionId
  let stored ← queryStoredSession db lease.sessionId
  requireCurrentLease db lease nowMs
  let requestedRunId ← optionalNonemptyRunId session
  requireRunIdKept stored lease.sessionId requestedRunId
  requireRevision lease stored.revision
  requireMemorySnapshotSetOnce stored.session session
  let nextRevision ← orElseThrow (.revisionExhausted lease.sessionId)
    (i64CheckedAdd lease.revision 1)
  return (db.writeSession lease session requestedRunId nextRevision nowMs,
    { lease with revision := nextRevision })

def heartbeat (lease : SessionLease) (nowMs : ℤ) : Result (Database × Unit) := do
  validateOwner lease.ownerId
  requireCurrentLease db lease nowMs
  return (db.refreshLease lease (leaseExpiry nowMs), ())

def release (lease : SessionLease) (nowMs : ℤ) : Result (Database × Unit) := do
  validateOwner lease.ownerId
  requireCurrentLease db lease nowMs
  return (db.setLease lease.sessionId ⟨none, lease.epoch, none⟩, ())

end SolarisMesh.Store
