import SolarisMesh.Lib.Checked
import SolarisMesh.Types.Runtime

/-!
# The runtime ledger: records, sequences and lease rows

The state both ledger backends keep: the records of all runs in the order they were
written, the counter sequences are allocated from, the Workflow mutation lease of each
run and (SQLite only) the bindings of logical identities. Payloads are of an arbitrary
type `V`, equal when they are written as the same text; what the ledger reads of them is the
interface `LedgerPayload`.
-/

namespace SolarisMesh.Ledger

open Lib SolarisMesh.Types

inductive ErrorKind where
  | wouldBlock | permissionDenied | invalidInput | invalidData | alreadyExists | unsupported | other
deriving DecidableEq, Repr

structure IoError where
  kind : ErrorKind
  message : String
deriving DecidableEq, Repr

abbrev IoResult := Except IoError

def otherError (message : String) : IoError := ⟨.other, message⟩

/-- What the ledger reads of a payload: members of an object, and the runtime records that
task admission decodes. -/
class LedgerPayload (V : Type) where
  /-- The members of an object, `none` for any other value. -/
  members : V → Option (String → Option V)
  /-- The payload digest stored with a logical binding. -/
  digest : V → List UInt8
  /-- Equality of values, where the order of an object's members does not count. -/
  same : V → V → Bool
  same_refl : ∀ v, same v v = true
  /-- What the stored text of a payload reads back as. -/
  reread : V → Option V
  /-- The task that is read from the stored text of a payload. -/
  rereadTask : V → Option TaskRecord
  ofTask : TaskRecord → V
  toTask : V → Option TaskRecord
  toTeam : V → Option TeamRecord
  /-- Teams, memberships and tasks of a collaboration batch, or which of them cannot be read. -/
  toBatch : V → Except String (List TeamRecord × List (TeamId × AgentId) × List TaskRecord)
  /-- Team and Agent of a `team_member_joined` record. -/
  toMembership : V → Option TeamId × Option AgentId

open LedgerPayload (same toTask ofTask rereadTask)

/-- Equality of values is transitive, and a task keeps its id when it is written, stored and
read back. -/
class LawfulLedgerPayload (V : Type) [LedgerPayload V] : Prop where
  same_trans : ∀ u v w : V, same u v = true → same v w = true →
    same u w = true
  taskId_ofTask : ∀ task : TaskRecord,
    (toTask (ofTask task : V)).map (·.taskId) = some task.taskId
  taskId_reread : ∀ (v : V) (task : TaskRecord), rereadTask v = some task →
    (toTask v).map (·.taskId) = some task.taskId

/-- `LEDGER_SCHEMA_VERSION`. -/
def ledgerSchemaVersion : ℕ := 1

structure LedgerRecord (V : Type) where
  schemaVersion : ℕ
  seq : ℕ
  runId : RunId
  timestampUnixMs : ℤ
  durability : DurabilityClass
  recordType : String
  payload : V
deriving DecidableEq

/-- The stored Workflow mutation lease of a run. -/
structure WorkflowMutationLeaseRow where
  ownerId : Option String
  epoch : ℕ
  heartbeatAtUnixMs : ℤ
  expiresAtUnixMs : ℤ
  observedSequence : ℕ
  committedSequence : ℕ
deriving DecidableEq, Repr

/-- The token an owner holds. -/
structure WorkflowMutationLease where
  runId : RunId
  ownerId : String
  epoch : ℕ
  expiresAtUnixMs : ℤ
  observedSequence : ℕ
deriving DecidableEq, Repr

inductive WorkflowRestoreCommit where
  | current
  | stale (currentSequence : ℕ)
deriving DecidableEq, Repr

/-- A logical identity: its members in the order of their names. -/
abbrev LogicalIdentity (V : Type) := List (String × V)

/-- A row of `runtime_ledger_logical_records`. -/
structure LogicalRow (V : Type) where
  runId : RunId
  recordType : String
  identity : LogicalIdentity V
  sequence : ℕ
  payloadDigest : List UInt8
deriving DecidableEq

structure LedgerState (V : Type) where
  records : List (LedgerRecord V)
  nextSequence : ℕ
  workflowMutationLeases : RunId → Option WorkflowMutationLeaseRow
  logicalRecords : List (LogicalRow V)

/-- A new ledger. -/
def LedgerState.empty (V : Type) : LedgerState V := ⟨[], 0, fun _ => none, []⟩

namespace LedgerState

variable {V : Type}

variable (state : LedgerState V) (runId : RunId) (row : WorkflowMutationLeaseRow)

def recordsForRun : List (LedgerRecord V) :=
  state.records.filter (·.runId = runId)

/-- The sequence of the run's last record, 0 without records. -/
def lastSequence : ℕ :=
  ((state.recordsForRun runId).getLast?.map (·.seq)).getD 0

/-- `SELECT MAX(sequence)` over the run's records, 0 without records. -/
def runSequence : ℕ :=
  ((state.recordsForRun runId).map (·.seq)).foldl max 0

def setLease : LedgerState V :=
  { state with
    workflowMutationLeases := Function.update state.workflowMutationLeases runId (some row) }

@[simp] lemma setLease_records : (state.setLease runId row).records = state.records := rfl

@[simp] lemma setLease_nextSequence :
    (state.setLease runId row).nextSequence = state.nextSequence := rfl

@[simp] lemma setLease_leases_self :
    (state.setLease runId row).workflowMutationLeases runId = some row :=
  Function.update_self ..

@[simp] lemma setLease_setLease (row' : WorkflowMutationLeaseRow) :
    (state.setLease runId row).setLease runId row' = state.setLease runId row' := by
  simp [setLease]

lemma setLease_leases_of_ne {runId runId' : RunId} (row : WorkflowMutationLeaseRow)
    (h : runId' ≠ runId) : (state.setLease runId row).workflowMutationLeases runId' =
      state.workflowMutationLeases runId' :=
  Function.update_of_ne h ..

end LedgerState

/-! ## Sequence allocation -/

def sequenceExhausted : IoError := otherError "runtime ledger sequence exhausted"

def u64ToSqlite (value : ℕ) (label : String) : IoResult ℕ :=
  if value ≤ i64Max.toNat then .ok value else .error (otherError s!"{label} exceeds SQLite")

/-- The in-memory ledger counts in `u64`. -/
def nextSequenceInMemory (current : ℕ) : IoResult ℕ :=
  orElseThrow sequenceExhausted (u64CheckedAdd current 1)

/-- SQLite counts in `i64`. -/
def allocateSqliteSequence (current : ℕ) : IoResult ℕ :=
  if current + 1 ≤ i64Max.toNat then .ok (current + 1) else .error sequenceExhausted

lemma nextSequenceInMemory_eq_ok {n q : ℕ} (h : nextSequenceInMemory n = .ok q) :
    q = n + 1 := by
  simp only [nextSequenceInMemory, orElseThrow_eq_ok] at h
  exact u64CheckedAdd_eq_some h

lemma allocateSqliteSequence_eq_ok {n q : ℕ} (h : allocateSqliteSequence n = .ok q) :
    q = n + 1 := by
  unfold allocateSqliteSequence at h
  split at h
  · exact (Except.ok.inj h).symm
  · cases h

/-- Writes one record under an already allocated sequence. -/
def LedgerState.insertRecord {V : Type} (state : LedgerState V) (seq : ℕ) (runId : RunId)
    (timestampUnixMs : ℤ) (durability : DurabilityClass) (recordType : String) (payload : V) :
    LedgerState V × LedgerRecord V :=
  let record : LedgerRecord V :=
    { schemaVersion := ledgerSchemaVersion, seq := seq, runId := runId,
      timestampUnixMs := timestampUnixMs, durability := durability, recordType := recordType,
      payload := payload }
  ({ state with records := state.records ++ [record], nextSequence := seq }, record)

end SolarisMesh.Ledger
