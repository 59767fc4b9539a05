import SolarisMesh.Ledger.Lease

/-!
# The task registry

Tasks of a run change by compare-and-set: a mutation names the revision it expects and the
operation it belongs to, is written to the ledger as a `task_cas` record and then applied in
memory. The registry remembers the operations it applied and answers a repeated one from memory.

Two callers write the record: the collaboration runtime appends it under the run's lock, the
Workflow controller under its lease. The digest of a mutation comes as a function.
-/

namespace SolarisMesh.Tasks

open Lib SolarisMesh.Types Ledger

inductive TaskCasMutation where
  | assign (owner : AgentId)
  | markRunning (owner : AgentId)
  | handoff (fromAgent toAgent : AgentId)
  | settle (owner : AgentId) (state : TaskState) (outcomeRef : Option String)
      (failureClass : Option TaskFailureClass)
  | skip (reason : Option String)
  | supervisorRetry (reason : Option String)
  | workflowState (state : TaskState) (clearOwner : Bool) (outcomeRef : Option String)
      (failureClass : Option TaskFailureClass)
deriving DecidableEq, Repr

def debugName : TaskState → String
  | .created => "Created"
  | .queued => "Queued"
  | .assigned => "Assigned"
  | .running => "Running"
  | .completed => "Completed"
  | .failed => "Failed"
  | .skipped => "Skipped"
  | .cancelled => "Cancelled"

namespace TaskCasMutation

def name : TaskCasMutation → String
  | assign _ => "assign"
  | markRunning _ => "mark_running"
  | handoff .. => "handoff"
  | settle .. => "settle"
  | skip _ => "skip"
  | supervisorRetry _ => "supervisor_retry"
  | workflowState .. => "workflow_state"

/-- The moves of a Workflow task's state. -/
def workflowMoveAllowed : TaskState → TaskState → Bool
  | .queued, .completed | .queued, .failed | .queued, .skipped | .queued, .cancelled => true
  | .assigned, .completed | .assigned, .failed | .assigned, .cancelled => true
  | .running, .completed | .running, .failed | .running, .cancelled => true
  | .failed, .queued => true
  | _, _ => false

/-- A task that somebody works on. -/
def isOwned (task : TaskRecord) (owner : AgentId) : Bool :=
  (task.state = .assigned || task.state = .running) && task.ownerAgentId = some owner

def apply (mutation : TaskCasMutation) (current : TaskRecord) (newRevision : ℕ) :
    IoResult TaskRecord :=
  match mutation with
  | assign owner => do
    require (current.state = .queued && current.ownerAgentId.isNone)
      (otherError "task assignment requires a Queued task without an owner")
    return { current with
      ownerAgentId := some owner, state := .assigned, revision := newRevision }
  | markRunning owner => do
    require (current.state = .assigned && current.ownerAgentId = some owner)
      (otherError "mark_running requires the Assigned task owner")
    return { current with state := .running, revision := newRevision }
  | handoff fromAgent toAgent => do
    require (isOwned current fromAgent)
      (otherError "task handoff requires the current Assigned or Running owner")
    return { current with
      ownerAgentId := some toAgent, state := .assigned, revision := newRevision }
  | settle owner state outcomeRef failureClass => do
    require (state = .completed || state = .failed || state = .cancelled)
      (otherError "task settlement state must be terminal")
    require (isOwned current owner)
      (otherError "task settlement requires the current Assigned or Running owner")
    return { current with state, outcomeRef, failureClass, revision := newRevision }
  | skip reason => do
    require (current.state = .queued && current.ownerAgentId.isNone)
      (otherError "task skip requires a Queued task without an owner")
    return { current with
      state := .skipped, outcomeRef := reason, failureClass := some .nonRetryable,
      revision := newRevision }
  | supervisorRetry reason => do
    require (current.workflowId.isNone && current.state = .failed &&
        current.failureClass = some .retryable && current.ownerAgentId.isSome)
      (otherError
        "Supervisor retry requires a direct failed task with a Retryable failure and an owner")
    return { current with
      state := .queued, ownerAgentId := none, outcomeRef := reason, failureClass := none,
      revision := newRevision }
  | workflowState state clearOwner outcomeRef failureClass => do
    require current.workflowId.isSome
      (otherError "workflow state projection requires a workflow task")
    let before := debugName current.state
    let after := debugName state
    require (workflowMoveAllowed current.state state &&
        !(current.state = .failed && !clearOwner))
      (otherError s!"illegal workflow task transition: {before} -> {after}")
    return { current with
      state, ownerAgentId := if clearOwner then none else current.ownerAgentId, outcomeRef,
      failureClass, revision := newRevision }

end TaskCasMutation

structure AppliedTaskCas where
  taskId : TaskId
  mutationDigest : String
  expectedRevision : ℕ
  newRevision : ℕ
  result : TaskRecord
deriving DecidableEq, Repr

/-- The applied operation was this one. -/
def AppliedTaskCas.isFor (applied : AppliedTaskCas) (taskId : TaskId) (expectedRevision : ℕ)
    (mutationDigest : String) : Bool :=
  applied.taskId = taskId && applied.mutationDigest = mutationDigest &&
    applied.expectedRevision = expectedRevision &&
    u64CheckedAdd expectedRevision 1 = some applied.newRevision

structure TaskRegistry where
  tasks : TaskId → Option TaskRecord
  applied : OperationId → Option AppliedTaskCas

namespace TaskRegistry

def empty : TaskRegistry := ⟨fun _ => none, fun _ => none⟩

variable (registry : TaskRegistry) (taskId : TaskId)

def insertTask (record : TaskRecord) : TaskRegistry :=
  { registry with tasks := Function.update registry.tasks taskId (some record) }

def upsert (record : TaskRecord) : TaskRegistry :=
  registry.insertTask record.taskId record

def insertApplied (operationId : OperationId) (applied : AppliedTaskCas) : TaskRegistry :=
  { registry with applied := Function.update registry.applied operationId (some applied) }

@[simp] lemma insertTask_self (record : TaskRecord) :
    (registry.insertTask taskId record).tasks taskId = some record :=
  Function.update_self ..

@[simp] lemma insertApplied_self (operationId : OperationId) (applied : AppliedTaskCas) :
    (registry.insertApplied operationId applied).applied operationId = some applied :=
  Function.update_self ..

/-- Apply a mutation that `persist` has written. An operation that was applied is answered from
memory, with nothing written. -/
def casDurable {α : Type} (expectedRevision : ℕ) (operationId : OperationId)
    (mutationDigest : String) (mutation : TaskCasMutation) (persist : TaskRecord → IoResult α) :
    IoResult (TaskRegistry × Option α × TaskRecord) :=
  match registry.applied operationId with
  | some applied => do
    require (applied.isFor taskId expectedRevision mutationDigest)
      (otherError s!"task operation {operationId} is already bound to a different mutation")
    return (registry, none, applied.result)
  | none => do
    let current ← orElseThrow (otherError s!"unknown task: {taskId}") (registry.tasks taskId)
    let newRevision ← orElseThrow (otherError "task revision overflow")
      (u64CheckedAdd expectedRevision 1)
    let found := current.revision
    require (found = expectedRevision)
      (otherError s!"stale task revision: expected {expectedRevision}, found {found}")
    let next ← mutation.apply current newRevision
    let written ← persist next
    return ((registry.insertTask taskId next).insertApplied operationId
      ⟨taskId, mutationDigest, expectedRevision, newRevision, next⟩, some written, next)

end TaskRegistry

/-! ## The ledger below it -/

/-- The payload of a `task_cas` record. -/
structure TaskCasPayload where
  taskId : TaskId
  operationId : OperationId
  transition : String
  mutation : TaskCasMutation
  mutationDigest : String
  expectedRevision : ℕ
  newRevision : ℕ
  expectedTask : TaskRecord
  task : TaskRecord
deriving DecidableEq, Repr

/-- The payloads of task records; `other` stands for the records of other components. -/
inductive TaskPayload where
  | taskCas (payload : TaskCasPayload)
  | other (recordType : String)
deriving DecidableEq, Repr

structure TaskSystem where
  registry : TaskRegistry
  ledger : LedgerState TaskPayload

def TaskSystem.empty : TaskSystem := ⟨.empty, .empty _⟩

/-- Who writes the record: the collaboration runtime, or the Workflow controller under the lease it
holds. -/
inductive CasWriter where
  | run
  | workflow (lease : Option WorkflowMutationLease)
deriving DecidableEq, Repr

/-- One compare-and-set with what it finds around it: the clock and whether the ledger can be read
and written. -/
structure CasCall where
  runId : RunId
  taskId : TaskId
  expectedRevision : ℕ
  operationId : OperationId
  mutation : TaskCasMutation
  writer : CasWriter
  nowUnixMs : ℤ
  readable : Bool
  writable : Bool
deriving DecidableEq, Repr

section

variable (digest : TaskCasMutation → String)

def CasCall.payload (call : CasCall) (expectedTask next : TaskRecord) : TaskCasPayload where
  taskId := call.taskId
  operationId := call.operationId
  transition := call.mutation.name
  mutation := call.mutation
  mutationDigest := digest call.mutation
  expectedRevision := call.expectedRevision
  newRevision := next.revision
  expectedTask := expectedTask
  task := next

/-- A `task_cas` record of the operation, or of the revision of the task. -/
def CasCall.boundRecord (call : CasCall) (records : List (LedgerRecord TaskPayload)) :
    Option TaskCasPayload :=
  records.findSome? fun record =>
    match record.payload with
    | .taskCas payload =>
      if payload.operationId = call.operationId ∨
          (payload.taskId = call.taskId ∧ payload.expectedRevision = call.expectedRevision) then
        some payload
      else none
    | .other _ => none

def CasCall.append (call : CasCall) (ledger : LedgerState TaskPayload) (payload : TaskPayload) :
    IoResult (LedgerState TaskPayload) := do
  require call.writable (otherError "begin runtime ledger append")
  match call.writer with
  | .run =>
    let seq ← allocateSqliteSequence ledger.nextSequence
    return (ledger.insertRecord seq call.runId call.nowUnixMs .syncCritical "task_cas" payload).1
  | .workflow lease =>
    let lease ← orElseThrow (otherError "runtime ledger cannot fence Workflow task mutation") lease
    let (written, _) ← appendUnderWorkflowLeaseSqlite ledger lease call.nowUnixMs .syncCritical
      "task_cas" payload
    return written

/-- Write the record of a mutation, unless the ledger has it. -/
def CasCall.persist (call : CasCall) (ledger : LedgerState TaskPayload)
    (expectedTask next : TaskRecord) : IoResult (LedgerState TaskPayload) := do
  require call.readable (otherError "query runtime ledger records")
  let payload := call.payload digest expectedTask next
  let expectedRevision := call.expectedRevision
  match call.boundRecord (ledger.recordsForRun call.runId) with
  | some existing =>
    require (existing = payload)
      (otherError s!"task revision {expectedRevision} is already bound to a different mutation")
    return ledger
  | none => call.append ledger (.taskCas payload)

/-- `apply_task_cas_locked`; `update_workflow_task` is the same with the Workflow's writer and the
current revision of the task. -/
def applyTaskCas (s : TaskSystem) (call : CasCall) : IoResult (TaskSystem × TaskRecord) := do
  let taskId := call.taskId
  let expectedTask ← orElseThrow (otherError s!"unknown task: {taskId}") (s.registry.tasks taskId)
  let (registry, written, updated) ← s.registry.casDurable taskId call.expectedRevision
    call.operationId (digest call.mutation) call.mutation
      (call.persist digest s.ledger expectedTask)
  return (⟨registry, written.getD s.ledger⟩, updated)

/-! ## Histories -/

inductive TaskEvent where
  /-- A task is registered. -/
  | create (task : TaskRecord)
  | cas (call : CasCall)
  /-- Others use the ledger. -/
  | elsewhere (ledger : LedgerState TaskPayload)

inductive TaskAnswer where
  | done
  | updated (task : TaskRecord)
deriving DecidableEq, Repr

def taskMachine : Machine TaskSystem TaskEvent (IoResult TaskAnswer) where
  step s
    | .create task => ({ s with registry := s.registry.upsert task }, .ok .done)
    | .cas call =>
      match applyTaskCas digest s call with
      | .ok (next, updated) => (next, .ok (.updated updated))
      | .error error => (s, .error error)
    | .elsewhere ledger => ({ s with ledger }, .ok .done)

end

abbrev TaskStep := Machine.Step TaskSystem TaskEvent (IoResult TaskAnswer)

end SolarisMesh.Tasks
