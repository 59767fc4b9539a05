import SolarisMesh.Store.Database

/-!
# Durable tasks

One row for each piece of work of a session: its phase, the call it waits for and, once it is
complete, its result. A row is created, moved on by its revision, and checkpointed together
with the session when the user's input is saved.
-/

namespace SolarisMesh.Store

open Lib

namespace DurableTaskPhase

def asStr : DurableTaskPhase → String
  | .created => "created"
  | .userCheckpointed => "user_checkpointed"
  | .awaitingProvider => "awaiting_provider"
  | .providerInFlight => "provider_in_flight"
  | .providerCompleted => "provider_completed"
  | .toolsInFlight => "tools_in_flight"
  | .toolsCompleted => "tools_completed"
  | .completed => "completed"
  | .outcomeUnknown => "outcome_unknown"
  | .sideEffectUnknown => "side_effect_unknown"
  | .aborted => "aborted"

/-- The phases `can_transition_to` lets nothing else follow. -/
def isTerminal : DurableTaskPhase → Bool
  | .completed | .outcomeUnknown | .sideEffectUnknown | .aborted => true
  | _ => false

def canTransitionTo (self next : DurableTaskPhase) : Bool :=
  if self = next then true
  else if self.isTerminal then false
  else next ≠ .created

end DurableTaskPhase

def validTaskKey (taskKey : String) : Bool :=
  taskKey ≠ "" && taskKey.utf8ByteSize ≤ 160 && !taskKey.toList.contains '\x00'

def validateTaskIdentity (taskKey : String) (inputDigest : List UInt8) : Result Unit :=
  require (validTaskKey taskKey && inputDigest.length = 32) .invalidTaskInput

def validCallId (callId : String) : Bool :=
  callId ≠ "" && callId.utf8ByteSize ≤ 512 && !callId.toList.contains '\x00'

def validateTransitionInput (taskKey : String) (callId : Option String)
    (terminalResultJson : Option (List UInt8)) : Result Unit := do
  require (validTaskKey taskKey) .invalidTaskInput
  require (callId.all validCallId) .invalidTaskInput
  require (terminalResultJson.all (·.length ≤ 16 * 1024 * 1024)) .invalidTaskInput

variable (db : Database) (lease : SessionLease) (taskKey : String)

def Database.setTask (sessionId taskKey : String) (task : StoredDurableTask) : Database :=
  { db with
    tasks := Function.update db.tasks sessionId
      (Function.update (db.tasks sessionId) taskKey (some task)) }

def loadTask (nowMs : ℤ) : Result (Database × Option StoredDurableTask) := do
  requireCurrentLease db lease nowMs
  return (db, db.tasks lease.sessionId taskKey)

/-- The row under this key if it holds this input, or a new one. -/
def resumeTask (inputDigest : List UInt8) (sessionRevision : ℤ) :
    Result (Database × StoredDurableTask) :=
  match db.tasks lease.sessionId taskKey with
  | some task => do
    require (task.inputDigest = inputDigest) (.taskInputConflict lease.sessionId taskKey)
    return (db, task)
  | none =>
    let task : StoredDurableTask := ⟨taskKey, inputDigest, .created, none, sessionRevision, 0, none⟩
    .ok (db.setTask lease.sessionId taskKey task, task)

def beginOrResumeTask (inputDigest : List UInt8) (nowMs : ℤ) :
    Result (Database × StoredDurableTask) := do
  validateTaskIdentity taskKey inputDigest
  requireCurrentLease db lease nowMs
  let row ← querySession db lease.sessionId
  requireRevision lease row.revision
  resumeTask db lease taskKey inputDigest row.revision

/-- The lease comes back with the revision it wrote. -/
def checkpointTaskUser (session : Session) (taskKey : String) (nowMs : ℤ) :
    Result (Database × SessionLease × StoredDurableTask) := do
  require (lease.sessionId = session.id) (.sessionIdMismatch lease.sessionId session.id)
  validateOwner lease.ownerId
  validateTransitionInput taskKey none none
  requireNotTombstoned db lease.sessionId
  let row ← querySession db lease.sessionId
  requireCurrentLease db lease nowMs
  requireRevision lease row.revision
  let requestedRunId ← optionalNonemptyRunId session
  requireRunIdKept row lease.sessionId requestedRunId
  let current ← orElseThrow (.taskNotFound lease.sessionId taskKey)
    (db.tasks lease.sessionId taskKey)
  require (current.phase = .created && current.callId.isNone)
    (.invalidTaskTransition current.phase.asStr DurableTaskPhase.userCheckpointed.asStr)
  let nextSessionRevision ← orElseThrow (.revisionExhausted lease.sessionId)
    (i64CheckedAdd lease.revision 1)
  let nextTaskRevision ← orElseThrow .taskRevisionExhausted (i64CheckedAdd current.taskRevision 1)
  let checkpointed : StoredDurableTask :=
    { current with
      phase := .userCheckpointed
      sessionRevision := nextSessionRevision
      taskRevision := nextTaskRevision }
  let written := db.writeSession lease session requestedRunId nextSessionRevision nowMs
  return (written.setTask lease.sessionId taskKey checkpointed,
    { lease with revision := nextSessionRevision },
    { checkpointed with callId := none, terminalResultJson := none })

/-- The row moved on by one revision, once the request is known to differ from it. -/
def moveTask (current : StoredDurableTask) (phase : DurableTaskPhase) (callId : Option String)
    (terminalResultJson : Option (List UInt8)) (sessionRevision : ℤ) :
    Result (Database × StoredDurableTask) := do
  require (current.phase.canTransitionTo phase)
    (.invalidTaskTransition current.phase.asStr phase.asStr)
  require (phase ≠ .completed || terminalResultJson.isSome) .invalidTaskInput
  require (phase = .completed || terminalResultJson.isNone) .invalidTaskInput
  let nextRevision ← orElseThrow .taskRevisionExhausted (i64CheckedAdd current.taskRevision 1)
  let moved : StoredDurableTask :=
    { current with
      phase
      callId
      sessionRevision
      taskRevision := nextRevision
      terminalResultJson }
  return (db.setTask lease.sessionId taskKey moved, moved)

def transitionTask (expectedTaskRevision : ℤ) (phase : DurableTaskPhase) (callId : Option String)
    (terminalResultJson : Option (List UInt8)) (nowMs : ℤ) :
    Result (Database × StoredDurableTask) := do
  validateTransitionInput taskKey callId terminalResultJson
  requireCurrentLease db lease nowMs
  let row ← querySession db lease.sessionId
  requireRevision lease row.revision
  let current ← orElseThrow (.taskNotFound lease.sessionId taskKey)
    (db.tasks lease.sessionId taskKey)
  require (current.taskRevision = expectedTaskRevision)
    (.taskRevisionConflict taskKey expectedTaskRevision current.taskRevision)
  if current.phase = phase ∧ current.callId = callId ∧
      current.terminalResultJson = terminalResultJson then
    return (db, current)
  else moveTask db lease taskKey current phase callId terminalResultJson row.revision

end SolarisMesh.Store
