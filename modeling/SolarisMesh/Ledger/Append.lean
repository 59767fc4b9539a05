import SolarisMesh.Ledger.State
import SolarisMesh.Lib.Like
import Mathlib.Data.List.Sort

/-!
# Logical appends and task admission

The two ledger operations that look at stored records before they write: an append that
binds a logical identity to one payload, and the admission of a batch of tasks with the
metadata records that belong to it. Both come in an in-memory and an SQLite version; they
differ in how sequences are allocated, in the binding table SQLite keeps, in the payloads, which
SQLite reads back from their text, and in how the runs of a tree are found.
-/

namespace SolarisMesh.Ledger

open Lib SolarisMesh.Types LedgerPayload

variable {V : Type} [DecidableEq V] [LedgerPayload V]

/-! ## Logical identity -/

def identityMember (members : String → Option V) (field : String) : IoResult (String × V) :=
  match members field with
  | some value => .ok (field, value)
  | none => .error ⟨.invalidData,
      s!"logical runtime ledger payload is missing identity field {field}"⟩

def canonicalIdentity (payload : V) (identityFields : List String) :
    IoResult (LogicalIdentity V) := do
  require (!identityFields.isEmpty)
    ⟨.invalidInput, "logical runtime ledger identity must contain at least one field"⟩
  require (decide identityFields.Nodup)
    ⟨.invalidInput, "logical runtime ledger identity fields contain a duplicate"⟩
  let members ← orElseThrow ⟨.invalidInput, "logical runtime ledger payload must be an object"⟩
    (members payload)
  (identityFields.mergeSort (· ≤ ·)).mapM (identityMember members)

def requireDurable (durability : DurabilityClass) : IoResult Unit :=
  require (durability ≠ .ephemeral)
    ⟨.invalidInput, "logical runtime ledger append requires durable storage"⟩

def requireSamePayload (recordType : String) (record : LedgerRecord V) (payload : V) :
    IoResult (LedgerRecord V) := do
  require (same record.payload payload)
    ⟨.alreadyExists, s!"{recordType} identity is bound to different content"⟩
  return record

def duplicateIdentity (recordType : String) : IoError :=
  ⟨.invalidData, s!"{recordType} identity is bound to multiple durable records"⟩

/-- The records of one type whose identity is `identity`. -/
def matchingRecords (identityFields : List String) (identity : LogicalIdentity V)
    (recordType : String) : List (LedgerRecord V) → IoResult (List (LedgerRecord V))
  | [] => .ok []
  | record :: records =>
    if record.recordType ≠ recordType then
      matchingRecords identityFields identity recordType records
    else do
      let found ← canonicalIdentity record.payload identityFields
      let rest ← matchingRecords identityFields identity recordType records
      return if found = identity then record :: rest else rest

variable (state : LedgerState V) (runId : RunId) (durability : DurabilityClass)
  (recordType : String) (identityFields : List String)

def compareAndAppendInMemoryLocked (payload : V) (clockUnixMs : ℤ) :
    IoResult (LedgerState V × LedgerRecord V) := do
  requireDurable durability
  let identity ← canonicalIdentity payload identityFields
  match ← matchingRecords identityFields identity recordType (state.recordsForRun runId) with
  | [] =>
    let seq ← nextSequenceInMemory state.nextSequence
    return state.insertRecord seq runId clockUnixMs durability recordType payload
  | [record] => return (state, ← requireSamePayload recordType record payload)
  | _ :: _ :: _ => throw (duplicateIdentity recordType)

/-- A stored row as SQLite gives it back. -/
def decodeSqliteRecord (failure : IoError) (record : LedgerRecord V) :
    IoResult (LedgerRecord V) := do
  let payload ← orElseThrow failure (reread record.payload)
  return { record with payload := payload }

def querySqliteRecords (records : List (LedgerRecord V)) : IoResult (List (LedgerRecord V)) :=
  records.mapM (decodeSqliteRecord (otherError "decode runtime ledger record"))

/-- The record a logical identity is bound to. -/
def mappedRecord (recordType : String) (identity : LogicalIdentity V) :
    IoResult (Option (LedgerRecord V)) :=
  let bound : Option (LedgerRecord V × List UInt8) := do
    let row ← state.logicalRecords.find? fun row =>
      row.runId = runId && row.recordType = recordType && row.identity = identity
    let record ← state.records.find? (·.seq = row.sequence)
    return (record, row.payloadDigest)
  match bound with
  | none => .ok none
  | some (stored, storedDigest) => do
    let record ← decodeSqliteRecord (otherError "query logical runtime ledger identity") stored
    require (digest record.payload = storedDigest)
      ⟨.invalidData, "logical runtime ledger payload digest does not match its record"⟩
    return some record

/-- Sequence and identity are unique in the binding table. -/
def insertMapping (row : LogicalRow V) : IoResult (LedgerState V) := do
  require (!state.logicalRecords.any fun bound => bound.sequence = row.sequence ||
      (bound.runId = row.runId && bound.recordType = row.recordType &&
        bound.identity = row.identity))
    (otherError "bind logical runtime ledger identity")
  return { state with logicalRecords := state.logicalRecords ++ [row] }

def backfillOrInsert (identity : LogicalIdentity V) (payload : V) (clockUnixMs : ℤ) :
    IoResult (LedgerState V × LedgerRecord V) := do
  let digest := digest payload
  let legacy ← querySqliteRecords
    ((state.recordsForRun runId).filter (·.recordType = recordType))
  match ← matchingRecords identityFields identity recordType legacy with
  | [] =>
    let seq ← allocateSqliteSequence state.nextSequence
    let (inserted, record) :=
      state.insertRecord seq runId clockUnixMs durability recordType payload
    return (← insertMapping inserted ⟨runId, recordType, identity, seq, digest⟩, record)
  | [found] =>
    let record ← requireSamePayload recordType found payload
    return (← insertMapping state ⟨runId, recordType, identity, record.seq, digest⟩, record)
  | _ :: _ :: _ => throw (duplicateIdentity recordType)

def compareAndAppendSqliteTransaction (payload : V) (clockUnixMs : ℤ) :
    IoResult (LedgerState V × LedgerRecord V) := do
  requireDurable durability
  let identity ← canonicalIdentity payload identityFields
  match ← mappedRecord state runId recordType identity with
  | some record => return (state, ← requireSamePayload recordType record payload)
  | none =>
    backfillOrInsert state runId durability recordType identityFields identity payload clockUnixMs

/-! ## Task admission -/

def sameTeamMetadata (left right : TeamRecord) : Bool :=
  left.runId = right.runId && left.teamId = right.teamId && left.name = right.name &&
    left.strategy = right.strategy && left.coordinator = right.coordinator &&
    left.directPeerMessaging = right.directPeerMessaging &&
    left.maxPendingMessages = right.maxPendingMessages &&
    left.maxMessageBytes = right.maxMessageBytes

def messageLimitsError (team : TeamRecord) : IoError :=
  let id := team.teamId
  if team.maxPendingMessages = 0 ∨ defaultMaxPendingMessages < team.maxPendingMessages then
    otherError s!"team {id} max_pending_messages must be between 1 and 64"
  else
    otherError s!"team {id} max_message_bytes must be between 1 and 65536"

/-- Teams and memberships that are durable in the run. -/
structure DurableCollaborationMetadata where
  teams : List TeamRecord
  memberships : List (TeamId × AgentId)

namespace DurableCollaborationMetadata

variable (metadata : DurableCollaborationMetadata)

def team? (teamId : TeamId) : Option TeamRecord :=
  metadata.teams.find? (·.teamId = teamId)

def registerTeamMetadata (team : TeamRecord) : IoResult DurableCollaborationMetadata := do
  require team.messageLimitsValid (messageLimitsError team)
  match metadata.team? team.teamId with
  | some existing =>
    let id := team.teamId
    require (sameTeamMetadata existing team)
      (otherError s!"team {id} was durably created with different metadata")
    return metadata
  | none => return { metadata with teams := metadata.teams ++ [team] }

/-- Registers the teams of a batch, each of which must belong to the run. -/
def registerTeams (runId : RunId) (wrongRun : IoError) (teams : List TeamRecord) :
    IoResult DurableCollaborationMetadata :=
  teams.foldlM (fun metadata team => do
    require (team.runId = runId) wrongRun
    metadata.registerTeamMetadata team) metadata

end DurableCollaborationMetadata

def decodeBatch (payload : V) :
    IoResult (List TeamRecord × List (TeamId × AgentId) × List TaskRecord) :=
  (toBatch payload).mapError fun part => otherError s!"decode collaboration batch {part}"

def collaborationMetadataFromRecord (runId : RunId) (metadata : DurableCollaborationMetadata)
    (record : LedgerRecord V) : IoResult DurableCollaborationMetadata :=
  if record.recordType = "team_created" then do
    let team ← orElseThrow (otherError "decode team_created payload")
      (toTeam record.payload)
    metadata.registerTeams runId (otherError "durable Team belongs to a different Run") [team]
  else if record.recordType = "collaboration_team_prepared" ∨
      record.recordType = "collaboration_batch_prepared" then do
    let (teams, memberships, _) ← decodeBatch record.payload
    let metadata ← metadata.registerTeams runId
      (otherError "durable collaboration Team belongs to a different Run") teams
    return { metadata with memberships := metadata.memberships ++ memberships }
  else if record.recordType = "team_member_joined" then do
    let (teamId, agentId) := toMembership record.payload
    let teamId ← orElseThrow (otherError "team_member_joined is missing team_id") teamId
    let agentId ← orElseThrow (otherError "team_member_joined is missing agent_id") agentId
    return { metadata with memberships := metadata.memberships ++ [(teamId, agentId)] }
  else .ok metadata

def collaborationMetadataFromRecords (runId : RunId) (records : List (LedgerRecord V)) :
    IoResult DurableCollaborationMetadata :=
  records.foldlM (collaborationMetadataFromRecord runId) ⟨[], []⟩

def validateTeamTaskAdmission (task : TaskRecord) (metadata : DurableCollaborationMetadata) :
    IoResult Unit :=
  match task.teamId with
  | none => .ok ()
  | some teamId => do
    let id := task.taskId
    let team ← orElseThrow
      (otherError s!"task {id} references Team {teamId} that is not durable in the same atomic batch")
      (metadata.team? teamId)
    let coordinator ← orElseThrow
      (otherError s!"team task {id} references Team {teamId} without a coordinator")
      team.coordinator
    require ((teamId, coordinator) ∈ metadata.memberships)
      (otherError
        s!"team task {id} coordinator {coordinator} is not durably a member of Team {teamId}")
    match task.state with
    | .created =>
      throw (otherError s!"team task {id} cannot be durably admitted in Created state")
    | .queued =>
      require task.ownerAgentId.isNone
        (otherError s!"queued team task {id} must not have an assigned owner")
    | .assigned | .running =>
      let state := if task.state = .assigned then "Assigned" else "Running"
      let owner ← orElseThrow
        (otherError s!"team task {id} in {state} state has no assigned owner membership")
        task.ownerAgentId
      require ((teamId, owner) ∈ metadata.memberships)
        (otherError s!"task {id} owner {owner} is not durably a member of Team {teamId}")
    | .completed | .failed | .cancelled | .skipped =>
      task.ownerAgentId.forM fun owner =>
        require ((teamId, owner) ∈ metadata.memberships)
          (otherError s!"task {id} historical owner {owner} is not durably a member of Team {teamId}")

/-- A record to append: durability, type and payload. -/
abbrev PendingRecord (V : Type) := DurabilityClass × String × V

/-- Adds one batch marker to the durable metadata. -/
def registerBatch (runId : RunId) (tasks : List TaskRecord)
    (metadata : DurableCollaborationMetadata) (payload : V) :
    IoResult DurableCollaborationMetadata := do
  let (batchTeams, batchMemberships, batchTasks) ← decodeBatch payload
  require (batchTasks = tasks) (otherError
    "collaboration batch marker tasks do not match the atomically admitted task set")
  let metadata ← metadata.registerTeams runId
    (otherError "collaboration batch Team belongs to a different Run") batchTeams
  batchMemberships.forM fun (teamId, agentId) =>
    require (metadata.team? teamId).isSome (otherError
      s!"collaboration batch membership for Agent {agentId} references unknown Team {teamId}")
  return { metadata with memberships := metadata.memberships ++ batchMemberships }

/-- The additional records to write: validated against the durable metadata if one of them
is a batch marker, without the marker itself if the run already holds the same one. -/
def prepareAdditionalRecords (runId : RunId) (existing : List (LedgerRecord V))
    (tasks : List TaskRecord) (additional : List (PendingRecord V)) :
    IoResult (List (PendingRecord V)) := do
  if !additional.any (·.2.1 = "collaboration_batch_prepared") then
    return additional.filter (·.1 ≠ .ephemeral)
  else
    let durable ← collaborationMetadataFromRecords runId existing
    let markers := additional.filter (·.2.1 = "collaboration_batch_prepared")
    let metadata ← (markers.map (·.2.2)).foldlM (registerBatch runId tasks) durable
    tasks.forM (validateTeamTaskAdmission · metadata)
    return additional.filter fun (durability, recordType, payload) =>
      durability ≠ .ephemeral && !(recordType = "collaboration_batch_prepared" &&
        existing.any fun record => record.recordType = recordType &&
          same record.payload payload)

def existingMetadataSqlite (state : LedgerState V) (runId : RunId) :
    IoResult (List (LedgerRecord V)) :=
  (state.recordsForRun runId).mapM
    (decodeSqliteRecord (otherError "decode collaboration metadata payload"))

def decodeTask (payload : V) : IoResult TaskRecord :=
  orElseThrow (otherError "decode task_created payload") (toTask payload)

section Charged

omit [DecidableEq V] [LedgerPayload V]

/-- A run id that is the root's or starts with it and a colon. -/
def isRootOrDescendant (rootRunId runId : RunId) : Bool :=
  runId = rootRunId || (rootRunId ++ ":").toList.isPrefixOf runId.toList

/-- `run_id = ?1 OR run_id LIKE ?2 ESCAPE '\\'`, the pattern being the root with its special
characters escaped, a colon and `%`. -/
def selectsRootOrDescendant (rootRunId runId : RunId) : Bool :=
  let escapedRoot :=
    Like.escapeChar '\\' '_' (Like.escapeChar '\\' '%' (Like.escapeChar '\\' '\\' rootRunId.toList))
  runId = rootRunId || Like.like '\\' (escapedRoot ++ [':', '%']) runId.toList

/-- The `task_created` records of the runs that `charged` selects. -/
def LedgerState.taskRecords (state : LedgerState V) (charged : RunId → Bool) :
    List (LedgerRecord V) :=
  state.records.filter fun record => charged record.runId && record.recordType = "task_created"

end Charged

variable (state : LedgerState V)

/-- The tasks already admitted under the root run and its descendants; `visit` is the order in
which the hash map gives the runs. -/
def existingRootTasksInMemory (visit : RunId → ℕ) (rootRunId : RunId) :
    IoResult (List TaskRecord) :=
  ((state.taskRecords (isRootOrDescendant rootRunId)).insertionSort
    (fun a b => visit a.runId ≤ visit b.runId)).mapM fun record => decodeTask record.payload

/-- No task id stands for two tasks. -/
def requireUniqueTasks (seen : List TaskRecord) : List TaskRecord → IoResult Unit
  | [] => .ok ()
  | task :: tasks => do
    let id := task.taskId
    require ((seen.find? (·.taskId = id)).all (· = task))
      (otherError s!"runtime task {id} is bound to multiple durable task_created records")
    requireUniqueTasks (task :: seen) tasks

def existingRootTasksSqlite (rootRunId : RunId) : IoResult (List TaskRecord) := do
  let tasks ← (state.taskRecords (selectsRootOrDescendant rootRunId)).mapM fun record =>
    orElseThrow (otherError "decode task_created payload")
      (rereadTask record.payload)
  requireUniqueTasks [] tasks
  return tasks

/-- The new tasks of a batch, none of them twice. Of several records of one task the last
counts. -/
def newTasks (existing : List TaskRecord) (batchIds : List TaskId) :
    List TaskRecord → IoResult (List TaskRecord)
  | [] => .ok []
  | task :: tasks => do
    let id := task.taskId
    match existing.reverse.find? (·.taskId = id) with
    | some previous =>
      require (previous = task)
        (otherError s!"runtime task {id} was durably created with different metadata")
      newTasks existing batchIds tasks
    | none =>
      require (id ∉ batchIds)
        (otherError s!"collaboration batch contains duplicate task {id}")
      return task :: (← newTasks existing (id :: batchIds) tasks)

def validateCollaborationBatch (existing : List TaskRecord) (maxTasks : ℕ)
    (tasks : List TaskRecord) : IoResult (List TaskRecord) := do
  let admitted ← newTasks existing [] tasks
  require ((existing.map (·.taskId)).dedup.length + admitted.length ≤ maxTasks) (otherError
    s!"Run accepts at most {maxTasks} collaboration tasks, including the independent reviewer")
  return admitted

/-- The records an admission writes, given the tasks charged to the root and the records of the
run. -/
def admissionRecords (charged : List TaskRecord) (existing : IoResult (List (LedgerRecord V)))
    (runId : RunId) (maxTasks : ℕ) (tasks : List TaskRecord)
    (additional : List (PendingRecord V)) : IoResult (List (PendingRecord V)) := do
  let admitted ← validateCollaborationBatch charged maxTasks tasks
  let existing ← existing
  let additional ← prepareAdditionalRecords runId existing tasks additional
  return admitted.map (fun task => (.syncCritical, "task_created", ofTask task)) ++
    additional

def admissionRecordsInMemory (visit : RunId → ℕ) (rootRunId runId : RunId) (maxTasks : ℕ)
    (tasks : List TaskRecord) (additional : List (PendingRecord V)) :
    IoResult (List (PendingRecord V)) := do
  let charged ← existingRootTasksInMemory state visit rootRunId
  admissionRecords charged (.ok (state.recordsForRun runId)) runId maxTasks tasks additional

def admissionRecordsSqlite (rootRunId runId : RunId) (maxTasks : ℕ) (tasks : List TaskRecord)
    (additional : List (PendingRecord V)) : IoResult (List (PendingRecord V)) := do
  let charged ← existingRootTasksSqlite state rootRunId
  admissionRecords charged (existingMetadataSqlite state runId) runId maxTasks tasks additional

/-- Appends prepared records one after the other. -/
def appendPending (allocate : ℕ → IoResult ℕ) (runId : RunId) (timestampUnixMs : ℤ)
    (state : LedgerState V) :
    List (PendingRecord V) → IoResult (LedgerState V × List (LedgerRecord V))
  | [] => .ok (state, [])
  | (durability, recordType, payload) :: pending => do
    let seq ← allocate state.nextSequence
    let (inserted, record) :=
      state.insertRecord seq runId timestampUnixMs durability recordType payload
    let (final, records) ← appendPending allocate runId timestampUnixMs inserted pending
    return (final, record :: records)

end SolarisMesh.Ledger
