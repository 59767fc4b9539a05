import SolarisMesh.Ledger.State
import SolarisMesh.Types.Decode

/-!
# JSON payloads

The payloads of the source are JSON values. Tasks and Teams are objects whose optional members
are left out; what is read back from a stored text is the value itself as long as it does not
nest too deep. Values without fractions are meant: of those a number is its literal.
-/

namespace SolarisMesh.Types

open Lib
open Json (optional)

def TaskState.asStr : TaskState → String
  | .created => "created"
  | .queued => "queued"
  | .assigned => "assigned"
  | .running => "running"
  | .completed => "completed"
  | .failed => "failed"
  | .skipped => "skipped"
  | .cancelled => "cancelled"

def TaskState.all : List TaskState :=
  [.created, .queued, .assigned, .running, .completed, .failed, .skipped, .cancelled]

def TaskFailureClass.asStr : TaskFailureClass → String
  | .retryable => "retryable"
  | .nonRetryable => "non_retryable"
  | .permissionDenied => "permission_denied"
  | .maxTurns => "max_turns"
  | .nonConvergent => "non_convergent"
  | .cancelled => "cancelled"
  | .outcomeUnknown => "outcome_unknown"
  | .reconciliationRequired => "reconciliation_required"
  | .sideEffectUnknown => "side_effect_unknown"

def TaskFailureClass.all : List TaskFailureClass :=
  [.retryable, .nonRetryable, .permissionDenied, .maxTurns, .nonConvergent, .cancelled,
    .outcomeUnknown, .reconciliationRequired, .sideEffectUnknown]

open TaskFailureClass (asStr all)

def CollaborationStrategy.asStr : CollaborationStrategy → String
  | .single => "single"
  | .supervisor => "supervisor"
  | .team => "team"
  | .fanout => "fanout"
  | .independentReviewer => "independent_reviewer"

def CollaborationStrategy.all : List CollaborationStrategy :=
  [.single, .supervisor, .team, .fanout, .independentReviewer]

@[simp] lemma variant_taskState (state : TaskState) :
    variant TaskState.all TaskState.asStr (.string state.asStr) = some state := by
  cases state <;> decide

@[simp] lemma variant_failureClass (failure : TaskFailureClass) :
    variant all asStr (.string failure.asStr) =
      some failure := by
  cases failure <;> decide

def TaskRecord.toJson (task : TaskRecord) : Json :=
  .object <| [("run_id", .string task.runId), ("task_id", .string task.taskId)] ++
    optional "revision" (if task.revision = 0 then none else some (.ofNat task.revision)) ++
    optional "task_key" (task.taskKey.map .string) ++
    optional "team_id" (task.teamId.map .string) ++
    optional "workflow_id" (task.workflowId.map .string) ++
    optional "node_id" (task.nodeId.map .string) ++
    optional "role" (task.role.map .string) ++
    [("depends_on", .ofStrings task.dependsOn)] ++
    optional "content" task.content ++
    optional "expected_write_scope"
      (if task.expectedWriteScope = [] then none else some (.ofStrings task.expectedWriteScope)) ++
    optional "owner_agent_id" (task.ownerAgentId.map .string) ++
    [("state", .string task.state.asStr)] ++
    optional "outcome_ref" (task.outcomeRef.map .string) ++
    optional "failure_class" (task.failureClass.map (.string ·.asStr))

def TaskRecord.fields : List String :=
  ["run_id", "task_id", "revision", "task_key", "team_id", "workflow_id", "node_id", "role",
    "depends_on", "content", "expected_write_scope", "owner_agent_id", "state", "outcome_ref",
    "failure_class"]

def TaskRecord.ofFields (get : String → Option Json) : Option TaskRecord := do
  let runId ← required Json.asStr (get "run_id")
  let taskId ← required Json.asStr (get "task_id")
  let revision ← defaulted 0 Json.asU64 (get "revision")
  let taskKey ← nullable Json.asStr (get "task_key")
  let teamId ← nullable Json.asStr (get "team_id")
  let workflowId ← nullable Json.asStr (get "workflow_id")
  let nodeId ← nullable Json.asStr (get "node_id")
  let role ← nullable Json.asStr (get "role")
  let dependsOn ← defaulted [] Json.asStrings (get "depends_on")
  let content ← nullable some (get "content")
  let expectedWriteScope ← defaulted [] Json.asStrings (get "expected_write_scope")
  let ownerAgentId ← nullable Json.asStr (get "owner_agent_id")
  let state ← required (variant TaskState.all TaskState.asStr) (get "state")
  let outcomeRef ← nullable Json.asStr (get "outcome_ref")
  let failureClass ← nullable (variant all asStr) (get "failure_class")
  return { runId, taskId, revision, taskKey, teamId, workflowId, nodeId, role, dependsOn, content,
           expectedWriteScope, ownerAgentId, state, outcomeRef, failureClass }

def TaskRecord.ofJson (value : Json) : Option TaskRecord := (asFields fields value).bind ofFields

section RoundTrip

@[simp] lemma nullable_string (value : Option String) :
    nullable Json.asStr (value.map .string) = some value := by
  cases value <;> rfl

@[simp] lemma nullable_failureClass (value : Option TaskFailureClass) :
    nullable (variant all asStr)
      (value.map (.string ·.asStr)) = some value := by
  cases value with
  | none => rfl
  | some failure => simp [nullable]

lemma nullable_content (value : Option Json) :
    nullable some value = some (if value = some .null then none else value) := by
  rcases value with _ | value
  · rfl
  · cases value <;> simp [nullable]

@[simp] lemma defaulted_revision (n : ℕ) :
    defaulted 0 Json.asU64 (if n = 0 then none else some (.ofNat n)) = some n := by
  by_cases hn : n = 0
  · rw [if_pos hn, hn]
    rfl
  · rw [if_neg hn]
    exact Json.asU64_ofNat n

@[simp] lemma defaulted_strings (values : List String) :
    defaulted [] Json.asStrings (if values = [] then none else some (.ofStrings values)) =
      some values := by
  by_cases hvalues : values = []
  · rw [if_pos hvalues, hvalues]
    rfl
  · rw [if_neg hvalues]
    exact Json.asStrings_ofStrings values

/-- A task is read back as it was written, but for a content that is null. -/
lemma TaskRecord.ofJson_toJson (task : TaskRecord) : TaskRecord.ofJson task.toJson =
    some { task with content := if task.content = some .null then none else task.content } := by
  rw [TaskRecord.ofJson, TaskRecord.toJson, asFields, Option.bind_some, TaskRecord.ofFields]
  simp only [List.lookup_append, Json.lookup_optional]
  simp [List.lookup_cons, required, nullable_content, Json.asStr]

end RoundTrip

/-! ## Teams and batches -/

def asPair (value : Json) : Option (TeamId × AgentId) :=
  match value.asStrings with
  | some [teamId, agentId] => some (teamId, agentId)
  | _ => none

def TeamRecord.fields : List String :=
  ["run_id", "team_id", "name", "strategy", "coordinator", "direct_peer_messaging",
    "max_pending_messages", "max_message_bytes", "members"]

def TeamRecord.ofJson (value : Json) : Option TeamRecord := do
  let get ← asFields fields value
  let runId ← required Json.asStr (get "run_id")
  let teamId ← required Json.asStr (get "team_id")
  let name ← required Json.asStr (get "name")
  let strategy ← required (variant CollaborationStrategy.all CollaborationStrategy.asStr)
    (get "strategy")
  let coordinator ← nullable Json.asStr (get "coordinator")
  let directPeerMessaging ← defaulted false Json.asBool (get "direct_peer_messaging")
  let maxPendingMessages ← defaulted defaultMaxPendingMessages asU32
    (get "max_pending_messages")
  let maxMessageBytes ← defaulted defaultMaxMessageBytes asU32 (get "max_message_bytes")
  let members ← defaulted [] Json.asStrings (get "members")
  return { runId, teamId, name, strategy, coordinator, directPeerMessaging, maxPendingMessages,
           maxMessageBytes, members := members.toFinset }

/-- Teams, memberships and tasks of a batch, or which of them cannot be read. -/
def decodeCollaborationBatch (value : Json) :
    Except String (List TeamRecord × List (TeamId × AgentId) × List TaskRecord) := do
  let teams ← orElseThrow "teams" (defaulted [] (asItems TeamRecord.ofJson) (value.get "teams"))
  let memberships ← orElseThrow "memberships"
    (defaulted [] (asItems asPair) (value.get "memberships"))
  let tasks ← orElseThrow "tasks" (defaulted [] (asItems TaskRecord.ofJson) (value.get "tasks"))
  return (teams, memberships, tasks)

end SolarisMesh.Types

namespace SolarisMesh.Ledger

open Lib SolarisMesh.Types

/-- How deep a text may nest for `serde_json` to read it. -/
def maxNesting : ℕ := 127

/-- So many arrays around each other. -/
def nested : ℕ → Json
  | 0 => .array []
  | n + 1 => .array [nested n]

instance : LedgerPayload Json where
  members value :=
    match value with
    | .object members => some fun key => members.lookup key
    | _ => none
  digest value := value.text.flatMap String.utf8EncodeChar
  same := Json.same
  same_refl := Json.same_refl
  reread value := if value.depth ≤ maxNesting then some value else none
  -- members that are no part of a task are skipped, however deep they nest
  rereadTask value := (TaskRecord.ofJson value).filter fun task =>
    task.content.all (·.depth + 1 ≤ maxNesting)
  ofTask := TaskRecord.toJson
  toTask := TaskRecord.ofJson
  toTeam := TeamRecord.ofJson
  toBatch := decodeCollaborationBatch
  toMembership value :=
    ((value.get "team_id").bind Json.asStr, (value.get "agent_id").bind Json.asStr)

instance : LawfulLedgerPayload Json where
  same_trans _ _ _ := Json.same_trans
  taskId_ofTask task := by
    show (TaskRecord.ofJson task.toJson).map (·.taskId) = some task.taskId
    rw [TaskRecord.ofJson_toJson]
    rfl
  taskId_reread value task h := by
    show (TaskRecord.ofJson value).map (·.taskId) = some task.taskId
    rw [(Option.filter_eq_some_iff.1 h).1]
    rfl

end SolarisMesh.Ledger
