import SolarisMesh.Lib.Json
import Mathlib.Data.Finset.Basic

/-!
# Runtime records

Identities and the records of tasks and teams that the runtime ledger stores. Identities
are strings wrapped by the source; the wrappers carry no rule.
-/

namespace SolarisMesh.Types

open Lib

abbrev RunId := String
abbrev TeamId := String
abbrev AgentId := String
abbrev TaskId := String
abbrev OperationId := String

inductive DurabilityClass where
  | syncCritical | asyncDurable | ephemeral
deriving DecidableEq, Repr

inductive TaskState where
  | created | queued | assigned | running | completed | failed | skipped | cancelled
deriving DecidableEq, Repr

inductive TaskFailureClass where
  | retryable | nonRetryable | permissionDenied | maxTurns | nonConvergent | cancelled
  | outcomeUnknown | reconciliationRequired | sideEffectUnknown
deriving DecidableEq, Repr

def TaskFailureClass.isRetryable : TaskFailureClass → Bool
  | .retryable => true
  | _ => false

structure TaskRecord where
  runId : RunId
  taskId : TaskId
  revision : ℕ
  taskKey : Option String
  teamId : Option TeamId
  workflowId : Option String
  nodeId : Option String
  role : Option String
  dependsOn : List TaskId
  content : Option Json
  expectedWriteScope : List String
  ownerAgentId : Option AgentId
  state : TaskState
  outcomeRef : Option String
  failureClass : Option TaskFailureClass
deriving DecidableEq, Repr

inductive CollaborationStrategy where
  | single | supervisor | team | fanout | independentReviewer
deriving DecidableEq, Repr

/-- `CollaborationRuntimeConfig::DEFAULT_MAX_PENDING_MESSAGES`. -/
def defaultMaxPendingMessages : ℕ := 64

/-- `CollaborationRuntimeConfig::DEFAULT_MAX_MESSAGE_BYTES`. -/
def defaultMaxMessageBytes : ℕ := 65536

structure TeamRecord where
  runId : RunId
  teamId : TeamId
  name : String
  strategy : CollaborationStrategy
  coordinator : Option AgentId
  directPeerMessaging : Bool
  maxPendingMessages : ℕ
  maxMessageBytes : ℕ
  members : Finset AgentId
deriving DecidableEq

/-- The limits of a Team are positive and at most the defaults. -/
def TeamRecord.messageLimitsValid (team : TeamRecord) : Bool :=
  0 < team.maxPendingMessages && team.maxPendingMessages ≤ defaultMaxPendingMessages &&
    0 < team.maxMessageBytes && team.maxMessageBytes ≤ defaultMaxMessageBytes

end SolarisMesh.Types
