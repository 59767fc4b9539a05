import SolarisMesh.Workflow.Definition

/-!
# Snapshots of workflow runs

The status of a run and the last attempt of each of its nodes.
-/

namespace SolarisMesh.Workflow

open Lib SolarisMesh.Types

inductive WorkflowRunStatus where
  | running | completed | failed | cancelled
deriving DecidableEq, Repr

inductive WorkflowNodeStatus where
  | pending | running | completed | failed | skipped | cancelled
deriving DecidableEq, Repr

def WorkflowRunStatus.debugName : WorkflowRunStatus → String
  | .running => "Running"
  | .completed => "Completed"
  | .failed => "Failed"
  | .cancelled => "Cancelled"

def WorkflowNodeStatus.isSettled : WorkflowNodeStatus → Bool
  | .completed | .skipped => true
  | .pending | .running | .failed | .cancelled => false

structure WorkflowNodeAttempt where
  attemptId : String
  attemptNumber : ℕ := 0
  status : WorkflowNodeStatus := .pending
  inputDigest : Option String := none
  output : Option Json := none
  outputRef : Option String := none
  committedAtUnixMs : Option ℤ := none
  error : Option String := none
  failureClass : Option TaskFailureClass := none
  resumeExistingAttempt : Bool := false
deriving DecidableEq

structure WorkflowFailureSummary where
  primaryFailureClass : TaskFailureClass
  failures : List (String × TaskFailureClass)
deriving DecidableEq, Repr

structure WorkflowRunSnapshot where
  workflowVersion : String
  workflowDefinitionDigest : Option String
  status : WorkflowRunStatus
  failureSummary : Option WorkflowFailureSummary
  nodes : List (String × WorkflowNodeAttempt)
  parameters : Json
deriving DecidableEq

end SolarisMesh.Workflow
