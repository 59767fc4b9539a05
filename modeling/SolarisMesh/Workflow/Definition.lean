import SolarisMesh.Types.Runtime

/-!
# Workflow definitions

The nodes of a workflow, what they depend on, and where the outputs of their dependencies go.
-/

namespace SolarisMesh.Workflow

open Lib SolarisMesh.Types

structure OutputBinding where
  /-- `from` -/
  source : String
  /-- `to` -/
  destination : String
deriving DecidableEq, Repr

inductive CollaborationSelection where
  | auto
  | fixed (strategy : CollaborationStrategy)
  | configured (config : Json)
  | inherit
deriving DecidableEq

structure WorkflowNode where
  id : String
  dependsOn : List String := []
  when : Option Json := none
  role : Option String := none
  collaboration : CollaborationSelection := .inherit
  outputBindings : List OutputBinding := []
  workflowRef : Option String := none
deriving DecidableEq

structure AgentRoleDefinition where
  id : String
  description : String
  contextPolicy : Option String := none
  recursionPolicy : Option String := none
  /-- The fields that are only compared. -/
  settings : Json := .null
deriving DecidableEq

structure WorkflowDefinition where
  id : String
  schemaVersion : ℕ := 1
  version : String
  description : String
  roles : List AgentRoleDefinition := []
  nodes : List WorkflowNode
  outputs : List (String × String) := []
deriving DecidableEq

/-! ## Paths -/

/-- The parts of a text between its dots. -/
def splitDots : List Char → List (List Char)
  | [] => [[]]
  | c :: rest =>
    match splitDots rest with
    | [] => [[c]]
    | part :: parts => if c = '.' then [] :: part :: parts else (c :: part) :: parts

def pathParts (path : String) : List String :=
  (splitDots path.toList).map String.ofList

end SolarisMesh.Workflow
