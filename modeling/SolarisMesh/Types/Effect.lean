import SolarisMesh.Types.Runtime

/-!
# Effects

What a tool, a process or a provider call is going to touch, and the request under which it
is judged and recorded.
-/

namespace SolarisMesh.Types

open Lib

abbrev EffectId := String

inductive EffectClass where
  | readOnly | agentLifecycle | meshStateMutation | workspaceMutation | process | network
  | externalSideEffect
deriving DecidableEq, Repr

/-- How the class is printed. -/
def EffectClass.debugName : EffectClass → String
  | .readOnly => "ReadOnly"
  | .agentLifecycle => "AgentLifecycle"
  | .meshStateMutation => "MeshStateMutation"
  | .workspaceMutation => "WorkspaceMutation"
  | .process => "Process"
  | .network => "Network"
  | .externalSideEffect => "ExternalSideEffect"

inductive EffectReplayPolicy where
  | never | idempotent | replaySafe | reconcileRequired | compensatable
deriving DecidableEq, Repr

def EffectReplayPolicy.debugName : EffectReplayPolicy → String
  | .never => "Never"
  | .idempotent => "Idempotent"
  | .replaySafe => "ReplaySafe"
  | .reconcileRequired => "ReconcileRequired"
  | .compensatable => "Compensatable"

structure ProcessInvocation where
  executable : String
  argv : List String := []
deriving DecidableEq, Repr

structure ResourceFootprint where
  unrestrictedFileReads : Bool := false
  unrestrictedFileWrites : Bool := false
  unrestrictedNetwork : Bool := false
  unrestrictedProcess : Bool := false
  fileReads : List String := []
  fileWrites : List String := []
  networkDomains : List String := []
  processCommands : List String := []
  processInvocations : List ProcessInvocation := []
  externalResources : List String := []
  meshResources : List String := []
deriving DecidableEq, Repr

structure EffectDescriptor where
  /-- `class` -/
  effectClass : EffectClass
  action : String
  resources : ResourceFootprint := {}
  replayPolicy : EffectReplayPolicy
deriving DecidableEq, Repr

structure EffectRequest where
  effectId : EffectId
  operationId : OperationId
  capability : String
  descriptor : EffectDescriptor
  effectiveInput : Json
  inputDigest : Option String
deriving DecidableEq, Repr

/-- A request that may be made again without asking what became of the first one. -/
def EffectDescriptor.isReplayable (descriptor : EffectDescriptor) : Bool :=
  descriptor.effectClass = .readOnly && descriptor.replayPolicy = .replaySafe

structure ImplementationIdentity where
  implementationId : String
  version : Option String := none
  digest : Option String := none
deriving DecidableEq, Repr

structure ToolImplementationSnapshot where
  name : String
  implementation : ImplementationIdentity
  schemaDigest : Option String := none
  replayPolicy : EffectReplayPolicy
deriving DecidableEq, Repr

structure OperationEnvironmentSnapshot where
  runtimeGeneration : ℕ
  configGeneration : ℕ
  provider : Option ImplementationIdentity := none
  plugins : List ImplementationIdentity := []
  tools : List ToolImplementationSnapshot := []
  hookOrder : List ImplementationIdentity := []
  workflow : Option ImplementationIdentity := none
  permissionFingerprint : Option String := none
deriving DecidableEq, Repr

end SolarisMesh.Types
