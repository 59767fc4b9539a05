import SolarisMesh.Types.Effect

/-!
# Permissions

Modes, ceilings, rules, leases and boundaries: the data a permission decision is made from.
-/

namespace SolarisMesh.Types

inductive PermissionMode where
  | plan | auto | bypass
deriving DecidableEq, Repr

/-- How the mode is printed. -/
def PermissionMode.debugName : PermissionMode → String
  | .plan => "Plan"
  | .auto => "Auto"
  | .bypass => "Bypass"

inductive PermissionDecision where
  | allow | autoReview | ask | deny
deriving DecidableEq, Repr

/-- The effect classes a scope may use; reading is always among them. -/
structure PermissionCeiling where
  agentLifecycle : Bool
  meshStateMutation : Bool
  workspaceMutation : Bool
  process : Bool
  network : Bool
  externalSideEffect : Bool
deriving DecidableEq, Repr

namespace PermissionCeiling

def plan : PermissionCeiling where
  workspaceMutation := false
  agentLifecycle := true
  meshStateMutation := true
  process := false
  network := true
  externalSideEffect := false

def unrestricted : PermissionCeiling where
  workspaceMutation := true
  agentLifecycle := true
  meshStateMutation := true
  process := true
  network := true
  externalSideEffect := true

def allows (ceiling : PermissionCeiling) : EffectClass → Bool
  | .readOnly => true
  | .agentLifecycle => ceiling.agentLifecycle
  | .meshStateMutation => ceiling.meshStateMutation
  | .workspaceMutation => ceiling.workspaceMutation
  | .process => ceiling.process
  | .network => ceiling.network
  | .externalSideEffect => ceiling.externalSideEffect

def intersect (self other : PermissionCeiling) : PermissionCeiling where
  workspaceMutation := self.workspaceMutation && other.workspaceMutation
  agentLifecycle := self.agentLifecycle && other.agentLifecycle
  meshStateMutation := self.meshStateMutation && other.meshStateMutation
  process := self.process && other.process
  network := self.network && other.network
  externalSideEffect := self.externalSideEffect && other.externalSideEffect

@[simp] lemma allows_intersect (self other : PermissionCeiling) (effectClass : EffectClass) :
    (self.intersect other).allows effectClass =
      (self.allows effectClass && other.allows effectClass) := by
  cases effectClass <;> rfl

@[simp] lemma allows_unrestricted (effectClass : EffectClass) :
    unrestricted.allows effectClass = true := by
  cases effectClass <;> rfl

end PermissionCeiling

structure PermissionRule where
  capability : Option String := none
  action : Option String := none
  effectClass : Option EffectClass := none
  resourcePrefixes : List String := []
  decision : PermissionDecision
deriving DecidableEq, Repr

inductive LeaseScope where
  | effect (effectId : EffectId)
  | operation (operationId : OperationId)
  | run (runId : RunId)
deriving DecidableEq, Repr

structure AdditionalPermissions where
  unrestrictedFileReads : Bool := false
  unrestrictedFileWrites : Bool := false
  unrestrictedNetwork : Bool := false
  unrestrictedProcess : Bool := false
  fileReads : List String := []
  fileWrites : List String := []
  networkDomains : List String := []
  processCommandPrefix : Option String := none
  processInvocations : List ProcessInvocation := []
deriving DecidableEq, Repr

structure CapabilityLease where
  leaseId : String := ""
  capability : String
  action : Option String := none
  scope : LeaseScope
  grants : AdditionalPermissions
  maxUses : Option ℕ := none
  expiresAtUnixMs : Option ℤ := none
deriving DecidableEq, Repr

/-- The resources a scope may touch. -/
structure ExecutionBoundary where
  readableRoots : List String := []
  unrestrictedFileReads : Bool := false
  writableRoots : List String := []
  unrestrictedFileWrites : Bool := false
  networkDomains : List String := []
  processCommandPrefixes : List String := []
  processInvocations : List ProcessInvocation := []
  unrestrictedProcess : Bool := false
  externalResourcePrefixes : List String := []
  unrestrictedExternalSideEffects : Bool := false
  unrestrictedNetwork : Bool := false
deriving DecidableEq, Repr

def ExecutionBoundary.unrestricted : ExecutionBoundary where
  unrestrictedFileReads := true
  unrestrictedFileWrites := true
  unrestrictedProcess := true
  unrestrictedExternalSideEffects := true
  unrestrictedNetwork := true

end SolarisMesh.Types
