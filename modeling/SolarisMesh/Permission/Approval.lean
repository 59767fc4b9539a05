import SolarisMesh.Permission.Soundness

/-!
# Approvals for a whole run

A host that approves a request for the rest of the run issues a lease with the resources of
that request. What the lease then covers is compared with the boundary that grants exactly
those resources.
-/

namespace SolarisMesh.Permission

open List SolarisMesh.Types Lib PermissionContext

def grantsForDescriptor (descriptor : EffectDescriptor) : AdditionalPermissions :=
  let resources := descriptor.resources
  { unrestrictedFileReads := resources.unrestrictedFileReads
    unrestrictedFileWrites := resources.unrestrictedFileWrites
    unrestrictedNetwork := resources.unrestrictedNetwork
    unrestrictedProcess := resources.unrestrictedProcess
    fileReads := resources.fileReads
    fileWrites := resources.fileWrites
    networkDomains := resources.networkDomains
    processCommandPrefix := resources.processCommands.head?
    processInvocations := resources.processInvocations }

def canPersistRunScope (request : EffectRequest) : Bool :=
  request.descriptor.resources.externalResources.isEmpty &&
    request.descriptor.resources.processCommands.length ≤ 1

/-- The lease `issue_approval_lease` makes, under a fresh `leaseId`. -/
def approvalLease (leaseId : String) (runId : RunId) (request : EffectRequest) (always : Bool) :
    CapabilityLease :=
  let persists := always && canPersistRunScope request
  { leaseId
    capability := request.capability
    action := some request.descriptor.action
    scope := if persists then .run runId else .effect request.effectId
    grants := grantsForDescriptor request.descriptor
    maxUses := if persists then none else some 1
    expiresAtUnixMs := none }

namespace PermissionContext

/-- `CapabilityLeaseStore::issue`. -/
def issueLease (context : PermissionContext) (lease : CapabilityLease) : PermissionContext :=
  { context with
    leases :=
      (if lease.leaseId = "" then context.leases
        else context.leases.filter (·.lease.leaseId ≠ lease.leaseId)) ++ [⟨lease, 0⟩] }

/-- `appended` is the ledger's answer to the record of the lease. -/
def issueApprovalLease (context : PermissionContext) (leaseId : String) (runId : RunId)
    (appended : Except String Unit) (request : EffectRequest) (always : Bool) :
    Except String (CapabilityLease × PermissionContext) := do
  let lease := approvalLease leaseId runId request always
  appended
  return (lease, context.issueLease lease)

end PermissionContext

/-- The boundary that grants the declared resources and nothing else. -/
def declaredBoundary (descriptor : EffectDescriptor) : ExecutionBoundary :=
  let resources := descriptor.resources
  { readableRoots := resources.fileReads
    unrestrictedFileReads := resources.unrestrictedFileReads
    writableRoots := resources.fileWrites
    unrestrictedFileWrites := resources.unrestrictedFileWrites
    networkDomains := resources.networkDomains
    processCommandPrefixes := resources.processCommands
    processInvocations := resources.processInvocations
    unrestrictedProcess := resources.unrestrictedProcess
    externalResourcePrefixes := resources.externalResources
    unrestrictedNetwork := resources.unrestrictedNetwork }

/-- An effect of a class with resources names some of them, or all of them were approved. -/
def NamesResources (approved requested : EffectDescriptor) : Prop :=
  match requested.effectClass with
  | .workspaceMutation =>
    requested.resources.fileWrites ≠ [] ∨ approved.resources.unrestrictedFileWrites = true
  | .network =>
    requested.resources.networkDomains ≠ [] ∨ approved.resources.unrestrictedNetwork = true
  | .process =>
    requested.resources.processCommands ≠ [] ∨ requested.resources.processInvocations ≠ [] ∨
      approved.resources.unrestrictedProcess = true
  -- a lease never covers a named external resource
  | .externalSideEffect => False
  | .readOnly | .agentLifecycle | .meshStateMutation => True

section Coverage

variable {host : Host} {approved requested : EffectDescriptor}

/-- What it means that the grants of an approval cover a request, resource by resource. -/
structure Covered (host : Host) (approved requested : EffectDescriptor) : Prop where
  external : requested.resources.externalResources = []
  anyRead : requested.resources.unrestrictedFileReads = true →
    approved.resources.unrestrictedFileReads = true
  anyWrite : requested.resources.unrestrictedFileWrites = true →
    approved.resources.unrestrictedFileWrites = true
  anyNetwork : requested.resources.unrestrictedNetwork = true →
    approved.resources.unrestrictedNetwork = true
  anyProcess : requested.resources.unrestrictedProcess = true →
    approved.resources.unrestrictedProcess = true
  reads : requested.resources.fileReads.all
    (fun resource => approved.resources.fileReads.any (pathWithin host resource ·)) = true
  writes : requested.resources.fileWrites.all
    (fun resource => approved.resources.fileWrites.any (pathWithin host resource ·)) = true
  domains : requested.resources.networkDomains.all
    (fun domain => approved.resources.networkDomains.any (domainMatches host domain ·)) = true
  commands : requested.resources.processCommands.all (fun command =>
    approved.resources.processCommands.any fun allowed => command = allowed &&
      (!requested.resources.processInvocations.isEmpty || commandIsStructurallySafe command)) = true
  invocations : requested.resources.processInvocations.all
    (approved.resources.processInvocations.contains ·) = true

lemma any_of_head?_any {α : Type} {values : List α} {p : α → Bool}
    (h : values.head?.any p = true) : values.any p = true := by
  cases values with
  | nil => cases h
  | cons value values =>
    rw [List.head?_cons, Option.any_some] at h
    rw [any_cons, h, Bool.true_or]

lemma covered_of_grantsCover
    (h : grantsCover host (grantsForDescriptor approved) requested = true) :
    Covered host approved requested := by
  simp only [grantsCover, grantsForDescriptor, Bool.and_eq_true, Bool.or_eq_true,
    Bool.not_eq_true', List.isEmpty_iff] at h
  obtain ⟨⟨⟨⟨⟨⟨⟨⟨⟨hexternal, hread⟩, hwrite⟩, hnetwork⟩, hprocess⟩, hreads⟩, hwrites⟩, hdomains⟩,
    hcommands⟩, hinvocations⟩ := h
  have himp : ∀ {wanted granted : Bool}, wanted = false ∨ granted = true → wanted = true →
      granted = true := by
    rintro wanted granted (rfl | hgranted) hwanted
    · cases hwanted
    · exact hgranted
  refine ⟨hexternal, himp hread, himp hwrite, himp hnetwork, himp hprocess, hreads, hwrites,
    hdomains, ?_, hinvocations⟩
  rw [all_eq_true] at hcommands ⊢
  exact fun command hcommand => any_of_head?_any (hcommands command hcommand)

namespace Covered

lemma readsAllowed (h : Covered host approved requested) :
    readsAllowed host (declaredBoundary approved) requested = true := by
  simp only [Permission.readsAllowed, declaredBoundary, Bool.and_eq_true, Bool.or_eq_true]
  refine ⟨?_, .inr h.reads⟩
  cases hany : requested.resources.unrestrictedFileReads with
  | false => exact .inl rfl
  | true => exact .inr (h.anyRead hany)

/-- A check of the form "not more than granted" passes. -/
lemma not_exceeds {wanted granted : Bool} (h : wanted = true → granted = true) :
    ¬ (wanted && !granted) = true := by
  cases wanted with
  | false => exact Bool.false_ne_true
  | true => rw [h rfl]; exact Bool.false_ne_true

/-- A resource kind whose named resources are all granted: its class has to name some. -/
lemma kindAllowed_iff {α : Type} {effectClass kind : EffectClass} {wanted granted : Bool}
    {values : List α} {p : α → Bool} (hwanted : wanted = true → granted = true)
    (hall : values.all p = true) :
    (if wanted && !granted then false
      else if values.isEmpty then decide (effectClass ≠ kind) || granted
      else granted || values.all p) = true ↔
      (effectClass = kind → values ≠ [] ∨ granted = true) := by
  rw [if_neg (not_exceeds hwanted)]
  by_cases hempty : values = []
  · rw [if_pos (isEmpty_iff.mpr hempty), Bool.or_eq_true, decide_eq_true_eq]
    simp only [hempty, ne_eq, not_true_eq_false, false_or, Decidable.imp_iff_not_or]
  · rw [if_neg (mt List.isEmpty_iff.mp hempty), hall, Bool.or_true]
    exact iff_of_true rfl fun _ => .inl hempty

section

variable (h : Covered host approved requested)
include h

lemma processAllowed_iff :
    processAllowed (declaredBoundary approved) requested = true ↔
      (requested.effectClass = .process → requested.resources.processCommands ≠ [] ∨
        requested.resources.processInvocations ≠ [] ∨
        approved.resources.unrestrictedProcess = true) := by
  have hcommands : processCommandsAllowed (declaredBoundary approved) requested = true := by
    simp only [processCommandsAllowed, declaredBoundary, h.commands, Bool.or_true]
  have hinvocations : processInvocationsAllowed (declaredBoundary approved) requested = true := by
    simp only [processInvocationsAllowed, declaredBoundary, h.invocations, Bool.or_true]
  have hgranted : (declaredBoundary approved).unrestrictedProcess =
      approved.resources.unrestrictedProcess := rfl
  simp only [Permission.processAllowed, hcommands, hinvocations, Bool.and_self, hgranted]
  rw [if_neg (not_exceeds h.anyProcess)]
  by_cases hempty : requested.resources.processCommands = [] ∧
      requested.resources.processInvocations = []
  · rw [if_pos (by rw [hempty.1, hempty.2]; rfl), Bool.or_eq_true, decide_eq_true_eq]
    simp only [hempty.1, hempty.2, ne_eq, not_true_eq_false, false_or, Decidable.imp_iff_not_or]
  · rw [if_neg (by simpa only [Bool.and_eq_true, List.isEmpty_iff] using hempty)]
    refine iff_of_true rfl fun _ => ?_
    rcases not_and_or.mp hempty with hcommand | hinvocation
    · exact .inl hcommand
    · exact .inr (.inl hinvocation)

lemma externalAllowed_iff :
    externalAllowed (declaredBoundary approved) requested = true ↔
      requested.effectClass ≠ .externalSideEffect := by
  simp only [Permission.externalAllowed, h.external, isEmpty_nil, if_true, declaredBoundary,
    Bool.or_false, decide_eq_true_eq]

lemma boundaryAllows_iff :
    boundaryAllows host (declaredBoundary approved) requested = true ↔
      NamesResources approved requested := by
  rw [boundaryAllows, Bool.and_eq_true, Bool.and_eq_true, Bool.and_eq_true, Bool.and_eq_true,
    h.readsAllowed,
    show writesAllowed host _ requested = true ↔ _ from kindAllowed_iff h.anyWrite h.writes,
    show networkAllowed host _ requested = true ↔ _ from kindAllowed_iff h.anyNetwork h.domains,
    h.processAllowed_iff, h.externalAllowed_iff, NamesResources]
  cases requested.effectClass <;> simp [declaredBoundary]

end

end Covered

end Coverage

/-- A lease for the whole run matches requests of the same capability and action only. It stays
within what was approved exactly for those that name their resources. -/
theorem run_approval_covers (host : Host) (context next : PermissionContext) (leaseId : String)
    (runId : RunId) (appended : Except String Unit) (request later : EffectRequest)
    (lease : CapabilityLease) (uses : ℕ) (now : ℤ)
    (hissued : context.issueApprovalLease leaseId runId appended request true = .ok (lease, next))
    (hscope : lease.scope = .run runId)
    (hmatches : leaseMatches host ⟨lease, uses⟩ runId later now = true) :
    later.capability = request.capability ∧ later.descriptor.action = request.descriptor.action ∧
      (boundaryAllows host (declaredBoundary request.descriptor) later.descriptor = true ↔
        NamesResources request.descriptor later.descriptor) := by
  obtain ⟨-, hissued⟩ := check_bind_eq_ok.mp hissued
  cases hissued
  simp only [leaseMatches, Bool.and_eq_true, decide_eq_true_eq] at hmatches
  obtain ⟨⟨⟨⟨⟨hcapability, haction⟩, -⟩, -⟩, -⟩, hgrants⟩ := hmatches
  rw [approvalLease, Option.all_some, decide_eq_true_eq] at haction
  rw [hscope] at hgrants
  refine ⟨hcapability.symm, haction.symm, ?_⟩
  exact (covered_of_grantsCover hgrants).boundaryAllows_iff

/-- The approval of a write, and the same write again. -/
theorem run_approval_covers_write :
    boundaryAllows workHost
        (declaredBoundary writeRequest.descriptor)
        writeRequest.descriptor = true ↔
      NamesResources writeRequest.descriptor
        writeRequest.descriptor :=
  (run_approval_covers workHost leasedContext
    (leasedContext.issueLease
      (approvalLease "lease-1" "run-1" writeRequest true))
    "lease-1" "run-1" (.ok ()) writeRequest writeRequest
    (approvalLease "lease-1" "run-1" writeRequest true) 0 0 rfl rfl
    (by decide +kernel)).2.2

/-- A process that names its command. -/
def listRequest : EffectRequest :=
  { writeRequest with
    capability := "exec_command"
    descriptor :=
      { effectClass := .process, action := "run", replayPolicy := .reconcileRequired,
        resources := { processCommands := ["ls"] } } }

/-- A process of the same capability and action that names nothing. -/
def namelessRequest : EffectRequest :=
  { listRequest with
    effectId := "effect-2"
    descriptor := { listRequest.descriptor with resources := {} } }

/-- The lease for the one covers the other, which may run anything. -/
theorem nameless_process_covered :
    leaseMatches workHost ⟨approvalLease "lease-1" "run-1" listRequest true, 0⟩
        "run-1" namelessRequest 0 = true ∧
      (approvalLease "lease-1" "run-1" listRequest true).scope = .run "run-1" ∧
      boundaryAllows workHost (declaredBoundary listRequest.descriptor)
        namelessRequest.descriptor = false := by
  decide +kernel

end SolarisMesh.Permission
