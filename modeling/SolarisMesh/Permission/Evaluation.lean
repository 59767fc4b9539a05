import SolarisMesh.Permission.Paths

/-!
# Permission evaluation

The decision on one effect request: rules over a mode's preset, ceilings, protected paths,
the boundaries of the scope and of every scope above it, leases and the reviewer.
-/

namespace SolarisMesh.Permission

open SolarisMesh.Types Lib

def presetDefault : PermissionMode → EffectClass → PermissionDecision
  | .plan, .readOnly | .plan, .agentLifecycle | .plan, .meshStateMutation => .allow
  | .plan, .workspaceMutation | .plan, .process | .plan, .network
  | .plan, .externalSideEffect => .deny
  | .auto, .readOnly | .auto, .agentLifecycle | .auto, .meshStateMutation
  | .auto, .workspaceMutation => .allow
  | .auto, .process | .auto, .network => .autoReview
  | .auto, .externalSideEffect => .ask
  | .bypass, _ => .allow

/-- A name equals `allowed`, or continues it at a separator. -/
def namespacedResourceMatches (resource allowed : String) : Bool :=
  resource = allowed ||
    match allowed.toList.isPrefixOf? resource.toList with
    | some (':' :: _) | some ('/' :: _) | some ('#' :: _) => true
    | _ => false

def trim (text : List Char) : List Char :=
  ((text.dropWhile isWhitespace).reverse.dropWhile isWhitespace).reverse

def containsSubstitution : List Char → Bool
  | '$' :: '(' :: _ => true
  | _ :: rest => containsSubstitution rest
  | [] => false

def commandIsStructurallySafe (command : String) : Bool :=
  let trimmed := trim command.toList
  !trimmed.isEmpty &&
    !trimmed.any (['&', '|', ';', '>', '<', '\x60', '\n', '\r'].contains ·) &&
    !containsSubstitution trimmed

section

variable (host : Host)

def permissionDomainIsCovered (requested allowed : String) : Option Bool := do
  let requested ← host.parsePermissionDomain requested
  let allowed ← host.parsePermissionDomain allowed
  return requested.all (allowed.contains ·)

def domainMatches (domain allowed : String) : Bool :=
  allowed = "*" || (permissionDomainIsCovered host domain allowed).getD false

/-- Whether each resource of a descriptor meets one of the rule's prefixes. -/
def resourceMatches (prefixes : List String) (resources : ResourceFootprint) : List Bool :=
  (resources.fileReads ++ resources.fileWrites).map
      (fun resource => prefixes.any (permissionPathMatches host resource ·)) ++
    resources.networkDomains.map (fun domain => prefixes.any (domainMatches host domain ·)) ++
    resources.processCommands.map (fun command =>
      prefixes.any fun approved => command = approved && commandIsStructurallySafe command) ++
    resources.externalResources.map
      (fun resource => prefixes.any (namespacedResourceMatches resource ·)) ++
    resources.meshResources.map
      (fun resource => prefixes.any (namespacedResourceMatches resource ·))

def ruleMatches (rule : PermissionRule) (capability : String) (descriptor : EffectDescriptor) :
    Bool :=
  rule.capability.all (· = capability) &&
    rule.action.all (· = descriptor.action) &&
    rule.effectClass.all (· = descriptor.effectClass) &&
    if rule.resourcePrefixes.isEmpty then true
    else
      let found := resourceMatches host rule.resourcePrefixes descriptor.resources
      if found.isEmpty then false
      else if rule.decision = .deny then found.any id
      else found.all id

/-! ## Leases -/

structure LeaseEntry where
  lease : CapabilityLease
  uses : ℕ
deriving DecidableEq, Repr

def grantsCover (grants : AdditionalPermissions) (descriptor : EffectDescriptor) : Bool :=
  let resources := descriptor.resources
  resources.externalResources.isEmpty &&
    (!resources.unrestrictedFileReads || grants.unrestrictedFileReads) &&
    (!resources.unrestrictedFileWrites || grants.unrestrictedFileWrites) &&
    (!resources.unrestrictedNetwork || grants.unrestrictedNetwork) &&
    (!resources.unrestrictedProcess || grants.unrestrictedProcess) &&
    resources.fileReads.all (fun resource => grants.fileReads.any (pathWithin host resource ·)) &&
    resources.fileWrites.all (fun resource => grants.fileWrites.any (pathWithin host resource ·)) &&
    resources.networkDomains.all
      (fun domain => grants.networkDomains.any (domainMatches host domain ·)) &&
    resources.processCommands.all (fun command =>
      grants.processCommandPrefix.any fun approved =>
        command = approved &&
          (!resources.processInvocations.isEmpty || commandIsStructurallySafe command)) &&
    resources.processInvocations.all (grants.processInvocations.contains ·)

def LeaseScope.covers (scope : LeaseScope) (runId : RunId) (request : EffectRequest) : Bool :=
  match scope with
  | .effect effectId => effectId = request.effectId
  | .operation operationId => operationId = request.operationId
  | .run leaseRun => leaseRun = runId

def LeaseScope.isEffect : LeaseScope → Bool
  | .effect _ => true
  | _ => false

def leaseMatches (entry : LeaseEntry) (runId : RunId) (request : EffectRequest) (now : ℤ) : Bool :=
  let lease := entry.lease
  lease.capability = request.capability &&
    lease.action.all (· = request.descriptor.action) &&
    !lease.expiresAtUnixMs.any (· ≤ now) &&
    !lease.maxUses.any (· ≤ entry.uses) &&
    LeaseScope.covers lease.scope runId request &&
    (LeaseScope.isEffect lease.scope || grantsCover host lease.grants request.descriptor)

/-! ## Boundaries -/

section

variable (boundary : ExecutionBoundary) (descriptor : EffectDescriptor)

def readsAllowed : Bool :=
  let resources := descriptor.resources
  (!resources.unrestrictedFileReads || boundary.unrestrictedFileReads) &&
    (resources.fileReads.isEmpty || boundary.unrestrictedFileReads ||
      resources.fileReads.all fun resource =>
        boundary.readableRoots.any (pathWithin host resource ·))

def writesAllowed : Bool :=
  let resources := descriptor.resources
  if resources.unrestrictedFileWrites && !boundary.unrestrictedFileWrites then false
  else if resources.fileWrites.isEmpty then
    descriptor.effectClass ≠ .workspaceMutation || boundary.unrestrictedFileWrites
  else
    boundary.unrestrictedFileWrites ||
      resources.fileWrites.all fun resource =>
        boundary.writableRoots.any (pathWithin host resource ·)

def networkAllowed : Bool :=
  let resources := descriptor.resources
  if resources.unrestrictedNetwork && !boundary.unrestrictedNetwork then false
  else if resources.networkDomains.isEmpty then
    descriptor.effectClass ≠ .network || boundary.unrestrictedNetwork
  else
    boundary.unrestrictedNetwork ||
      resources.networkDomains.all fun domain =>
        boundary.networkDomains.any (domainMatches host domain ·)

def processCommandsAllowed : Bool :=
  let resources := descriptor.resources
  resources.processCommands.isEmpty || boundary.unrestrictedProcess ||
    resources.processCommands.all fun command =>
      boundary.processCommandPrefixes.any fun approved =>
        command = approved &&
          (!resources.processInvocations.isEmpty || commandIsStructurallySafe command)

def processInvocationsAllowed : Bool :=
  let resources := descriptor.resources
  resources.processInvocations.isEmpty || boundary.unrestrictedProcess ||
    resources.processInvocations.all (boundary.processInvocations.contains ·)

def processAllowed : Bool :=
  let resources := descriptor.resources
  if resources.unrestrictedProcess && !boundary.unrestrictedProcess then false
  else if resources.processCommands.isEmpty && resources.processInvocations.isEmpty then
    descriptor.effectClass ≠ .process || boundary.unrestrictedProcess
  else processCommandsAllowed boundary descriptor && processInvocationsAllowed boundary descriptor

def externalAllowed : Bool :=
  let resources := descriptor.resources
  if resources.externalResources.isEmpty then
    descriptor.effectClass ≠ .externalSideEffect || boundary.unrestrictedExternalSideEffects
  else
    boundary.unrestrictedExternalSideEffects ||
      resources.externalResources.all fun resource =>
        boundary.externalResourcePrefixes.any (namespacedResourceMatches resource ·)

def boundaryAllows : Bool :=
  readsAllowed host boundary descriptor && writesAllowed host boundary descriptor &&
    networkAllowed host boundary descriptor && processAllowed boundary descriptor &&
    externalAllowed boundary descriptor

end

end

/-- Append the values of `added` that are not there yet. -/
def pushMissing {α : Type} [DecidableEq α] (values added : List α) : List α :=
  added.foldl (fun values value => if values.contains value then values else values ++ [value])
    values

def extendBoundary (boundary : ExecutionBoundary) (descriptor : EffectDescriptor) :
    ExecutionBoundary :=
  let resources := descriptor.resources
  { boundary with
    unrestrictedFileReads := boundary.unrestrictedFileReads || resources.unrestrictedFileReads
    unrestrictedFileWrites := boundary.unrestrictedFileWrites || resources.unrestrictedFileWrites
    unrestrictedNetwork := boundary.unrestrictedNetwork || resources.unrestrictedNetwork
    unrestrictedProcess := boundary.unrestrictedProcess || resources.unrestrictedProcess
    readableRoots := pushMissing boundary.readableRoots resources.fileReads
    writableRoots := pushMissing boundary.writableRoots resources.fileWrites
    networkDomains := pushMissing boundary.networkDomains resources.networkDomains
    processCommandPrefixes := pushMissing boundary.processCommandPrefixes resources.processCommands
    processInvocations := pushMissing boundary.processInvocations resources.processInvocations
    externalResourcePrefixes :=
      pushMissing boundary.externalResourcePrefixes resources.externalResources }

/-! ## The engine -/

structure PermissionEvaluation where
  decision : PermissionDecision
  matchedRuleIndex : Option ℕ
  matchedLease : Bool
  reason : String
deriving DecidableEq, Repr

structure PermissionEngine where
  mode : PermissionMode
  hardCeiling : PermissionCeiling
  scopeCeiling : PermissionCeiling
  roleCeiling : PermissionCeiling
  rules : List PermissionRule

namespace PermissionEngine

def effectiveCeiling (engine : PermissionEngine) : PermissionCeiling :=
  (engine.hardCeiling.intersect engine.scopeCeiling).intersect engine.roleCeiling

/-- The ceiling `evaluate` tests, with plan mode's own below it. -/
def evaluatedCeiling (engine : PermissionEngine) : PermissionCeiling :=
  if engine.mode = .plan then engine.effectiveCeiling.intersect .plan
  else engine.effectiveCeiling

abbrev Matched := ℕ × PermissionDecision

/-- One turn of the loop over the rules: the latest match and the latest denial. -/
def scanRule (host : Host) (capability : String) (descriptor : EffectDescriptor)
    (latest : Option Matched × Option Matched) (entry : PermissionRule × ℕ) :
    Option Matched × Option Matched :=
  let (rule, index) := entry
  if ruleMatches host rule capability descriptor then
    let found := some (index, rule.decision)
    (found, if rule.decision = .deny then found else latest.2)
  else latest

def matched (host : Host) (engine : PermissionEngine) (capability : String)
    (descriptor : EffectDescriptor) : Option Matched :=
  let (latest, latestDeny) :=
    engine.rules.zipIdx.foldl (scanRule host capability descriptor) (none, none)
  latestDeny.or latest

def modeDecision : PermissionMode → PermissionDecision → PermissionDecision
  | _, .deny => .deny
  | .bypass, .ask | .bypass, .autoReview => .allow
  | _, base => base

def evaluate (host : Host) (engine : PermissionEngine) (capability : String)
    (descriptor : EffectDescriptor) : PermissionEvaluation :=
  if !engine.evaluatedCeiling.allows descriptor.effectClass then
    ⟨.deny, none, false, "effect exceeds permission ceiling"⟩
  else
    let found := engine.matched host capability descriptor
    let base := (found.map Prod.snd).getD (presetDefault engine.mode descriptor.effectClass)
    { decision := modeDecision engine.mode base
      matchedRuleIndex := found.map Prod.fst
      matchedLease := false
      reason :=
        if found.isSome then "matched ordered permission rule"
        else engine.mode.debugName ++ " preset default" }

end PermissionEngine

/-! ## Permission contexts -/

structure ConfiguredEffectGrant where
  capability : String
  descriptor : EffectDescriptor

/-- What one scope's decisions are made from. -/
structure PermissionContext where
  mode : PermissionMode
  userRules : List PermissionRule
  /-- Rules by the runtime source that owns them, in the order of the sources. -/
  generatedRules : List (String × List PermissionRule)
  ceiling : PermissionCeiling
  leases : List LeaseEntry
  boundary : ExecutionBoundary
  boundaryCeilings : List ExecutionBoundary
  boundaryIdentities : BoundaryIdentityPolicy
  boundaryIdentityCeilings : List BoundaryIdentityPolicy
  configuredEffects : List ((String × String) × ConfiguredEffectGrant)
  reviewer : EffectRequest → PermissionDecision
  protectedPaths : ProtectedPathPolicy

namespace PermissionContext

def rules (context : PermissionContext) : List PermissionRule :=
  context.userRules ++ context.generatedRules.flatMap Prod.snd

def boundaryForCapability (context : PermissionContext) (capability : String) : ExecutionBoundary :=
  (context.configuredEffects.filter (·.2.capability = capability)).foldl
    (fun boundary grant => extendBoundary boundary grant.2.descriptor) context.boundary

section

variable (host : Host)

variable (context : PermissionContext) (runId : RunId) (request : EffectRequest)

def boundaryIdentitiesValid : Bool :=
  context.boundaryIdentities.validatesCurrentPaths host &&
    context.boundaryIdentityCeilings.all (·.validatesCurrentPaths host)

/-- `CapabilityLeaseStore::covers` at the time `now`. -/
def leasesCover (now : ℤ) : Bool :=
  context.leases.any (leaseMatches host · runId request now)

variable (mode : PermissionMode) (ceiling : PermissionCeiling)

/-- The context's and the caller's ceilings together, under plan mode's own in plan mode. -/
def effectiveCeiling : PermissionCeiling :=
  let both := context.ceiling.intersect ceiling
  if mode = .plan then both.intersect .plan else both

/-- The engine's decision on a request under `ceiling`. -/
def engineEvaluation (request : EffectRequest) (mode : PermissionMode)
    (ceiling : PermissionCeiling) : PermissionEvaluation :=
  PermissionEngine.evaluate host
    ⟨mode, .unrestricted, ceiling, .unrestricted, context.rules⟩
    request.capability request.descriptor

/-- The end of the evaluation, for an effect outside the scope's own boundary. -/
def evaluateOutsideBoundary (now : ℤ) (evaluation : PermissionEvaluation) : PermissionEvaluation :=
  if context.leasesCover host runId request now then
    { evaluation with
      decision := .allow
      matchedLease := true
      reason := "matched capability lease for execution boundary" }
  else if mode = .auto && ceiling.allows request.descriptor.effectClass then
    { evaluation with
      decision := .ask
      reason := "effect requires a capability lease for execution boundary" }
  else
    { evaluation with
      decision := .deny
      reason := "effect exceeds execution boundary" }

def reviewedDecision : PermissionDecision → PermissionDecision
  | .allow => .allow
  | .deny => .deny
  | .ask | .autoReview => .ask

/-- The end of the evaluation, for an effect inside the scope's own boundary. -/
def evaluateInsideBoundary (invokeAutoReviewer : Bool) (now : ℤ)
    (evaluation : PermissionEvaluation) : PermissionEvaluation :=
  if (evaluation.decision = .ask || evaluation.decision = .autoReview) &&
      context.leasesCover host runId request now then
    { evaluation with
      decision := .allow
      matchedLease := true
      reason := "matched capability lease" }
  else if evaluation.decision = .autoReview && invokeAutoReviewer then
    { evaluation with
      decision := reviewedDecision (context.reviewer request)
      reason := "deterministic auto reviewer" }
  else evaluation

/-- The evaluation outside bypass mode, once the identities of the roots are confirmed. -/
def evaluateWithin (invokeAutoReviewer : Bool) (now : ℤ) : PermissionEvaluation :=
  let evaluation := context.engineEvaluation host request mode ceiling
  if evaluation.decision = .deny then evaluation
  else if context.protectedPaths.protectsDescriptor host request.descriptor then
    ⟨.deny, evaluation.matchedRuleIndex, false, "effect targets protected runtime state"⟩
  else if context.boundaryCeilings.any (!boundaryAllows host · request.descriptor) then
    { evaluation with
      decision := .deny
      matchedLease := false
      reason := "effect exceeds child execution boundary" }
  else if !boundaryAllows host (context.boundaryForCapability request.capability)
      request.descriptor then
    context.evaluateOutsideBoundary host runId request mode ceiling now evaluation
  else context.evaluateInsideBoundary host runId request invokeAutoReviewer now evaluation

variable (capability : String) (request : EffectRequest)

def evaluateEffectWithReviewerPolicy (mode : PermissionMode) (ceiling : PermissionCeiling)
    (invokeAutoReviewer : Bool) (now : ℤ) : PermissionEvaluation :=
  if capability ≠ request.capability then
    ⟨.deny, none, false, "effect capability does not match evaluation capability"⟩
  else if mode = .bypass then
    context.engineEvaluation host request .bypass .unrestricted
  else if !context.boundaryIdentitiesValid host then
    ⟨.deny, none, false, "execution boundary root identity changed"⟩
  else
    context.evaluateWithin host runId request mode (context.effectiveCeiling mode ceiling)
      invokeAutoReviewer now

def evaluateEffectWith (mode : PermissionMode) (ceiling : PermissionCeiling) (now : ℤ) :
    PermissionEvaluation :=
  context.evaluateEffectWithReviewerPolicy host runId capability request mode ceiling true now

def evaluateEffect (now : ℤ) : PermissionEvaluation :=
  context.evaluateEffectWith host runId capability request context.mode context.ceiling now

def narrowedWithBoundary (requested : PermissionCeiling) (boundary : ExecutionBoundary) :
    PermissionContext :=
  { context with
    ceiling := context.ceiling.intersect requested
    boundary
    boundaryCeilings := context.boundaryCeilings ++ [boundary]
    boundaryIdentities := .capture host boundary
    boundaryIdentityCeilings := context.boundaryIdentityCeilings ++ [context.boundaryIdentities] }

end

def narrowed (context : PermissionContext) (requested : PermissionCeiling) : PermissionContext :=
  { context with ceiling := context.ceiling.intersect requested }

end PermissionContext

end SolarisMesh.Permission
