import SolarisMesh.Ledger.State
import SolarisMesh.Lib.JsonText
import SolarisMesh.Types.Effect

/-!
# Recovering an effect from the ledger

Before an effect is executed, `recover_effect` looks at what the ledger says about it. An
effect without an intent may be executed. An effect with an intent is answered from its
outcome, or is handed to reconciliation; only an effect that is read-only and safe to replay
is executed again, if it has no outcome.

The records that count are the last intent of the effect and the outcomes after it.

The digests, the decoders of payloads and the output store are those of `EffectContext`.
-/

namespace SolarisMesh.Effects

open Lib SolarisMesh.Types Ledger

/-! ## The context -/

/-- What recovery asks of the rest of the runtime. -/
structure EffectContext where
  /-- `EffectAuditProjection::from_descriptor`, its `descriptor_digest`. -/
  descriptorDigest : EffectDescriptor → String
  /-- The digest in a stored `EffectAuditProjection` of a supported version. -/
  projectionDigest : Json → Option String
  parseDescriptor : Json → Option EffectDescriptor
  descriptorJson : EffectDescriptor → Json
  stableDigestBytes : String → String
  /-- `stable_digest_serializable` of an argument vector. -/
  stableDigestArgv : List String → String
  parseEnvironment : Json → Except String OperationEnvironmentSnapshot
  environmentWithCurrentPermissions : EffectRequest → OperationEnvironmentSnapshot
  /-- The output store. -/
  readOutput : String → Except String String

inductive EffectRecoveryDecision where
  | execute
  | reuse (isError : Bool) (output : String)
  | reconcile (reason : String)
deriving DecidableEq, Repr

abbrev EffectRecord := LedgerRecord Json

section Recovery

variable (ctx : EffectContext)

def payloadEffectDescriptorDigest (payload : Json) : Option String :=
  ((payload.get "effect").bind ctx.projectionDigest).or
    (((payload.get "descriptor").bind ctx.parseDescriptor).map ctx.descriptorDigest)

def secretSafeInvocation (invocation : ProcessInvocation) : ProcessInvocation where
  executable := invocation.executable
  argv :=
    if invocation.argv.isEmpty then []
    else ["sha256:" ++ ctx.stableDigestArgv invocation.argv,
      "argc:" ++ toString invocation.argv.length]

def secretSafeDescriptor (descriptor : EffectDescriptor) : EffectDescriptor :=
  let resources := descriptor.resources
  let hasProcessDetails := !resources.processCommands.isEmpty ||
    resources.processInvocations.any fun invocation => !invocation.argv.isEmpty
  { descriptor with
    action :=
      if hasProcessDetails then
        "Process effect (sha256:" ++ ctx.stableDigestBytes descriptor.action ++ ")"
      else descriptor.action
    resources := { resources with
      processCommands := resources.processCommands.map fun command =>
        "sha256:" ++ ctx.stableDigestBytes command
      processInvocations := resources.processInvocations.map (secretSafeInvocation ctx) } }

/-! ## Environments -/

/-- Two plugins of one id are the same. -/
def validateEnvironmentPluginIdentities (environment : OperationEnvironmentSnapshot) : Bool :=
  environment.plugins.all fun plugin => environment.plugins.all fun other =>
    plugin.implementationId ≠ other.implementationId || plugin = other

inductive CompatibilityDecision where
  | compatible | reconcileRequired | incompatible
deriving DecidableEq, Repr

def implementationChanged : Option ImplementationIdentity → Option ImplementationIdentity → Bool
  | some left, some right => left.implementationId ≠ right.implementationId
  | none, none => false
  | _, _ => true

/-- The last tool of a name. -/
def toolNamed (tools : List ToolImplementationSnapshot) (name : String) :
    Option ToolImplementationSnapshot :=
  tools.reverse.find? (·.name = name)

/-- A tool of the recorded environment is still there. -/
def toolKept (recorded current : List ToolImplementationSnapshot) (name : String) : Bool :=
  match toolNamed recorded name, toolNamed current name with
  | some left, some right =>
    left.implementation.implementationId = right.implementation.implementationId
  | _, _ => false

def compatibilityDecision (recorded current : OperationEnvironmentSnapshot) :
    CompatibilityDecision :=
  if recorded = current then .compatible
  else if implementationChanged recorded.provider current.provider then .incompatible
  else if (recorded.tools.map (·.name)).all (toolKept recorded.tools current.tools) then
    .reconcileRequired
  else .incompatible

def preparedImplementationSnapshotPrefix : String := "\x00solaris/prepared-executable/"

variable (request : EffectRequest) (intent : EffectRecord)

/-- The implementation that was prepared for the request is part of its environment. -/
def environmentWithToolImplementation (implementation : ImplementationIdentity) :
    OperationEnvironmentSnapshot :=
  let environment := ctx.environmentWithCurrentPermissions request
  let preparedName := preparedImplementationSnapshotPrefix ++ request.capability
  let prepared : ToolImplementationSnapshot :=
    { name := preparedName
      implementation
      replayPolicy := request.descriptor.replayPolicy }
  let tools :=
    match environment.tools.findIdx? (·.name = preparedName) with
    | some position =>
      environment.tools.modify position fun tool => { tool with implementation := implementation }
    | none =>
      (environment.tools ++ [prepared]).mergeSort fun l r => l.name ≤ r.name
  { environment with tools }

def currentEnvironment (implementation : Option ImplementationIdentity) :
    OperationEnvironmentSnapshot :=
  match implementation with
  | none => ctx.environmentWithCurrentPermissions request
  | some implementation => environmentWithToolImplementation ctx request implementation

/-! ## The records of an effect -/

def stringMember (payload : Json) (key : String) : Option String :=
  (payload.get key).bind Json.asStr

def isIntent (record : EffectRecord) : Bool :=
  record.recordType = "effect_intent" &&
    stringMember record.payload "effect_id" = some request.effectId

variable (records : List EffectRecord)

/-- The last intent of the effect. -/
def lastIntent : Option EffectRecord :=
  records.reverse.find? (isIntent request)

/-- The outcome speaks of the effect or of its operation. -/
def isOutcome (record : EffectRecord) : Bool :=
  record.recordType = "effect_outcome" &&
    (stringMember record.payload "effect_id" = some request.effectId ||
      stringMember record.payload "operation_id" = some request.operationId)

def outcomesAfter : List EffectRecord :=
  records.filter fun record => isOutcome request record && intent.seq < record.seq

/-- `json!` of an optional text. -/
def optionJson : Option String → Json
  | none => .null
  | some value => .string value

/-- The intent was recorded for this operation, input and descriptor. -/
def intentMatches : Bool :=
  let recordedDescriptor := intent.payload.get "descriptor"
  intent.payload.get "operation_id" = some (.string request.operationId) &&
    intent.payload.get "input_digest" = some (optionJson request.inputDigest) &&
    (payloadEffectDescriptorDigest ctx intent.payload =
        some (ctx.descriptorDigest request.descriptor) ||
      recordedDescriptor.any
        (Json.same · (ctx.descriptorJson (secretSafeDescriptor ctx request.descriptor))) ||
      recordedDescriptor.any (Json.same · (ctx.descriptorJson request.descriptor)))

def recordedEnvironment (intent : EffectRecord) : Except String OperationEnvironmentSnapshot := do
  let value ← orElseThrow "effect intent is missing its operation environment"
    (intent.payload.get "environment")
  (ctx.parseEnvironment value).mapError
    ("effect intent has invalid operation environment: " ++ ·)

/-- The outcome was recorded for the same operation, input and descriptor as the intent. -/
def outcomeMatches (candidate : EffectRecord) : Bool :=
  let recordedEffectDigest := payloadEffectDescriptorDigest ctx intent.payload
  let outcomeDescriptorDigest := payloadEffectDescriptorDigest ctx candidate.payload
  candidate.payload.get "effect_id" = some (.string request.effectId) &&
    candidate.payload.get "operation_id" = some (.string request.operationId) &&
    candidate.payload.get "input_digest" = some (optionJson request.inputDigest) &&
    outcomeDescriptorDigest = some (ctx.descriptorDigest request.descriptor) &&
    !(recordedEffectDigest.isSome && outcomeDescriptorDigest ≠ recordedEffectDigest)

def outcomeUnknown (record : EffectRecord) : Bool :=
  stringMember record.payload "status" = some "outcome_unknown"

/-- The output of one outcome, `none` if the outcome is unknown; a failure is the reason to
reconcile. -/
def checkOutcome (candidate : EffectRecord) : Except String (Option String) := do
  let effectId := request.effectId
  require (outcomeMatches ctx request intent candidate)
    s!"effect {effectId} durable outcome identity failed integrity validation"
  if outcomeUnknown candidate then return none
  let outputRef ← orElseThrow s!"effect {effectId} completed without a reusable output"
    (stringMember candidate.payload "output_ref")
  let output ← (ctx.readOutput outputRef).mapError
    (s!"effect {effectId} protected output failed integrity validation: " ++ ·)
  require
    ((candidate.payload.get "output_bytes").bind Json.asU64 = some output.utf8ByteSize &&
      stringMember candidate.payload "output_digest" = some (ctx.stableDigestBytes output))
    s!"effect {effectId} durable output failed integrity validation"
  return some output

/-- What the outcomes after the intent say. -/
def decideOutcomes (first : EffectRecord) (rest : List EffectRecord) :
    Except String EffectRecoveryDecision := do
  let effectId := request.effectId
  let firstOutput ← checkOutcome ctx request intent first
  rest.forM fun candidate => (checkOutcome ctx request intent candidate).map fun _ => ()
  require (rest.all fun candidate => Json.same candidate.payload first.payload)
    s!"effect {effectId} has conflicting durable outcome identity records"
  require (!outcomeUnknown first) s!"effect {effectId} started but its outcome is unknown"
  let output ← orElseThrow s!"effect {effectId} completed without a reusable output" firstOutput
  return .reuse (((first.payload.get "is_error").bind Json.asBool).getD true) output

/-- The reason, if the recorded environment does not fit the current one. -/
def environmentConflict (recorded current : OperationEnvironmentSnapshot) : Except String Unit := do
  let effectId := request.effectId
  require (validateEnvironmentPluginIdentities recorded &&
      validateEnvironmentPluginIdentities current)
    s!"effect {effectId} operation environment contains conflicting plugin identities"
  match compatibilityDecision recorded current with
  | .compatible => return ()
  | .reconcileRequired =>
    throw s!"effect {effectId} operation environment changed and requires reconciliation"
  | .incompatible => throw s!"effect {effectId} operation environment is incompatible"

/-- What is decided once the recorded environment is known; a failure is the reason to
reconcile. -/
def decideRecorded (request : EffectRequest) (implementation : Option ImplementationIdentity)
    (intent : EffectRecord) (recorded : OperationEnvironmentSnapshot) :
    Except String EffectRecoveryDecision := do
  environmentConflict request recorded (currentEnvironment ctx request implementation)
  match outcomesAfter request intent records with
  | first :: rest => decideOutcomes ctx request intent first rest
  | [] =>
    let effectId := request.effectId
    let effectClass := request.descriptor.effectClass.debugName
    let replayPolicy := request.descriptor.replayPolicy.debugName
    require request.descriptor.isReplayable
      (s!"effect {effectId} has a durable intent without an outcome; its outcome is unknown " ++
        s!"and class {effectClass} with replay policy {replayPolicy} requires reconciliation")
    return .execute

def orReconcile : Except String EffectRecoveryDecision → EffectRecoveryDecision
  | .ok decision => decision
  | .error reason => .reconcile reason

def decideIntent (request : EffectRequest) (implementation : Option ImplementationIdentity)
    (intent : EffectRecord) : Except String EffectRecoveryDecision :=
  if !intentMatches ctx request intent then
    let effectId := request.effectId
    .ok (.reconcile
      s!"effect {effectId} durable identity conflicts with current input or descriptor")
  else
    (recordedEnvironment ctx intent).map fun recorded =>
      orReconcile (decideRecorded ctx records request implementation intent recorded)

def recoverEffectWithToolImplementation (records : Except String (List EffectRecord))
    (request : EffectRequest) (implementation : Option ImplementationIdentity) :
    Except String EffectRecoveryDecision := do
  let records ← records.mapError ("failed to inspect effect history: " ++ ·)
  match lastIntent request records with
  | none => return .execute
  | some intent => decideIntent ctx records request implementation intent

def recoverEffect (records : Except String (List EffectRecord)) (request : EffectRequest) :
    Except String EffectRecoveryDecision :=
  recoverEffectWithToolImplementation ctx records request none

end Recovery

end SolarisMesh.Effects
