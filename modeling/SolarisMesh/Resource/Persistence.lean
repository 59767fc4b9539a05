import SolarisMesh.Resource.Manager

/-!
# Checkpoints and deltas of the resource manager

Every persisted change appends a record to the run: the difference to the state before, or,
at every 64th change, a checkpoint of the state. Attaching a manager to a run reads the last
checkpoint and the deltas behind it, and collects the applied identifiers of all records.

A record is its payload as JSON decoding finds it: a field that may be absent is an option, and a
floating-point number is what its text reads back as.
Of a budget only the two fields that are migrated are told absent from `null`, since an absent
field of the others reads as `null`. `elapsed_ms` and `effective_agent_limit`, which are
written to a checkpoint and never read back, are left out.
-/

namespace SolarisMesh.Resource

open Lib

def resourceSnapshotInterval : ℕ := 64
def resourceCheckpointSchemaVersion : ℕ := 1
def resourceDeltaSchemaVersion : ℕ := 1
def legacyDefaultMaxSpawnDepth : ℕ := 8
def legacyDefaultMaxTotalDescendantsPerRun : ℕ := 256

variable {F R : Type} [DecidableEq F] (f : F64 F)

/-! ## Stored budgets -/

/-- A budget in a payload. -/
structure StoredBudget (F : Type) where
  maxActiveAgents : Option ℕ
  maxConcurrentEffects : Option ℕ
  maxSpawnDepth : Option (Option ℕ)
  maxTotalDescendantsPerRun : Option (Option ℕ)
  maxTurns : Option ℕ
  maxTokens : Option ℕ
  maxWallTimeMs : Option ℕ
  maxCost : Option F
  maxProcessOutputBytes : Option ℕ

namespace StoredBudget

omit [DecidableEq F]

/-- Serialization writes every field. -/
def write (budget : ResourceBudget F) : StoredBudget F where
  maxActiveAgents := budget.maxActiveAgents
  maxConcurrentEffects := budget.maxConcurrentEffects
  maxSpawnDepth := some budget.maxSpawnDepth
  maxTotalDescendantsPerRun := some budget.maxTotalDescendantsPerRun
  maxTurns := budget.maxTurns
  maxTokens := budget.maxTokens
  maxWallTimeMs := budget.maxWallTimeMs
  maxCost := budget.maxCost
  maxProcessOutputBytes := budget.maxProcessOutputBytes

def read (stored : StoredBudget F) : ResourceBudget F where
  maxActiveAgents := stored.maxActiveAgents
  maxConcurrentEffects := stored.maxConcurrentEffects
  maxSpawnDepth := stored.maxSpawnDepth.getD none
  maxTotalDescendantsPerRun := stored.maxTotalDescendantsPerRun.getD none
  maxTurns := stored.maxTurns
  maxTokens := stored.maxTokens
  maxWallTimeMs := stored.maxWallTimeMs
  maxCost := stored.maxCost
  maxProcessOutputBytes := stored.maxProcessOutputBytes

def migrateLegacyResourceBudgetFields (stored : StoredBudget F) : StoredBudget F :=
  { stored with
    maxSpawnDepth := some (stored.maxSpawnDepth.getD (some legacyDefaultMaxSpawnDepth))
    maxTotalDescendantsPerRun := some
      (stored.maxTotalDescendantsPerRun.getD (some legacyDefaultMaxTotalDescendantsPerRun)) }

end StoredBudget

/-! ## Numbers that are read back -/

section Reread

omit [DecidableEq F]

def ResourceBudget.reread (budget : ResourceBudget F) : ResourceBudget F :=
  { budget with maxCost := budget.maxCost.map f.reread }

def ProviderSignals.reread (signals : ProviderSignals F) : ProviderSignals F :=
  { signals with
    inputCostPerMillion := signals.inputCostPerMillion.map f.reread
    cacheReadCostPerMillion := signals.cacheReadCostPerMillion.map f.reread
    cacheWriteCostPerMillion := signals.cacheWriteCostPerMillion.map f.reread
    outputCostPerMillion := signals.outputCostPerMillion.map f.reread }

def ResourceUsage.reread (usage : ResourceUsage F) : ResourceUsage F :=
  { usage with
    usefulCallRate := usage.usefulCallRate.map f.reread
    duplicateCallRate := usage.duplicateCallRate.map f.reread
    cost := f.reread usage.cost }

def ResourceState.reread (state : ResourceState F) : ResourceState F :=
  { state with
    budget := state.budget.reread f
    providerSignals := state.providerSignals.reread f
    usage := state.usage.reread f }

end Reread

/-! ## Records -/

/-- `ResourceStateDelta`, with its budget as a value or as stored. -/
structure ResourceStateDelta (F B : Type) where
  schemaVersion : ℕ
  budget : Option B
  providerSignals : Option (ProviderSignals F)
  usage : Option (ResourceUsage F)
  deadlineUnixMs : Option (Option ℤ)
  providerRate : Option ProviderRateWindow
  appliedUsageEffectsAdded : Finset String
  seenToolCallFingerprintsAdded : Finset String

def ResourceStateDelta.mapBudget {B B' : Type} (g : B → B') (delta : ResourceStateDelta F B) :
    ResourceStateDelta F B' :=
  { delta with budget := delta.budget.map g }

def ResourceStateDelta.reread (delta : ResourceStateDelta F (ResourceBudget F)) :
    ResourceStateDelta F (ResourceBudget F) :=
  { delta with
    budget := delta.budget.map (·.reread f)
    providerSignals := delta.providerSignals.map (·.reread f)
    usage := delta.usage.map (·.reread f) }

/-- The payload of a `resource_usage_checkpoint`. -/
structure Checkpoint (F : Type) where
  schemaVersion : Option ℕ
  budget : Option (StoredBudget F)
  providerSignals : Option (ProviderSignals F)
  usage : Option (ResourceUsage F)
  deadlineUnixMs : Option (Option ℤ)
  providerRate : Option ProviderRateWindow
  /-- Written by earlier versions only. -/
  appliedUsageEffects : Finset String

/-- A record of the run. -/
inductive Record (F : Type) where
  | checkpoint (payload : Checkpoint F)
  | delta (payload : ResourceStateDelta F (StoredBudget F))
  | other

def Record.isDelta : Record F → Bool
  | .delta _ => true
  | .checkpoint _ | .other => false

/-! ## Deltas -/

namespace ResourceStateDelta

/-- The field `after`, if it differs from `before`. -/
def changed {α : Type} [DecidableEq α] (before after : α) : Option α :=
  if before = after then none else some after

def between (before after : ResourceState F) : Option (ResourceStateDelta F (ResourceBudget F)) :=
  if ¬ before.appliedUsageEffects ⊆ after.appliedUsageEffects ∨
      ¬ before.usage.seenToolCallFingerprints ⊆ after.usage.seenToolCallFingerprints then none
  else
    some
      { schemaVersion := resourceDeltaSchemaVersion
        budget := changed before.budget after.budget
        providerSignals := changed before.providerSignals after.providerSignals
        usage := (changed before.usage after.usage).map fun usage =>
          { usage with seenToolCallFingerprints := ∅ }
        deadlineUnixMs := changed before.deadlineUnixMs after.deadlineUnixMs
        providerRate := changed before.providerRate after.providerRate
        appliedUsageEffectsAdded := after.appliedUsageEffects \ before.appliedUsageEffects
        seenToolCallFingerprintsAdded :=
          after.usage.seenToolCallFingerprints \ before.usage.seenToolCallFingerprints }

/-- The usage in a delta comes without fingerprints: those of the state are kept, and the
added ones join them. -/
def applyUsage (delta : ResourceStateDelta F (ResourceBudget F)) (usage : ResourceUsage F) :
    ResourceUsage F :=
  { delta.usage.getD usage with
    seenToolCallFingerprints :=
      usage.seenToolCallFingerprints ∪ delta.seenToolCallFingerprintsAdded }

def apply (delta : ResourceStateDelta F (ResourceBudget F)) (state : ResourceState F) :
    Except String (ResourceState F) := do
  require (delta.schemaVersion == resourceDeltaSchemaVersion)
    s!"unsupported resource delta schema version {delta.schemaVersion}"
  return {
    budget := delta.budget.getD state.budget
    providerSignals := delta.providerSignals.getD state.providerSignals
    usage := delta.applyUsage state.usage
    deadlineUnixMs := delta.deadlineUnixMs.getD state.deadlineUnixMs
    providerRate := delta.providerRate.getD state.providerRate
    appliedUsageEffects := state.appliedUsageEffects ∪ delta.appliedUsageEffectsAdded }

end ResourceStateDelta

def resourceStateDeltaFromRecord (payload : ResourceStateDelta F (StoredBudget F)) :
    ResourceStateDelta F (ResourceBudget F) :=
  payload.mapBudget fun stored => stored.migrateLegacyResourceBudgetFields.read

/-! ## Reading a run -/

def checkpointSchemaVersion (payload : Checkpoint F) : Except String ℕ :=
  match payload.schemaVersion with
  | none => .ok 0
  | some version => do
    require (version ≤ u32Max) "resource checkpoint schema_version must be a u32"
    require (version ≤ resourceCheckpointSchemaVersion)
      s!"unsupported resource checkpoint schema version {version}"
    return version

def resourceBudgetFromCheckpoint (stored : StoredBudget F) (schemaVersion : ℕ) :
    ResourceBudget F :=
  if schemaVersion = 0 then stored.migrateLegacyResourceBudgetFields.read else stored.read

/-- What a checkpoint does not say is taken from the manager that reads it. -/
def checkpointState (manager : Manager F) (payload : Checkpoint F) :
    Except String (ResourceState F) := do
  let schemaVersion ← checkpointSchemaVersion payload
  let usage ← orElseThrow
    "invalid resource usage checkpoint: invalid type: null, expected struct ResourceUsage"
    payload.usage
  return {
    budget := (payload.budget.map fun stored =>
      resourceBudgetFromCheckpoint stored schemaVersion).getD manager.state.budget
    providerSignals := payload.providerSignals.getD manager.state.providerSignals
    usage
    deadlineUnixMs := payload.deadlineUnixMs.getD manager.state.deadlineUnixMs
    providerRate := payload.providerRate.getD {}
    appliedUsageEffects := payload.appliedUsageEffects }

/-- The last checkpoint and the records behind it. -/
def lastCheckpoint : List (Record F) → Option (Checkpoint F × List (Record F))
  | [] => none
  | record :: records =>
    match lastCheckpoint records, record with
    | some found, _ => some found
    | none, .checkpoint payload => some (payload, records)
    | none, _ => none

/-- The loop over the records behind the checkpoint; it counts the deltas. -/
def applyDeltas : List (Record F) → ResourceState F × ℕ → Except String (ResourceState F × ℕ)
  | [], found => .ok found
  | .delta payload :: records, (state, count) => do
    let state ← (resourceStateDeltaFromRecord payload).apply state
    applyDeltas records (state, u64SaturatingAdd count 1)
  | .checkpoint _ :: records, found => applyDeltas records found
  | .other :: records, found => applyDeltas records found

/-- The state that the run stores, with the number of deltas behind the last checkpoint. -/
def storedState (manager : Manager F) (records : List (Record F)) :
    Except String (Option (ResourceState F × ℕ)) :=
  match lastCheckpoint records with
  | none =>
    if records.any Record.isDelta then
      .error "resource delta exists without a preceding checkpoint"
    else .ok none
  | some (payload, behind) => do
    let state ← checkpointState manager payload
    let found ← applyDeltas behind (state, 0)
    return some found

def Record.appliedUsageEffects : Record F → Finset String
  | .checkpoint payload => payload.appliedUsageEffects
  | .delta payload => payload.appliedUsageEffectsAdded
  | .other => ∅

/-- The identifiers that the records of the run name. -/
def appliedUsageHistory : List (Record F) → Finset String
  | [] => ∅
  | record :: records => record.appliedUsageEffects ∪ appliedUsageHistory records

def restoreAppliedUsageHistory (records : List (Record F)) (state : ResourceState F) :
    ResourceState F :=
  { state with
    appliedUsageEffects := state.appliedUsageEffects ∪ appliedUsageHistory records }

/-- Requests that were reserved and not started are forgotten, and so is a window that is
over. -/
def ProviderRateWindow.normalizeRecovered (now : ℤ) (window : ProviderRateWindow) :
    ProviderRateWindow :=
  if window.startedAtUnixMs ≠ 0 ∧ window.isOver now then {}
  else
    { window with
      tokens := window.tokens - window.unstartedReservedTokens
      reservedTokens := window.reservedTokens - window.unstartedReservedTokens
      reservedRequests := 0
      unstartedReservedTokens := 0 }

def normalizeRecoveredState (now : ℤ) (state : ResourceState F) : ResourceState F :=
  { state with
    usage := { state.usage with activeAgents := 0, concurrentEffects := 0 }.refreshCallRates f
    providerRate := state.providerRate.normalizeRecovered now }

structure RestoredResourceState (F : Type) where
  manager : Manager F
  hasDurableState : Bool
  deltasSinceSnapshot : ℕ

def restoreLatestState (manager : Manager F) (now : ℤ) (records : List (Record F)) :
    Except String (RestoredResourceState F) := do
  match ← storedState manager records with
  | none => return ⟨manager, false, 0⟩
  | some (state, deltasSinceSnapshot) =>
    let state := normalizeRecoveredState f now (restoreAppliedUsageHistory records state)
    return ⟨{ manager with state }, true, deltasSinceSnapshot⟩

/-! ## Writing to a run -/

/-- A manager that is attached to a run, and the records of the run. -/
structure Session (F : Type) where
  manager : Manager F
  records : List (Record F)

namespace Session

variable (session : Session F) (fault : Option String)

/-- An append fails with what the ledger answers, if it does not accept it. -/
def appendRecord (record : Record F) : Except String (Session F) :=
  match fault with
  | some error => .error error
  | none => .ok { session with records := session.records ++ [record] }

def withState (state : ResourceState F) : Session F :=
  { session with manager := { session.manager with state } }

def withDeltaCount (count : ℕ) : Session F :=
  { session with manager := { session.manager with resourceDeltasSinceSnapshot := count } }

/-- The payload of a checkpoint; the applied identifiers are not part of it. -/
def checkpoint (state : ResourceState F) : Checkpoint F where
  schemaVersion := some resourceCheckpointSchemaVersion
  budget := some (.write state.budget)
  providerSignals := some state.providerSignals
  usage := some state.usage
  deadlineUnixMs := some state.deadlineUnixMs
  providerRate := some state.providerRate
  appliedUsageEffects := ∅

/-- `persist_snapshot_locked`. -/
def persistSnapshot : Except String (Session F) := do
  let session ← session.appendRecord fault
    (.checkpoint (checkpoint (session.manager.state.reread f)))
  return session.withDeltaCount 0

/-- `persist_state_change_locked`, where the session has the state before. -/
def persistStateChange (after : ResourceState F) : Except String (Session F) :=
  let before := session.manager.state
  let next := session.withState after
  let nextCount := u64SaturatingAdd session.manager.resourceDeltasSinceSnapshot 1
  if before = after then .ok next
  else
    match ResourceStateDelta.between before after with
    | some delta =>
      if nextCount < resourceSnapshotInterval then do
        let next ← next.appendRecord fault (.delta ((delta.reread f).mapBudget .write))
        return next.withDeltaCount nextCount
      else next.persistSnapshot f fault
    | none => next.persistSnapshot f fault

/-- Only the first failure is kept. -/
def recordPersistenceError (error : String) : Session F :=
  { session with
    manager := { session.manager with
      persistenceError := some (session.manager.persistenceError.getD error) } }

/-- A change that cannot be persisted is taken back. An update that does not ask to be
persisted is a transient one. -/
def withStateUpdate (change : Change F R) : Except String R × Session F :=
  if change.changed then
    match session.persistStateChange f fault change.state with
    | .ok session => (.ok change.result, session)
    | .error error =>
      (.error s!"resource checkpoint persistence failed: {error}",
        session.recordPersistenceError error)
  else (.ok change.result, session.withState change.state)

end Session

/-- Attach a manager to the run with these records. -/
def attach (manager : Manager F) (now : ℤ) (fault : Option String) (records : List (Record F)) :
    Except String (Session F) := do
  let restored ← restoreLatestState f manager now records
  let session : Session F := ⟨restored.manager, records⟩
  let session := session.withDeltaCount restored.deltasSinceSnapshot
  if !restored.hasDurableState || resourceSnapshotInterval ≤ restored.deltasSinceSnapshot then
    (session.persistSnapshot f fault).mapError fun error =>
      s!"resource checkpoint persistence failed: {error}"
  else return session

/-! ## Operations on an attached manager -/

inductive Operation (F : Type) where
  | setBudget (budget : ResourceBudget F)
  | setProviderSignals (signals : ProviderSignals F)
  | tryAcquireAgent (depth : ℕ)
  | tryAcquireReattachedAgent (depth : ℕ)
  | tryAcquireEffect
  | releaseAgent
  | releaseEffect
  | acquireProviderRequest (estimatedTokens : ℕ)
  | markProviderRequestStarted (reservedTokens : ℕ) (windowStartedAtUnixMs : ℤ)
  | rollbackProviderRequestStart (reservedTokens : ℕ) (windowStartedAtUnixMs : ℤ)
  | commitProviderTokens (reservedTokens actualTokens : ℕ) (windowStartedAtUnixMs : ℤ)
  | releaseProviderTokens (reservedTokens : ℕ) (windowStartedAtUnixMs : ℤ)
  | releaseProviderReservation (reservedTokens : ℕ) (windowStartedAtUnixMs : ℤ)
  | recordModelUsage (usage : TokenUsage)
  | recordModelUsageOnce (effectId : String) (usage : TokenUsage) (countTurn : Bool)
  | recordToolCallsOnce (roundCallId : String) (calls : List ToolCallStat)
  | recordTokensAndCost (tokens : ℕ) (cost : F)

/-- The change with its answer reduced to whether the operation succeeded. -/
def Change.succeeds (ok : R → Bool) (change : Change F R) : Change F Bool :=
  ⟨ok change.result, change.changed, change.state⟩

namespace Operation

/-- The update of an operation. Accounting succeeds also when it goes over the budget. -/
def update (manager : Manager F) (now : ℤ) : Operation F → Change F Bool
  | setBudget budget => (manager.setBudget now budget).succeeds fun _ => true
  | setProviderSignals signals => (manager.setProviderSignals signals).succeeds fun _ => true
  | tryAcquireAgent depth => manager.tryAcquireAgent f now depth
  | tryAcquireReattachedAgent depth => manager.tryAcquireReattachedAgent f now depth
  | tryAcquireEffect => manager.tryAcquireEffect f now
  | releaseAgent => manager.releaseAgent.succeeds fun _ => true
  | releaseEffect => manager.releaseEffect.succeeds fun _ => true
  | acquireProviderRequest tokens =>
    (manager.acquireProviderRequest now tokens).succeeds Except.isOk
  | markProviderRequestStarted tokens window =>
    (manager.markProviderRequestStarted now tokens window).succeeds Except.isOk
  | rollbackProviderRequestStart tokens window =>
    (manager.rollbackProviderRequestStart tokens window).succeeds Except.isOk
  | commitProviderTokens tokens actual window =>
    (manager.commitProviderTokens tokens actual window).succeeds fun _ => true
  | releaseProviderTokens tokens window =>
    (manager.releaseProviderTokens tokens window).succeeds fun _ => true
  | releaseProviderReservation tokens window =>
    (manager.releaseProviderReservation tokens window).succeeds fun _ => true
  | recordModelUsage usage => (manager.recordModelUsage f usage).succeeds fun _ => true
  | recordModelUsageOnce effectId usage countTurn =>
    (manager.recordModelUsageOnce f effectId usage countTurn).succeeds fun _ => true
  | recordToolCallsOnce roundCallId calls =>
    (manager.recordToolCallsOnce f roundCallId calls).succeeds fun _ => true
  | recordTokensAndCost tokens cost =>
    (manager.recordTokensAndCost f tokens cost).succeeds fun _ => true

/-- The identifier under which an operation is applied once. -/
def effectId : Operation F → Option String
  | recordModelUsageOnce effectId _ _ => some effectId
  | recordToolCallsOnce roundCallId _ => some (Manager.toolRoundEffect roundCallId)
  | _ => none

end Operation

/-- An operation with what the clock and the ledger answer. -/
structure Request (F : Type) where
  operation : Operation F
  now : ℤ
  fault : Option String := none

/-- The change that a request asks for. -/
def Session.change (session : Session F) (request : Request F) : Change F Bool :=
  request.operation.update f session.manager request.now

/-- The session after an operation, if the operation succeeds. -/
def Session.perform (session : Session F) (request : Request F) : Option (Session F) :=
  match session.withStateUpdate f request.fault (session.change f request) with
  | (.ok true, next) => some next
  | _ => none

/-- The session after a sequence of operations that all succeed. -/
def Session.performAll : Session F → List (Request F) → Option (Session F)
  | session, [] => some session
  | session, request :: requests => do
    let next ← session.perform f request
    next.performAll requests

end SolarisMesh.Resource
