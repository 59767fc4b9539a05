import SolarisMesh.Resource.Usage

/-!
# Operations of the resource manager

Each operation is the update that the manager runs under its lock: from the state before to
a result, the state after, and whether the state has to be persisted. `now` is what the
clock answers.
-/

namespace SolarisMesh.Resource

open Lib

/-- `ResourceStateSnapshot`: what the operations change. -/
structure ResourceState (F : Type) where
  budget : ResourceBudget F
  providerSignals : ProviderSignals F
  usage : ResourceUsage F
  deadlineUnixMs : Option ℤ
  providerRate : ProviderRateWindow
  appliedUsageEffects : Finset String
deriving DecidableEq

/-- `ResourceManager`, without its locks and the handle of its ledger. -/
structure Manager (F : Type) where
  state : ResourceState F
  systemParallelismHint : ℕ
  persistenceError : Option String
  resourceDeltasSinceSnapshot : ℕ

/-- What an update hands back: `(result, changed)` and the state it leaves. -/
structure Change (F R : Type) where
  result : R
  changed : Bool
  state : ResourceState F

variable {F R : Type} (f : F64 F)

/-- The deadline of a wall-time budget that starts at `now`. -/
def deadlineFrom (budget : ResourceBudget F) (now : ℤ) : Option ℤ :=
  budget.maxWallTimeMs.map fun limit => i64SaturatingAdd now (min i64Max limit)

namespace Manager

/-- `new_with_clock_and_parallelism_hint`. -/
def new (budget : ResourceBudget F) (now : ℤ) (systemParallelismHint : ℕ) : Manager F where
  state :=
    { budget
      providerSignals := {}
      usage := .fresh f
      deadlineUnixMs := deadlineFrom budget now
      providerRate := {}
      appliedUsageEffects := ∅ }
  systemParallelismHint := max systemParallelismHint 1
  persistenceError := none
  resourceDeltasSinceSnapshot := 0

variable (manager : Manager F) (now : ℤ)

/-- The update has nothing to persist. -/
def refuse (result : R) : Change F R := ⟨result, false, manager.state⟩

/-! ## Limits -/

def effectiveAgentLimit : ℕ :=
  match manager.state.budget.maxActiveAgents with
  | none => max minDefaultActiveAgents (min defaultMaxActiveAgents manager.systemParallelismHint)
  | some limit => max minActiveAgents (min maxActiveAgents limit)

def turnBudgetReason (usage : ResourceUsage F) (limit : Option ℕ) : Option String :=
  (limit.filter (· ≤ usage.turns)).map fun limit =>
    s!"run turn budget exhausted ({usage.turns}/{limit})"

def deadlineReason (deadline : Option ℤ) : Option String :=
  (deadline.filter (· ≤ now)).map fun deadline =>
    s!"run wall-time budget exhausted at unix deadline {deadline}"

def tokenBudgetReason (usage : ResourceUsage F) (limit : Option ℕ) : Option String :=
  (limit.filter (· ≤ usage.tokens)).map fun limit =>
    s!"run token budget exhausted ({usage.tokens}/{limit})"

def costBudgetReason (usage : ResourceUsage F) (limit : Option F) : Option String :=
  if limit.isSome && !usage.costKnown then
    some "run cost is unknown because provider pricing is incomplete"
  else
    (limit.filter fun limit => f.le limit usage.cost).map fun limit =>
      let cost := f.fixed6 usage.cost
      let limit := f.fixed6 limit
      s!"run cost budget exhausted ({cost}/{limit})"

def hardRuntimeBudgetReason : Option String :=
  let state := manager.state
  match manager.persistenceError with
  | some error => some s!"resource checkpoint persistence failed: {error}"
  | none =>
    (turnBudgetReason state.usage state.budget.maxTurns)
      <|> (deadlineReason now state.deadlineUnixMs)
      <|> (tokenBudgetReason state.usage state.budget.maxTokens)
      <|> (costBudgetReason f state.usage state.budget.maxCost)

def spawnDepthBlockReason (depth : ℕ) : Option String :=
  (manager.state.budget.maxSpawnDepth.filter (· < depth)).map fun limit =>
    s!"spawn depth {depth} exceeds configured safety budget {limit}"

def descendantBlockReason : Option String :=
  let total := manager.state.usage.totalDescendants
  match manager.state.budget.maxTotalDescendantsPerRun.filter (· ≤ total) with
  | some limit => some s!"run descendant budget exhausted ({total}/{limit})"
  | none =>
    if total = u64Max then some "run descendant counter exhausted at usize::MAX" else none

def hardAgentBlockReason (depth : ℕ) : Option String :=
  manager.spawnDepthBlockReason depth
    <|> manager.descendantBlockReason
    <|> manager.hardRuntimeBudgetReason f now

def hardReattachedAgentBlockReason (depth : ℕ) : Option String :=
  manager.spawnDepthBlockReason depth <|> manager.hardRuntimeBudgetReason f now

/-! ## Settings -/

def setBudget (budget : ResourceBudget F) : Change F Unit where
  result := ()
  changed := true
  state :=
    { manager.state with
      budget
      deadlineUnixMs :=
        if manager.state.budget.maxWallTimeMs = budget.maxWallTimeMs then
          manager.state.deadlineUnixMs
        else deadlineFrom budget now }

def setProviderSignals (providerSignals : ProviderSignals F) : Change F Unit :=
  ⟨(), true, { manager.state with providerSignals }⟩

/-! ## Permits for agents and effects -/

def tryAcquireAgent (depth : ℕ) : Change F Bool :=
  let usage := manager.state.usage
  if (manager.hardAgentBlockReason f now depth).isSome then manager.refuse false
  else if manager.effectiveAgentLimit ≤ usage.activeAgents then manager.refuse false
  else
    match u64CheckedAdd usage.totalDescendants 1 with
    | none => manager.refuse false
    | some totalDescendants =>
      { result := true
        changed := true
        state := { manager.state with
          usage := { usage with activeAgents := usage.activeAgents + 1, totalDescendants } } }

/-- A reattached agent was counted as a descendant before the restart. -/
def tryAcquireReattachedAgent (depth : ℕ) : Change F Bool :=
  let usage := manager.state.usage
  if (manager.hardReattachedAgentBlockReason f now depth).isSome then manager.refuse false
  else if manager.effectiveAgentLimit ≤ usage.activeAgents then manager.refuse false
  else
    { result := true
      changed := false
      state := { manager.state with
        usage := { usage with activeAgents := usage.activeAgents + 1 } } }

def tryAcquireEffect : Change F Bool :=
  let usage := manager.state.usage
  if (manager.hardRuntimeBudgetReason f now).isSome then manager.refuse false
  else if manager.state.budget.maxConcurrentEffects.any fun limit =>
      max limit 1 ≤ usage.concurrentEffects then manager.refuse false
  else
    { result := true
      changed := false
      state := { manager.state with
        usage := { usage with concurrentEffects := usage.concurrentEffects + 1 } } }

def releaseAgent : Change F Unit where
  result := ()
  changed := false
  state := { manager.state with
    usage := { manager.state.usage with activeAgents := manager.state.usage.activeAgents - 1 } }

def releaseEffect : Change F Unit where
  result := ()
  changed := false
  state := { manager.state with
    usage := { manager.state.usage with
      concurrentEffects := manager.state.usage.concurrentEffects - 1 } }

/-! ## The provider's rate window -/

/-- The update leaves `providerRate`. -/
def putWindow (result : R) (changed : Bool) (providerRate : ProviderRateWindow) : Change F R :=
  ⟨result, changed, { manager.state with providerRate }⟩

/-- The window the operation works on: a new one if none is open. -/
def currentWindow : ProviderRateWindow :=
  if manager.state.providerRate.needsStart now then { startedAtUnixMs := now }
  else manager.state.providerRate

def acquireProviderRequest (estimatedTokens : ℕ) : Change F (Except String ℤ) :=
  let signals := manager.state.providerSignals
  let changed := manager.state.providerRate.needsStart now
  let window := manager.currentWindow now
  if window.requestRateExhausted signals then
    let used := u64SaturatingAdd window.requests window.reservedRequests
    let limit := signals.requestsPerMinute.getD 0
    manager.putWindow (.error s!"provider request rate exhausted ({used}/{limit})") changed window
  else if window.tokenRateExhausted signals estimatedTokens then
    let limit := signals.tokensPerMinute.getD 0
    manager.putWindow (.error s!"provider token rate exhausted ({window.tokens}/{limit})")
      changed window
  else
    manager.putWindow (.ok window.startedAtUnixMs) true (window.reserve estimatedTokens)

variable (reservedTokens : ℕ) (windowStartedAtUnixMs : ℤ)

def markProviderRequestStarted (reservedWindowStartedAtUnixMs : ℤ) : Change F (Except String ℤ) :=
  let signals := manager.state.providerSignals
  let window := manager.currentWindow now
  if window.startedAtUnixMs ≠ reservedWindowStartedAtUnixMs then
    if window.requestRateExhausted signals then
      manager.putWindow (.error "provider request rate exhausted while starting reservation")
        true window
    else if window.tokenRateExhausted signals reservedTokens then
      manager.putWindow (.error "provider token rate exhausted while starting reservation")
        true window
    else
      manager.putWindow (.ok window.startedAtUnixMs) true (window.beginLater reservedTokens)
  else if window.reservedRequests = 0 ∨ window.unstartedReservedTokens < reservedTokens then
    -- a window that was opened just now is kept, but not persisted
    manager.putWindow (.error "provider request reservation is no longer active") false window
  else
    manager.putWindow (.ok window.startedAtUnixMs) true (window.begin reservedTokens)

def rollbackProviderRequestStart : Change F (Except String Unit) :=
  let window := manager.state.providerRate
  if window.startedAtUnixMs ≠ windowStartedAtUnixMs then manager.refuse (.ok ())
  else if window.requests = 0 then
    manager.refuse (.error "provider request start is no longer active")
  else
    manager.putWindow (.ok ()) true (window.rollback reservedTokens)

/-- The operations that give tokens back do nothing to a later window. -/
def inWindow (windowStartedAtUnixMs : ℤ)
    (settle : ProviderRateWindow → ProviderRateWindow) : Change F Unit :=
  let window := manager.state.providerRate
  if window.startedAtUnixMs ≠ windowStartedAtUnixMs then manager.refuse ()
  else manager.putWindow () true (settle window)

def commitProviderTokens (actualTokens : ℕ) (windowStartedAtUnixMs : ℤ) : Change F Unit :=
  manager.inWindow windowStartedAtUnixMs (·.settle reservedTokens (some actualTokens))

def releaseProviderTokens : Change F Unit :=
  manager.inWindow windowStartedAtUnixMs (·.settle reservedTokens none)

def releaseProviderReservation : Change F Unit :=
  manager.inWindow windowStartedAtUnixMs (·.release reservedTokens)

/-! ## Usage -/

def withinBudget (budget : ResourceBudget F) (usage : ResourceUsage F) : Bool :=
  budget.maxTurns.all (fun limit => usage.turns ≤ limit) &&
    budget.maxTokens.all (fun limit => usage.tokens ≤ limit) &&
    budget.maxCost.all fun limit =>
      usage.costKnown && f.le usage.cost (f.add limit (f.costEpsilon limit))

/-- `apply_model_usage_state`, with the identifiers that are applied once it is done. -/
def applyModelUsageState (response : TokenUsage) (countTurn : Bool)
    (appliedUsageEffects : Finset String) : Change F Bool :=
  let state := manager.state
  let usage := state.usage.applyModelUsage f state.providerSignals response countTurn
  ⟨withinBudget f state.budget usage, true, { state with usage, appliedUsageEffects }⟩

def recordModelUsage (response : TokenUsage) : Change F Bool :=
  manager.applyModelUsageState f response true manager.state.appliedUsageEffects

def recordModelUsageOnce (effectId : String) (response : TokenUsage) (countTurn : Bool) :
    Change F Bool :=
  if effectId ∈ manager.state.appliedUsageEffects then manager.refuse true
  else
    manager.applyModelUsageState f response countTurn
      (insert effectId manager.state.appliedUsageEffects)

/-- Tool rounds share the set of applied identifiers under a name of their own. -/
def toolRoundEffect (roundCallId : String) : String := "tool-round:" ++ roundCallId

def recordToolCallsOnce (roundCallId : String) (calls : List ToolCallStat) : Change F Unit :=
  let state := manager.state
  if toolRoundEffect roundCallId ∈ state.appliedUsageEffects then manager.refuse ()
  else
    { result := ()
      changed := true
      state := { state with
        usage := state.usage.applyToolCalls f calls
        appliedUsageEffects := insert (toolRoundEffect roundCallId) state.appliedUsageEffects } }

def recordTokensAndCost (tokens : ℕ) (cost : F) : Change F Bool :=
  let state := manager.state
  let usage := { state.usage with
    tokens := u64SaturatingAdd state.usage.tokens tokens
    cost := f.add state.usage.cost cost }
  { result :=
      state.budget.maxTokens.all (fun limit => usage.tokens ≤ limit) &&
        state.budget.maxCost.all fun limit => f.le usage.cost (f.add limit (f.costEpsilon limit))
    changed := true
    state := { state with usage } }

end Manager

end SolarisMesh.Resource
