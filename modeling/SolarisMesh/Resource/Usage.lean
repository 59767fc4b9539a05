import Mathlib.Data.Finset.Basic
import SolarisMesh.Lib.Checked
import SolarisMesh.Orchestration.ToolCalls

/-!
# What the resource manager keeps

Budgets, provider signals, cumulative usage and the provider's rate window, with the
functions that account a model response or a round of tool calls. Floating-point numbers
are a type `F` with the operations the code uses on them; equality on `F` is `==`. The text of a
number need not read back as the number.
-/

namespace SolarisMesh.Resource

open Lib Orchestration

/-- The floating-point operations of the resource manager. -/
structure F64 (F : Type) where
  zero : F
  add : F → F → F
  le : F → F → Bool
  /-- `tokens as f64 * rate` -/
  priced : ℕ → F → F
  /-- Division by one million. -/
  perMillion : F → F
  /-- `a as f64 / b as f64` -/
  ratio : ℕ → ℕ → F
  costEpsilon : F → F
  /-- Printing with six decimals. -/
  fixed6 : F → String
  /-- What the JSON text of a number reads back as. -/
  reread : F → F

structure ResourceBudget (F : Type) where
  maxActiveAgents : Option ℕ := none
  maxConcurrentEffects : Option ℕ := none
  maxSpawnDepth : Option ℕ := none
  maxTotalDescendantsPerRun : Option ℕ := none
  maxTurns : Option ℕ := none
  maxTokens : Option ℕ := none
  maxWallTimeMs : Option ℕ := none
  maxCost : Option F := none
  maxProcessOutputBytes : Option ℕ := none
deriving DecidableEq

def minActiveAgents : ℕ := 1
def maxActiveAgents : ℕ := 64
def defaultMaxActiveAgents : ℕ := 8
def minDefaultActiveAgents : ℕ := 2

structure TokenUsage where
  inputTokens : ℕ := 0
  outputTokens : ℕ := 0
  cacheCreationTokens : ℕ := 0
  cacheReadTokens : ℕ := 0

/-! ## Provider signals -/

inductive CacheTokenAccounting where
  | includedInInput | separateFromInput
deriving DecidableEq, Repr

structure ProviderSignals (F : Type) where
  concurrencyHint : Option ℕ := none
  requestsPerMinute : Option ℕ := none
  tokensPerMinute : Option ℕ := none
  cacheTokenAccounting : Option CacheTokenAccounting := none
  inputCostPerMillion : Option F := none
  cacheReadCostPerMillion : Option F := none
  cacheWriteCostPerMillion : Option F := none
  outputCostPerMillion : Option F := none
deriving DecidableEq

structure CategorizedTokenUsage where
  uncachedInputTokens : ℕ
  cacheReadTokens : ℕ
  cacheWriteTokens : ℕ
  outputTokens : ℕ

def CategorizedTokenUsage.totalTokens (c : CategorizedTokenUsage) : ℕ :=
  u64SaturatingAdd
    (u64SaturatingAdd (u64SaturatingAdd c.uncachedInputTokens c.cacheReadTokens)
      c.cacheWriteTokens)
    c.outputTokens

variable {F : Type} (f : F64 F)

namespace ProviderSignals

def categorizeUsage (signals : ProviderSignals F) (usage : TokenUsage) : CategorizedTokenUsage where
  uncachedInputTokens :=
    match signals.cacheTokenAccounting.getD .includedInInput with
    | .includedInInput =>
      usage.inputTokens - u64SaturatingAdd usage.cacheReadTokens usage.cacheCreationTokens
    | .separateFromInput => usage.inputTokens
  cacheReadTokens := usage.cacheReadTokens
  cacheWriteTokens := usage.cacheCreationTokens
  outputTokens := usage.outputTokens

def pricedTokens (tokens : ℕ) (ratePerMillion : Option F) : Option F :=
  if tokens = 0 then some f.zero else ratePerMillion.map (f.priced tokens)

/-- The cost of one response; unknown if a category in use has no price. -/
def usageCost (signals : ProviderSignals F) (usage : TokenUsage) : Option F := do
  let categorized := signals.categorizeUsage usage
  let input ← pricedTokens f categorized.uncachedInputTokens signals.inputCostPerMillion
  let cacheRead ← pricedTokens f categorized.cacheReadTokens signals.cacheReadCostPerMillion
  let cacheWrite ← pricedTokens f categorized.cacheWriteTokens signals.cacheWriteCostPerMillion
  let output ← pricedTokens f categorized.outputTokens signals.outputCostPerMillion
  some (f.perMillion (f.add (f.add (f.add input cacheRead) cacheWrite) output))

end ProviderSignals

/-! ## Cumulative usage -/

structure ResourceUsage (F : Type) where
  activeAgents : ℕ
  concurrentEffects : ℕ
  totalDescendants : ℕ
  turns : ℕ
  tokens : ℕ
  uncachedInputTokens : ℕ
  inputTokens : ℕ
  outputTokens : ℕ
  cacheCreationTokens : ℕ
  cacheReadTokens : ℕ
  toolCalls : ℕ
  usefulToolCalls : ℕ
  usefulCallRate : Option F
  duplicateToolCalls : ℕ
  duplicateCallRate : Option F
  seenToolCallFingerprints : Finset String
  cost : F
  costKnown : Bool
deriving DecidableEq

namespace ResourceUsage

/-- `ResourceUsage::default`. -/
def fresh : ResourceUsage F where
  activeAgents := 0
  concurrentEffects := 0
  totalDescendants := 0
  turns := 0
  tokens := 0
  uncachedInputTokens := 0
  inputTokens := 0
  outputTokens := 0
  cacheCreationTokens := 0
  cacheReadTokens := 0
  toolCalls := 0
  usefulToolCalls := 0
  usefulCallRate := none
  duplicateToolCalls := 0
  duplicateCallRate := none
  seenToolCallFingerprints := ∅
  cost := f.zero
  costKnown := true

def callRate (part total : ℕ) : Option F :=
  if total = 0 then none else some (f.ratio part total)

variable (usage : ResourceUsage F)

def refreshUsefulCallRate : ResourceUsage F :=
  { usage with usefulCallRate := callRate f usage.usefulToolCalls usage.toolCalls }

def refreshDuplicateCallRate : ResourceUsage F :=
  { usage with duplicateCallRate := callRate f usage.duplicateToolCalls usage.toolCalls }

def refreshCallRates : ResourceUsage F :=
  (usage.refreshUsefulCallRate f).refreshDuplicateCallRate f

/-- The counters after one model response (`apply_model_usage_state`). -/
def applyModelUsage (signals : ProviderSignals F) (response : TokenUsage) (countTurn : Bool) :
    ResourceUsage F :=
  let categorized := signals.categorizeUsage response
  let cost := signals.usageCost f response
  { usage with
    tokens := u64SaturatingAdd usage.tokens categorized.totalTokens
    uncachedInputTokens :=
      u64SaturatingAdd usage.uncachedInputTokens categorized.uncachedInputTokens
    inputTokens := u64SaturatingAdd usage.inputTokens response.inputTokens
    outputTokens := u64SaturatingAdd usage.outputTokens response.outputTokens
    cacheCreationTokens :=
      u64SaturatingAdd usage.cacheCreationTokens response.cacheCreationTokens
    cacheReadTokens := u64SaturatingAdd usage.cacheReadTokens response.cacheReadTokens
    cost := match cost with
      | some cost => f.add usage.cost cost
      | none => usage.cost
    costKnown := usage.costKnown && cost.isSome
    turns := if countTurn then u64SaturatingAdd usage.turns 1 else usage.turns }

end ResourceUsage

/-- `ToolCallStat`. -/
structure ToolCallStat where
  fingerprint : String
  status : ToolStatus

def ToolCallStat.isUsefulCall (call : ToolCallStat) : Bool :=
  match call.status with
  | .executed | .cacheHit => true
  | .noop | .denied | .failed | .aborted | .timeout | .outcomeUnknown => false

/-- The fingerprints seen after a round, and how many of its calls repeat an earlier one. -/
def observeCalls (seen : Finset String) : List ToolCallStat → Finset String × ℕ
  | [] => (seen, 0)
  | call :: calls =>
    let rest := observeCalls (insert call.fingerprint seen) calls
    if call.fingerprint ∈ seen then (rest.1, u64SaturatingAdd rest.2 1) else rest

/-- The counters after one round of tool calls. -/
def ResourceUsage.applyToolCalls (usage : ResourceUsage F) (calls : List ToolCallStat) :
    ResourceUsage F :=
  let observed := observeCalls usage.seenToolCallFingerprints calls
  refreshCallRates f
    { usage with
      seenToolCallFingerprints := observed.1
      toolCalls := u64SaturatingAdd usage.toolCalls (min u64Max calls.length)
      usefulToolCalls :=
        u64SaturatingAdd usage.usefulToolCalls
          (min u64Max (calls.filter ToolCallStat.isUsefulCall).length)
      duplicateToolCalls := u64SaturatingAdd usage.duplicateToolCalls observed.2 }

/-! ## The provider's rate window -/

structure ProviderRateWindow where
  startedAtUnixMs : ℤ := 0
  requests : ℕ := 0
  reservedRequests : ℕ := 0
  tokens : ℕ := 0
  reservedTokens : ℕ := 0
  unstartedReservedTokens : ℕ := 0
deriving DecidableEq, Repr

namespace ProviderRateWindow

def windowMs : ℤ := 60000

variable (window : ProviderRateWindow) (signals : ProviderSignals F)

/-- The window has run for a minute. -/
def isOver (now : ℤ) : Bool :=
  windowMs ≤ i64SaturatingSub now window.startedAtUnixMs

/-- No window is open at `now`. -/
def needsStart (now : ℤ) : Bool :=
  window.startedAtUnixMs == 0 || window.isOver now

def requestRateExhausted : Bool :=
  signals.requestsPerMinute.any fun limit =>
    limit ≤ u64SaturatingAdd window.requests window.reservedRequests

def tokenRateExhausted (tokens : ℕ) : Bool :=
  signals.tokensPerMinute.any fun limit => limit < u64SaturatingAdd window.tokens tokens

/-! ### What permits do to it -/

variable (tokens : ℕ)

def reserve : ProviderRateWindow :=
  { window with
    reservedRequests := u64SaturatingAdd window.reservedRequests 1
    tokens := u64SaturatingAdd window.tokens tokens
    reservedTokens := u64SaturatingAdd window.reservedTokens tokens
    unstartedReservedTokens := u64SaturatingAdd window.unstartedReservedTokens tokens }

def begin : ProviderRateWindow :=
  { window with
    reservedRequests := window.reservedRequests - 1
    requests := u64SaturatingAdd window.requests 1
    unstartedReservedTokens := window.unstartedReservedTokens - tokens }

/-- A reservation of an earlier window is started in this one. -/
def beginLater : ProviderRateWindow :=
  { window with
    requests := u64SaturatingAdd window.requests 1
    tokens := u64SaturatingAdd window.tokens tokens
    reservedTokens := u64SaturatingAdd window.reservedTokens tokens }

def rollback : ProviderRateWindow :=
  { window with
    requests := window.requests - 1
    reservedRequests := u64SaturatingAdd window.reservedRequests 1
    unstartedReservedTokens := u64SaturatingAdd window.unstartedReservedTokens tokens }

/-- A started permit ends. -/
def settle (actual : Option ℕ) : ProviderRateWindow :=
  { window with
    tokens := actual.elim (window.tokens - tokens) (u64SaturatingAdd (window.tokens - tokens))
    reservedTokens := window.reservedTokens - tokens }

/-- A reserved permit ends. -/
def release : ProviderRateWindow :=
  { window with
    reservedRequests := window.reservedRequests - 1
    tokens := window.tokens - tokens
    reservedTokens := window.reservedTokens - tokens
    unstartedReservedTokens := window.unstartedReservedTokens - tokens }

end ProviderRateWindow

end SolarisMesh.Resource
