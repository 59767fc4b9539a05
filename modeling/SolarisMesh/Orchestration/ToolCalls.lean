import SolarisMesh.Lib.Batch

/-!
# One round of tool calls

The two loops that answer the tool calls of a message: one asks a confirmer, the other a
host. Concurrency-safe calls are deferred into a batch that runs at the next flush; a call
whose outcome is unknown stops the round. What the rest of the runtime answers for a call
(recovery, permissions, approvals, hooks, the execution itself) comes with the call.

Protocol events for the host are left out. The rounds that ran are recorded beside the
results, to say what was run when.
-/

namespace SolarisMesh.Orchestration

open Lib

/-- `ToolResultStatus`. -/
inductive ToolStatus where
  | executed | cacheHit | noop | denied | failed | aborted | timeout | outcomeUnknown
deriving DecidableEq, Repr

def ToolStatus.isError : ToolStatus → Bool
  | .denied | .failed | .aborted | .timeout | .outcomeUnknown => true
  | .executed | .cacheHit | .noop => false

def ToolStatus.fromLegacyIsError (isError : Bool) : ToolStatus :=
  if isError then .failed else .executed

/-- `ContentBlock::ToolResult`. -/
structure ToolResult where
  toolUseId : String
  content : String
  isError : Bool
deriving DecidableEq, Repr

inductive PermissionDecision where
  | allow | autoReview | ask | deny
deriving DecidableEq, Repr

inductive ConfirmResult where
  | approvedOnce | approvedAlways | denied | quit
deriving DecidableEq, Repr

inductive ToolApprovalResult where
  | approved
  | denied (reason : String)
deriving DecidableEq, Repr

/-! ## Durable outcomes -/

/-- The stored output of an effect, as JSON decoding finds it. -/
inductive StoredOutput (M D : Type) where
  /-- Not JSON, or of no known schema. -/
  | legacy (content : String)
  | invalid (error : String)
  | v1 (content : String) (isError : Bool) (status : ToolStatus) (modifier : Option M)
      (metadata : Option D)

structure DurableToolOutcome (M D : Type) where
  content : String
  isError : Bool
  status : ToolStatus
  modifier : Option M
  metadata : Option D
  isLegacy : Bool

variable {M D : Type}

namespace DurableToolOutcome

def decode (output : StoredOutput M D) (legacyIsError : Bool) :
    Except String (DurableToolOutcome M D) :=
  match output with
  | .legacy content =>
    .ok ⟨content, legacyIsError, .fromLegacyIsError legacyIsError, none, none, true⟩
  | .invalid error => .error ("durable tool outcome is invalid: " ++ error)
  | .v1 content isError status modifier metadata =>
    if isError ≠ legacyIsError || status.isError ≠ isError then
      .error "durable tool outcome status conflicts with its effect record"
    else .ok ⟨content, isError, status, modifier, metadata, false⟩

def replayStatus (outcome : DurableToolOutcome M D) : ToolStatus :=
  if outcome.isError then outcome.status else .cacheHit

end DurableToolOutcome

inductive EffectRecoveryDecision (M D : Type) where
  | execute
  | reuse (isError : Bool) (output : StoredOutput M D)
  | reconcile (reason : String)

/-! ## Executions -/

/-- Why an approved call was not run. -/
inductive Refusal where
  | missingApproval
  | budget (reason : String)
  | revalidation (reason : String)
  | disappeared (tool : String)
  | preparation (reason : String)
  | implementationChanged
  | intent (error : String)
deriving DecidableEq, Repr

def Refusal.message : Refusal → String
  | .missingApproval => "missing approved effect request before execution"
  | .budget reason => "effect resource budget denied: " ++ reason
  | .revalidation reason => reason
  | .disappeared tool => s!"tool {tool} disappeared before execution"
  | .preparation reason => reason
  | .implementationChanged => "prepared tool implementation changed after recovery validation"
  | .intent error => "failed to persist effect intent: " ++ error

def Refusal.status : Refusal → ToolStatus
  | .missingApproval | .disappeared _ | .intent _ => .failed
  | .budget _ | .revalidation _ | .preparation _ | .implementationChanged => .denied

inductive OutcomePersistence where
  | committed
  | outcomeUnknown
  | failed (error : String)
deriving DecidableEq, Repr

inductive Execution (M D : Type) where
  | refused (refusal : Refusal)
  | ran (content : String) (isError : Bool) (modifier : Option M) (status : ToolStatus)
      (metadata : Option D) (persistence : OutcomePersistence)

/-- What the loop reads of a registered tool. -/
structure RegisteredTool where
  isConcurrencySafe : Bool
  /-- The call would change the context or the skill hooks. -/
  changesContext : Bool
deriving DecidableEq, Repr

/-- A tool call and what the runtime answers for it. -/
structure ToolUse (M D : Type) where
  id : String
  name : String
  tool : Option RegisteredTool
  exactEffectIntentExists : Except String Bool
  prepareToolEffect : Except String Unit
  recovery : Except String (EffectRecoveryDecision M D)
  preHookHistory : Except String Unit
  postHooks : Except String Unit
  evaluation : PermissionDecision
  evaluationReason : String
  recordDecision : Except String Unit
  /-- `none` when the confirmer's lock is poisoned. -/
  confirmation : Option ConfirmResult
  legacyAllowed : Bool
  /-- `none` when the request was cancelled. -/
  hostApproval : Option ToolApprovalResult
  sessionFence : Except String Unit
  issueLease : Except String Unit
  approvedEvaluation : PermissionDecision
  recordApproved : Except String Unit
  /-- The error of a pre-tool hook, and whether its outcome is unknown. -/
  preToolGuard : Option (String × Bool)
  execution : Execution M D

/-- A block of the message; only tool calls are answered. -/
inductive ContentBlock (M D : Type) where
  | toolUse (call : ToolUse M D)
  | other

inductive ExecutionControl where
  | quit
deriving DecidableEq, Repr

/-! ## The round -/

/-- How one call ends: the tuple that the executions return. -/
structure CallOutcome (M D : Type) where
  block : ToolResult
  modifier : Option M
  status : ToolStatus
  metadata : Option D

/-- The state of one round. The source does not have `rounds`: it records what ended
together, in the order in which it ended. -/
structure ToolRound (M D : Type) where
  results : List ToolResult
  modifiers : List (Option M)
  statuses : List ToolStatus
  /-- In insertion order: the last entry of a key counts. -/
  metadata : List (String × D)
  pendingSafe : List (ToolUse M D)
  stopAfterUnknown : Bool
  rounds : List (List (Batch.Entry String))

def permissionErrorResult (id content : String) : ToolResult := ⟨id, content, true⟩

def skippedAfterReconciliation (id : String) : ToolResult :=
  permissionErrorResult id
    "Tool call skipped because an earlier call in this round requires reconciliation"

def postHookOutcomeUnknown (id error : String) : CallOutcome M D :=
  ⟨permissionErrorResult id
    ("tool outcome was saved, but a post-tool hook requires reconciliation: " ++ error),
    none, .outcomeUnknown, none⟩

namespace ToolUse

def unavailableToolRecovery (call : ToolUse M D) (reason : String) : String × ToolStatus :=
  match call.exactEffectIntentExists with
  | .ok false => (reason, .failed)
  | .ok true =>
    (reason ++ "; a durable intent already exists for this call and requires reconciliation",
      .outcomeUnknown)
  | .error error =>
    (reason ++ "; durable effect history could not be verified: " ++ error, .outcomeUnknown)

/-- The tool itself was run. -/
def executes (call : ToolUse M D) : Bool :=
  match call.execution with
  | .refused _ => false
  | .ran .. => true

def executeSingleWithEffectContext (call : ToolUse M D) : CallOutcome M D :=
  match call.execution with
  | .refused refusal => ⟨permissionErrorResult call.id refusal.message, none, refusal.status, none⟩
  | .ran content isError modifier status metadata persistence =>
    match persistence with
    | .committed => ⟨⟨call.id, content, isError⟩, modifier, status, metadata⟩
    | .outcomeUnknown => ⟨⟨call.id, content, isError⟩, none, .outcomeUnknown, metadata⟩
    | .failed error =>
      ⟨permissionErrorResult call.id
        ("tool executed but effect outcome persistence failed; reconciliation required: " ++ error),
        none, .outcomeUnknown, metadata⟩

/-- The execution of an approved call with its post-tool hooks. -/
def outcome (call : ToolUse M D) : CallOutcome M D :=
  let outcome := call.executeSingleWithEffectContext
  match outcome.status, call.postHooks with
  | .outcomeUnknown, _ => outcome
  | _, .error error => postHookOutcomeUnknown call.id error
  | _, .ok () => outcome

end ToolUse

namespace CallOutcome

def isUnknown (outcome : CallOutcome M D) : Bool := outcome.status == .outcomeUnknown

/-- What the rounds record of a call. -/
def entry (outcome : CallOutcome M D) (ran : Bool) : Batch.Entry String :=
  ⟨outcome.block.toolUseId, outcome.isUnknown, ran⟩

end CallOutcome

namespace ToolRound

def new : ToolRound M D := ⟨[], [], [], [], [], false, []⟩

variable (round : ToolRound M D) (call : ToolUse M D) (concurrencySafe : Bool)

def push (outcome : CallOutcome M D) : ToolRound M D :=
  { round with
    results := round.results ++ [outcome.block]
    modifiers := round.modifiers ++ [outcome.modifier]
    statuses := round.statuses ++ [outcome.status]
    metadata := round.metadata ++
      (outcome.metadata.map fun metadata => (outcome.block.toolUseId, metadata)).toList }

/-- A call that ends on its own. -/
def conclude (outcome : CallOutcome M D) (ran : Bool) : ToolRound M D :=
  { round.push outcome with rounds := round.rounds ++ [[outcome.entry ran]] }

/-- `flush_concurrency_safe_calls`: the batch runs together and is answered in its order. -/
def flushSafe : ToolRound M D :=
  match round.pendingSafe with
  | [] => round
  | calls =>
    let flushed := calls.foldl (fun round call => round.push call.outcome) round
    { flushed with
      pendingSafe := []
      stopAfterUnknown := round.stopAfterUnknown || calls.any (·.outcome.isUnknown)
      rounds := round.rounds ++ [calls.map fun call => call.outcome.entry call.executes] }

def skip : ToolRound M D :=
  round.conclude ⟨skippedAfterReconciliation call.id, none, .aborted, none⟩ false

/-- The call is answered with an error and stops the round when the status is unknown. -/
def answer (content : String) (status : ToolStatus) : ToolRound M D :=
  { round.conclude ⟨permissionErrorResult call.id content, none, status, none⟩ false with
    stopAfterUnknown := round.stopAfterUnknown || status == .outcomeUnknown }

def reject (content : String) (status : ToolStatus) : ToolRound M D :=
  round.flushSafe.answer call content status

def unavailable (reason : String) : ToolRound M D :=
  let (reason, status) := call.unavailableToolRecovery reason
  round.reject call reason status

/-- A call that is run at once. -/
def execute : ToolRound M D :=
  { round.conclude call.outcome call.executes with
    stopAfterUnknown := round.stopAfterUnknown || call.outcome.isUnknown }

/-- A durable outcome is found for the call. -/
def reuse (isError : Bool) (output : StoredOutput M D) : ToolRound M D :=
  let round := round.flushSafe
  if round.stopAfterUnknown then round.skip call
  else
    match call.preHookHistory with
    | .error error =>
      round.answer call
        ("tool outcome was saved, but pre-tool hook history requires reconciliation: " ++ error)
        .outcomeUnknown
    | .ok () =>
      match DurableToolOutcome.decode output isError with
      | .error reason => round.answer call reason .outcomeUnknown
      | .ok recovered =>
        if recovered.isLegacy && call.tool.any (·.changesContext) then
          round.answer call
            "legacy durable tool outcome cannot restore context state safely; reconciliation is required"
            .outcomeUnknown
        else
          match call.postHooks with
          | .error error =>
            { round.conclude (postHookOutcomeUnknown call.id error) false with
              stopAfterUnknown := true }
          | .ok () =>
            -- the recovered status does not stop the round, whatever it is
            round.conclude ⟨⟨call.id, recovered.content, recovered.isError⟩, recovered.modifier,
              recovered.replayStatus, recovered.metadata⟩ false

/-- The end of an allowed call: pre-tool hooks, then the batch or the execution. -/
def proceed : ToolRound M D :=
  match call.preToolGuard with
  | some (error, isOutcomeUnknown) =>
    round.reject call ("Blocked by hook: " ++ error)
      (if isOutcomeUnknown then .outcomeUnknown else .denied)
  | none =>
    if concurrencySafe then { round with pendingSafe := round.pendingSafe ++ [call] }
    else round.execute call

/-- An approval is turned into a capability lease and evaluated again. -/
def approve : ToolRound M D :=
  match call.issueLease with
  | .error error => round.reject call ("failed to persist capability lease: " ++ error) .failed
  | .ok () =>
    match call.recordApproved with
    | .error error => round.reject call ("failed to persist approved decision: " ++ error) .failed
    | .ok () =>
      if call.approvedEvaluation ≠ .allow then
        round.reject call "approved lease did not satisfy current permission policy" .denied
      else round.proceed call concurrencySafe

/-- The confirmer is asked. -/
def confirm : Except ExecutionControl (ToolRound M D) :=
  match call.confirmation with
  | none => .ok (round.answer call "tool confirmation state unavailable" .failed)
  | some .approvedOnce | some .approvedAlways => .ok (round.approve call concurrencySafe)
  | some .denied => .ok (round.reject call "Tool execution denied by user" .denied)
  | some .quit => .error .quit

/-- The host is asked, unless the tool is allowed anyway. -/
def requestApproval : Except ExecutionControl (ToolRound M D) :=
  match if call.legacyAllowed then some .approved else call.hostApproval with
  | none => .error .quit
  | some (.denied reason) => .ok (round.reject call ("Tool denied: " ++ reason) .denied)
  | some .approved =>
    match call.sessionFence with
    | .error error =>
      .ok (round.reject call ("session lease expired while waiting for approval: " ++ error)
        .aborted)
    | .ok () => .ok (round.approve call concurrencySafe)

/-- The part of the loop body that both loops share, from the preparation of the effect on;
`ask` is how each of them asks for an approval. -/
def takeUp (ask : ToolRound M D → ToolUse M D → Bool → Except ExecutionControl (ToolRound M D))
    (round : ToolRound M D) (call : ToolUse M D) (concurrencySafe : Bool) :
    Except ExecutionControl (ToolRound M D) :=
  match call.prepareToolEffect with
  | .error reason => .ok (round.unavailable call reason)
  | .ok () =>
    match call.recovery with
    | .error reason | .ok (.reconcile reason) => .ok (round.reject call reason .outcomeUnknown)
    | .ok (.reuse isError output) => .ok (round.reuse call isError output)
    | .ok .execute =>
      match call.recordDecision with
      | .error error =>
        .ok (round.reject call ("failed to persist permission decision: " ++ error) .failed)
      | .ok () =>
        match call.evaluation with
        | .deny => .ok (round.reject call call.evaluationReason .denied)
        | .ask | .autoReview => ask round.flushSafe call concurrencySafe
        | .allow => .ok (round.proceed call concurrencySafe)

/-- A call that is not concurrency-safe flushes the batch first, and is skipped when that
stops the round. -/
def enter (ask : ToolRound M D → ToolUse M D → Bool → Except ExecutionControl (ToolRound M D))
    (round : ToolRound M D) (call : ToolUse M D) (concurrencySafe : Bool) :
    Except ExecutionControl (ToolRound M D) :=
  if concurrencySafe then round.takeUp ask call true
  else
    let round := round.flushSafe
    if round.stopAfterUnknown then .ok (round.skip call) else round.takeUp ask call false

def policyCall : Except ExecutionControl (ToolRound M D) :=
  if round.stopAfterUnknown then .ok (round.skip call)
  else
    match call.tool with
    | none => .ok (round.unavailable call ("Unknown tool: " ++ call.name))
    | some tool => round.enter confirm call tool.isConcurrencySafe

def approvalCall : Except ExecutionControl (ToolRound M D) :=
  if round.stopAfterUnknown then .ok (round.skip call)
  else round.enter requestApproval call (call.tool.any (·.isConcurrencySafe))

/-- The loop over the blocks of the message, with the flush at its end. -/
def loop (body : ToolRound M D → ToolUse M D → Except ExecutionControl (ToolRound M D))
    (blocks : List (ContentBlock M D)) : Except ExecutionControl (ToolRound M D) := do
  let round ← blocks.foldlM (fun round block =>
    match block with
    | .toolUse call => body round call
    | .other => .ok round) new
  return round.flushSafe

end ToolRound

variable (blocks : List (ContentBlock M D))

/-- The round at the end holds the fields of `ToolCallOutcome`. -/
def executeToolCallsWithPolicyContext : Except ExecutionControl (ToolRound M D) :=
  ToolRound.loop ToolRound.policyCall blocks

def executeToolCallsWithApprovalContext : Except ExecutionControl (ToolRound M D) :=
  ToolRound.loop ToolRound.approvalCall blocks

/-- The tool calls of a message. -/
def toolUses : List (ToolUse M D) :=
  blocks.filterMap fun
    | .toolUse call => some call
    | .other => none

end SolarisMesh.Orchestration
