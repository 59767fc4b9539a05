import SolarisMesh.Lib.Checked
import SolarisMesh.Lib.Machine

/-!
# Durable Agent conversations

The rows the session store keeps for one conversation (`agent_conversations` and
`agent_conversation_turns` under one key) and the transactions over them. Every
transaction is immediate, so it reads and writes the rows in one atomic step; a
transaction that fails is rolled back.

Left out: `updated_at_ms`, which no transaction reads, and the checks of the storage files. The
check before a commit can only make the transaction fail. The one after it can answer with an error
although the rows were written: what is shown of a success then holds of the rows,
not of the answer. -/

namespace SolarisMesh.Session

open Lib

/-- The errors of the conversation transactions. -/
inductive SessionStoreError where
  | invalidConversationInput
  | conversationNotFound
  | conversationIdentityConflict
  | conversationHandleMismatch
  | conversationStateConflict (state : String)
  | conversationRevisionConflict (expected actual : ℤ)
  | conversationRevisionExhausted
  | conversationEpochExhausted
  | conversationTurnInputConflict
  | conversationTurnNotFound
  | conversationStateCorrupt
deriving DecidableEq, Repr

structure ConversationIdentity where
  schemaVersion : ℕ
  runId : String
  parentAgentId : String
  conversationId : String
  agentId : String
  sessionId : String
  taskId : String
  openOperationId : String
  specDigest : String
deriving DecidableEq, Repr

inductive ConversationState where
  | opening | open | closing | closed
deriving DecidableEq, Repr

def ConversationState.asStr : ConversationState → String
  | .opening => "opening"
  | .open => "open"
  | .closing => "closing"
  | .closed => "closed"

structure StoredConversation where
  identity : ConversationIdentity
  state : ConversationState
  revision : ℤ
  openingOwner : Option String
  openingEpoch : ℤ
  openingExpiresAtMs : Option ℤ
  handleJson : Option (List UInt8)
  nextSequence : ℕ
  nextToRun : ℕ
  activeSequence : Option ℕ
  terminalState : Option String
  failureClass : Option String
deriving DecidableEq, Repr

inductive ConversationOpenClaim where
  | owned (revision epoch : ℤ)
  | existing (stored : StoredConversation)
  | busy (stored : StoredConversation)
deriving DecidableEq, Repr

inductive ConversationCloseClaim where
  | started (stored : StoredConversation)
  | existing (stored : StoredConversation)
  | alreadyClosed (stored : StoredConversation)
deriving DecidableEq, Repr

structure ConversationTurnIdentity where
  turnId : String
  operationId : String
  messageId : String
  inputDigest : String
deriving DecidableEq, Repr

inductive ConversationTurnState where
  | queued | admitted | intentCommitted | completed | failed | cancelled | outcomeUnknown
  | reconciliationRequired
deriving DecidableEq, Repr

namespace ConversationTurnState

def isTerminal : ConversationTurnState → Bool
  | .completed | .failed | .cancelled | .outcomeUnknown | .reconciliationRequired => true
  | .queued | .admitted | .intentCommitted => false

def asStr : ConversationTurnState → String
  | .queued => "queued"
  | .admitted => "admitted"
  | .intentCommitted => "intent_committed"
  | .completed => "completed"
  | .failed => "failed"
  | .cancelled => "cancelled"
  | .outcomeUnknown => "outcome_unknown"
  | .reconciliationRequired => "reconciliation_required"

/-- The turn has been handed out and is not settled: `admitted` or `intent_committed`. -/
def inFlight : ConversationTurnState → Bool
  | .admitted | .intentCommitted => true
  | _ => false

end ConversationTurnState

structure StoredConversationTurn where
  identity : ConversationTurnIdentity
  sequence : ℕ
  state : ConversationTurnState
  revision : ℤ
  claimOwner : Option String
  claimExpiresAtMs : Option ℤ
  outcomeJson : Option (List UInt8)
  failureClass : Option String
deriving DecidableEq, Repr

inductive ConversationTurnEnqueue where
  | inserted
  | existing (stored : StoredConversationTurn)
  | blocked (failureClass : String)
deriving DecidableEq, Repr

inductive ConversationTurnClaim where
  | claimed (stored : StoredConversationTurn)
  | pending (stored : StoredConversationTurn)
  | blocked (failureClass : String)
  | intentCommitted (stored : StoredConversationTurn)
  | terminal (stored : StoredConversationTurn)
  | conversationNotOpen (state : ConversationState)
deriving DecidableEq, Repr

structure ConversationTurnCompletion where
  state : ConversationTurnState
  outcomeJson : List UInt8
  failureClass : Option String
  blockFollowingTurns : Bool
deriving DecidableEq, Repr

/-- The rows stored under one conversation key. -/
structure ConversationRows where
  conversation : Option StoredConversation
  turns : List StoredConversationTurn
deriving DecidableEq, Repr

/-- No conversation has been opened under the key. -/
def ConversationRows.empty : ConversationRows := ⟨none, []⟩

/-! ## Validation -/

abbrev Result := Except SessionStoreError

def validateNonempty (value : String) : Result Unit :=
  require (!isBlank value) .invalidConversationInput

def validateIdentity (identity : ConversationIdentity) : Result Unit := do
  require (identity.schemaVersion ≠ 0) .invalidConversationInput
  [identity.runId, identity.parentAgentId, identity.conversationId, identity.agentId,
    identity.sessionId, identity.taskId, identity.openOperationId,
    identity.specDigest].forM validateNonempty

def validateTurnIdentity (identity : ConversationTurnIdentity) : Result Unit :=
  [identity.turnId, identity.operationId, identity.messageId,
    identity.inputDigest].forM validateNonempty

def validateHandle (handleJson : List UInt8) : Result Unit :=
  require (!handleJson.isEmpty) .invalidConversationInput

def validateLeaseDuration (leaseDurationMs : ℤ) : Result Unit :=
  require (0 < leaseDurationMs) .invalidConversationInput

def requireIdentity (stored : StoredConversation) (requested : ConversationIdentity) :
    Result Unit :=
  require (stored.identity = requested) .conversationIdentityConflict

def requireHandle (stored : StoredConversation) (requested : List UInt8) : Result Unit :=
  require (stored.handleJson = some requested) .conversationHandleMismatch

def requireTurnIdentity (stored : StoredConversationTurn)
    (requested : ConversationTurnIdentity) : Result Unit :=
  require (stored.identity = requested) .conversationTurnInputConflict

def stateConflict (state : ConversationState) : SessionStoreError :=
  .conversationStateConflict state.asStr

def nextRevision (revision : ℤ) : Result ℤ :=
  orElseThrow .conversationRevisionExhausted (i64CheckedAdd revision 1)

def nextEpoch (epoch : ℤ) : Result ℤ :=
  orElseThrow .conversationEpochExhausted (i64CheckedAdd epoch 1)

def openingLeaseExpiry (nowMs leaseDurationMs : ℤ) : Result ℤ :=
  orElseThrow .conversationStateCorrupt (i64CheckedAdd nowMs leaseDurationMs)

/-- Sequences are `u64` in the program and `INTEGER` columns in the store. -/
def u64ToSql (value : ℕ) : Result Unit :=
  require (value ≤ i64Max.toNat) .conversationStateCorrupt

def followingSequence (sequence : ℕ) : Result ℕ :=
  orElseThrow .conversationStateCorrupt (u64CheckedAdd sequence 1)

/-! ## Row access -/

/-- The consistency test of `parse_conversation_row`. -/
def StoredConversation.parses (row : StoredConversation) : Bool :=
  row.openingEpoch ≠ 0 &&
    if row.state = .opening then
      row.openingOwner.isSome && row.openingExpiresAtMs.isSome && row.handleJson.isNone
    else
      row.openingOwner.isNone && row.openingExpiresAtMs.isNone && row.handleJson.isSome

variable (rows : ConversationRows) (identity : ConversationIdentity) (handleJson : List UInt8)
  (turn : ConversationTurnIdentity)

def queryConversation : Result (Option StoredConversation) :=
  match rows.conversation with
  | none => .ok none
  | some row => do
    require row.parses .conversationStateCorrupt
    return some row

def requireConversation : Result StoredConversation := do
  orElseThrow .conversationNotFound (← queryConversation rows)

def queryTurnById (turnId : String) : Option StoredConversationTurn :=
  rows.turns.find? (·.identity.turnId == turnId)

def requireTurnBySequence (sequence : ℕ) : Result StoredConversationTurn := do
  u64ToSql sequence
  orElseThrow .conversationTurnNotFound (rows.turns.find? (·.sequence == sequence))

/-- `UPDATE agent_conversations SET … WHERE …` on the row of the key, then
`require_changed`. -/
def updateConversation (expectedRevision : ℤ) (condition : StoredConversation → Bool)
    (set : StoredConversation → StoredConversation) : Result ConversationRows :=
  match rows.conversation with
  | none => .error .conversationNotFound
  | some row =>
    if condition row then .ok { rows with conversation := some (set row) }
    else .error (.conversationRevisionConflict expectedRevision row.revision)

/-- `UPDATE agent_conversation_turns SET … WHERE sequence = … AND …`; anything but one
changed row is a revision conflict. -/
def updateTurn (sequence : ℕ) (expectedRevision : ℤ) (condition : StoredConversationTurn → Bool)
    (set : StoredConversationTurn → StoredConversationTurn) : Result ConversationRows := do
  let row ← requireTurnBySequence rows sequence
  require (condition row) (.conversationRevisionConflict expectedRevision row.revision)
  return { rows with turns := rows.turns.map fun t => if t.sequence = sequence then set t else t }

/-! ## Opening -/

/-- Extends the opening lease if owner, epoch and revision still match. -/
def renewOpeningLease (ownerId : String)
    (expectedEpoch expectedRevision nowMs leaseDurationMs : ℤ) :
    Result (ConversationRows × Bool) := do
  let expiresAtMs ← openingLeaseExpiry nowMs leaseDurationMs
  match rows.conversation with
  | none => return (rows, false)
  | some row =>
    if row.state = .opening ∧ row.openingOwner = some ownerId ∧
        row.openingEpoch = expectedEpoch ∧ row.revision = expectedRevision then
      let renewed := { row with openingExpiresAtMs := some expiresAtMs }
      return ({ rows with conversation := some renewed }, true)
    else return (rows, false)

/-- `bindingTaken`: another conversation row already binds the Agent or the session. -/
def claimConversationOpenWithDurationAt (ownerId : String) (leaseDurationMs nowMs : ℤ)
    (bindingTaken : Bool) : Result (ConversationRows × ConversationOpenClaim) := do
  validateIdentity identity
  validateNonempty ownerId
  validateLeaseDuration leaseDurationMs
  match ← queryConversation rows with
  | some stored =>
    requireIdentity stored identity
    let maximumExpiryMs ← openingLeaseExpiry nowMs leaseDurationMs
    if stored.state ≠ .opening then
      return (rows, .existing stored)
    else if stored.openingOwner = some ownerId then
      let (renewed, _) ← renewOpeningLease rows ownerId stored.openingEpoch stored.revision
        nowMs leaseDurationMs
      return (renewed, .owned stored.revision stored.openingEpoch)
    else if stored.openingExpiresAtMs.any
        fun expires => expires ≤ nowMs || maximumExpiryMs < expires then
      let revision ← nextRevision stored.revision
      let epoch ← nextEpoch stored.openingEpoch
      let expiresAtMs ← openingLeaseExpiry nowMs leaseDurationMs
      let taken ← updateConversation rows stored.revision
        (fun row => row.state = .opening && row.revision = stored.revision &&
          row.openingEpoch = stored.openingEpoch && row.openingOwner = stored.openingOwner &&
          row.openingExpiresAtMs = stored.openingExpiresAtMs)
        (fun row => { row with
          revision := revision, openingOwner := some ownerId, openingEpoch := epoch,
          openingExpiresAtMs := some expiresAtMs })
      return (taken, .owned revision epoch)
    else
      return (rows, .busy stored)
  | none =>
    require (!bindingTaken) .conversationIdentityConflict
    let expiresAtMs ← openingLeaseExpiry nowMs leaseDurationMs
    let row : StoredConversation :=
      { identity := identity, state := .opening, revision := 0, openingOwner := some ownerId,
        openingEpoch := 1, openingExpiresAtMs := some expiresAtMs, handleJson := none,
        nextSequence := 0, nextToRun := 0, activeSequence := none, terminalState := none,
        failureClass := none }
    return ({ rows with conversation := some row }, .owned 0 1)

/-- `finalize_conversation_open` passes the owner with its epoch and revision,
`recover_conversation_open` passes none of them. -/
def finishOpen (ownerId : Option String) (expectedEpoch expectedRevision : Option ℤ)
    (handleJson : List UInt8) : Result (ConversationRows × StoredConversation) := do
  validateIdentity identity
  validateHandle handleJson
  ownerId.forM validateNonempty
  let stored ← requireConversation rows
  requireIdentity stored identity
  match stored.state with
  | .open =>
    requireHandle stored handleJson
    return (rows, stored)
  | .closing | .closed => throw (stateConflict stored.state)
  | .opening =>
    require (!ownerId.any fun owner => stored.openingOwner ≠ some owner)
      (.conversationRevisionConflict (expectedRevision.getD stored.revision) stored.revision)
    require (!expectedEpoch.any (· ≠ stored.openingEpoch))
      (.conversationRevisionConflict (expectedRevision.getD stored.revision) stored.revision)
    require (!expectedRevision.any (· ≠ stored.revision))
      (.conversationRevisionConflict (expectedRevision.getD 0) stored.revision)
    let revision ← nextRevision stored.revision
    require (ownerId.isNone || expectedEpoch.isSome) .invalidConversationInput
    let opened ← updateConversation rows stored.revision
      (fun row => row.state = .opening && row.revision = stored.revision &&
        ownerId.all fun owner =>
          row.openingOwner = some owner && expectedEpoch = some row.openingEpoch)
      (fun row => { row with
        state := .open, revision := revision, openingOwner := none,
        openingExpiresAtMs := none, handleJson := some handleJson })
    return (opened, ← requireConversation opened)

/-- Deletes the row while it is still opening under the same owner and epoch. -/
def abandonConversationOpen (ownerId : String) (expectedEpoch expectedRevision : ℤ) :
    Result (ConversationRows × Bool) := do
  validateIdentity identity
  validateNonempty ownerId
  match rows.conversation with
  | none => return (rows, false)
  | some row =>
    if row.state = .opening ∧ row.openingOwner = some ownerId ∧
        row.revision = expectedRevision ∧ row.openingEpoch = expectedEpoch ∧
        row.handleJson = none then
      return ({ rows with conversation := none }, true)
    else return (rows, false)

def heartbeatConversationOpenWithDuration (ownerId : String)
    (expectedEpoch expectedRevision leaseDurationMs nowMs : ℤ) :
    Result (ConversationRows × Bool) := do
  validateIdentity identity
  validateNonempty ownerId
  validateLeaseDuration leaseDurationMs
  renewOpeningLease rows ownerId expectedEpoch expectedRevision nowMs leaseDurationMs

/-! ## Closing -/

def beginConversationClose : Result (ConversationRows × ConversationCloseClaim) := do
  validateIdentity identity
  validateHandle handleJson
  let stored ← requireConversation rows
  requireIdentity stored identity
  requireHandle stored handleJson
  match stored.state with
  | .open =>
    let revision ← nextRevision stored.revision
    let closing ← updateConversation rows stored.revision
      (fun row => row.state = .open && row.revision = stored.revision)
      (fun row => { row with state := .closing, revision := revision })
    return (closing, .started (← requireConversation closing))
  | .closing => return (rows, .existing stored)
  | .closed => return (rows, .alreadyClosed stored)
  | .opening => throw (stateConflict .opening)

def finishConversationClose (terminalState : String) (failureClass : Option String) :
    Result (ConversationRows × StoredConversation) := do
  validateIdentity identity
  validateHandle handleJson
  validateNonempty terminalState
  let stored ← requireConversation rows
  requireIdentity stored identity
  requireHandle stored handleJson
  if stored.state = .closed then
    require (stored.terminalState = some terminalState && stored.failureClass = failureClass)
      .conversationIdentityConflict
    return (rows, stored)
  else
    require (stored.state = .closing && stored.activeSequence.isNone) (stateConflict stored.state)
    let revision ← nextRevision stored.revision
    let closed ← updateConversation rows stored.revision
      (fun row => row.state = .closing && row.revision = stored.revision &&
        row.activeSequence.isNone)
      (fun row => { row with
        state := .closed, revision := revision, terminalState := some terminalState,
        failureClass := row.failureClass <|> failureClass })
    return (closed, ← requireConversation closed)

/-! ## The turn queue -/

def enqueueConversationTurn : Result (ConversationRows × ConversationTurnEnqueue) := do
  validateIdentity identity
  validateHandle handleJson
  validateTurnIdentity turn
  let stored ← requireConversation rows
  requireIdentity stored identity
  requireHandle stored handleJson
  match queryTurnById rows turn.turnId with
  | some existing =>
    requireTurnIdentity existing turn
    return (rows, .existing existing)
  | none =>
    require (stored.state = .open) (stateConflict stored.state)
    match stored.failureClass with
    | some failureClass => return (rows, .blocked failureClass)
    | none =>
      let sequence := stored.nextSequence
      let following ← followingSequence sequence
      let revision ← nextRevision stored.revision
      u64ToSql following
      let reserved ← updateConversation rows stored.revision
        (fun row => row.state = .open && row.revision = stored.revision &&
          row.failureClass.isNone)
        (fun row => { row with nextSequence := following, revision := revision })
      u64ToSql sequence
      let row : StoredConversationTurn :=
        { identity := turn, sequence := sequence, state := .queued, revision := 0,
          claimOwner := none, claimExpiresAtMs := none, outcomeJson := none,
          failureClass := none }
      return ({ reserved with turns := reserved.turns ++ [row] }, .inserted)

/-- What a look at the rows says about a claim: its answer, or the rows to write. -/
inductive TurnClaimInspection where
  | return (claim : ConversationTurnClaim)
  | write (conversation : StoredConversation) (stored : StoredConversationTurn)
deriving DecidableEq, Repr

def inspectTurnClaim (ownerId : String) (nowMs leaseDurationMs : ℤ) :
    Result TurnClaimInspection := do
  let conversation ← requireConversation rows
  requireIdentity conversation identity
  requireHandle conversation handleJson
  let stored ← orElseThrow .conversationTurnNotFound (queryTurnById rows turn.turnId)
  requireTurnIdentity stored turn
  if stored.state.isTerminal then
    return .return (.terminal stored)
  else if stored.state = .intentCommitted then
    return .return (.intentCommitted stored)
  else match conversation.failureClass with
  | some failureClass => return .return (.blocked failureClass)
  | none =>
    if conversation.state ≠ .open then
      return .return (.conversationNotOpen conversation.state)
    else
      let maximumExpiryMs ← openingLeaseExpiry nowMs leaseDurationMs
      match stored.state with
      | .admitted =>
        -- another owner's claim that is neither expired nor beyond the longest lease
        if stored.claimOwner ≠ some ownerId ∧ stored.claimExpiresAtMs.any
            (fun expires => nowMs < expires && expires ≤ maximumExpiryMs) then
          return .return (.pending stored)
        else return .write conversation stored
      | .queued =>
        if stored.sequence ≠ conversation.nextToRun ∨ conversation.activeSequence.isSome then
          return .return (.pending stored)
        else return .write conversation stored
      | _ => throw .conversationStateCorrupt

def updateTurnClaim (stored : StoredConversationTurn) (ownerId : String)
    (nowMs leaseDurationMs : ℤ) : Result (ConversationRows × StoredConversationTurn) := do
  let revision ← nextRevision stored.revision
  let expiresAtMs ← openingLeaseExpiry nowMs leaseDurationMs
  let claimed ← updateTurn rows stored.sequence stored.revision
    (fun row => row.revision = stored.revision &&
      (row.state = .queued || row.state = .admitted))
    (fun row => { row with
      state := .admitted, revision := revision, claimOwner := some ownerId,
      claimExpiresAtMs := some expiresAtMs })
  return (claimed, ← requireTurnBySequence claimed stored.sequence)

/-- The write half of a claim, in its own transaction. -/
def writeTurnClaim (conversation : StoredConversation) (stored : StoredConversationTurn)
    (ownerId : String) (nowMs leaseDurationMs : ℤ) :
    Result (ConversationRows × ConversationTurnClaim) :=
  match stored.state with
  | .admitted => do
    let (claimed, row) ← updateTurnClaim rows stored ownerId nowMs leaseDurationMs
    return (claimed, .claimed row)
  | .queued => do
    let revision ← nextRevision conversation.revision
    u64ToSql stored.sequence
    let admitted ← updateConversation rows conversation.revision
      (fun row => row.state = .open && row.revision = conversation.revision &&
        row.activeSequence.isNone && row.nextToRun = stored.sequence)
      (fun row => { row with activeSequence := some stored.sequence, revision := revision })
    let (claimed, row) ← updateTurnClaim admitted stored ownerId nowMs leaseDurationMs
    return (claimed, .claimed row)
  | _ => .error .conversationStateCorrupt

/-- A claim reads first outside any transaction (`observed` are the rows seen then) and
looks again inside the transaction that writes. -/
def claimConversationTurnAt (observed rows : ConversationRows)
    (identity : ConversationIdentity) (handleJson : List UInt8)
    (turn : ConversationTurnIdentity) (ownerId : String) (nowMs leaseDurationMs : ℤ) :
    Result (ConversationRows × ConversationTurnClaim) := do
  validateIdentity identity
  validateHandle handleJson
  validateTurnIdentity turn
  validateNonempty ownerId
  validateLeaseDuration leaseDurationMs
  match ← inspectTurnClaim observed identity handleJson turn ownerId nowMs leaseDurationMs with
  | .return claim => return (rows, claim)
  | .write _ _ =>
    match ← inspectTurnClaim rows identity handleJson turn ownerId nowMs leaseDurationMs with
    | .return claim => return (rows, claim)
    | .write conversation stored =>
      writeTurnClaim rows conversation stored ownerId nowMs leaseDurationMs

def commitConversationTurnIntent (sequence : ℕ) (ownerId : String) (expectedRevision : ℤ) :
    Result (ConversationRows × StoredConversationTurn) := do
  validateIdentity identity
  validateHandle handleJson
  validateTurnIdentity turn
  validateNonempty ownerId
  let conversation ← requireConversation rows
  requireIdentity conversation identity
  requireHandle conversation handleJson
  require (conversation.state = .open && conversation.activeSequence = some sequence)
    (stateConflict conversation.state)
  let stored ← requireTurnBySequence rows sequence
  requireTurnIdentity stored turn
  if stored.state = .intentCommitted ∧ stored.claimOwner = some ownerId then
    return (rows, stored)
  else
    require (stored.state = .admitted && stored.claimOwner = some ownerId)
      (.conversationStateConflict stored.state.asStr)
    require (stored.revision = expectedRevision)
      (.conversationRevisionConflict expectedRevision stored.revision)
    let revision ← nextRevision stored.revision
    let committed ← updateTurn rows sequence stored.revision
      (fun row => row.state = .admitted && row.revision = stored.revision &&
        row.claimOwner = some ownerId)
      (fun row => { row with state := .intentCommitted, revision := revision })
    return (committed, ← requireTurnBySequence committed sequence)

def finalizeConversationTurn (sequence : ℕ) (completion : ConversationTurnCompletion) :
    Result (ConversationRows × StoredConversationTurn) := do
  validateIdentity identity
  validateHandle handleJson
  validateTurnIdentity turn
  require (completion.state.isTerminal && !completion.outcomeJson.isEmpty)
    .invalidConversationInput
  let conversation ← requireConversation rows
  requireIdentity conversation identity
  requireHandle conversation handleJson
  let stored ← requireTurnBySequence rows sequence
  requireTurnIdentity stored turn
  if stored.state.isTerminal then
    require (stored.state = completion.state &&
      stored.outcomeJson = some completion.outcomeJson &&
      stored.failureClass = completion.failureClass) .conversationIdentityConflict
    return (rows, stored)
  else
    require (stored.sequence = conversation.nextToRun)
      (.conversationStateConflict stored.state.asStr)
    require (!(conversation.state = .open && stored.state ≠ .intentCommitted))
      (.conversationStateConflict stored.state.asStr)
    require (conversation.state = .open || conversation.state = .closing)
      (stateConflict conversation.state)
    require (!conversation.activeSequence.any (· ≠ sequence)) .conversationStateCorrupt
    let turnRevision ← nextRevision stored.revision
    let settled ← updateTurn rows sequence stored.revision
      (fun row => row.revision = stored.revision && !row.state.isTerminal)
      (fun row => { row with
        state := completion.state, revision := turnRevision, claimOwner := none,
        claimExpiresAtMs := none, outcomeJson := some completion.outcomeJson,
        failureClass := completion.failureClass })
    let nextToRun ← followingSequence sequence
    let revision ← nextRevision conversation.revision
    u64ToSql nextToRun
    let blockingFailure := if completion.blockFollowingTurns
      then some (completion.failureClass.getD "unknown") else none
    let advanced ← updateConversation settled conversation.revision
      (fun row => row.revision = conversation.revision && row.nextToRun = sequence &&
        row.activeSequence.all (· = sequence))
      (fun row => { row with
        nextToRun := nextToRun, activeSequence := none, revision := revision,
        failureClass := row.failureClass <|> blockingFailure })
    return (advanced, ← requireTurnBySequence advanced sequence)

/-! ## The conversation as a machine -/

/-- One call on the conversation, with the clock it reads. -/
inductive ConversationCall where
  | claimOpen (identity : ConversationIdentity) (ownerId : String) (leaseDurationMs nowMs : ℤ)
      (bindingTaken : Bool)
  | heartbeatOpen (identity : ConversationIdentity) (ownerId : String)
      (expectedEpoch expectedRevision leaseDurationMs nowMs : ℤ)
  | finishOpen (identity : ConversationIdentity) (ownerId : Option String)
      (expectedEpoch expectedRevision : Option ℤ) (handleJson : List UInt8)
  | abandonOpen (identity : ConversationIdentity) (ownerId : String)
      (expectedEpoch expectedRevision : ℤ)
  | beginClose (identity : ConversationIdentity) (handleJson : List UInt8)
  | finishClose (identity : ConversationIdentity) (handleJson : List UInt8)
      (terminalState : String) (failureClass : Option String)
  | enqueue (identity : ConversationIdentity) (handleJson : List UInt8)
      (turn : ConversationTurnIdentity)
  | claim (observed : ConversationRows) (identity : ConversationIdentity)
      (handleJson : List UInt8) (turn : ConversationTurnIdentity) (ownerId : String)
      (nowMs leaseDurationMs : ℤ)
  | commitIntent (identity : ConversationIdentity) (handleJson : List UInt8)
      (turn : ConversationTurnIdentity) (sequence : ℕ) (ownerId : String)
      (expectedRevision : ℤ)
  | finalize (identity : ConversationIdentity) (handleJson : List UInt8)
      (turn : ConversationTurnIdentity) (sequence : ℕ)
      (completion : ConversationTurnCompletion)
deriving DecidableEq, Repr

inductive ConversationAnswer where
  | openClaim (claim : ConversationOpenClaim)
  | changed (changed : Bool)
  | conversation (stored : StoredConversation)
  | closeClaim (claim : ConversationCloseClaim)
  | enqueue (enqueue : ConversationTurnEnqueue)
  | turnClaim (claim : ConversationTurnClaim)
  | turn (stored : StoredConversationTurn)
deriving DecidableEq, Repr

def executeCall : ConversationCall → Result (ConversationRows × ConversationAnswer)
  | .claimOpen identity ownerId leaseDurationMs nowMs bindingTaken => do
    let (rows', claim) ← claimConversationOpenWithDurationAt rows identity ownerId
      leaseDurationMs nowMs bindingTaken
    return (rows', .openClaim claim)
  | .heartbeatOpen identity ownerId expectedEpoch expectedRevision leaseDurationMs nowMs => do
    let (rows', changed) ← heartbeatConversationOpenWithDuration rows identity ownerId
      expectedEpoch expectedRevision leaseDurationMs nowMs
    return (rows', .changed changed)
  | .finishOpen identity ownerId expectedEpoch expectedRevision handleJson => do
    let (rows', stored) ← finishOpen rows identity ownerId expectedEpoch
      expectedRevision handleJson
    return (rows', .conversation stored)
  | .abandonOpen identity ownerId expectedEpoch expectedRevision => do
    let (rows', changed) ← abandonConversationOpen rows identity ownerId expectedEpoch
      expectedRevision
    return (rows', .changed changed)
  | .beginClose identity handleJson => do
    let (rows', claim) ← beginConversationClose rows identity handleJson
    return (rows', .closeClaim claim)
  | .finishClose identity handleJson terminalState failureClass => do
    let (rows', stored) ← finishConversationClose rows identity handleJson terminalState
      failureClass
    return (rows', .conversation stored)
  | .enqueue identity handleJson turn => do
    let (rows', enqueue) ← enqueueConversationTurn rows identity handleJson turn
    return (rows', .enqueue enqueue)
  | .claim observed identity handleJson turn ownerId nowMs leaseDurationMs => do
    let (rows', claim) ← claimConversationTurnAt observed rows identity handleJson turn ownerId
      nowMs leaseDurationMs
    return (rows', .turnClaim claim)
  | .commitIntent identity handleJson turn sequence ownerId expectedRevision => do
    let (rows', stored) ← commitConversationTurnIntent rows identity handleJson turn sequence
      ownerId expectedRevision
    return (rows', .turn stored)
  | .finalize identity handleJson turn sequence completion => do
    let (rows', stored) ← finalizeConversationTurn rows identity handleJson turn sequence
      completion
    return (rows', .turn stored)

/-- Calls on one conversation, one after the other; a failed call is rolled back. -/
def conversationMachine : Machine ConversationRows ConversationCall
    (Result ConversationAnswer) where
  step rows call :=
    match executeCall rows call with
    | .ok (rows', answer) => (rows', .ok answer)
    | .error e => (rows, .error e)

end SolarisMesh.Session
