import SolarisMesh.Ledger.Append
import SolarisMesh.Ledger.Payload
import SolarisMesh.Lib.Machine

/-!
# The message bus

Messages between the agents of a run wait in the inbox of their recipient until they are
acknowledged or drained; an agent may claim what waits for it. Every change is first written to
the runtime ledger as one record and then made in memory. A send or broadcast under an id the run
has used is answered from its record, after the memory was brought in line with the ledger; a
restart reads all records into an empty bus.

The ledger is the SQLite one. Agent and team registries, the clock and failures of the storage
come with each call. A payload is written as text and decoded from it, which may change the body of
a message or refuse it; the payloads of other components are left opaque.
-/

namespace SolarisMesh.Messages

open Lib SolarisMesh.Types Ledger

/-- What the bus and its ledger do with the body of a message. -/
class MessageBody (B : Type) where
  encodedSize : B → ℕ
  /-- Equality of values, where the order of an object's members does not count. -/
  same : B → B → Bool
  same_refl : ∀ body, same body body = true
  same_trans : ∀ {a b c}, same a b = true → same b c = true → same a c = true
  /-- What a body is read as from the text it was written in, so many levels inside it. -/
  reread : ℕ → B → Option B

instance [NumberReader] : MessageBody Json where
  encodedSize := Json.encodedSize
  same := Json.same
  same_refl := Json.same_refl
  same_trans := Json.same_trans
  reread level body := if body.depth + level ≤ maxNesting then some body.reread else none

/-- Bodies that are read as they were written. -/
class ExactBody (B : Type) [MessageBody B] : Prop where
  reread_eq : ∀ level ≤ 3, ∀ body : B, MessageBody.reread level body = some body

/-- The JSON values that are read as they were written, wherever a payload holds them. -/
def ExactJson [NumberReader] : Type :=
  { body : Json // body.reread = body ∧ body.depth + 3 ≤ maxNesting }

instance [NumberReader] : DecidableEq ExactJson := inferInstanceAs (DecidableEq (Subtype _))

instance [NumberReader] : MessageBody ExactJson where
  encodedSize body := body.1.encodedSize
  same a b := Json.same a.1 b.1
  same_refl body := Json.same_refl body.1
  same_trans := Json.same_trans
  reread level body := if body.1.depth + level ≤ maxNesting then some body else none

instance [NumberReader] : ExactBody ExactJson where
  reread_eq _ hlevel body := if_pos ((Nat.add_le_add_left hlevel _).trans body.2.2)

structure AgentMessage (B : Type) where
  messageId : String
  runId : RunId
  teamId : Option TeamId
  fromAgent : AgentId
  toAgent : AgentId
  kind : String
  body : B
  createdAtUnixMs : ℤ
  acknowledgedAtUnixMs : Option ℤ
deriving DecidableEq, Repr

variable {B : Type}

def AgentMessage.isPending (message : AgentMessage B) : Bool :=
  message.acknowledgedAtUnixMs.isNone

structure DurableDirectMessage (B : Type) where
  message : AgentMessage B
  requestedTeamIdKnown : Bool
  requestedTeamId : Option TeamId
deriving DecidableEq, Repr

structure DurableBroadcast (B : Type) where
  broadcastId : String
  runId : RunId
  teamId : TeamId
  fromAgent : AgentId
  recipients : List AgentId
  kind : String
  body : B
  messages : List (AgentMessage B)
deriving DecidableEq, Repr

/-- The payloads of message records; `other` stands for the records of other components. -/
inductive MessagePayload (B : Type) where
  | messageDelivered (durable : DurableDirectMessage B)
  | messagesBroadcast (durable : DurableBroadcast B)
  | messageAcknowledged (messageId : String) (agentId : AgentId) (acknowledgedAtUnixMs : ℤ)
  | messagesClaimed (agentId : AgentId) (claimId : String) (messageIds : List String)
  | messagesDequeued (agentId : AgentId) (messageIds : List String)
  | other (recordType : String)
deriving DecidableEq, Repr

namespace MessagePayload

def recordType : MessagePayload B → String
  | messageDelivered _ => "message_delivered"
  | messagesBroadcast _ => "messages_broadcast"
  | messageAcknowledged .. => "message_acknowledged"
  | messagesClaimed .. => "messages_claimed"
  | messagesDequeued .. => "messages_dequeued"
  | other recordType => recordType

/-- The messages a record delivers. -/
def messages : MessagePayload B → List (AgentMessage B)
  | messageDelivered durable => [durable.message]
  | messagesBroadcast durable => durable.messages
  | _ => []

end MessagePayload

section

variable [MessageBody B]

def AgentMessage.reread (level : ℕ) (message : AgentMessage B) : Option (AgentMessage B) := do
  return { message with body := ← MessageBody.reread level message.body }

def DurableBroadcast.reread (durable : DurableBroadcast B) : Option (DurableBroadcast B) := do
  let body ← MessageBody.reread 1 durable.body
  return { durable with body, messages := ← durable.messages.mapM (·.reread 3) }

/-- The payload that is decoded from the stored text. The members of a message stand in the payload
of its delivery. -/
def MessagePayload.reread : MessagePayload B → Option (MessagePayload B)
  | messageDelivered durable => do
    return .messageDelivered { durable with message := ← durable.message.reread 1 }
  | messagesBroadcast durable => return .messagesBroadcast (← durable.reread)
  | payload => some payload

end

abbrev MessageRecord (B : Type) := LedgerRecord (MessagePayload B)

structure MessageBus (B : Type) where
  inboxes : AgentId → List (AgentMessage B)
  claims : String → Option String

namespace MessageBus

def empty : MessageBus B := ⟨fun _ => [], fun _ => none⟩

variable (bus : MessageBus B) (agentId : AgentId)

def setInbox (messages : List (AgentMessage B)) : MessageBus B :=
  { bus with inboxes := Function.update bus.inboxes agentId messages }

def push (message : AgentMessage B) : MessageBus B :=
  bus.setInbox message.toAgent (bus.inboxes message.toAgent ++ [message])

def inbox : List (AgentMessage B) :=
  (bus.inboxes agentId).filter (·.isPending)

def pendingMessages : ℕ := (bus.inbox agentId).length

/-- `retain` without the given ids. -/
def remove (messageIds : List String) : MessageBus B :=
  bus.setInbox agentId ((bus.inboxes agentId).filter (!messageIds.contains ·.messageId))

/-! ## Restoring from records -/

/-- The first message with the id gets the time. -/
def setAcknowledged (messageId : String) (acknowledgedAtUnixMs : Option ℤ) :
    List (AgentMessage B) → List (AgentMessage B)
  | [] => []
  | message :: messages =>
    if message.messageId = messageId then { message with acknowledgedAtUnixMs } :: messages
    else message :: setAcknowledged messageId acknowledgedAtUnixMs messages

def restoreMessage (message : AgentMessage B) : MessageBus B :=
  if (bus.inboxes message.toAgent).any (·.messageId = message.messageId) then bus
  else bus.push message

def restoreBroadcast (durable : DurableBroadcast B) : MessageBus B :=
  durable.messages.foldl restoreMessage bus

def restoreClaim (claimId : String) (messageIds : List String) : MessageBus B :=
  { bus with
    claims := messageIds.foldl (fun claims messageId =>
      Function.update claims messageId (some claimId)) bus.claims }

def restoreAcknowledgement (messageId : String) (acknowledgedAtUnixMs : ℤ) : MessageBus B :=
  bus.setInbox agentId
    (setAcknowledged messageId (some acknowledgedAtUnixMs) (bus.inboxes agentId))

def restoreDequeue (messageIds : List String) : MessageBus B :=
  bus.remove agentId messageIds

/-- One record read by a restart. -/
def restoreRecord : MessagePayload B → MessageBus B
  | .messageDelivered durable => bus.restoreMessage durable.message
  | .messagesBroadcast durable => bus.restoreBroadcast durable
  | .messageAcknowledged messageId agentId acknowledgedAtUnixMs =>
    bus.restoreAcknowledgement agentId messageId acknowledgedAtUnixMs
  | .messagesClaimed _ claimId messageIds => bus.restoreClaim claimId messageIds
  | .messagesDequeued agentId messageIds => bus.restoreDequeue agentId messageIds
  | .other _ => bus

/-- A bus read from records. -/
def replay (records : List (MessageRecord B)) : MessageBus B :=
  records.foldl (fun bus record => bus.restoreRecord record.payload) .empty

end MessageBus

/-! ## Repair on a repeated id -/

/-- What the records after a delivery say of the message. -/
structure Fate where
  acknowledgedAtUnixMs : Option ℤ
  dequeued : Bool
  claimId : Option String
deriving DecidableEq, Repr

def Fate.observe (messageId : String) (fate : Fate) : MessagePayload B → Fate
  | .messageAcknowledged id _ acknowledgedAtUnixMs =>
    if id = messageId then { fate with acknowledgedAtUnixMs := some acknowledgedAtUnixMs }
    else fate
  | .messagesClaimed _ claimId messageIds =>
    if messageIds.contains messageId then { fate with claimId := some claimId } else fate
  | .messagesDequeued _ messageIds =>
    if messageIds.contains messageId then { fate with dequeued := true } else fate
  | _ => fate

def fateOf (durable : AgentMessage B) (later : List (MessageRecord B)) : Fate :=
  later.foldl (fun fate record => fate.observe durable.messageId record.payload)
    ⟨durable.acknowledgedAtUnixMs, false, none⟩

def sameMessageContent [MessageBody B] (left right : AgentMessage B) : Bool :=
  left.messageId = right.messageId && left.runId = right.runId && left.teamId = right.teamId &&
    left.fromAgent = right.fromAgent && left.toAgent = right.toAgent && left.kind = right.kind &&
    MessageBody.same left.body right.body && left.createdAtUnixMs = right.createdAtUnixMs

namespace MessageBus

variable [MessageBody B]

def repairMessage (bus : MessageBus B) (durable : AgentMessage B) (fate : Fate) :
    MessageBus B × IoResult Unit :=
  let claimed := fate.claimId.elim bus fun claimId => bus.restoreClaim claimId [durable.messageId]
  if fate.dequeued then (claimed.remove durable.toAgent [durable.messageId], .ok ())
  else
    let messages := claimed.inboxes durable.toAgent
    match messages.find? (·.messageId = durable.messageId) with
    | some existing =>
      if sameMessageContent existing durable then
        (claimed.setInbox durable.toAgent
          (setAcknowledged durable.messageId fate.acknowledgedAtUnixMs messages), .ok ())
      else
        let messageId := durable.messageId
        (claimed, .error (otherError
          s!"message projection {messageId} conflicts with its durable content"))
    | none =>
      (claimed.push { durable with acknowledgedAtUnixMs := fate.acknowledgedAtUnixMs }, .ok ())

def repairDurableMessages (bus : MessageBus B) (deliveredSequence : ℕ)
    (records : List (MessageRecord B)) : List (AgentMessage B) → MessageBus B × IoResult Unit
  | [] => (bus, .ok ())
  | durable :: rest =>
    match bus.repairMessage durable
        (fateOf durable (records.filter (deliveredSequence < ·.seq))) with
    | (repaired, .ok ()) => repaired.repairDurableMessages deliveredSequence records rest
    | (repaired, .error error) => (repaired, .error error)

end MessageBus

/-! ## Calls -/

/-- The bus of a process and the ledger below it. -/
structure BusState (B : Type) where
  bus : MessageBus B
  ledger : LedgerState (MessagePayload B)

def BusState.empty : BusState B := ⟨.empty, .empty _⟩

/-- What a call finds around it: the runs of the registered agents, the teams, the clock and
whether the ledger can be read and written. -/
structure CallContext where
  agents : AgentId → Option RunId
  teams : TeamId → Option TeamRecord
  nowUnixMs : ℤ
  readable : Bool
  writable : Bool

structure SendRequest (B : Type) where
  messageId : String
  requestedTeamId : Option TeamId
  effectiveTeamId : Option TeamId
  fromAgent : AgentId
  toAgent : AgentId
  kind : String
  body : B
deriving DecidableEq, Repr

structure BroadcastRequest (B : Type) where
  broadcastId : String
  teamId : TeamId
  fromAgent : AgentId
  recipients : List AgentId
  kind : String
  body : B
deriving DecidableEq, Repr

section

variable (ctx : CallContext) (runId : RunId)

/-- The records of the run as they are decoded. -/
def BusState.storedRecords [MessageBody B] (s : BusState B) : IoResult (List (MessageRecord B)) :=
  (s.ledger.recordsForRun runId).mapM fun record => do
    let payload ← orElseThrow (otherError "decode runtime ledger record") record.payload.reread
    return { record with payload }

def BusState.recordsForRun [MessageBody B] (s : BusState B) : IoResult
    (List (MessageRecord B)) := do
  require ctx.readable (otherError "query runtime ledger records")
  s.storedRecords runId

def BusState.append (s : BusState B) (payload : MessagePayload B) :
    IoResult (LedgerState (MessagePayload B) × MessageRecord B) := do
  require ctx.writable (otherError "begin runtime ledger append")
  let seq ← allocateSqliteSequence s.ledger.nextSequence
  return s.ledger.insertRecord seq runId ctx.nowUnixMs .syncCritical payload.recordType payload

variable (s : BusState B) (request : BroadcastRequest B)

/-- Write the record and, if that succeeds, make the change. -/
def BusState.commit {α : Type} (payload : MessagePayload B) (bus : MessageBus B)
    (answer : MessageRecord B → α) : BusState B × IoResult α :=
  match s.append ctx runId payload with
  | .ok (ledger, record) => (⟨bus, ledger⟩, .ok (answer record))
  | .error error => (s, .error error)

def validateAgentRun (agentId : AgentId) : IoResult Unit := do
  let run ← orElseThrow (otherError s!"unknown message agent: {agentId}") (ctx.agents agentId)
  require (run = runId) (otherError "message agent does not belong to the requested run")

def validateBodySize [MessageBody B] (body : B) (maxMessageBytes : ℕ) : IoResult Unit :=
  let bytes := MessageBody.encodedSize body
  require (bytes ≤ maxMessageBytes) (otherError
    s!"message body is {bytes} bytes and exceeds max_message_bytes {maxMessageBytes}")

/-- A registered team with valid limits. -/
def messageTeam (teamId : TeamId) : IoResult TeamRecord := do
  let team ← orElseThrow (otherError s!"unknown message team: {teamId}") (ctx.teams teamId)
  require team.messageLimitsValid (messageLimitsError team)
  return team

/-! ### Repeated ids -/

/-- The first record that binds an id, and what is read from it. -/
def findBound {α : Type} (read : MessagePayload B → Option α) (records : List (MessageRecord B)) :
    Option (MessageRecord B × α) :=
  records.findSome? fun record => (read record.payload).map (record, ·)

def MessagePayload.delivered (messageId : String) :
    MessagePayload B → Option (DurableDirectMessage B)
  | messageDelivered durable =>
    if durable.message.messageId = messageId then some durable else none
  | _ => none

def MessagePayload.broadcast (broadcastId : String) : MessagePayload B → Option (DurableBroadcast B)
  | messagesBroadcast durable => if durable.broadcastId = broadcastId then some durable else none
  | _ => none

def findDelivered (records : List (MessageRecord B)) (messageId : String) :
    Option (MessageRecord B × DurableDirectMessage B) :=
  findBound (MessagePayload.delivered messageId) records

def findBroadcast (records : List (MessageRecord B)) (broadcastId : String) :
    Option (MessageRecord B × DurableBroadcast B) :=
  findBound (MessagePayload.broadcast broadcastId) records

def DurableDirectMessage.answers [MessageBody B] (durable : DurableDirectMessage B)
    (request : SendRequest B) : Bool :=
  let existing := durable.message
  existing.runId = runId &&
    (if durable.requestedTeamIdKnown then durable.requestedTeamId = request.requestedTeamId
      else request.requestedTeamId.isNone || existing.teamId = request.requestedTeamId) &&
    existing.fromAgent = request.fromAgent && existing.toAgent = request.toAgent &&
    existing.kind = request.kind && MessageBody.same existing.body request.body

/-- The recipients are compared if the caller names them. -/
def DurableBroadcast.answers [MessageBody B] (existing : DurableBroadcast B)
    (request : BroadcastRequest B) (recipients : Option (List AgentId)) : Bool :=
  existing.runId = runId && existing.teamId = request.teamId &&
    existing.fromAgent = request.fromAgent && recipients.all (existing.recipients = ·) &&
    existing.kind = request.kind && MessageBody.same existing.body request.body

/-- Bring the memory in line with a delivery and answer it. -/
def BusState.repair [MessageBody B] {α : Type} (deliveredSequence : ℕ)
    (records : List (MessageRecord B)) (messages : List (AgentMessage B)) (answer : α) :
    BusState B × IoResult α :=
  let (bus, result) := s.bus.repairDurableMessages deliveredSequence records messages
  (⟨bus, s.ledger⟩, result.map fun _ => answer)

/-- A request under an id: how the id is bound, whether what is bound has the content of the
request, and how it is answered then. -/
structure Delivery (B α β : Type) where
  name : String
  read : MessagePayload B → Option α
  answers : α → Bool
  answer : α → β

def SendRequest.delivery [MessageBody B] (request : SendRequest B) :
    Delivery B (DurableDirectMessage B) (AgentMessage B) where
  name := "message id " ++ request.messageId
  read := MessagePayload.delivered request.messageId
  answers durable := durable.answers runId request
  answer durable := durable.message

def BroadcastRequest.delivery [MessageBody B] (request : BroadcastRequest B)
    (recipients : Option (List AgentId)) :
    Delivery B (DurableBroadcast B) (List (AgentMessage B)) where
  name := "broadcast id " ++ request.broadcastId
  read := MessagePayload.broadcast request.broadcastId
  answers existing := existing.answers runId request recipients
  answer existing := existing.messages

def BusState.replayDelivery [MessageBody B] {α β : Type} (delivery : Delivery B α β) :
    BusState B × IoResult (Option β) :=
  match s.recordsForRun ctx runId with
  | .error error => (s, .error error)
  | .ok records =>
    match findBound delivery.read records with
    | none => (s, .ok none)
    | some (record, existing) =>
      if delivery.answers existing then
        s.repair record.seq records record.payload.messages (some (delivery.answer existing))
      else (s, .error (otherError (delivery.name ++ " is already bound to different content")))

def replaySendWithId [MessageBody B] (request : SendRequest B) :
    BusState B × IoResult (Option (AgentMessage B)) :=
  s.replayDelivery ctx runId (request.delivery runId)

def replayBroadcastWithRecipients [MessageBody B] (recipients : Option (List AgentId)) :
    BusState B × IoResult (Option (List (AgentMessage B))) :=
  s.replayDelivery ctx runId (request.delivery runId recipients)

def replayBroadcastWithId [MessageBody B] :
    BusState B × IoResult (Option (List (AgentMessage B))) :=
  replayBroadcastWithRecipients ctx runId s request none

/-- Deliver new messages, unless the id was answered from its record. -/
def deliverUnlessReplayed {α : Type} (replayed : BusState B × IoResult (Option α))
    (admits : MessageBus B → IoResult Unit) (payload : MessagePayload B)
    (messages : List (AgentMessage B)) (answer : α) :
    BusState B × IoResult (α × Option (MessageRecord B)) :=
  match replayed with
  | (repaired, .error error) => (repaired, .error error)
  | (repaired, .ok (some existing)) => (repaired, .ok (existing, none))
  | (s, .ok none) =>
    match admits s.bus with
    | .error error => (s, .error error)
    | .ok () =>
      s.commit ctx runId payload (messages.foldl MessageBus.push s.bus) fun record =>
        (answer, some record)

/-! ### Sending -/

/-- The limits a direct message is under: pending messages and bytes. -/
def sendLimits (request : SendRequest B) : IoResult (ℕ × ℕ) :=
  match request.effectiveTeamId with
  | none => .ok (defaultMaxPendingMessages, defaultMaxMessageBytes)
  | some teamId => do
    let team ← messageTeam ctx teamId
    require (team.runId = runId && decide (request.fromAgent ∈ team.members) &&
        decide (request.toAgent ∈ team.members))
      (otherError "message team and both agents must belong to the requested run")
    return (team.maxPendingMessages, team.maxMessageBytes)

def admitSend [MessageBody B] (bus : MessageBus B) (request : SendRequest B) : IoResult Unit := do
  validateAgentRun ctx runId request.fromAgent
  validateAgentRun ctx runId request.toAgent
  let (maxPendingMessages, maxMessageBytes) ← sendLimits ctx runId request
  validateBodySize request.body maxMessageBytes
  let toAgent := request.toAgent
  require (bus.pendingMessages toAgent < maxPendingMessages) (otherError
    s!"message recipient {toAgent} has reached max_pending_messages {maxPendingMessages}")

def SendRequest.message (request : SendRequest B) : AgentMessage B where
  messageId := request.messageId
  runId := runId
  teamId := request.effectiveTeamId
  fromAgent := request.fromAgent
  toAgent := request.toAgent
  kind := request.kind
  body := request.body
  createdAtUnixMs := ctx.nowUnixMs
  acknowledgedAtUnixMs := none

def SendRequest.durable (request : SendRequest B) : DurableDirectMessage B :=
  ⟨request.message ctx runId, true, request.requestedTeamId⟩

/-- `send_with_requested_team_id_within_mutation`. -/
def sendWithRequestedTeamId [MessageBody B] (request : SendRequest B) :
    BusState B × IoResult (AgentMessage B × Option (MessageRecord B)) :=
  deliverUnlessReplayed ctx runId (replaySendWithId ctx runId s request)
    (admitSend ctx runId · request) (.messageDelivered (request.durable ctx runId))
    [request.message ctx runId] (request.message ctx runId)

/-! ### Broadcasting -/

def validateRecipients (team : TeamRecord) : List AgentId → IoResult Unit
  | [] => .ok ()
  | recipient :: rest => do
    validateAgentRun ctx runId recipient
    require (decide (recipient ∈ team.members))
      (otherError "every broadcast recipient must belong to the requested team/run")
    validateRecipients team rest

/-- Each recipient has room for all its copies. The source visits the recipients in the order of a
hash map; which of several full inboxes the error names is left open there. -/
def validateRoom (bus : MessageBus B) (maxPendingMessages : ℕ) (recipients : List AgentId) :
    List AgentId → IoResult Unit
  | [] => .ok ()
  | recipient :: rest => do
    require (bus.pendingMessages recipient + recipients.count recipient ≤ maxPendingMessages)
      (otherError
        s!"broadcast recipient {recipient} would exceed max_pending_messages {maxPendingMessages}")
    validateRoom bus maxPendingMessages recipients rest

def admitBroadcast [MessageBody B] (bus : MessageBus B) (request : BroadcastRequest B) :
    IoResult Unit := do
  validateAgentRun ctx runId request.fromAgent
  let team ← messageTeam ctx request.teamId
  require (team.runId = runId && decide (request.fromAgent ∈ team.members))
    (otherError "broadcast sender and team must belong to the requested run")
  validateRecipients ctx runId team request.recipients
  validateBodySize request.body team.maxMessageBytes
  validateRoom bus team.maxPendingMessages request.recipients request.recipients

/-- The id of one copy of a broadcast. -/
def broadcastMessageId (broadcastId : String) (index : ℕ) : String :=
  broadcastId ++ ":" ++ toString index

def BroadcastRequest.message (request : BroadcastRequest B) (toAgent : AgentId) (index : ℕ) :
    AgentMessage B where
  messageId := broadcastMessageId request.broadcastId index
  runId := runId
  teamId := some request.teamId
  fromAgent := request.fromAgent
  toAgent := toAgent
  kind := request.kind
  body := request.body
  createdAtUnixMs := ctx.nowUnixMs
  acknowledgedAtUnixMs := none

def BroadcastRequest.messages (request : BroadcastRequest B) : List (AgentMessage B) :=
  request.recipients.zipIdx.map fun (toAgent, index) => request.message ctx runId toAgent index

def BroadcastRequest.durable (request : BroadcastRequest B) : DurableBroadcast B where
  broadcastId := request.broadcastId
  runId := runId
  teamId := request.teamId
  fromAgent := request.fromAgent
  recipients := request.recipients
  kind := request.kind
  body := request.body
  messages := request.messages ctx runId

/-- `broadcast_with_id_within_mutation`. -/
def broadcastWithId [MessageBody B] :
    BusState B × IoResult (List (AgentMessage B) × Option (MessageRecord B)) :=
  deliverUnlessReplayed ctx runId
    (replayBroadcastWithRecipients ctx runId s request (some request.recipients))
    (admitBroadcast ctx runId · request) (.messagesBroadcast (request.durable ctx runId))
    (request.messages ctx runId) (request.messages ctx runId)

/-! ### Receiving -/

/-- The ids of the first record of this claim. -/
def findClaim (records : List (MessageRecord B)) (agentId : AgentId) (claimId : String) :
    Option (List String) :=
  records.findSome? fun record =>
    match record.payload with
    | .messagesClaimed agent claim messageIds =>
      if claim = claimId ∧ agent = agentId then some messageIds else none
    | _ => none

/-- Messages of the run that wait and are not claimed. -/
def MessageBus.claimable (bus : MessageBus B) (agentId : AgentId) : List (AgentMessage B) :=
  (bus.inboxes agentId).filter fun message =>
    message.runId = runId && message.isPending && (bus.claims message.messageId).isNone

/-- The messages of the run in an inbox. -/
def MessageBus.ofRun (bus : MessageBus B) (agentId : AgentId) : List (AgentMessage B) :=
  (bus.inboxes agentId).filter (·.runId = runId)

def claim [MessageBody B] (agentId : AgentId) (claimId : String) :
    BusState B × IoResult (List (AgentMessage B)) :=
  match validateAgentRun ctx runId agentId with
  | .error error => (s, .error error)
  | .ok () =>
    match s.recordsForRun ctx runId with
    | .error error => (s, .error error)
    | .ok records =>
      match findClaim records agentId claimId with
      | some ids =>
        (s, .ok ((s.bus.inboxes agentId).filter fun message =>
          message.isPending && ids.contains message.messageId))
      | none =>
        let messages := s.bus.claimable runId agentId
        if messages.isEmpty then (s, .ok [])
        else
          let messageIds := messages.map (·.messageId)
          s.commit ctx runId (.messagesClaimed agentId claimId messageIds)
            (s.bus.restoreClaim claimId messageIds) fun _ => messages

def acknowledge (agentId : AgentId) (messageId : String) :
    BusState B × IoResult (Bool × Option (MessageRecord B)) :=
  match validateAgentRun ctx runId agentId with
  | .error error => (s, .error error)
  | .ok () =>
    match (s.bus.inboxes agentId).find? (·.messageId = messageId) with
    | none => (s, .ok (false, none))
    | some message =>
      if message.runId ≠ runId ∨ message.toAgent ≠ agentId then
        (s, .error (otherError "message acknowledgement does not belong to the requested run/agent"))
      else if message.acknowledgedAtUnixMs.isSome then (s, .ok (true, none))
      else
        s.commit ctx runId (.messageAcknowledged messageId agentId ctx.nowUnixMs)
          (s.bus.restoreAcknowledgement agentId messageId ctx.nowUnixMs) fun record =>
            (true, some record)

def drain (agentId : AgentId) :
    BusState B × IoResult (List (AgentMessage B) × Option (MessageRecord B)) :=
  match validateAgentRun ctx runId agentId with
  | .error error => (s, .error error)
  | .ok () =>
    let drained := s.bus.ofRun runId agentId
    if drained.isEmpty then (s, .ok ([], none))
    else
      let messageIds := drained.map (·.messageId)
      s.commit ctx runId (.messagesDequeued agentId messageIds) (s.bus.remove agentId messageIds)
        fun record => (drained, some record)

end

/-! ## Histories of one run -/

inductive BusCall (B : Type) where
  | send (request : SendRequest B)
  | broadcast (request : BroadcastRequest B)
  | replaySend (request : SendRequest B)
  | replayBroadcast (request : BroadcastRequest B)
  | claim (agentId : AgentId) (claimId : String)
  | acknowledge (agentId : AgentId) (messageId : String)
  | drain (agentId : AgentId)
deriving DecidableEq, Repr

inductive BusAnswer (B : Type) where
  | sent (message : AgentMessage B) (record : Option (MessageRecord B))
  | broadcast (messages : List (AgentMessage B)) (record : Option (MessageRecord B))
  | replayedSend (message : Option (AgentMessage B))
  | replayedBroadcast (messages : Option (List (AgentMessage B)))
  | claimed (messages : List (AgentMessage B))
  | acknowledged (done : Bool) (record : Option (MessageRecord B))
  | drained (messages : List (AgentMessage B)) (record : Option (MessageRecord B))
  | done
deriving DecidableEq

def BusState.call [MessageBody B] (ctx : CallContext) (runId : RunId) (s : BusState B) :
    BusCall B → BusState B × IoResult (BusAnswer B)
  | .send request =>
    answered (fun (message, record) => .sent message record)
      (sendWithRequestedTeamId ctx runId s request)
  | .broadcast request =>
    answered (fun (messages, record) => .broadcast messages record)
      (broadcastWithId ctx runId s request)
  | .replaySend request => answered .replayedSend (replaySendWithId ctx runId s request)
  | .replayBroadcast request =>
    answered .replayedBroadcast (replayBroadcastWithId ctx runId s request)
  | .claim agentId claimId => answered .claimed (Messages.claim ctx runId s agentId claimId)
  | .acknowledge agentId messageId =>
    answered (fun (done, record) => .acknowledged done record)
      (Messages.acknowledge ctx runId s agentId messageId)
  | .drain agentId =>
    answered (fun (messages, record) => .drained messages record)
      (Messages.drain ctx runId s agentId)

inductive BusEvent (B : Type) where
  | call (ctx : CallContext) (call : BusCall B)
  /-- Another component writes a record, to this run or another. -/
  | elsewhere (ctx : CallContext) (runId : RunId) (recordType : String)
  /-- A new process reads the records of the run; if one cannot be decoded, none is started. -/
  | restart

/-- The bus under the calls of one run. -/
def busMachine [MessageBody B] (runId : RunId) :
    Machine (BusState B) (BusEvent B) (IoResult (BusAnswer B)) where
  step s
    | .call ctx call => s.call ctx runId call
    | .elsewhere ctx other recordType =>
      s.commit ctx other (.other recordType) s.bus fun _ => .done
    | .restart =>
      match s.storedRecords runId with
      | .ok records => (⟨.replay records, s.ledger⟩, .ok .done)
      | .error error => (s, .error error)

abbrev BusStep (B : Type) := Machine.Step (BusState B) (BusEvent B) (IoResult (BusAnswer B))

end SolarisMesh.Messages
