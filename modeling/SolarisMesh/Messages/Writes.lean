import SolarisMesh.Messages.Bus
import SolarisMesh.Ledger.Sequence

/-!
# What the calls of the message bus do

One lemma for each call says what it may do: fail and leave everything, answer from the records,
or write one record and make its change. From them follow what a step does to the state
(`BusWrite`) and the limits on what waits for a recipient.
-/

namespace SolarisMesh.Messages

open List Lib SolarisMesh.Types Ledger

variable {B : Type}

namespace MessageBus

variable (bus : MessageBus B) (messages : List (AgentMessage B))

@[simp] lemma setInbox_self (agentId : AgentId) (messages : List (AgentMessage B)) :
    (bus.setInbox agentId messages).inboxes agentId = messages :=
  Function.update_self ..

lemma setInbox_of_ne {agentId other : AgentId} (hne : other ≠ agentId)
    (messages : List (AgentMessage B)) :
    (bus.setInbox agentId messages).inboxes other = bus.inboxes other :=
  Function.update_of_ne hne ..

lemma setInbox_eq_self {bus : MessageBus B} {agentId : AgentId} {messages : List (AgentMessage B)}
    (h : bus.inboxes agentId = messages) : bus.setInbox agentId messages = bus := by
  rw [setInbox, ← h, Function.update_eq_self]

/-- What was delivered to a recipient stands behind what it had. -/
lemma foldl_push_inboxes (agentId : AgentId) : (messages.foldl push bus).inboxes agentId =
      bus.inboxes agentId ++ messages.filter (·.toAgent = agentId) := by
  induction messages generalizing bus with
  | nil => rw [foldl_nil, filter_nil, append_nil]
  | cons message messages ih =>
    rw [foldl_cons, ih]
    by_cases hto : message.toAgent = agentId
    · rw [filter_cons_of_pos (by simpa using hto), ← hto, push, setInbox_self,
        append_assoc, singleton_append]
    · rw [filter_cons_of_neg (by simpa using hto), push,
        setInbox_of_ne _ (Ne.symm hto)]

@[simp] lemma foldl_push_claims : (messages.foldl push bus).claims = bus.claims := by
  induction messages generalizing bus with
  | nil => rfl
  | cons message messages ih => exact ih _

end MessageBus

/-! ## One record -/

/-- One record with this payload was written to the run. -/
structure Recorded (runId : RunId) (s s' : BusState B) (payload : MessagePayload B)
    (record : MessageRecord B) : Prop where
  appended : Appended runId s.ledger s'.ledger [record]
  payload : record.payload = payload

/-- The call wrote its record, made its change and answered. -/
def Written {α : Type} (runId : RunId) (s : BusState B) (payload : MessagePayload B)
    (bus : MessageBus B) (answer : MessageRecord B → α) (result : BusState B × IoResult α) : Prop :=
  ∃ ledger record, Recorded runId s ⟨bus, ledger⟩ payload record ∧
    result = (⟨bus, ledger⟩, .ok (answer record))

section

variable {ctx : CallContext} {runId : RunId} {s : BusState B}

variable {records : List (MessageRecord B)} {durable : DurableDirectMessage B}

lemma recordsForRun_eq_ok [MessageBody B] (h : s.recordsForRun ctx runId = .ok records) :
    s.storedRecords runId = .ok records :=
  (check_bind_eq_ok.1 h).2

/-! ### Exact bodies -/

section

variable [MessageBody B] [ExactBody B]

lemma AgentMessage.reread_eq {level : ℕ} (hlevel : level ≤ 3) (message : AgentMessage B) :
    message.reread level = some message := by
  rw [AgentMessage.reread, ExactBody.reread_eq level hlevel]
  rfl

lemma MessagePayload.reread_eq (payload : MessagePayload B) : payload.reread = some payload := by
  cases payload with
  | messageDelivered durable =>
    rw [reread, durable.message.reread_eq (by decide)]
    rfl
  | messagesBroadcast durable =>
    have hmessages : durable.messages.mapM (·.reread 3) = some durable.messages := by
      rw [funext (AgentMessage.reread_eq le_rfl)]
      exact mapM_pure.trans (congrArg some (map_id _))
    rw [reread, DurableBroadcast.reread, ExactBody.reread_eq 1 (by decide), hmessages]
    rfl
  | messageAcknowledged | messagesClaimed | messagesDequeued | other => rfl

/-- Exact bodies are decoded as they were written. -/
lemma storedRecords_eq (s : BusState B) (runId : RunId) :
    s.storedRecords runId = .ok (s.ledger.recordsForRun runId) := by
  refine mapM_eq_ok.2 (forall₂_same.2 fun record _ => ?_)
  rw [record.payload.reread_eq]
  rfl

lemma eq_of_storedRecords (h : s.storedRecords runId = .ok records) :
    records = s.ledger.recordsForRun runId :=
  (Except.ok.inj ((storedRecords_eq s runId).symm.trans h)).symm

lemma recordsForRun_of_readable (h : ctx.readable = true) :
    s.recordsForRun ctx runId = .ok (s.ledger.recordsForRun runId) := by
  rw [BusState.recordsForRun, h]
  exact storedRecords_eq s runId

end

/-- A commit fails and leaves everything, or it writes its record and makes the change. -/
@[elab_as_elim]
lemma commit_ind {α : Type} {payload : MessagePayload B} {bus : MessageBus B}
    {answer : MessageRecord B → α} {motive : BusState B × IoResult α → Prop}
    (failed : ∀ error, motive (s, .error error))
    (written : ∀ result, Written runId s payload bus answer result → motive result) :
    motive (s.commit ctx runId payload bus answer) := by
  unfold BusState.commit
  cases happend : s.append ctx runId payload with
  | error error => exact failed error
  | ok pair =>
    obtain ⟨ledger, record⟩ := pair
    refine written _ ⟨ledger, record, ?_, rfl⟩
    obtain ⟨-, happend⟩ := check_bind_eq_ok.1 happend
    obtain ⟨seq, hseq, happend⟩ := bind_eq_ok.1 happend
    rw [pure_eq_ok] at happend
    have hinsert := appended_insertRecord s.ledger runId ctx.nowUnixMs .syncCritical
      payload.recordType payload (allocateSqliteSequence_eq_ok hseq)
    rw [happend] at hinsert
    refine ⟨hinsert, ?_⟩
    have hrecord : (s.ledger.insertRecord seq runId ctx.nowUnixMs .syncCritical
      payload.recordType payload).2 = record := congrArg Prod.snd happend
    rw [← hrecord]
    rfl

variable {record : MessageRecord B} {messageId broadcastId : String}

lemma Recorded.recordsForRun {s' : BusState B} {payload : MessagePayload B}
    (h : Recorded runId s s' payload record) :
    s'.ledger.recordsForRun runId = s.ledger.recordsForRun runId ++ [record] :=
  h.appended.recordsForRun_self

/-! ## Sending -/

variable {α β : Type}

lemma mem_of_findBound {read : MessagePayload B → Option α} {bound : α}
    (h : findBound read records = some (record, bound)) : record ∈ records := by
  obtain ⟨found, hrecord, hfound⟩ := exists_of_findSome?_eq_some h
  obtain ⟨_, -, hpair⟩ := Option.map_eq_some_iff.1 hfound
  cases hpair
  exact hrecord

lemma findBound_eq_none {read : MessagePayload B → Option α} :
    findBound read records = none ↔ ∀ record ∈ records, read record.payload = none := by
  simp only [findBound, findSome?_eq_none_iff, Option.map_eq_none_iff]

variable [MessageBody B]

/-- A repeated request fails and leaves everything, finds no record, or repairs the messages of its
record. -/
@[elab_as_elim]
lemma replayDelivery_ind {delivery : Delivery B α β}
    {motive : BusState B × IoResult (Option β) → Prop}
    (failed : ∀ error, motive (s, .error error))
    (absent : ∀ records, s.storedRecords runId = .ok records → findBound delivery.read records =
      none → motive (s, .ok none))
    (repaired : ∀ records record existing, s.storedRecords runId = .ok records →
      findBound delivery.read records = some (record, existing) →
      delivery.answers existing = true →
      motive (s.repair record.seq records record.payload.messages
        (some (delivery.answer existing)))) :
    motive (s.replayDelivery ctx runId delivery) := by
  unfold BusState.replayDelivery
  cases hread : s.recordsForRun ctx runId with
  | error error => exact failed error
  | ok records =>
    have hstored := recordsForRun_eq_ok hread
    dsimp only
    cases hfound : findBound delivery.read records with
    | none => exact absent records hstored hfound
    | some found =>
      dsimp only
      split
      · next hanswers => exact repaired records _ _ hstored hfound hanswers
      · exact failed _

/-- The answer of a repair. -/
lemma repair_eq (seq : ℕ) (records : List (MessageRecord B))
    (messages : List (AgentMessage B)) (answer : α) :
    s.repair seq records messages answer =
      (⟨(s.bus.repairDurableMessages seq records messages).1, s.ledger⟩,
        (s.bus.repairDurableMessages seq records messages).2.map fun _ => answer) := rfl

/-- A delivery fails and leaves everything, repairs and answers the messages of its record, or
delivers new messages that were admitted. -/
@[elab_as_elim]
lemma deliver_ind {delivery : Delivery B α β} {admits : MessageBus B → IoResult Unit}
    {payload : MessagePayload B} {messages : List (AgentMessage B)} {answer : β}
    {motive : BusState B × IoResult (β × Option (MessageRecord B)) → Prop}
    (failed : ∀ error, motive (s, .error error))
    (repaired : ∀ records record existing, s.storedRecords runId = .ok records →
      findBound delivery.read records = some (record, existing) →
      delivery.answers existing = true →
      motive (s.repair record.seq records record.payload.messages
        (delivery.answer existing, none)))
    (sent : ∀ records, s.storedRecords runId = .ok records → findBound delivery.read records =
      none → admits s.bus = .ok () → ∀ result, Written runId s payload
        (messages.foldl MessageBus.push s.bus) (fun record => (answer, some record)) result →
          motive result) :
    motive (deliverUnlessReplayed ctx runId (s.replayDelivery ctx runId delivery) admits payload
      messages answer) := by
  unfold deliverUnlessReplayed
  refine replayDelivery_ind failed (fun records hstored hnone => ?_)
    fun records record existing hstored hfound hanswers => ?_
  · dsimp only
    cases hadmits : admits s.bus with
    | error error => exact failed error
    | ok => exact commit_ind failed (sent records hstored hnone hadmits)
  · refine cast (congrArg motive ?_) (repaired records record existing hstored hfound hanswers)
    rw [repair_eq, repair_eq]
    cases (s.bus.repairDurableMessages record.seq records record.payload.messages).2 <;> rfl

/-! ## Receiving -/

variable {agentId : AgentId} {claimId : String}

/-- A claim fails, is answered from its record or from an empty inbox, or claims what waits. -/
@[elab_as_elim]
lemma claim_ind {motive : BusState B × IoResult (List (AgentMessage B)) → Prop}
    (failed : ∀ error, motive (s, .error error))
    (repeated : ∀ records ids, s.storedRecords runId = .ok records →
      findClaim records agentId claimId = some ids →
      motive (s, .ok ((s.bus.inboxes agentId).filter fun message =>
        message.isPending && ids.contains message.messageId)))
    (empty : motive (s, .ok []))
    (claimed : ∀ records, s.storedRecords runId = .ok records →
      findClaim records agentId claimId = none → ∀ result, Written runId s
        (.messagesClaimed agentId claimId ((s.bus.claimable runId agentId).map (·.messageId)))
        (s.bus.restoreClaim claimId ((s.bus.claimable runId agentId).map (·.messageId)))
        (fun _ => s.bus.claimable runId agentId) result → motive result) :
    motive (claim ctx runId s agentId claimId) := by
  unfold claim
  cases hagent : validateAgentRun ctx runId agentId with
  | error error => exact failed error
  | ok =>
    dsimp only
    cases hread : s.recordsForRun ctx runId with
    | error error => exact failed error
    | ok records =>
      have hstored := recordsForRun_eq_ok hread
      dsimp only
      cases hfound : findClaim records agentId claimId with
      | some ids => exact repeated records ids hstored hfound
      | none =>
        dsimp only
        split
        · exact empty
        · exact commit_ind failed (claimed records hstored hfound)

omit [MessageBody B] in
/-- An acknowledgement leaves everything, or it acknowledges a waiting message. -/
@[elab_as_elim]
lemma acknowledge_ind {motive : BusState B × IoResult (Bool × Option (MessageRecord B)) → Prop}
    (kept : ∀ answer, (∀ record, answer = .ok (true, record) →
        ∃ message, (s.bus.inboxes agentId).find? (·.messageId = messageId) = some message ∧
          message.acknowledgedAtUnixMs.isSome = true) → motive (s, answer))
    (acknowledged : ∀ message,
      (s.bus.inboxes agentId).find? (·.messageId = messageId) = some message →
      ∀ result, Written runId s (.messageAcknowledged messageId agentId ctx.nowUnixMs)
        (s.bus.restoreAcknowledgement agentId messageId ctx.nowUnixMs)
        (fun record => (true, some record)) result → motive result) :
    motive (acknowledge ctx runId s agentId messageId) := by
  have failed : ∀ error, motive (s, .error error) := fun error => kept _ fun _ h => nomatch h
  unfold acknowledge
  cases hagent : validateAgentRun ctx runId agentId with
  | error error => exact failed error
  | ok =>
    dsimp only
    cases hfound : (s.bus.inboxes agentId).find? (·.messageId = messageId) with
    | none => exact kept _ fun _ h => nomatch h
    | some message =>
      dsimp only
      split
      · exact failed _
      · split
        · next hdone => exact kept _ fun _ _ => ⟨message, hfound, hdone⟩
        · exact commit_ind failed (acknowledged message hfound)

omit [MessageBody B] in
/-- A drain leaves everything and answers nothing, or it removes the messages of the run. -/
@[elab_as_elim]
lemma drain_ind
    {motive : BusState B × IoResult (List (AgentMessage B) × Option (MessageRecord B)) → Prop}
    (kept : ∀ answer, (∀ messages record, answer = .ok (messages, record) → messages = []) →
      motive (s, answer))
    (drained : ∀ result, Written runId s
      (.messagesDequeued agentId ((s.bus.ofRun runId agentId).map (·.messageId)))
      (s.bus.remove agentId ((s.bus.ofRun runId agentId).map (·.messageId)))
      (fun record => (s.bus.ofRun runId agentId, some record)) result → motive result) :
    motive (drain ctx runId s agentId) := by
  have failed : ∀ error, motive (s, .error error) := fun error => kept _ fun _ _ h => nomatch h
  unfold drain
  cases hagent : validateAgentRun ctx runId agentId with
  | error error => exact failed error
  | ok =>
    dsimp only
    split
    · refine kept _ fun messages record h => ?_
      cases h
      rfl
    · exact commit_ind failed drained

/-! ## Steps -/

/-- The payload of a new record and the change it makes. -/
inductive PayloadWrite (runId : RunId) (s : BusState B) : MessagePayload B → MessageBus B → Prop
  | sent {ctx : CallContext} {request : SendRequest B} {records : List (MessageRecord B)}
      (hstored : s.storedRecords runId = .ok records)
      (hnew : findDelivered records request.messageId = none) :
      PayloadWrite runId s
        (.messageDelivered (request.durable ctx runId)) (s.bus.push (request.message ctx runId))
  | broadcast {ctx : CallContext} {request : BroadcastRequest B} {records : List (MessageRecord B)}
      (hstored : s.storedRecords runId = .ok records)
      (hnew : findBroadcast records request.broadcastId = none) :
      PayloadWrite runId s (.messagesBroadcast (request.durable ctx runId))
        ((request.messages ctx runId).foldl MessageBus.push s.bus)
  | claimed (agentId : AgentId) (claimId : String) :
      PayloadWrite runId s
        (.messagesClaimed agentId claimId ((s.bus.claimable runId agentId).map (·.messageId)))
        (s.bus.restoreClaim claimId ((s.bus.claimable runId agentId).map (·.messageId)))
  | acknowledged {agentId : AgentId} {messageId : String} {message : AgentMessage B}
      (hfound : (s.bus.inboxes agentId).find? (·.messageId = messageId) = some message)
      (nowUnixMs : ℤ) :
      PayloadWrite runId s (.messageAcknowledged messageId agentId nowUnixMs)
        (s.bus.restoreAcknowledgement agentId messageId nowUnixMs)
  | dequeued (agentId : AgentId) :
      PayloadWrite runId s
        (.messagesDequeued agentId ((s.bus.ofRun runId agentId).map (·.messageId)))
        (s.bus.remove agentId ((s.bus.ofRun runId agentId).map (·.messageId)))

/-- The ids a call may deliver under. -/
def BusEvent.DeliversUnder (direct broadcasts : Set String) : BusEvent B → Prop
  | .call _ (.send request) => request.messageId ∈ direct
  | .call _ (.broadcast request) => request.broadcastId ∈ broadcasts
  | _ => True

def MessagePayload.DeliversUnder (direct broadcasts : Set String) : MessagePayload B → Prop
  | .messageDelivered durable => durable.message.messageId ∈ direct
  | .messagesBroadcast durable => durable.broadcastId ∈ broadcasts
  | _ => True

/-- What a step does to the state. -/
inductive BusWrite (runId : RunId) (s : BusState B) (event : BusEvent B) : BusState B → Prop
  | kept : BusWrite runId s event s
  | repaired {records : List (MessageRecord B)} {record : MessageRecord B}
      (hstored : s.storedRecords runId = .ok records) (hrecord : record ∈ records) :
      BusWrite runId s event
        ⟨(s.bus.repairDurableMessages record.seq records record.payload.messages).1, s.ledger⟩
  | recorded {payload : MessagePayload B} {bus : MessageBus B}
      {ledger : LedgerState (MessagePayload B)} {record : MessageRecord B}
      (hwrite : PayloadWrite runId s payload bus)
      (hids : ∀ direct broadcasts, event.DeliversUnder direct broadcasts →
        payload.DeliversUnder direct broadcasts)
      (hrecorded : Recorded runId s ⟨bus, ledger⟩ payload record) :
      BusWrite runId s event ⟨bus, ledger⟩
  | elsewhere {other : RunId} {recordType : String} {ledger : LedgerState (MessagePayload B)}
      {record : MessageRecord B}
      (hrecorded : Recorded other s ⟨s.bus, ledger⟩ (.other recordType) record) :
      BusWrite runId s event ⟨s.bus, ledger⟩
  | restarted {records : List (MessageRecord B)} (hstored : s.storedRecords runId = .ok records) :
      BusWrite runId s event ⟨.replay records, s.ledger⟩

/-- A repeated request leaves everything or repairs. -/
lemma replay_write (delivery : Delivery B α β) (event : BusEvent B) :
    BusWrite runId s event (s.replayDelivery ctx runId delivery).1 :=
  replayDelivery_ind (fun _ => .kept) (fun _ _ _ => .kept) fun _ _ _ hstored hfound _ =>
    .repaired hstored (mem_of_findBound hfound)

lemma call_write (ctx : CallContext) (runId : RunId) (s : BusState B) (call : BusCall B) :
    BusWrite runId s (.call ctx call) (s.call ctx runId call).1 := by
  cases call <;> dsimp only [BusState.call, answered]
  case send request =>
    rw [sendWithRequestedTeamId, replaySendWithId]
    refine deliver_ind (fun _ => .kept)
      (fun _ _ _ hstored hfound _ => .repaired hstored (mem_of_findBound hfound)) ?_
    rintro records hstored hnew - _ ⟨ledger, record, hrecorded, rfl⟩
    exact .recorded (.sent hstored hnew) (fun _ _ hids => hids) hrecorded
  case broadcast request =>
    rw [broadcastWithId, replayBroadcastWithRecipients]
    refine deliver_ind (fun _ => .kept)
      (fun _ _ _ hstored hfound _ => .repaired hstored (mem_of_findBound hfound)) ?_
    rintro records hstored hnew - _ ⟨ledger, record, hrecorded, rfl⟩
    exact .recorded (.broadcast hstored hnew) (fun _ _ hids => hids) hrecorded
  case replaySend => exact replay_write ..
  case replayBroadcast => exact replay_write ..
  case claim agentId claimId =>
    refine claim_ind (fun _ => .kept) (fun _ _ _ _ => .kept) .kept ?_
    rintro - - - _ ⟨ledger, record, hrecorded, rfl⟩
    exact .recorded (.claimed agentId claimId) (fun _ _ _ => trivial) hrecorded
  case acknowledge =>
    refine acknowledge_ind (fun _ _ => .kept) ?_
    rintro message hfound _ ⟨ledger, record, hrecorded, rfl⟩
    exact .recorded (.acknowledged hfound _) (fun _ _ _ => trivial) hrecorded
  case drain agentId =>
    refine drain_ind (fun _ _ => .kept) ?_
    rintro _ ⟨ledger, record, hrecorded, rfl⟩
    exact .recorded (.dequeued agentId) (fun _ _ _ => trivial) hrecorded

/-- Every step is one of these writes. -/
lemma step_write (runId : RunId) (s : BusState B) (event : BusEvent B) :
    BusWrite runId s event ((busMachine runId).next s event) := by
  cases event with
  | call ctx call => exact call_write ctx runId s call
  | elsewhere ctx other recordType =>
    show BusWrite runId s _ (s.commit ctx other (.other recordType) s.bus fun _ => BusAnswer.done).1
    refine commit_ind (fun _ => .kept) ?_
    rintro _ ⟨ledger, record, hrecorded, rfl⟩
    exact .elsewhere hrecorded
  | restart =>
    cases hstored : s.storedRecords runId with
    | error error =>
      have hnext : (busMachine runId).next s .restart = s :=
        by simp [Machine.next, busMachine, hstored]
      rw [hnext]
      exact .kept
    | ok records =>
      have hnext : (busMachine runId).next s .restart = ⟨.replay records, s.ledger⟩ := by
        simp [Machine.next, busMachine, hstored]
      rw [hnext]
      exact .restarted hstored

end

end SolarisMesh.Messages
