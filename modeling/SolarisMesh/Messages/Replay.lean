import SolarisMesh.Messages.Sync

/-!
# Replay and repeated ids

In every history whose direct ids are apart from the ids of broadcast copies, and whose bodies are
read as they were written, the records give back the bus, and a repeated send or broadcast is
answered as the first one and changes nothing.
-/

namespace SolarisMesh.Messages

open List Lib SolarisMesh.Types Ledger

variable {B : Type} [MessageBody B]

section

variable {ctx : CallContext} {runId : RunId} {direct broadcasts : Set String} {s s' : BusState B}

lemma inSync_trace [ExactBody B] (runId : RunId) (hapart : Apart direct broadcasts)
    {events : List (BusEvent B)} (hids : ∀ event ∈ events, event.DeliversUnder direct broadcasts) :
    (∀ x ∈ (busMachine runId).trace .empty events, InSync runId direct broadcasts x.before) ∧
      InSync runId direct broadcasts ((busMachine runId).run .empty events) := by
  have hstep : ∀ (s : BusState B) event, InSync runId direct broadcasts s →
      event.DeliversUnder direct broadcasts →
        InSync runId direct broadcasts ((busMachine runId).next s event) :=
    fun s event h hevent => h.step hapart hevent (step_write runId s event)
  have hevents : ∀ x ∈ (busMachine runId).trace .empty events,
      x.event.DeliversUnder direct broadcasts := by
    intro x hx
    exact hids _ (Machine.event_mem_of_mem_trace _ hx)
  exact ⟨Machine.trace_invariant hstep .empty hevents, Machine.run_of_trace hstep .empty hevents⟩

/-! ## Repeated ids -/

/-- The run's records only grow. -/
lemma BusWrite.grows {event : BusEvent B} (h : BusWrite runId s event s') :
    s.ledger.recordsForRun runId <+: s'.ledger.recordsForRun runId := by
  cases h with
  | kept | repaired hstored hrecord | restarted hstored => exact prefix_rfl
  | recorded hwrite hids hrecorded => exact ⟨_, hrecorded.recordsForRun.symm⟩
  | @elsewhere other recordType ledger record hrecorded =>
    by_cases hrun : runId = other
    · exact ⟨[record], hrun ▸ hrecorded.recordsForRun.symm⟩
    · exact (hrecorded.appended.recordsForRun_of_ne hrun).symm ▸ prefix_rfl

variable {events : List (BusEvent B)} {x : BusStep B}

lemma records_grow (runId : RunId) (s : BusState B) (events : List (BusEvent B)) :
    s.ledger.recordsForRun runId <+: ((busMachine runId).run s events).ledger.recordsForRun runId :=
  Machine.run_relation
    (R := fun s s' => s.ledger.recordsForRun runId <+: s'.ledger.recordsForRun runId)
    (P := fun _ => True) (fun _ => prefix_rfl) (fun _ _ _ => IsPrefix.trans) (fun _ _ _ => trivial)
    (fun s event _ => (step_write runId s event).grows) trivial events

/-- What a step of a history records is in its last state. -/
lemma records_grow_of_mem (hx : x ∈ (busMachine runId).trace .empty events) :
    x.after.ledger.recordsForRun runId <+:
      ((busMachine runId).run .empty events).ledger.recordsForRun runId := by
  obtain ⟨before, after, rfl, hstep⟩ := (busMachine runId).exists_of_mem_trace hx
  rw [Machine.run_append, hstep]
  exact records_grow runId _ after

variable {records : List (MessageRecord B)} {messages : List (AgentMessage B)}

lemma repair_eq_ok {α : Type} {seq : ℕ} {answer result : α}
    (h : s.repair seq records messages answer = (s', .ok result)) :
    s'.ledger = s.ledger ∧ answer = result := by
  rw [repair_eq] at h
  obtain ⟨rfl, hanswer⟩ := Prod.mk.inj h
  cases hrepair : (s.bus.repairDurableMessages seq records messages).2 with
  | error error =>
    rw [hrepair] at hanswer
    cases hanswer
  | ok =>
    rw [hrepair] at hanswer
    cases hanswer
    exact ⟨rfl, rfl⟩

/-- The records hold what a delivery was answered with. -/
def Holds {α β : Type} (runId : RunId) (s : BusState B) (delivery : Delivery B α β) (answer : β) :
    Prop :=
  ∃ record existing,
    findBound delivery.read (s.ledger.recordsForRun runId) = some (record, existing) ∧
      delivery.answers existing = true ∧ delivery.answer existing = answer

omit [MessageBody B] in
lemma findBound_append {α : Type} (read : MessagePayload B → Option α)
    (records written : List (MessageRecord B)) :
    findBound read (records ++ written) = (findBound read records).or (findBound read written) :=
  findSome?_append

omit [MessageBody B] in
lemma Holds.grow {α β : Type} {delivery : Delivery B α β} {answer : β}
    (h : Holds runId s delivery answer)
    (hgrows : s.ledger.recordsForRun runId <+: s'.ledger.recordsForRun runId) :
    Holds runId s' delivery answer := by
  obtain ⟨record, existing, hfound, hholds⟩ := h
  obtain ⟨written, hgrows⟩ := hgrows
  exact ⟨record, existing, by rw [← hgrows, findBound_append, hfound, Option.some_or], hholds⟩

lemma deliver_holds [ExactBody B] {α β : Type} {delivery : Delivery B α β}
    {admits : MessageBus B → IoResult Unit} {payload : MessagePayload B} {existing : α}
    {first answer : β} {record : Option (MessageRecord B)}
    (hread : delivery.read payload = some existing) (hanswers : delivery.answers existing = true)
    (hfirst : delivery.answer existing = first)
    (h : deliverUnlessReplayed ctx runId (s.replayDelivery ctx runId delivery) admits payload
      messages first = (s', .ok (answer, record))) : Holds runId s' delivery answer := by
  revert h
  refine deliver_ind (fun _ h => ?_) (fun _ record bound hstored hfound hbound h => ?_) ?_
  · cases h
  · obtain rfl := eq_of_storedRecords hstored
    obtain ⟨hledger, hsame⟩ := repair_eq_ok h
    exact ⟨record, bound, hledger ▸ hfound, hbound, congrArg Prod.fst hsame⟩
  · rintro _ hstored hnew - _ ⟨ledger, written, hrecorded, rfl⟩ h
    cases h
    obtain rfl := eq_of_storedRecords hstored
    refine ⟨written, existing, ?_, hanswers, hfirst⟩
    rw [hrecorded.recordsForRun, findBound_append, hnew, Option.none_or, findBound,
      findSome?_singleton, hrecorded.payload, hread]
    rfl

lemma send_holds [ExactBody B] {request : SendRequest B} {message : AgentMessage B}
    {record : Option (MessageRecord B)}
    (h : sendWithRequestedTeamId ctx runId s request = (s', .ok (message, record))) :
    Holds runId s' (request.delivery runId) message := by
  have hread : (request.delivery runId).read (.messageDelivered (request.durable ctx runId)) =
      some (request.durable ctx runId) := if_pos rfl
  refine deliver_holds hread ?_ rfl h
  simp [SendRequest.delivery, DurableDirectMessage.answers, SendRequest.durable,
    SendRequest.message, MessageBody.same_refl]

lemma broadcast_holds [ExactBody B] {request : BroadcastRequest B}
    {record : Option (MessageRecord B)}
    (h : broadcastWithId ctx runId s request = (s', .ok (messages, record))) :
    Holds runId s' (request.delivery runId (some request.recipients)) messages := by
  have hread : (request.delivery runId (some request.recipients)).read
      (.messagesBroadcast (request.durable ctx runId)) = some (request.durable ctx runId) :=
    if_pos rfl
  refine deliver_holds hread ?_ rfl h
  simp [BroadcastRequest.delivery, DurableBroadcast.answers, BroadcastRequest.durable,
    MessageBody.same_refl]

/-- The call of a step that was answered. -/
lemma call_of_step (hx : x = (busMachine runId).stepAt x.before x.event) {call : BusCall B}
    (hevent : x.event = .call ctx call) {answer : BusAnswer B} (hanswer : x.answer = .ok answer) :
    x.before.call ctx runId call = (x.after, .ok answer) := by
  rw [hevent] at hx
  rw [← hanswer, hx]
  rfl

/-- The records keep what a send of a history was answered with. -/
lemma sent_held [ExactBody B] (hx : x ∈ (busMachine runId).trace .empty events)
    {request : SendRequest B} {message : AgentMessage B} {record : Option (MessageRecord B)}
    (hevent : x.event = .call ctx (.send request))
      (hanswer : x.answer = .ok (.sent message record)) :
    Holds runId ((busMachine runId).run .empty events) (request.delivery runId) message := by
  have hstep := (busMachine runId).eq_stepAt_of_mem_trace hx
  obtain ⟨⟨sent, sentRecord⟩, hsent, htag⟩ := answered_eq_ok (call_of_step hstep hevent hanswer)
  cases htag
  exact (send_holds hsent).grow (records_grow_of_mem hx)

lemma broadcast_held [ExactBody B] (hx : x ∈ (busMachine runId).trace .empty events)
    {request : BroadcastRequest B} {record : Option (MessageRecord B)}
    (hevent : x.event = .call ctx (.broadcast request))
    (hanswer : x.answer = .ok (.broadcast messages record)) :
    Holds runId ((busMachine runId).run .empty events)
      (request.delivery runId (some request.recipients)) messages := by
  have hstep := (busMachine runId).eq_stepAt_of_mem_trace hx
  obtain ⟨⟨sent, sentRecord⟩, hsent, htag⟩ := answered_eq_ok (call_of_step hstep hevent hanswer)
  cases htag
  exact (broadcast_holds hsent).grow (records_grow_of_mem hx)

/-- A send under the same id with the same content; the team it resolves to may have changed. -/
structure SendRequest.SameContent (a b : SendRequest B) : Prop where
  messageId : a.messageId = b.messageId
  requestedTeamId : a.requestedTeamId = b.requestedTeamId
  fromAgent : a.fromAgent = b.fromAgent
  toAgent : a.toAgent = b.toAgent
  kind : a.kind = b.kind
  body : MessageBody.same a.body b.body = true

lemma SendRequest.SameContent.answers {a b : SendRequest B} (h : a.SameContent b)
    {durable : DurableDirectMessage B} (ha : durable.answers runId a = true) :
    durable.answers runId b = true := by
  simp only [DurableDirectMessage.answers, Bool.and_eq_true, ← h.requestedTeamId, ← h.fromAgent,
    ← h.toAgent, ← h.kind] at ha ⊢
  exact ⟨ha.1, MessageBody.same_trans ha.2 h.body⟩

/-- The call changes nothing, and answers this if it can read the records. -/
def Repeats (runId : RunId) (s : BusState B) (call : BusCall B) (answer : BusAnswer B) : Prop :=
  ∀ ctx : CallContext, (busMachine runId).next s (.call ctx call) = s ∧
    (ctx.readable = true → (busMachine runId).answer s (.call ctx call) = .ok answer)

/-- In sync a repair changes nothing and succeeds. -/
lemma InSync.repair_eq [ExactBody B] {α : Type} (h : InSync runId direct broadcasts s)
    {record : MessageRecord B} (hstored : s.storedRecords runId = .ok records)
    (hrecord : record ∈ records) (answer : α) :
    s.repair record.seq records record.payload.messages answer = (s, .ok answer) := by
  rw [Messages.repair_eq, h.repaired hstored hrecord]
  rfl

/-- A repeated delivery that the records hold is answered from them, or cannot read them. -/
lemma InSync.deliver_repeats [ExactBody B] {α β : Type} (h : InSync runId direct broadcasts s)
    {delivery : Delivery B α β} {answer : β} (hholds : Holds runId s delivery answer)
    (call : BusCall B) (tag : β × Option (MessageRecord B) → BusAnswer B)
    {admits : CallContext → MessageBus B → IoResult Unit} {payload : CallContext → MessagePayload B}
    {messages : CallContext → List (AgentMessage B)} {first : CallContext → β}
    (hcall : ∀ ctx, s.call ctx runId call = answered tag (deliverUnlessReplayed ctx runId
      (s.replayDelivery ctx runId delivery) (admits ctx) (payload ctx) (messages ctx)
        (first ctx))) :
    Repeats runId s call (tag (answer, none)) := by
  obtain ⟨record, existing, hfound, hanswers, rfl⟩ := hholds
  intro ctx
  show (s.call ctx runId call).1 = s ∧ (_ → (s.call ctx runId call).2 = _)
  rw [hcall, BusState.replayDelivery]
  cases hreadable : ctx.readable with
  | false =>
    have hunread : s.recordsForRun ctx runId =
        .error (otherError "query runtime ledger records") := by
      rw [BusState.recordsForRun, hreadable]
      rfl
    rw [hunread]
    exact ⟨rfl, fun htrue => by cases htrue⟩
  | true =>
    rw [recordsForRun_of_readable hreadable]
    dsimp only
    rw [hfound]
    dsimp only
    rw [if_pos hanswers, h.repair_eq (storedRecords_eq s runId) (mem_of_findBound hfound)]
    exact ⟨rfl, fun _ => rfl⟩

end

/-- A lead and a worker in a team with a limit. -/
def smallTeam (maxPendingMessages : ℕ) : CallContext where
  agents agentId := if agentId ∈ ["lead", "worker"] then some "run" else none
  teams teamId := if teamId = "team" then
      some ⟨"run", "team", "team", .team, some "lead", true, maxPendingMessages, 64,
        {"lead", "worker"}⟩
    else none
  nowUnixMs := 7
  readable := true
  writable := true

/-- A message of the lead to the worker. -/
def direct (messageId : String) (body : B) : SendRequest B :=
  ⟨messageId, some "team", some "team", "lead", "worker", "peer", body⟩

section

attribute [local instance] NumberReader.rounded

end

attribute [local instance] NumberReader.exact

/-- An empty body. -/
def noBody : ExactJson := ⟨.null, rfl, by decide⟩

def toWorker (broadcastId : String) : BroadcastRequest ExactJson :=
  ⟨broadcastId, "team", "lead", ["worker"], "broadcast", noBody⟩

/-- The worker claims, acknowledges and drains what the lead sends, with a restart between. -/
def workedOff : List (BusEvent ExactJson) :=
  [.call (smallTeam 2) (.send (direct "hello" noBody)), .call (smallTeam 2)
    (.claim "worker" "claim"), .call (smallTeam 2) (.broadcast (toWorker "b")), .restart,
    .call (smallTeam 2) (.claim "worker" "claim"),
    .call (smallTeam 2) (.acknowledge "worker" "hello"),
    .call (smallTeam 2) (.claim "worker" "claim"), .call (smallTeam 2) (.drain "worker")]

lemma apart_hello : Apart {"hello"} {"b"} := by
  intro broadcastId _ index hmem
  have hcolon : ':' ∈ ("hello" : String).toList := by
    rw [← Set.mem_singleton_iff.1 hmem, toList_broadcastMessageId]
    exact mem_append_right _ mem_cons_self
  exact absurd hcolon (by decide)

lemma workedOff_deliversUnder :
    ∀ event ∈ workedOff, event.DeliversUnder {"hello"} {"b"} := by
  intro event hevent
  simp only [workedOff, mem_cons, not_mem_nil, or_false] at hevent
  obtain rfl | rfl | rfl | rfl | rfl | rfl | rfl | rfl :=
    hevent <;> first | exact trivial | exact rfl

end SolarisMesh.Messages
