import SolarisMesh.Messages.Replay

/-!
# Limits on waiting messages

What is delivered leaves its recipients within the limit they are under, and a broadcast is
delivered to all its recipients or to none.
-/

namespace SolarisMesh.Messages

open List Lib SolarisMesh.Types Ledger MessageBus

variable {B : Type} [MessageBody B]

section

variable {ctx : CallContext} {runId : RunId} {bus : MessageBus B}

lemma validateAgentRun_eq_ok {agentId : AgentId} {u : Unit}
    (h : validateAgentRun ctx runId agentId = .ok u) : ctx.agents agentId = some runId := by
  obtain ⟨run, hrun, h⟩ := bind_eq_ok.1 h
  rw [orElseThrow_eq_ok] at hrun
  rw [require_eq_ok, decide_eq_true_eq] at h
  rw [hrun, h]

lemma messageTeam_eq_ok {teamId : TeamId} {team : TeamRecord}
    (h : messageTeam ctx teamId = .ok team) :
    ctx.teams teamId = some team ∧ team.messageLimitsValid = true := by
  simp only [messageTeam, bind_eq_ok, orElseThrow_eq_ok, require_eq_ok, pure_eq_ok] at h
  obtain ⟨_, hfound, _, hvalid, rfl⟩ := h
  exact ⟨hfound, hvalid⟩

/-- The limit on waiting messages that a direct message is under. -/
def SendRequest.limit (request : SendRequest B) (ctx : CallContext) : ℕ :=
  (request.effectiveTeamId.bind ctx.teams).elim defaultMaxPendingMessages (·.maxPendingMessages)

lemma admitSend_eq_ok {request : SendRequest B} {u : Unit}
    (h : admitSend ctx runId bus request = .ok u) :
    bus.pendingMessages request.toAgent < request.limit ctx := by
  simp only [admitSend, bind_eq_ok] at h
  obtain ⟨_, -, _, -, ⟨maxPending, maxBytes⟩, hlimits, _, -, h⟩ := h
  have hroom : bus.pendingMessages request.toAgent < maxPending := by simpa using h
  suffices hlimit : request.limit ctx = maxPending by rwa [hlimit]
  unfold sendLimits at hlimits
  unfold SendRequest.limit
  cases hteam : request.effectiveTeamId with
  | none =>
    rw [hteam] at hlimits
    cases hlimits
    rfl
  | some teamId =>
    rw [hteam] at hlimits
    simp only [bind_eq_ok] at hlimits
    obtain ⟨team, hfound, _, -, hlimits⟩ := hlimits
    cases hlimits
    rw [Option.bind_some, (messageTeam_eq_ok hfound).1]
    rfl

/-- What a broadcast is checked for. -/
structure BroadcastAdmitted (ctx : CallContext) (runId : RunId) (bus : MessageBus B)
    (request : BroadcastRequest B) (team : TeamRecord) : Prop where
  registered : ctx.teams request.teamId = some team
  limits : team.messageLimitsValid = true
  run : team.runId = runId
  sender : ctx.agents request.fromAgent = some runId ∧ request.fromAgent ∈ team.members
  recipients : ∀ recipient ∈ request.recipients,
    ctx.agents recipient = some runId ∧ recipient ∈ team.members
  body : MessageBody.encodedSize request.body ≤ team.maxMessageBytes
  room : ∀ recipient ∈ request.recipients,
    bus.pendingMessages recipient + request.recipients.count recipient ≤ team.maxPendingMessages

lemma validateRecipients_eq_ok {team : TeamRecord} {recipients : List AgentId} {u : Unit}
    (h : validateRecipients ctx runId team recipients = .ok u) :
    ∀ recipient ∈ recipients, ctx.agents recipient = some runId ∧ recipient ∈ team.members := by
  induction recipients with
  | nil => exact forall_mem_nil _
  | cons first rest ih =>
    obtain ⟨hagent, h⟩ := check_bind_eq_ok.1 h
    obtain ⟨hmember, h⟩ := check_bind_eq_ok.1 h
    rw [require_eq_ok, decide_eq_true_eq] at hmember
    intro recipient hmem
    rcases mem_cons.1 hmem with rfl | hmem
    · exact ⟨validateAgentRun_eq_ok hagent, hmember⟩
    · exact ih h recipient hmem

omit [MessageBody B] in
lemma validateRoom_eq_ok {maxPending : ℕ} {recipients rest : List AgentId} {u : Unit}
    (h : validateRoom bus maxPending recipients rest = .ok u) :
    ∀ recipient ∈ rest,
      bus.pendingMessages recipient + recipients.count recipient ≤ maxPending := by
  induction rest with
  | nil => exact forall_mem_nil _
  | cons first rest ih =>
    obtain ⟨hroom, h⟩ := check_bind_eq_ok.1 h
    rw [require_eq_ok, decide_eq_true_eq] at hroom
    intro recipient hmem
    rcases mem_cons.1 hmem with rfl | hmem
    · exact hroom
    · exact ih h recipient hmem

lemma admitBroadcast_eq_ok {request : BroadcastRequest B} {u : Unit}
    (h : admitBroadcast ctx runId bus request = .ok u) :
    ∃ team, BroadcastAdmitted ctx runId bus request team := by
  simp only [admitBroadcast, bind_eq_ok] at h
  obtain ⟨_, hsender, team, hteam, _, hmember, _, hrecipients, _, hbody, hroom⟩ := h
  rw [require_eq_ok, Bool.and_eq_true, decide_eq_true_eq, decide_eq_true_eq] at hmember
  obtain ⟨hfound, hlimits⟩ := messageTeam_eq_ok hteam
  exact ⟨team, hfound, hlimits, hmember.1, ⟨validateAgentRun_eq_ok hsender, hmember.2⟩,
    validateRecipients_eq_ok hrecipients, by simpa [validateBodySize] using hbody,
    validateRoom_eq_ok hroom⟩

omit [MessageBody B] in
/-- New messages for an agent add to what waits for it. -/
lemma pendingMessages_foldl_push {messages : List (AgentMessage B)}
    (hpending : ∀ message ∈ messages, message.acknowledgedAtUnixMs = none) (agentId : AgentId) :
    (messages.foldl push bus).pendingMessages agentId =
      bus.pendingMessages agentId + (messages.map (·.toAgent)).count agentId := by
  rw [pendingMessages, inbox, foldl_push_inboxes,
    filter_append, length_append, pendingMessages, inbox]
  congr 1
  rw [filter_eq_self.2 fun message hmessage => ?_, List.count, countP_map,
    countP_eq_length_filter]
  · rfl
  · rw [AgentMessage.isPending, hpending message (mem_filter.1 hmessage).1]
    rfl

omit [MessageBody B] in
lemma messages_toAgent (ctx : CallContext) (runId : RunId) (request : BroadcastRequest B) :
    (request.messages ctx runId).map (·.toAgent) = request.recipients := by
  rw [BroadcastRequest.messages, map_map]
  exact zipIdx_map_fst ..

end

/-- What a send or a broadcast does to the inboxes. -/
structure WithinLimits (runId : RunId) (x : BusStep B) : Prop where
  /-- A new direct message leaves its recipient within the limit. -/
  send : ∀ ctx request message record, x.event = .call ctx (.send request) →
    x.answer = .ok (.sent message (some record)) →
      x.after.bus.pendingMessages request.toAgent ≤ request.limit ctx
  /-- A new broadcast was admitted for all its recipients, is one record, stands behind what each
  inbox had, and leaves every recipient within the limit. -/
  broadcast : ∀ ctx request messages record, x.event = .call ctx (.broadcast request) →
    x.answer = .ok (.broadcast messages (some record)) →
      (∃ team, BroadcastAdmitted ctx runId x.before.bus request team ∧
        ∀ recipient ∈ request.recipients,
          x.after.bus.pendingMessages recipient ≤ team.maxPendingMessages) ∧
      x.after.ledger.recordsForRun runId = x.before.ledger.recordsForRun runId ++ [record] ∧
      messages.map (·.toAgent) = request.recipients ∧
      ∀ agentId, x.after.bus.inboxes agentId =
        x.before.bus.inboxes agentId ++ messages.filter (·.toAgent = agentId)
  /-- Any other broadcast leaves the ledger; it leaves everything if its id is new. -/
  refused : ∀ ctx request, x.event = .call ctx (.broadcast request) →
    (∀ messages record, x.answer ≠ .ok (.broadcast messages (some record))) →
      x.after.ledger = x.before.ledger ∧
        (findBroadcast (x.before.ledger.recordsForRun runId) request.broadcastId = none →
          x.after = x.before)
  /-- Without room for all recipients a new broadcast is refused. -/
  admitted : ∀ ctx request, x.event = .call ctx (.broadcast request) →
    (∀ team, ¬BroadcastAdmitted ctx runId x.before.bus request team) →
      ∀ messages record, x.answer ≠ .ok (.broadcast messages (some record))

section

variable {runId : RunId} {s s' : BusState B}

variable {ctx : CallContext} {request : BroadcastRequest B}

/-- What a delivery answers with a record is new and was admitted. -/
lemma delivered_new {α β : Type} {delivery : Delivery B α β} {admits : MessageBus B → IoResult Unit}
    {payload : MessagePayload B} {messages : List (AgentMessage B)} {answer result : β}
    {record : MessageRecord B}
    (h : deliverUnlessReplayed ctx runId (s.replayDelivery ctx runId delivery) admits payload
      messages answer = (s', .ok (result, some record))) :
    admits s.bus = .ok () ∧ answer = result ∧ s'.bus = messages.foldl push s.bus ∧
      s'.ledger.recordsForRun runId = s.ledger.recordsForRun runId ++ [record] := by
  revert h
  refine deliver_ind (fun _ h => ?_) (fun _ _ _ _ _ _ h => ?_) ?_
  · cases h
  · cases (repair_eq_ok h).2
  · rintro - - - hadmits _ ⟨ledger, written, hrecorded, rfl⟩ h
    cases h
    exact ⟨hadmits, rfl, rfl, hrecorded.recordsForRun⟩

lemma sent_within {request : SendRequest B} {message : AgentMessage B} {record : MessageRecord B}
    (h : sendWithRequestedTeamId ctx runId s request = (s', .ok (message, some record))) :
    s'.bus.pendingMessages request.toAgent ≤ request.limit ctx := by
  obtain ⟨hadmits, -, hbus, -⟩ := delivered_new h
  have hroom := admitSend_eq_ok hadmits
  have hpending : ∀ message ∈ [request.message ctx runId],
      message.acknowledgedAtUnixMs = none := by
    intro message hmessage
    rw [mem_singleton.1 hmessage]
    rfl
  rw [hbus, pendingMessages_foldl_push hpending, map_singleton]
  have hone : [(request.message ctx runId).toAgent].count request.toAgent = 1 :=
    count_singleton_self
  omega

/-- A broadcast is decoded under the id it was written with. -/
lemma findBroadcast_stored {records : List (MessageRecord B)} {broadcastId : String}
    (hstored : s.storedRecords runId = .ok records)
    (hnone : findBroadcast (s.ledger.recordsForRun runId) broadcastId = none) :
    findBroadcast records broadcastId = none := by
  have hall := mapM_eq_ok.1 hstored
  clear hstored
  generalize s.ledger.recordsForRun runId = written at hall hnone
  rw [findBroadcast, findBound_eq_none] at hnone ⊢
  induction hall with
  | nil => exact forall_mem_nil _
  | @cons record _ _ _ hdecoded _ ih =>
    obtain ⟨hfirst, hrest⟩ := forall_mem_cons.1 hnone
    refine forall_mem_cons.2 ⟨?_, ih hrest⟩
    obtain ⟨payload, hpayload, hrecord⟩ := bind_eq_ok.1 hdecoded
    cases hrecord
    rw [orElseThrow_eq_ok] at hpayload
    cases hwritten : record.payload with
    | messagesBroadcast durable =>
      rw [hwritten] at hpayload hfirst
      obtain ⟨decoded, hreread, hpayload⟩ := Option.bind_eq_some_iff.1 hpayload
      obtain ⟨_, -, hreread⟩ := Option.bind_eq_some_iff.1 hreread
      obtain ⟨_, -, hreread⟩ := Option.bind_eq_some_iff.1 hreread
      cases hreread
      cases hpayload
      rw [MessagePayload.broadcast, ite_eq_right_iff] at hfirst
      exact if_neg fun hid => absurd (hfirst hid) (by simp)
    | messageDelivered durable =>
      rw [hwritten] at hpayload
      obtain ⟨_, -, hpayload⟩ := Option.bind_eq_some_iff.1 hpayload
      cases hpayload
      rfl
    | _ =>
      rw [hwritten] at hpayload
      cases hpayload
      rfl

/-- Every step keeps the limits. -/
lemma step_within (runId : RunId) (s : BusState B) (event : BusEvent B) :
    WithinLimits runId ((busMachine runId).stepAt s event) := by
  have hbroadcast : ∀ {ctx request messages record},
      ((busMachine runId).stepAt s event).event = .call ctx (.broadcast request) →
      ((busMachine runId).stepAt s event).answer = .ok (.broadcast messages (some record)) →
        broadcastWithId ctx runId s request =
          (((busMachine runId).stepAt s event).after, .ok (messages, some record)) := by
    intro ctx request messages record hevent hanswer
    obtain ⟨⟨sent, sentRecord⟩, hsent, htag⟩ := answered_eq_ok (call_of_step rfl hevent hanswer)
    cases htag
    exact hsent
  refine ⟨fun ctx request message record hevent hanswer => ?_,
    fun ctx request messages record hevent hanswer => ?_, fun ctx request hevent hrefused => ?_,
    fun ctx request hevent hnone messages record hanswer => ?_⟩
  · obtain ⟨⟨sent, sentRecord⟩, hsent, htag⟩ := answered_eq_ok (call_of_step rfl hevent hanswer)
    cases htag
    exact sent_within hsent
  · obtain ⟨hadmits, rfl, hbus, hrecords⟩ := delivered_new (hbroadcast hevent hanswer)
    obtain ⟨team, hteam⟩ := admitBroadcast_eq_ok hadmits
    rw [hbus]
    refine ⟨⟨team, hteam, fun recipient hrecipient => ?_⟩, hrecords,
      messages_toAgent ctx runId request, fun agentId => foldl_push_inboxes ..⟩
    have hpending : ∀ message ∈ request.messages ctx runId,
        message.acknowledgedAtUnixMs = none := by
      intro message hmessage
      obtain ⟨toAgent, index, rfl⟩ := mem_messages hmessage
      rfl
    rw [pendingMessages_foldl_push hpending, messages_toAgent]
    exact hteam.room recipient hrecipient
  · have hevent : event = .call ctx (.broadcast request) := hevent
    subst hevent
    change (broadcastWithId ctx runId s request).1.ledger = s.ledger ∧
      (_ → (broadcastWithId ctx runId s request).1 = s)
    change ∀ messages record, (answered _ (broadcastWithId ctx runId s request)).2 ≠ _ at hrefused
    rw [broadcastWithId, replayBroadcastWithRecipients] at hrefused ⊢
    revert hrefused
    refine deliver_ind (fun _ _ => ⟨rfl, fun _ => rfl⟩)
      (fun _ _ _ hstored hfound _ _ => ⟨rfl, fun hnone => ?_⟩) ?_
    · cases hfound.symm.trans (findBroadcast_stored hstored hnone)
    · rintro - - - - _ ⟨ledger, written, -, rfl⟩ hrefused
      exact absurd rfl (hrefused _ written)
  · obtain ⟨team, hteam⟩ := admitBroadcast_eq_ok (delivered_new (hbroadcast hevent hanswer)).1
    exact hnone team hteam

/-- In sync a broadcast that adds no record changes nothing. -/
lemma InSync.unrecorded [ExactBody B] {direct broadcasts : Set String}
    (h : InSync runId direct broadcasts s)
    (hnone : ∀ messages record,
      (broadcastWithId ctx runId s request).2 ≠ .ok (messages, some record)) :
    (broadcastWithId ctx runId s request).1 = s := by
  rw [broadcastWithId, replayBroadcastWithRecipients] at hnone ⊢
  revert hnone
  refine deliver_ind (fun _ _ => rfl) (fun _ _ _ hstored hfound _ _ => ?_) ?_
  · rw [h.repair_eq hstored (mem_of_findBound hfound)]
  · rintro - - - - _ ⟨ledger, written, -, rfl⟩ hnone
    exact absurd rfl (hnone _ written)

end

attribute [local instance] NumberReader.exact

/-- A broadcast whose copy `b:0` has the id of an earlier, drained message: the repeated send
removes the copy, the next message takes its room, and the repeated broadcast puts the copy back
beyond the limit. -/
def collidingIds : List (BusEvent ExactJson) :=
  [.call (smallTeam 1) (.send (direct "b:0" noBody)), .call (smallTeam 1) (.drain "worker"),
    .call (smallTeam 1) (.broadcast (toWorker "b")),
      .call (smallTeam 1) (.send (direct "b:0" noBody)),
    .call (smallTeam 1) (.send (direct "other" noBody))]

/-- A team of one waiting message: the second broadcast is refused. -/
def twoBroadcasts : List (BusEvent ExactJson) :=
  [.call (smallTeam 1) (.broadcast (toWorker "b")), .call (smallTeam 1) (.broadcast (toWorker "c"))]

end SolarisMesh.Messages
