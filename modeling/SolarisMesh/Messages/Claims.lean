import SolarisMesh.Messages.Replay

/-!
# Claims over whole histories

What a claim hands out it keeps for itself: over any history with restarts no other claim gets
the message. Where the bus follows its records, the same claim gets nothing new, and nobody gets a
message that was acknowledged or drained. Each of these is a fact about one state that every later
step keeps.
-/

namespace SolarisMesh.Messages

open MessageBus List Lib SolarisMesh.Types

variable {B : Type} [MessageBody B]

/-- The step is a claim that hands out `messages`. -/
def Claims (x : BusStep B) (agentId : AgentId) (claimId : String)
    (messages : List (AgentMessage B)) : Prop :=
  ∃ ctx, x.event = .call ctx (.claim agentId claimId) ∧ x.answer = .ok (.claimed messages)

/-- The step acknowledges or drains the message. -/
def Settles (x : BusStep B) (messageId : String) : Prop :=
  (∃ ctx agentId record, x.event = .call ctx (.acknowledge agentId messageId) ∧
    x.answer = .ok (.acknowledged true record)) ∨
  ∃ ctx agentId messages record, x.event = .call ctx (.drain agentId) ∧
    x.answer = .ok (.drained messages record) ∧ ∃ message ∈ messages, message.messageId = messageId

/-- A message was delivered under the id. -/
def Known (runId : RunId) (s : BusState B) (messageId : String) : Prop :=
  ∃ message later, Delivered (s.ledger.recordsForRun runId) message later ∧
    message.messageId = messageId

section

variable {ctx : CallContext} {runId : RunId} {direct broadcasts : Set String} {s s' : BusState B}
  {event : BusEvent B}

variable {messageId claimId : String} {agentId : AgentId} {message : AgentMessage B}
  {messages : List (AgentMessage B)}

omit [MessageBody B] in
lemma Known.grow (h : Known runId s messageId)
    (hgrows : s.ledger.recordsForRun runId <+: s'.ledger.recordsForRun runId) :
    Known runId s' messageId := by
  obtain ⟨message, later, hdelivered, hid⟩ := h
  obtain ⟨written, hgrows⟩ := hgrows
  exact ⟨message, later ++ written, hgrows ▸ hdelivered.append_list written, hid⟩

/-! ## Recorded claims -/

/-- Which message a payload claims for whom. -/
def MessagePayload.claimed : MessagePayload B → List (String × String)
  | .messagesClaimed _ claimId messageIds => messageIds.map (·, claimId)
  | _ => []

def claimsOf (records : List (MessageRecord B)) : List (String × String) :=
  records.flatMap (·.payload.claimed)

variable {records : List (MessageRecord B)}

omit [MessageBody B] in
lemma mem_claimsOf {record : MessageRecord B} (hrecord : record ∈ records) {ids : List String}
    (hpayload : record.payload = .messagesClaimed agentId claimId ids) (hid : messageId ∈ ids) :
    (messageId, claimId) ∈ claimsOf records := by
  refine mem_flatMap.2 ⟨record, hrecord, ?_⟩
  rw [hpayload]
  exact mem_map_of_mem hid

/-- Bodies apart, a payload is decoded as it was written. -/
lemma claimed_of_reread {payload decoded : MessagePayload B} (h : payload.reread = some decoded) :
    decoded.claimed = payload.claimed := by
  cases payload with
  | messageDelivered durable | messagesBroadcast durable =>
    obtain ⟨_, -, hdecoded⟩ := Option.bind_eq_some_iff.1 h
    cases hdecoded
    rfl
  | _ =>
    cases h
    rfl

lemma claimsOf_stored (h : s.storedRecords runId = .ok records) :
    claimsOf records = claimsOf (s.ledger.recordsForRun runId) := by
  have hall := mapM_eq_ok.1 h
  clear h
  generalize s.ledger.recordsForRun runId = written at hall
  induction hall with
  | nil => rfl
  | cons hdecoded _ ih =>
    obtain ⟨payload, hpayload, hrecord⟩ := bind_eq_ok.1 hdecoded
    cases hrecord
    rw [claimsOf, flatMap_cons, claimed_of_reread (orElseThrow_eq_ok.1 hpayload)]
    exact congrArg _ ih

omit [MessageBody B] in
/-- The claim in a message's fate is one of the records. -/
lemma mem_claimsOf_fate (h : (fateOf message records).claimId = some claimId) :
    (message.messageId, claimId) ∈ claimsOf records := by
  induction records using reverseRecOn with
  | nil => cases h
  | append_singleton records record ih =>
    rw [fateOf_append] at h
    rw [claimsOf, flatMap_append, mem_append]
    cases hpayload : record.payload with
    | messagesClaimed agentId other ids =>
      rw [hpayload, Fate.observe] at h
      split at h
      · next hmem =>
        cases h
        exact .inr (mem_claimsOf mem_cons_self hpayload (contains_iff_mem.1 hmem))
      · exact .inl (ih h)
    | messageAcknowledged | messagesDequeued =>
      rw [hpayload, Fate.observe] at h
      split at h <;> exact .inl (ih h)
    | messageDelivered | messagesBroadcast | other =>
      rw [hpayload] at h
      exact .inl (ih h)

variable {bus : MessageBus B}

/-- A repair by records whose claims the bus knows claims nothing. -/
lemma repairDurableMessages_claims (seq : ℕ)
    (h : ∀ pair ∈ claimsOf records, bus.claims pair.1 = some pair.2) :
    (bus.repairDurableMessages seq records messages).1.claims = bus.claims := by
  induction messages generalizing bus with
  | nil => rfl
  | cons message messages ih =>
    have hclaims : (bus.repairMessage message
        (fateOf message (records.filter (seq < ·.seq)))).1.claims = bus.claims := by
      have hfate : ∀ id, (fateOf message (records.filter (seq < ·.seq))).claimId = some id →
          bus.claims message.messageId = some id := by
        intro id hid
        obtain ⟨record, hrecord, hpair⟩ := mem_flatMap.1 (mem_claimsOf_fate hid)
        exact h _ (mem_flatMap.2 ⟨record, (mem_filter.1 hrecord).1, hpair⟩)
      unfold MessageBus.repairMessage
      simp only [restoreClaim_eq_self hfate]
      split
      · rfl
      · split
        · split <;> rfl
        · rfl
    rw [MessageBus.repairDurableMessages]
    split
    · next repaired hrepair =>
      rw [hrepair] at hclaims
      rw [ih (hclaims ▸ h), hclaims]
    · next repaired error hrepair =>
      rw [hrepair] at hclaims
      exact hclaims

omit [MessageBody B] in
lemma foldl_restoreMessage_claims (bus : MessageBus B) (messages : List (AgentMessage B)) :
    (messages.foldl MessageBus.restoreMessage bus).claims = bus.claims := by
  induction messages generalizing bus with
  | nil => rfl
  | cons message messages ih =>
    rw [foldl_cons, ih, MessageBus.restoreMessage]
    split <;> rfl

omit [MessageBody B] in
lemma restoreRecord_claims (bus : MessageBus B) (payload : MessagePayload B) :
    (∀ pair ∈ payload.claimed, (bus.restoreRecord payload).claims pair.1 = some pair.2) ∧
      ∀ id, (∀ claimId, (id, claimId) ∉ payload.claimed) →
        (bus.restoreRecord payload).claims id = bus.claims id := by
  cases payload with
  | messagesClaimed agentId claimId ids =>
    simp only [MessageBus.restoreRecord, restoreClaim_claims, MessagePayload.claimed]
    refine ⟨fun pair hpair => ?_, fun id hnone => if_neg fun hid => ?_⟩
    · obtain ⟨id, hid, rfl⟩ := mem_map.1 hpair
      exact if_pos hid
    · exact hnone claimId (mem_map_of_mem hid)
  | messageDelivered durable =>
    exact ⟨forall_mem_nil _, fun id _ => congrFun (foldl_restoreMessage_claims bus [_]) id⟩
  | messagesBroadcast durable =>
    exact ⟨forall_mem_nil _, fun id _ => congrFun (foldl_restoreMessage_claims bus _) id⟩
  | messageAcknowledged | messagesDequeued | other => exact ⟨forall_mem_nil _, fun _ _ => rfl⟩

omit [MessageBody B] in
/-- A bus read from records that agree claims what they say. -/
lemma replay_claims {claims : String → Option String}
    (h : ∀ pair ∈ claimsOf records, claims pair.1 = some pair.2) :
    ∀ pair ∈ claimsOf records, (replay records).claims pair.1 = some pair.2 := by
  induction records using reverseRecOn with
  | nil => exact forall_mem_nil _
  | append_singleton records record ih =>
    rw [claimsOf, flatMap_append, flatMap_singleton] at h ⊢
    intro pair hpair
    obtain ⟨hnew, hold⟩ := restoreRecord_claims (replay records) record.payload
    rw [replay_append]
    by_cases hclaimed : ∃ claimId, (pair.1, claimId) ∈ record.payload.claimed
    · obtain ⟨claimId, hmem⟩ := hclaimed
      rw [hnew _ hmem, ← h _ (mem_append_right _ hmem), h pair hpair]
    · rw [hold _ (not_exists.1 hclaimed)]
      rcases mem_append.1 hpair with hpair | hpair
      · exact ih (fun pair hpair => h pair (mem_append_left _ hpair)) pair hpair
      · exact absurd ⟨_, hpair⟩ hclaimed

/-- The bus knows what the records of its run claim. -/
def ClaimsRecorded (runId : RunId) (s : BusState B) : Prop :=
  ∀ pair ∈ claimsOf (s.ledger.recordsForRun runId), s.bus.claims pair.1 = some pair.2

lemma ClaimsRecorded.stored (h : ClaimsRecorded runId s)
    (hstored : s.storedRecords runId = .ok records) :
    ∀ pair ∈ claimsOf records, s.bus.claims pair.1 = some pair.2 := by
  rw [claimsOf_stored hstored]
  exact h

omit [MessageBody B] in
/-- One record that claims nothing. -/
lemma ClaimsRecorded.append (h : ClaimsRecorded runId s) (hclaims : s'.bus.claims = s.bus.claims)
    {record : MessageRecord B} (hrecords : s'.ledger.recordsForRun runId =
      s.ledger.recordsForRun runId ++ [record]) (hrecord : record.payload.claimed = []) :
    ClaimsRecorded runId s' := by
  rw [ClaimsRecorded, hclaims, hrecords, claimsOf, flatMap_append, flatMap_singleton, hrecord,
    append_nil]
  exact h

/-- Every step keeps this, whatever the ids and the bodies. -/
lemma ClaimsRecorded.step (h : ClaimsRecorded runId s) (hwrite : BusWrite runId s event s') :
    ClaimsRecorded runId s' := by
  cases hwrite with
  | kept => exact h
  | repaired hstored hrecord =>
    rw [ClaimsRecorded, repairDurableMessages_claims _ (h.stored hstored)]
    exact h
  | @elsewhere other recordType ledger record hrecorded =>
    by_cases hrun : runId = other
    · subst hrun
      exact h.append rfl hrecorded.recordsForRun (by rw [hrecorded.payload]; rfl)
    · rw [ClaimsRecorded,
        show ledger.recordsForRun runId = _ from hrecorded.appended.recordsForRun_of_ne hrun]
      exact h
  | restarted hstored =>
    rw [ClaimsRecorded, ← claimsOf_stored hstored]
    exact replay_claims (h.stored hstored)
  | recorded hpayload hdelivers hrecorded =>
    have hrecords := hrecorded.recordsForRun
    cases hpayload with
    | sent | acknowledged | dequeued =>
      exact h.append rfl hrecords (by rw [hrecorded.payload]; rfl)
    | broadcast =>
      exact h.append (foldl_push_claims ..) hrecords (by rw [hrecorded.payload]; rfl)
    | claimed claimant claimId =>
      intro pair hpair
      rw [hrecords, claimsOf, flatMap_append, flatMap_singleton, hrecorded.payload] at hpair
      rcases mem_append.1 hpair with hpair | hpair
      · -- what was claimed before is not claimable
        have hold := h pair hpair
        rw [restoreClaim_claims, if_neg, hold]
        intro hmem
        obtain ⟨message, hmessage, hid⟩ := mem_map.1 hmem
        rw [← hid, (mem_claimable.1 hmessage).2.2.2] at hold
        cases hold
      · obtain ⟨id, hid, rfl⟩ := mem_map.1 hpair
        rw [restoreClaim_claims, if_pos hid]

/-! ## Later states -/

/-- The second state comes some time after the first, and the bus follows its records in both. -/
structure Later (runId : RunId) (direct broadcasts : Set String) (s s' : BusState B) : Prop where
  before : InSync runId direct broadcasts s
  after : InSync runId direct broadcasts s'
  grows : s.ledger.recordsForRun runId <+: s'.ledger.recordsForRun runId

omit [MessageBody B] in
lemma Later.pending (h : Later runId direct broadcasts s s')
    (hmem : message ∈ s'.bus.inboxes agentId) (hpending : message.isPending = true)
    (hknown : Known runId s message.messageId) : message ∈ s.bus.inboxes agentId := by
  obtain ⟨delivered, later, hdelivered, hid⟩ := hknown
  obtain ⟨written, hgrows⟩ := h.grows
  have hlater := hdelivered.append_list written
  rw [hgrows] at hlater
  obtain rfl := h.after.tracks.toAgent_eq hmem hlater hid
  obtain ⟨-, hgone, hwaits⟩ := h.after.tracks.located delivered _ hlater
  have hdequeued : (fateOf delivered (later ++ written)).dequeued = false := by
    rw [← Bool.not_eq_true]
    exact fun hdequeued => hgone hdequeued message hmem hid.symm
  have hsame := eq_of_nodup_ids (h.after.tracks.nodup _) hmem (hwaits hdequeued) hid.symm
  have hopen : (fateOf delivered (later ++ written)).acknowledgedAtUnixMs = none := by
    rw [hsame] at hpending
    exact Option.isNone_iff_eq_none.1 hpending
  obtain ⟨hkept, hunread⟩ := fateOf_open hdequeued hopen
  rw [hsame, hopen, ← hunread]
  exact (h.before.tracks.located delivered later hdelivered).waits hkept

/-! ## Claims that are answered and messages that are settled -/

/-- The claim is recorded, and what still waits of it is among `messages`. -/
def Answered (runId : RunId) (agentId : AgentId) (claimId : String)
    (messages : List (AgentMessage B)) (s : BusState B) : Prop :=
  ∃ ids, findClaim (s.ledger.recordsForRun runId) agentId claimId = some ids ∧
    ∀ id ∈ ids, Known runId s id ∧
      ∀ message ∈ s.bus.inboxes agentId, message.isPending = true → message.messageId = id →
        message ∈ messages

/-- Nothing waits under the id, and nothing will. -/
structure Settled (runId : RunId) (messageId : String) (s : BusState B) : Prop where
  known : Known runId s messageId
  none : ∀ agentId, ∀ message ∈ s.bus.inboxes agentId, message.isPending = true →
    message.messageId ≠ messageId

/-! ## What a call establishes -/

omit [MessageBody B] in
lemma mem_of_findClaim {records : List (MessageRecord B)} {ids : List String}
    (h : findClaim records agentId claimId = some ids) :
    ∃ record ∈ records, record.payload = .messagesClaimed agentId claimId ids := by
  obtain ⟨record, hrecord, hfound⟩ := exists_of_findSome?_eq_some h
  split at hfound
  · next agent claim found hpayload =>
    obtain ⟨⟨rfl, rfl⟩, hsame⟩ := Option.ite_none_right_eq_some.1 hfound
    cases hsame
    exact ⟨record, hrecord, hpayload⟩
  · cases hfound

omit [MessageBody B] in
lemma InSync.known_of_mem (h : InSync runId direct broadcasts s)
    (hmem : message ∈ s.bus.inboxes agentId) : Known runId s message.messageId := by
  obtain ⟨delivered, later, hdelivered, hid, -⟩ := h.tracks.origin agentId message hmem
  exact ⟨delivered, later, hdelivered, hid⟩

/-- A claim hands out messages that wait in the agent's inbox, and is recorded for them. -/
lemma claim_hands_out (hanswer : claim ctx runId s agentId claimId = (s', .ok messages))
    (hmem : message ∈ messages) :
    (message ∈ s.bus.inboxes agentId ∧ message.isPending = true) ∧
      (message.messageId, claimId) ∈ claimsOf (s'.ledger.recordsForRun runId) := by
  revert hanswer
  refine claim_ind (fun _ hanswer => ?_) (fun records ids hstored hfound hanswer => ?_)
    (fun hanswer => ?_) ?_
  · cases hanswer
  · cases hanswer
    rw [mem_filter, Bool.and_eq_true, contains_iff_mem] at hmem
    obtain ⟨record, hrecord, hpayload⟩ := mem_of_findClaim hfound
    rw [← claimsOf_stored hstored]
    exact ⟨⟨hmem.1, hmem.2.1⟩, mem_claimsOf hrecord hpayload hmem.2.2⟩
  · cases hanswer
    cases hmem
  · rintro - - - _ ⟨ledger, record, hrecorded, rfl⟩ hanswer
    cases hanswer
    have hclaimable := mem_claimable.1 hmem
    refine ⟨⟨hclaimable.1, hclaimable.2.2.1⟩, ?_⟩
    rw [show ledger.recordsForRun runId = _ from hrecorded.recordsForRun]
    exact mem_claimsOf (mem_append_right _ mem_cons_self) hrecorded.payload (mem_map_of_mem hmem)

lemma InSync.claim_answered [ExactBody B] (h : InSync runId direct broadcasts s)
    (hrecorded : ClaimsRecorded runId s) (hne : messages ≠ [])
    (hanswer : claim ctx runId s agentId claimId = (s', .ok messages)) :
    Answered runId agentId claimId messages s' := by
  revert hanswer
  refine claim_ind (fun _ hanswer => ?_) (fun _ ids hstored hfound hanswer => ?_)
    (fun hanswer => ?_) ?_
  · cases hanswer
  · cases hanswer
    obtain rfl := eq_of_storedRecords hstored
    obtain ⟨record, hrecord, hpayload⟩ := mem_of_findClaim hfound
    refine ⟨ids, hfound, fun id hid => ⟨?_, fun message hmem hpending hsame => ?_⟩⟩
    · refine h.tracks.claimed id ?_
      rw [hrecorded _ (mem_claimsOf hrecord hpayload hid)]
      nofun
    · rw [mem_filter, Bool.and_eq_true, contains_iff_mem, hsame]
      exact ⟨hmem, hpending, hid⟩
  · cases hanswer
    exact absurd rfl hne
  · rintro _ hstored hnone _ ⟨ledger, record, hrecorded, rfl⟩ hanswer
    cases hanswer
    obtain rfl := eq_of_storedRecords hstored
    refine ⟨(s.bus.claimable runId agentId).map (·.messageId), ?_, fun id hid => ?_⟩
    · rw [show ledger.recordsForRun runId = _ from hrecorded.recordsForRun]
      unfold findClaim at hnone ⊢
      rw [List.findSome?_append, hnone, Option.none_or, List.findSome?_singleton,
        hrecorded.payload]
      exact if_pos ⟨rfl, rfl⟩
    · obtain ⟨claimed, hclaimed, rfl⟩ := mem_map.1 hid
      have hinbox := (mem_claimable.1 hclaimed).1
      refine ⟨(h.known_of_mem hinbox).grow ⟨_, hrecorded.recordsForRun.symm⟩,
        fun message hmem _ hsame => ?_⟩
      rw [eq_of_nodup_ids (h.tracks.nodup agentId) hmem hinbox hsame]
      exact hclaimed

/-- A claim that was answered before gets nothing new. -/
lemma Answered.claim [ExactBody B] {first : List (AgentMessage B)} {after : BusState B}
    (h : Answered runId agentId claimId first s) (hlater : Later runId direct broadcasts s s')
    (hanswer : claim ctx runId s' agentId claimId = (after, .ok messages)) :
    messages ⊆ first := by
  obtain ⟨ids, hfound, hwaits⟩ := h
  obtain ⟨written, hgrows⟩ := hlater.grows
  have hfound : findClaim (s'.ledger.recordsForRun runId) agentId claimId = some ids := by
    unfold findClaim at hfound ⊢
    rw [← hgrows, List.findSome?_append, hfound]
    rfl
  revert hanswer
  refine claim_ind (fun _ hanswer => ?_) (fun _ ids' hstored hfound' hanswer => ?_)
    (fun hanswer => ?_) fun _ hstored hnone => ?_
  · cases hanswer
  · cases hanswer
    rw [eq_of_storedRecords hstored, hfound, Option.some.injEq] at hfound'
    subst hfound'
    intro message hmem
    rw [mem_filter, Bool.and_eq_true, contains_iff_mem] at hmem
    obtain ⟨hknown, hfirst⟩ := hwaits _ hmem.2.2
    exact hfirst message (hlater.pending hmem.1 hmem.2.1 hknown) hmem.2.1 rfl
  · cases hanswer
    exact nil_subset _
  · rw [← eq_of_storedRecords hstored, hnone] at hfound
    cases hfound

omit [MessageBody B] in
/-- A message that is acknowledged in one inbox waits in none. -/
lemma InSync.settled_of_mem (h : InSync runId direct broadcasts s)
    (hmem : message ∈ s.bus.inboxes agentId) (hdone : message.isPending = false) :
    Settled runId message.messageId s := by
  refine ⟨h.known_of_mem hmem, fun other waiting hwaiting hpending hsame => ?_⟩
  rw [h.tracks.agent_eq hmem hwaiting hsame] at hwaiting
  rw [eq_of_nodup_ids (h.tracks.nodup agentId) hwaiting hmem hsame, hdone] at hpending
  cases hpending

omit [MessageBody B] in
lemma InSync.acknowledge_settles (h : InSync runId direct broadcasts s)
    (hafter : InSync runId direct broadcasts s') {record : Option (MessageRecord B)}
    (hanswer : acknowledge ctx runId s agentId messageId = (s', .ok (true, record))) :
    Settled runId messageId s' := by
  revert hanswer
  refine acknowledge_ind (fun _ hdone hanswer => ?_) ?_
  · obtain ⟨rfl, hok⟩ := Prod.mk.inj hanswer
    obtain ⟨message, hfound, hacknowledged⟩ := hdone record hok
    have hid : message.messageId = messageId := by simpa using List.find?_some hfound
    have hsettled := h.settled_of_mem (mem_of_find?_eq_some hfound) (by
      rw [AgentMessage.isPending, ← Option.not_isSome, hacknowledged]
      rfl)
    exact hid ▸ hsettled
  · rintro message hfound _ ⟨ledger, written, -, rfl⟩ hanswer
    cases hanswer
    have hid : message.messageId = messageId := by simpa using List.find?_some hfound
    have hmem : message.acknowledgedIf messageId (some ctx.nowUnixMs) ∈
        (s.bus.restoreAcknowledgement agentId messageId ctx.nowUnixMs).inboxes agentId := by
      rw [MessageBus.restoreAcknowledgement, setInbox_self,
        setAcknowledged_eq_map (h.tracks.nodup agentId)]
      exact mem_map_of_mem (mem_of_find?_eq_some hfound)
    have hsettled := hafter.settled_of_mem hmem (by
      rw [AgentMessage.acknowledgedIf, if_pos hid]
      rfl)
    rw [acknowledgedIf_messageId, hid] at hsettled
    exact hsettled

omit [MessageBody B] in
lemma InSync.drain_settles (h : InSync runId direct broadcasts s)
    {record : Option (MessageRecord B)}
    (hanswer : drain ctx runId s agentId = (s', .ok (messages, record)))
    (hmem : message ∈ messages) : Settled runId message.messageId s' := by
  revert hanswer
  refine drain_ind (fun _ hnone hanswer => ?_) ?_
  · rw [hnone messages record (congrArg Prod.snd hanswer)] at hmem
    cases hmem
  · rintro _ ⟨ledger, written, hrecorded, rfl⟩ hanswer
    cases hanswer
    have hinbox : message ∈ s.bus.inboxes agentId := (mem_filter.1 hmem).1
    refine ⟨(h.known_of_mem hinbox).grow ⟨_, hrecorded.recordsForRun.symm⟩,
      fun other waiting hwaiting _ hsame => ?_⟩
    by_cases hother : other = agentId
    · rw [hother, MessageBus.remove, setInbox_self, mem_filter,
        Bool.not_eq_true', ← Bool.not_eq_true, contains_iff_mem, hsame] at hwaiting
      exact hwaiting.2 (mem_map_of_mem hmem)
    · rw [MessageBus.remove, setInbox_of_ne _ hother] at hwaiting
      exact hother (h.tracks.agent_eq hinbox hwaiting hsame)

end

/-! ## Whole histories -/

section

variable {runId : RunId} {direct broadcasts : Set String} {events : List (BusEvent B)}

variable {messages : List (AgentMessage B)}

lemma claim_of_claims {x : BusStep B} (hx : x = (busMachine runId).stepAt x.before x.event)
    {agentId : AgentId} {claimId : String} (h : Claims x agentId claimId messages) :
    ∃ ctx, claim ctx runId x.before agentId claimId = (x.after, .ok messages) := by
  obtain ⟨ctx, hevent, hanswer⟩ := h
  obtain ⟨_, hclaim, htag⟩ := answered_eq_ok (call_of_step hx hevent hanswer)
  cases htag
  exact ⟨ctx, hclaim⟩

lemma settled_of_settles {x : BusStep B} (hx : x = (busMachine runId).stepAt x.before x.event)
    {messageId : String} (hsync : InSync runId direct broadcasts x.before)
    (hafter : InSync runId direct broadcasts x.after) (h : Settles x messageId) :
    Settled runId messageId x.after := by
  rcases h with ⟨ctx, agentId, record, hevent, hanswer⟩ |
    ⟨ctx, agentId, messages, record, hevent, hanswer, message, hmem, rfl⟩
  · obtain ⟨⟨done, written⟩, hdone, htag⟩ := answered_eq_ok (call_of_step hx hevent hanswer)
    cases htag
    exact hsync.acknowledge_settles hafter hdone
  · obtain ⟨⟨drained, written⟩, hdrained, htag⟩ := answered_eq_ok (call_of_step hx hevent hanswer)
    cases htag
    exact hsync.drain_settles hdrained hmem

/-- Over every history the bus knows the recorded claims. -/
lemma claims_recorded (runId : RunId) (events : List (BusEvent B)) :
    ClaimsRecorded runId ((busMachine runId).run .empty events) :=
  Machine.run_invariant (fun s event h => h.step (step_write runId s event))
    (fun _ hpair => absurd hpair not_mem_nil) events

/-- What a claim of a history handed out is recorded for it. -/
lemma claims_of_handed_out {x : BusStep B} (hx : x ∈ (busMachine runId).trace .empty events)
    {agentId : AgentId} {claimId : String} (hclaims : Claims x agentId claimId messages)
    {message : AgentMessage B} (hmem : message ∈ messages) :
    ((busMachine runId).run .empty events).bus.claims message.messageId = some claimId := by
  obtain ⟨ctx, hanswer⟩ := claim_of_claims ((busMachine runId).eq_stepAt_of_mem_trace hx) hclaims
  obtain ⟨written, hgrows⟩ := records_grow_of_mem hx
  refine claims_recorded runId events (message.messageId, claimId) ?_
  rw [← hgrows, claimsOf, flatMap_append]
  exact mem_append_left _ (claim_hands_out hanswer hmem).2

variable [ExactBody B] (hapart : Apart direct broadcasts)
  (hids : ∀ event ∈ events, event.DeliversUnder direct broadcasts)
include hapart hids

variable {earlier later : List (BusStep B)} {x y : BusStep B}

/-- What follows a step of a history in sync. -/
lemma later_of_split (hsplit : (busMachine runId).trace .empty events = earlier ++ x :: later)
    (hy : y ∈ later) : Later runId direct broadcasts x.after y.before := by
  obtain ⟨hx, hlater⟩ := (busMachine runId).mem_of_split hsplit
  have hsync := (inSync_trace runId hapart hids).1
  refine ⟨?_, hsync y (hlater y hy), ?_⟩
  · rw [(busMachine runId).eq_stepAt_of_mem_trace hx]
    exact (hsync x hx).step hapart (hids _ (Machine.event_mem_of_mem_trace _ hx))
      (step_write runId x.before x.event)
  · obtain ⟨before, event, after, -, -, rfl, rfl⟩ := (busMachine runId).trace_eq_append_cons hsplit
    obtain ⟨between, -, -, hstep⟩ := (busMachine runId).exists_of_mem_trace hy
    rw [hstep]
    exact records_grow runId _ between

end

attribute [local instance] NumberReader.exact

/-- A broadcast whose copy has the id of a claimed message. -/
def collidingClaim : List (BusEvent ExactJson) :=
  [.call (smallTeam 2) (.send (direct "b:0" noBody)), .call (smallTeam 2) (.claim "worker" "claim"),
    .call (smallTeam 2) (.broadcast (toWorker "b")),
    .call (smallTeam 2) (.claim "worker" "claim")]

end SolarisMesh.Messages
