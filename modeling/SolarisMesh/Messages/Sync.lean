import SolarisMesh.Messages.Writes

/-!
# The bus in memory and the records of its run

Three projections of one log agree: the bus that made the changes, a bus that reads the records,
and the repair of a message from the records after its delivery. The invariant `Tracks` says
where every delivered message stands, by its fate in the records after it; under it a repair
changes nothing.
-/

namespace SolarisMesh.Messages

open MessageBus List Lib SolarisMesh.Types Ledger
open MessageBus (setAcknowledged restoreClaim remove restoreMessage push replay claimable)

/-! ## Ids of broadcast copies -/

lemma toList_broadcastMessageId (broadcastId : String) (index : ℕ) :
    (broadcastMessageId broadcastId index).toList =
      broadcastId.toList ++ ':' :: Nat.toDigits 10 index := by
  have hindex : (toString index : String).toList = Nat.toDigits 10 index := Nat.toList_repr
  rw [broadcastMessageId, String.toList_append, String.toList_append, hindex, append_assoc]
  rfl

/-- The id of a copy says which copy of which broadcast it is. -/
lemma broadcastMessageId_inj {a b : String} {i j : ℕ}
    (h : broadcastMessageId a i = broadcastMessageId b j) : a = b ∧ i = j := by
  have hlist := congrArg String.toList h
  rw [toList_broadcastMessageId, toList_broadcastMessageId] at hlist
  obtain ⟨hid, hdigits⟩ := Names.eq_of_append_separator (Names.colon_not_mem_digits i)
    (Names.colon_not_mem_digits j) hlist
  exact ⟨String.toList_inj.1 hid, Names.toDigits_inj hdigits⟩

/-! ## Deliveries and their fates -/

variable {B : Type}

/-- The records deliver the message, and `later` are the records after its delivery. -/
def Delivered (records : List (MessageRecord B)) (message : AgentMessage B)
    (later : List (MessageRecord B)) : Prop :=
  ∃ earlier record, records = earlier ++ record :: later ∧ message ∈ record.payload.messages

variable {message : AgentMessage B} {messages : List (AgentMessage B)}

variable {records later : List (MessageRecord B)}

lemma delivered_append {record : MessageRecord B} :
    Delivered (records ++ [record]) message later ↔
      (∃ shorter, later = shorter ++ [record] ∧ Delivered records message shorter) ∨
        later = [] ∧ message ∈ record.payload.messages := by
  constructor
  · rintro ⟨earlier, first, hsplit, hmem⟩
    rcases eq_nil_or_concat' later with rfl | ⟨shorter, last, rfl⟩
    · obtain ⟨-, hlast⟩ := append_inj' hsplit rfl
      cases hlast
      exact .inr ⟨rfl, hmem⟩
    · rw [← cons_append, ← append_assoc] at hsplit
      obtain ⟨hrecords, hlast⟩ := append_inj' hsplit rfl
      cases hlast
      exact .inl ⟨shorter, rfl, earlier, first, hrecords, hmem⟩
  · rintro (⟨shorter, rfl, earlier, first, rfl, hmem⟩ | ⟨rfl, hmem⟩)
    · exact ⟨earlier, first, by rw [append_assoc, cons_append], hmem⟩
    · exact ⟨records, record, rfl, hmem⟩

lemma Delivered.append_list (h : Delivered records message later)
    (written : List (MessageRecord B)) :
    Delivered (records ++ written) message (later ++ written) := by
  obtain ⟨earlier, record, rfl, hmem⟩ := h
  exact ⟨earlier, record, by rw [append_assoc, cons_append], hmem⟩

lemma Delivered.append (h : Delivered records message later) (record : MessageRecord B) :
    Delivered (records ++ [record]) message (later ++ [record]) :=
  h.append_list [record]

lemma fateOf_append (message : AgentMessage B) (later : List (MessageRecord B))
    (record : MessageRecord B) :
    fateOf message (later ++ [record]) =
      (fateOf message later).observe message.messageId record.payload := by
  rw [fateOf, foldl_append]
  rfl

lemma Fate.observe_open {fate : Fate} {messageId : String} {payload : MessagePayload B}
    (h : (fate.observe messageId payload).dequeued = false)
    (hopen : (fate.observe messageId payload).acknowledgedAtUnixMs = none) :
    fate.dequeued = false ∧ fate.acknowledgedAtUnixMs = none := by
  cases payload with
  | messageAcknowledged | messagesClaimed | messagesDequeued =>
    rw [Fate.observe] at h hopen
    split at h <;> simp_all
  | messageDelivered | messagesBroadcast | other => exact ⟨h, hopen⟩

/-- What is acknowledged or dequeued stays so. -/
lemma fateOf_open {written : List (MessageRecord B)}
    (h : (fateOf message (later ++ written)).dequeued = false)
    (hopen : (fateOf message (later ++ written)).acknowledgedAtUnixMs = none) :
    (fateOf message later).dequeued = false ∧
      (fateOf message later).acknowledgedAtUnixMs = none := by
  induction written using reverseRecOn with
  | nil =>
    rw [append_nil] at h hopen
    exact ⟨h, hopen⟩
  | append_singleton written record ih =>
    rw [← append_assoc, fateOf_append] at h hopen
    obtain ⟨h, hopen⟩ := Fate.observe_open h hopen
    exact ih h hopen

/-- Where a message with this fate stands. -/
structure Located (bus : MessageBus B) (message : AgentMessage B) (fate : Fate) : Prop where
  claim : bus.claims message.messageId = fate.claimId
  gone : fate.dequeued = true →
    ∀ other ∈ bus.inboxes message.toAgent, other.messageId ≠ message.messageId
  waits : fate.dequeued = false →
    { message with acknowledgedAtUnixMs := fate.acknowledgedAtUnixMs } ∈
      bus.inboxes message.toAgent

/-- The bus stands as the records say. -/
structure Tracks (bus : MessageBus B) (records : List (MessageRecord B)) : Prop where
  located : ∀ message later, Delivered records message later →
    Located bus message (fateOf message later)
  unique : ∀ message later message' later', Delivered records message later →
    Delivered records message' later' → message.messageId = message'.messageId →
      message = message'
  origin : ∀ agentId, ∀ message ∈ bus.inboxes agentId,
    ∃ delivered later, Delivered records delivered later ∧
      delivered.messageId = message.messageId ∧ delivered.toAgent = agentId ∧
      message = { delivered with acknowledgedAtUnixMs := message.acknowledgedAtUnixMs }
  nodup : ∀ agentId, ((bus.inboxes agentId).map (·.messageId)).Nodup
  claimed : ∀ messageId, bus.claims messageId ≠ none →
    ∃ message later, Delivered records message later ∧ message.messageId = messageId
  replayed : bus = .replay records

/-! ## Lists of messages with distinct ids -/

lemma eq_of_nodup_ids (h : (messages.map (·.messageId)).Nodup) {a b : AgentMessage B}
    (ha : a ∈ messages) (hb : b ∈ messages) (hid : a.messageId = b.messageId) : a = b :=
  inj_on_of_nodup_map h ha hb hid

lemma find?_of_nodup_ids (h : (messages.map (·.messageId)).Nodup) (hmem : message ∈ messages) :
    messages.find? (·.messageId = message.messageId) = some message :=
  find?_eq_some_of_unique hmem (decide_eq_true rfl) fun _ hother hid =>
    eq_of_nodup_ids h hother hmem (of_decide_eq_true hid)

/-- The message an acknowledgement is for. -/
def AgentMessage.acknowledgedIf (messageId : String) (acknowledgedAtUnixMs : Option ℤ)
    (message : AgentMessage B) : AgentMessage B :=
  if message.messageId = messageId then { message with acknowledgedAtUnixMs } else message

@[simp] lemma acknowledgedIf_messageId (messageId : String) (acknowledgedAtUnixMs : Option ℤ)
    (message : AgentMessage B) :
    (message.acknowledgedIf messageId acknowledgedAtUnixMs).messageId = message.messageId := by
  unfold AgentMessage.acknowledgedIf
  split <;> rfl

lemma acknowledgedIf_eq_self {messageId : String} {acknowledgedAtUnixMs : Option ℤ}
    (h : message.messageId ≠ messageId) :
    message.acknowledgedIf messageId acknowledgedAtUnixMs = message :=
  if_neg h

/-- With distinct ids the first message with an id is the only one. -/
lemma setAcknowledged_eq_map (h : (messages.map (·.messageId)).Nodup) (messageId : String)
    (acknowledgedAtUnixMs : Option ℤ) :
    setAcknowledged messageId acknowledgedAtUnixMs messages =
      messages.map (·.acknowledgedIf messageId acknowledgedAtUnixMs) := by
  induction messages with
  | nil => rfl
  | cons message messages ih =>
    rw [map_cons, nodup_cons] at h
    rw [setAcknowledged, map_cons, AgentMessage.acknowledgedIf]
    by_cases hid : message.messageId = messageId
    · rw [if_pos hid, if_pos hid]
      have hrest : messages.map (·.acknowledgedIf messageId acknowledgedAtUnixMs) = messages := by
        refine (map_congr_left fun other hother => ?_).trans (map_id _)
        refine acknowledgedIf_eq_self fun hsame => h.1 ?_
        rw [hid, ← hsame]
        exact mem_map_of_mem hother
      rw [hrest]
    · rw [if_neg hid, if_neg hid, ih h.2]

/-! ## Claims -/

lemma restoreClaim_claims (bus : MessageBus B) (claimId : String) (messageIds : List String)
    (messageId : String) :
    (bus.restoreClaim claimId messageIds).claims messageId =
      if messageId ∈ messageIds then some claimId else bus.claims messageId := by
  unfold restoreClaim
  dsimp only
  generalize bus.claims = claims
  induction messageIds generalizing claims with
  | nil => rw [foldl_nil, if_neg not_mem_nil]
  | cons first rest ih =>
    rw [foldl_cons, ih]
    by_cases hrest : messageId ∈ rest
    · rw [if_pos hrest, if_pos (mem_cons_of_mem _ hrest)]
    · rw [if_neg hrest]
      by_cases hfirst : messageId = first
      · rw [hfirst, Function.update_self, if_pos mem_cons_self]
      · rw [Function.update_of_ne hfirst,
          if_neg fun hmem => (mem_cons.1 hmem).elim hfirst hrest]

/-- What is claimed already stays as it is. -/
lemma restoreClaim_eq_self {bus : MessageBus B} {claimId : Option String} {messageId : String}
    (h : ∀ id, claimId = some id → bus.claims messageId = some id) :
    (claimId.elim bus fun id => bus.restoreClaim id [messageId]) = bus := by
  cases claimId with
  | none => rfl
  | some id =>
    rw [Option.elim_some, restoreClaim, foldl_cons, foldl_nil, ← h id rfl, Function.update_eq_self]

/-! ## Repair -/

variable {payload : MessagePayload B}

section

variable {runId : RunId} {bus : MessageBus B}

variable {message : AgentMessage B} {record : MessageRecord B} {agentId : AgentId}

/-- A message that stands where its fate says needs no repair. -/
lemma Located.repairMessage [MessageBody B] {fate : Fate} (h : Located bus message fate)
    (hnodup : ((bus.inboxes message.toAgent).map (·.messageId)).Nodup) :
    bus.repairMessage message fate = (bus, .ok ()) := by
  unfold MessageBus.repairMessage
  simp only [restoreClaim_eq_self fun _ hclaim => h.claim.trans hclaim]
  cases hdequeued : fate.dequeued with
  | true =>
    rw [if_pos rfl, remove, setInbox_eq_self]
    refine (filter_eq_self.2 fun other hother => ?_).symm
    have hother := h.gone hdequeued other hother
    simpa using hother
  | false =>
    have hwaits := h.waits hdequeued
    have hfound := find?_of_nodup_ids hnodup hwaits
    dsimp only at hfound
    rw [if_neg Bool.false_ne_true, hfound]
    have hsame : sameMessageContent
        { message with acknowledgedAtUnixMs := fate.acknowledgedAtUnixMs } message = true := by
      simp [sameMessageContent, MessageBody.same_refl]
    dsimp only
    rw [if_pos hsame, setInbox_eq_self]
    rw [setAcknowledged_eq_map hnodup]
    refine ((map_congr_left fun other hother => ?_).trans (map_id _)).symm
    by_cases hid : other.messageId = message.messageId
    · have heq := eq_of_nodup_ids hnodup hother hwaits hid
      rw [AgentMessage.acknowledgedIf, if_pos hid, heq]
      rfl
    · exact acknowledgedIf_eq_self hid

/-- The records after a delivery are those with a greater sequence. -/
lemma filter_later {earlier : List (MessageRecord B)}
    (h : (earlier ++ record :: later).Pairwise (·.seq < ·.seq)) :
    (earlier ++ record :: later).filter (record.seq < ·.seq) = later := by
  obtain ⟨-, hlater, hbefore⟩ := pairwise_append.1 h
  obtain ⟨hafter, -⟩ := pairwise_cons.1 hlater
  rw [filter_append, filter_eq_nil_iff.2, filter_cons_of_neg,
    filter_eq_self.2, nil_append]
  · intro other hother
    exact decide_eq_true (hafter other hother)
  · simp
  · intro other hother
    have hlt := hbefore other hother record mem_cons_self
    simpa using hlt.le

/-- Under the invariant a repair changes nothing. -/
lemma Tracks.repair [MessageBody B] (h : Tracks bus records)
    (hsorted : records.Pairwise (·.seq < ·.seq)) (hrecord : record ∈ records) :
    bus.repairDurableMessages record.seq records record.payload.messages = (bus, .ok ()) := by
  obtain ⟨earlier, later, rfl⟩ := append_of_mem hrecord
  have hall : ∀ messages ⊆ record.payload.messages,
      bus.repairDurableMessages record.seq (earlier ++ record :: later) messages =
        (bus, .ok ()) := by
    intro messages hmessages
    induction messages with
    | nil => rfl
    | cons message messages ih =>
      have hdelivered : Delivered (earlier ++ record :: later) message later :=
        ⟨earlier, record, rfl, hmessages mem_cons_self⟩
      have hrepair := (h.located message later hdelivered).repairMessage (h.nodup _)
      rw [MessageBus.repairDurableMessages, filter_later hsorted, hrepair]
      exact ih fun other hother => hmessages (mem_cons_of_mem _ hother)
  exact hall _ fun _ hmessage => hmessage

/-! ## Deliveries -/

/-- New messages: not acknowledged, with ids that are new and distinct. -/
structure NewMessages (records : List (MessageRecord B)) (messages : List (AgentMessage B)) :
    Prop where
  pending : ∀ message ∈ messages, message.acknowledgedAtUnixMs = none
  nodup : (messages.map (·.messageId)).Nodup
  unused : ∀ message ∈ messages, ∀ delivered later, Delivered records delivered later →
    delivered.messageId ≠ message.messageId

/-- A restart puts new messages where the delivery put them. -/
lemma foldl_restoreMessage (hnodup : (messages.map (·.messageId)).Nodup)
    (hnew : ∀ message ∈ messages, ∀ agentId, ∀ other ∈ bus.inboxes agentId,
      other.messageId ≠ message.messageId) :
    messages.foldl restoreMessage bus = messages.foldl push bus := by
  induction messages generalizing bus with
  | nil => rfl
  | cons message messages ih =>
    rw [map_cons, nodup_cons] at hnodup
    have hrestore : bus.restoreMessage message = bus.push message := by
      refine if_neg ?_
      rw [any_eq_true]
      rintro ⟨other, hother, hsame⟩
      exact hnew message mem_cons_self _ other hother (of_decide_eq_true hsame)
    rw [foldl_cons, foldl_cons, hrestore]
    refine ih hnodup.2 fun later hlater agentId other hother => ?_
    have hpush := foldl_push_inboxes bus [message] agentId
    rw [foldl_cons, foldl_nil] at hpush
    rw [hpush, mem_append] at hother
    rcases hother with hother | hother
    · exact hnew later (mem_cons_of_mem _ hlater) agentId other hother
    · have hsame := mem_singleton.1 (mem_filter.1 hother).1
      intro hid
      refine hnodup.1 ?_
      rw [← hsame, hid]
      exact mem_map_of_mem hlater

lemma replay_append (records : List (MessageRecord B)) (record : MessageRecord B) :
    replay (records ++ [record]) =
      (replay records).restoreRecord record.payload := by
  rw [replay, foldl_append]
  rfl

/-- Delivering new messages keeps the invariant. -/
lemma Tracks.deliver (h : Tracks bus records) (hwritten : record.payload = payload)
    (hnew : NewMessages records payload.messages)
    (hobserve : ∀ (fate : Fate) messageId, fate.observe messageId payload = fate)
    (hrestore : bus.restoreRecord payload = payload.messages.foldl restoreMessage bus) :
    Tracks (payload.messages.foldl push bus) (records ++ [record]) := by
  subst hwritten
  have hinbox := foldl_push_inboxes bus record.payload.messages
  have hapart : ∀ agentId, ∀ other ∈ bus.inboxes agentId, ∀ message ∈ record.payload.messages,
      other.messageId ≠ message.messageId := by
    intro agentId other hother message hmessage
    obtain ⟨delivered, later, hdelivered, hid, -⟩ := h.origin agentId other hother
    rw [← hid]
    exact hnew.unused message hmessage delivered later hdelivered
  refine ⟨fun message later hdelivered => ?_, fun a la b lb ha hb hid => ?_,
    fun agentId message hmessage => ?_, fun agentId => ?_, fun messageId hclaim => ?_, ?_⟩
  · rcases delivered_append.1 hdelivered with ⟨shorter, rfl, hold⟩ | ⟨rfl, hmem⟩
    · -- an older message stays where it is
      obtain ⟨hclaim, hgone, hwaits⟩ := h.located message shorter hold
      rw [fateOf_append, hobserve]
      refine ⟨by rw [foldl_push_claims, hclaim], fun hdequeued other hother => ?_,
        fun hdequeued => ?_⟩
      · rw [hinbox, mem_append] at hother
        rcases hother with hother | hother
        · exact hgone hdequeued other hother
        · exact (hnew.unused other (mem_filter.1 hother).1 message shorter hold).symm
      · rw [hinbox]
        exact mem_append_left _ (hwaits hdequeued)
    · have hfate : fateOf message [] = ⟨none, false, none⟩ := by
        rw [fateOf, foldl_nil, hnew.pending message hmem]
      rw [hfate]
      refine ⟨?_, fun hdequeued => absurd hdequeued Bool.false_ne_true, fun _ => ?_⟩
      · rw [foldl_push_claims]
        by_contra hclaim
        obtain ⟨other, later, hother, hid⟩ := h.claimed _ hclaim
        exact hnew.unused message hmem other later hother hid
      · rw [hinbox]
        refine mem_append_right _ (mem_filter.2 ⟨?_, decide_eq_true rfl⟩)
        rw [← hnew.pending message hmem]
        exact hmem
  · rcases delivered_append.1 ha with ⟨shorter, -, ha⟩ | ⟨-, ha⟩ <;>
      rcases delivered_append.1 hb with ⟨shorter', -, hb⟩ | ⟨-, hb⟩
    · exact h.unique a _ b _ ha hb hid
    · exact absurd hid (hnew.unused b hb a _ ha)
    · exact absurd hid.symm (hnew.unused a ha b _ hb)
    · exact eq_of_nodup_ids hnew.nodup ha hb hid
  · rw [hinbox, mem_append] at hmessage
    rcases hmessage with hmessage | hmessage
    · obtain ⟨delivered, later, hdelivered, hrest⟩ := h.origin agentId message hmessage
      exact ⟨delivered, _, hdelivered.append record, hrest⟩
    · obtain ⟨hmem, hto⟩ := mem_filter.1 hmessage
      exact ⟨message, [], delivered_append.2 (.inr ⟨rfl, hmem⟩), rfl, of_decide_eq_true hto, rfl⟩
  · rw [hinbox, map_append, nodup_append]
    refine ⟨h.nodup agentId, hnew.nodup.sublist (filter_sublist.map _), ?_⟩
    intro id hid id' hid'
    obtain ⟨old, hold, rfl⟩ := mem_map.1 hid
    obtain ⟨added, hadded, rfl⟩ := mem_map.1 hid'
    exact hapart agentId old hold added (mem_filter.1 hadded).1
  · rw [foldl_push_claims] at hclaim
    obtain ⟨message, later, hdelivered, hid⟩ := h.claimed messageId hclaim
    exact ⟨message, _, hdelivered.append record, hid⟩
  · rw [replay_append, ← h.replayed, hrestore]
    exact (foldl_restoreMessage hnew.nodup fun message hmessage agentId other hother =>
      hapart agentId other hother message hmessage).symm

/-! ## Claims, acknowledgements and dequeues -/

/-- A change of the bus that goes with a record of it and delivers nothing. -/
lemma Tracks.change (h : Tracks bus records) {bus' : MessageBus B}
    (hnone : record.payload.messages = []) (hrestore : bus.restoreRecord record.payload = bus')
    (hlocated : ∀ message later, Delivered records message later →
      Located bus' message ((fateOf message later).observe message.messageId record.payload))
    (hinbox : ∀ agentId, ∀ message ∈ bus'.inboxes agentId, ∃ old ∈ bus.inboxes agentId,
      message = { old with acknowledgedAtUnixMs := message.acknowledgedAtUnixMs })
    (hnodup : ∀ agentId, ((bus'.inboxes agentId).map (·.messageId)).Nodup)
    (hclaimed : ∀ messageId, bus'.claims messageId ≠ none → bus.claims messageId = none →
      ∃ message later, Delivered records message later ∧ message.messageId = messageId) :
    Tracks bus' (records ++ [record]) := by
  have hold : ∀ {message later}, Delivered (records ++ [record]) message later →
      ∃ shorter, later = shorter ++ [record] ∧ Delivered records message shorter := by
    simp [delivered_append, hnone]
  refine ⟨fun message later hdelivered => ?_, fun a la b lb ha hb hid => ?_,
    fun agentId message hmessage => ?_, hnodup, fun messageId hclaim => ?_, ?_⟩
  · obtain ⟨shorter, rfl, hshorter⟩ := hold hdelivered
    rw [fateOf_append]
    exact hlocated message shorter hshorter
  · obtain ⟨_, -, ha⟩ := hold ha
    obtain ⟨_, -, hb⟩ := hold hb
    exact h.unique a _ b _ ha hb hid
  · obtain ⟨old, hmem, heq⟩ := hinbox agentId message hmessage
    obtain ⟨delivered, later, hdelivered, hid, hto, hsame⟩ := h.origin agentId old hmem
    refine ⟨delivered, _, hdelivered.append record, ?_, hto, ?_⟩
    · rw [heq]
      exact hid
    · rw [heq, hsame]
  · cases hbefore : bus.claims messageId with
    | none =>
      obtain ⟨message, later, hdelivered, hid⟩ := hclaimed messageId hclaim hbefore
      exact ⟨message, _, hdelivered.append record, hid⟩
    | some claimId =>
      obtain ⟨message, later, hdelivered, hid⟩ := h.claimed messageId (by rw [hbefore]; nofun)
      exact ⟨message, _, hdelivered.append record, hid⟩
  · rw [replay_append, ← h.replayed, hrestore]

/-- Records of other components say nothing of messages. -/
lemma Tracks.other (h : Tracks bus records) {recordType : String}
    (hpayload : record.payload = .other recordType) : Tracks bus (records ++ [record]) := by
  refine h.change (by rw [hpayload]; rfl) (by rw [hpayload]; rfl)
    (fun message later hdelivered => ?_) (fun _ message hmessage => ⟨message, hmessage, rfl⟩)
    h.nodup fun _ hsome hnone => absurd hnone hsome
  rw [hpayload]
  exact h.located message later hdelivered

lemma mem_claimable : message ∈ bus.claimable runId agentId ↔ message ∈ bus.inboxes agentId ∧
      message.runId = runId ∧ message.isPending = true ∧ bus.claims message.messageId = none := by
  rw [claimable, mem_filter, Bool.and_eq_true, Bool.and_eq_true,
    decide_eq_true_eq, Option.isNone_iff_eq_none, and_assoc]

section

variable (h : Tracks bus records)
include h

lemma Tracks.claim {claimId : String}
    (hpayload : record.payload = .messagesClaimed agentId claimId
      ((bus.claimable runId agentId).map (·.messageId))) :
    Tracks (bus.restoreClaim claimId ((bus.claimable runId agentId).map (·.messageId)))
      (records ++ [record]) := by
  refine h.change (by rw [hpayload]; rfl) (by rw [hpayload]; rfl)
    (fun message later hdelivered => ?_) (fun _ message hmessage => ⟨message, hmessage, rfl⟩)
    h.nodup fun messageId hsome hnone => ?_
  · obtain ⟨hclaim, hgone, hwaits⟩ := h.located message later hdelivered
    rw [hpayload, Fate.observe]
    by_cases hmem : message.messageId ∈ (bus.claimable runId agentId).map (·.messageId)
    · rw [if_pos (contains_iff_mem.2 hmem)]
      exact ⟨by rw [restoreClaim_claims, if_pos hmem], hgone, hwaits⟩
    · rw [if_neg (mt contains_iff_mem.1 hmem)]
      exact ⟨by rw [restoreClaim_claims, if_neg hmem, hclaim], hgone, hwaits⟩
  · rw [restoreClaim_claims] at hsome
    split at hsome
    · next hmem =>
      obtain ⟨message, hmessage, rfl⟩ := mem_map.1 hmem
      obtain ⟨delivered, later, hdelivered, hid, -⟩ :=
        h.origin agentId message (mem_claimable.1 hmessage).1
      exact ⟨delivered, later, hdelivered, hid⟩
    · exact absurd hnone hsome

/-- A message in an inbox was delivered to that agent. -/
lemma Tracks.toAgent_eq {delivered : AgentMessage B} (hmem : message ∈ bus.inboxes agentId)
    (hdelivered : Delivered records delivered later)
    (hid : delivered.messageId = message.messageId) : delivered.toAgent = agentId := by
  obtain ⟨other, later', hother, hsame, hto, -⟩ := h.origin agentId message hmem
  rw [h.unique delivered later other later' hdelivered hother (hid.trans hsame.symm), hto]

/-- Messages of one id are in one inbox. -/
lemma Tracks.agent_eq {other : AgentMessage B} {otherId : String}
    (hmem : message ∈ bus.inboxes agentId) (hother : other ∈ bus.inboxes otherId)
    (hid : other.messageId = message.messageId) : otherId = agentId := by
  obtain ⟨delivered, later, hdelivered, hsame, rfl, -⟩ := h.origin otherId other hother
  exact h.toAgent_eq hmem hdelivered (hsame.trans hid)

lemma Tracks.acknowledge {messageId : String} {nowUnixMs : ℤ}
    (hfound : (bus.inboxes agentId).find? (·.messageId = messageId) = some message)
    (hpayload : record.payload = .messageAcknowledged messageId agentId nowUnixMs) :
    Tracks (bus.restoreAcknowledgement agentId messageId nowUnixMs)
      (records ++ [record]) := by
  have hid : message.messageId = messageId := by simpa using List.find?_some hfound
  have hinbox : ∀ other, (bus.restoreAcknowledgement agentId messageId nowUnixMs).inboxes other =
      (bus.inboxes other).map (·.acknowledgedIf messageId (some nowUnixMs)) := by
    intro other
    by_cases hother : other = agentId
    · rw [hother, MessageBus.restoreAcknowledgement, setInbox_self,
        setAcknowledged_eq_map (h.nodup agentId)]
    · refine (setInbox_of_ne _ hother _).trans (((map_congr_left fun old hold =>
        acknowledgedIf_eq_self fun heq => ?_).trans (map_id _)).symm)
      exact hother (h.agent_eq (mem_of_find?_eq_some hfound) hold (heq.trans hid.symm))
  refine h.change (by rw [hpayload]; rfl) (by rw [hpayload]; rfl)
    (fun delivered later hdelivered => ?_) (fun other changed hchanged => ?_) (fun other => ?_)
    fun _ hsome hnone => absurd hnone hsome
  · obtain ⟨hclaim, hgone, hwaits⟩ := h.located delivered later hdelivered
    have hgone' : (fateOf delivered later).dequeued = true → ∀ other ∈
        (bus.restoreAcknowledgement agentId messageId nowUnixMs).inboxes delivered.toAgent,
        other.messageId ≠ delivered.messageId := by
      intro hdequeued other hother
      rw [hinbox] at hother
      obtain ⟨old, hold, rfl⟩ := mem_map.1 hother
      rw [acknowledgedIf_messageId]
      exact hgone hdequeued old hold
    rw [hpayload, Fate.observe]
    by_cases hsame : messageId = delivered.messageId
    · rw [if_pos hsame]
      refine ⟨hclaim, hgone', fun hdequeued => ?_⟩
      rw [hinbox]
      refine mem_map.2 ⟨_, hwaits hdequeued, ?_⟩
      rw [AgentMessage.acknowledgedIf, if_pos hsame.symm]
    · rw [if_neg hsame]
      refine ⟨hclaim, hgone', fun hdequeued => ?_⟩
      rw [hinbox]
      exact mem_map.2 ⟨_, hwaits hdequeued, acknowledgedIf_eq_self fun heq => hsame heq.symm⟩
  · rw [hinbox] at hchanged
    obtain ⟨old, hold, rfl⟩ := mem_map.1 hchanged
    refine ⟨old, hold, ?_⟩
    unfold AgentMessage.acknowledgedIf
    split <;> rfl
  · simpa only [hinbox, map_map, Function.comp_def, acknowledgedIf_messageId] using h.nodup other

lemma Tracks.dequeue (hpayload : record.payload =
      .messagesDequeued agentId ((bus.ofRun runId agentId).map (·.messageId))) :
    Tracks (bus.remove agentId ((bus.ofRun runId agentId).map (·.messageId)))
      (records ++ [record]) := by
  generalize hids : (bus.ofRun runId agentId).map (·.messageId) = ids at hpayload ⊢
  have hmine : ∀ id ∈ ids, ∃ message ∈ bus.inboxes agentId, message.messageId = id := by
    intro id hid
    rw [← hids] at hid
    obtain ⟨message, hmessage, heq⟩ := mem_map.1 hid
    exact ⟨message, (mem_filter.1 hmessage).1, heq⟩
  have hkept : ∀ other message, message ∈ (bus.remove agentId ids).inboxes other ↔
      message ∈ bus.inboxes other ∧ message.messageId ∉ ids := by
    intro other message
    by_cases hother : other = agentId
    · rw [hother, MessageBus.remove, setInbox_self, mem_filter]
      simp
    · rw [MessageBus.remove, setInbox_of_ne _ hother, iff_self_and]
      intro hmessage hmem
      obtain ⟨mine, hmine, hid⟩ := hmine _ hmem
      exact hother (h.agent_eq hmine hmessage hid.symm)
  refine h.change (by rw [hpayload]; rfl) (by rw [hpayload]; rfl)
    (fun delivered later hdelivered => ?_)
    (fun other message hmessage => ⟨message, ((hkept other message).1 hmessage).1, rfl⟩)
    (fun other => ?_) fun _ hsome hnone => absurd hnone hsome
  · obtain ⟨hclaim, hgone, hwaits⟩ := h.located delivered later hdelivered
    rw [hpayload, Fate.observe]
    by_cases hmem : delivered.messageId ∈ ids
    · rw [if_pos (contains_iff_mem.2 hmem)]
      refine ⟨hclaim, fun _ other hother heq => ?_, fun hdequeued => absurd hdequeued nofun⟩
      exact ((hkept _ other).1 hother).2 (heq ▸ hmem)
    · rw [if_neg (mt contains_iff_mem.1 hmem)]
      refine ⟨hclaim, fun hdequeued other hother => ?_, fun hdequeued => ?_⟩
      · exact hgone hdequeued other ((hkept _ other).1 hother).1
      · exact (hkept _ _).2 ⟨hwaits hdequeued, hmem⟩
  · by_cases hother : other = agentId
    · rw [hother, MessageBus.remove, setInbox_self]
      exact (h.nodup agentId).sublist (filter_sublist.map _)
    · rw [MessageBus.remove, setInbox_of_ne _ hother]
      exact h.nodup other

end

end

/-! ## Whole runs -/

/-- The bus tracks the records of its run, whose deliveries are named as the calls name them. -/
structure InSync (runId : RunId) (direct broadcasts : Set String) (s : BusState B) : Prop where
  ordered : s.ledger.Ordered
  tracks : Tracks s.bus (s.ledger.recordsForRun runId)
  named : ∀ record ∈ s.ledger.recordsForRun runId, record.payload.DeliversUnder direct broadcasts
  copies : ∀ record ∈ s.ledger.recordsForRun runId, ∀ durable,
    record.payload = .messagesBroadcast durable → ∀ message ∈ durable.messages,
      ∃ index, message.messageId = broadcastMessageId durable.broadcastId index

section

variable {runId : RunId} {direct broadcasts : Set String} {s s' : BusState B} {event : BusEvent B}

/-- No id of a direct message is the id of a copy of a broadcast. -/
def Apart (direct broadcasts : Set String) : Prop :=
  ∀ broadcastId ∈ broadcasts, ∀ index, broadcastMessageId broadcastId index ∉ direct

/-- A delivered message is a direct one, or a copy of a broadcast. -/
lemma InSync.delivered_cases (h : InSync runId direct broadcasts s)
    (hdelivered : Delivered (s.ledger.recordsForRun runId) message later) :
    (∃ record ∈ s.ledger.recordsForRun runId, ∃ durable,
      record.payload = .messageDelivered durable ∧ durable.message = message ∧
        message.messageId ∈ direct) ∨
    ∃ record ∈ s.ledger.recordsForRun runId, ∃ durable index,
      record.payload = .messagesBroadcast durable ∧ durable.broadcastId ∈ broadcasts ∧
        message.messageId = broadcastMessageId durable.broadcastId index := by
  obtain ⟨earlier, record, hsplit, hmem⟩ := hdelivered
  have hrecord : record ∈ s.ledger.recordsForRun runId := by
    rw [hsplit]
    exact mem_append_right _ mem_cons_self
  have hnamed := h.named record hrecord
  cases hpayload : record.payload with
  | messageDelivered durable =>
    rw [hpayload] at hmem hnamed
    rw [mem_singleton.1 hmem]
    exact .inl ⟨record, hrecord, durable, hpayload, rfl, hnamed⟩
  | messagesBroadcast durable =>
    rw [hpayload] at hmem hnamed
    obtain ⟨index, hid⟩ := h.copies record hrecord durable hpayload message hmem
    exact .inr ⟨record, hrecord, durable, index, hpayload, hnamed, hid⟩
  | _ =>
    rw [hpayload] at hmem
    cases hmem

variable {ctx : CallContext}

lemma InSync.new_send (h : InSync runId direct broadcasts s) (hapart : Apart direct broadcasts)
    {request : SendRequest B} (hid : request.messageId ∈ direct)
    (hnew : findDelivered (s.ledger.recordsForRun runId) request.messageId = none) :
    NewMessages (s.ledger.recordsForRun runId) [request.message ctx runId] := by
  refine ⟨fun message hmessage => ?_, nodup_singleton _, fun message hmessage => ?_⟩
  · rw [mem_singleton.1 hmessage]
    rfl
  · rw [mem_singleton.1 hmessage]
    intro delivered later hdelivered
    rcases h.delivered_cases hdelivered with ⟨record, hrecord, durable, hpayload, rfl, -⟩ |
      ⟨record, hrecord, durable, index, hpayload, hbroadcast, hcopy⟩
    · intro hsame
      have hnone := findBound_eq_none.1 hnew record hrecord
      rw [hpayload] at hnone
      cases (if_pos hsame).symm.trans hnone
    · rw [hcopy]
      exact fun hsame => hapart _ hbroadcast index (hsame ▸ hid)

lemma mem_messages {request : BroadcastRequest B} (h : message ∈ request.messages ctx runId) :
    ∃ toAgent index, message = request.message ctx runId toAgent index := by
  obtain ⟨⟨toAgent, index⟩, -, heq⟩ := mem_map.1 h
  exact ⟨toAgent, index, heq.symm⟩

lemma messages_ids_nodup (ctx : CallContext) (request : BroadcastRequest B) :
    ((request.messages ctx runId).map (·.messageId)).Nodup := by
  have hids : (request.messages ctx runId).map (·.messageId) =
      (request.recipients.zipIdx.map Prod.snd).map (broadcastMessageId request.broadcastId) := by
    rw [BroadcastRequest.messages, map_map, map_map]
    rfl
  rw [hids, zipIdx_map_snd]
  exact (nodup_range' ..).map fun i j hij => (broadcastMessageId_inj hij).2

lemma InSync.new_broadcast (h : InSync runId direct broadcasts s) (hapart : Apart direct broadcasts)
    {request : BroadcastRequest B} (hid : request.broadcastId ∈ broadcasts)
    (hnew : findBroadcast (s.ledger.recordsForRun runId) request.broadcastId = none) :
    NewMessages (s.ledger.recordsForRun runId) (request.messages ctx runId) := by
  refine ⟨fun message hmessage => ?_, messages_ids_nodup ctx request,
    fun message hmessage delivered later hdelivered => ?_⟩
  · obtain ⟨toAgent, index, rfl⟩ := mem_messages hmessage
    rfl
  · obtain ⟨toAgent, index, rfl⟩ := mem_messages hmessage
    rcases h.delivered_cases hdelivered with ⟨record, hrecord, durable, hpayload, rfl, hdirect⟩ |
      ⟨record, hrecord, durable, index', hpayload, -, hcopy⟩
    · intro hsame
      rw [hsame] at hdirect
      exact hapart _ hid index hdirect
    · rw [hcopy]
      intro hsame
      have hnone := findBound_eq_none.1 hnew record hrecord
      rw [hpayload] at hnone
      cases (if_pos (broadcastMessageId_inj hsame).1).symm.trans hnone

variable {ledger : LedgerState (MessagePayload B)} {record : MessageRecord B}

section

variable (h : InSync runId direct broadcasts s)
include h

/-- One more record of the run. -/
lemma InSync.append {bus : MessageBus B}
    (hrecorded : Recorded runId s ⟨bus, ledger⟩ payload record)
    (htracks : Tracks bus (s.ledger.recordsForRun runId ++ [record]))
    (hids : payload.DeliversUnder direct broadcasts)
    (hcopies : ∀ durable, payload = .messagesBroadcast durable → ∀ message ∈ durable.messages,
      ∃ index, message.messageId = broadcastMessageId durable.broadcastId index) :
    InSync runId direct broadcasts ⟨bus, ledger⟩ := by
  have hrecords : ledger.recordsForRun runId = s.ledger.recordsForRun runId ++ [record] :=
    hrecorded.recordsForRun
  refine ⟨hrecorded.appended.ordered h.ordered, hrecords ▸ htracks, ?_, ?_⟩
  all_goals
    rw [hrecords]
    intro other hother
    rcases mem_append.1 hother with hother | hother
  · exact h.named other hother
  · rw [mem_singleton.1 hother, hrecorded.payload]
    exact hids
  · exact h.copies other hother
  · rw [mem_singleton.1 hother, hrecorded.payload]
    exact hcopies

/-- Writing one record keeps the invariant. -/
lemma InSync.recorded [MessageBody B] [ExactBody B] (hapart : Apart direct broadcasts)
    {bus : MessageBus B} (hwrite : PayloadWrite runId s payload bus)
    (hids : payload.DeliversUnder direct broadcasts)
    (hrecorded : Recorded runId s ⟨bus, ledger⟩ payload record) :
    InSync runId direct broadcasts ⟨bus, ledger⟩ := by
  have hpayload := hrecorded.payload
  refine h.append hrecorded ?_ hids ?_
  · cases hwrite with
    | sent hstored hnew =>
      obtain rfl := eq_of_storedRecords hstored
      exact h.tracks.deliver hpayload (h.new_send hapart hids hnew) (fun _ _ => rfl) rfl
    | broadcast hstored hnew =>
      obtain rfl := eq_of_storedRecords hstored
      exact h.tracks.deliver hpayload (h.new_broadcast hapart hids hnew) (fun _ _ => rfl) rfl
    | claimed agentId claimId => exact h.tracks.claim hpayload
    | acknowledged hfound nowUnixMs => exact h.tracks.acknowledge hfound hpayload
    | dequeued agentId => exact h.tracks.dequeue hpayload
  · intro durable hbroadcast
    cases hwrite with
    | broadcast hstored hnew =>
      cases hbroadcast
      intro message hmessage
      obtain ⟨toAgent, index, rfl⟩ := mem_messages hmessage
      exact ⟨index, rfl⟩
    | _ => cases hbroadcast

lemma InSync.elsewhere {other : RunId} {recordType : String}
    (hrecorded : Recorded other s ⟨s.bus, ledger⟩ (.other recordType) record) :
    InSync runId direct broadcasts ⟨s.bus, ledger⟩ := by
  by_cases hrun : runId = other
  · subst hrun
    exact h.append hrecorded (h.tracks.other hrecorded.payload) trivial fun _ hpayload => by
      cases hpayload
  · have hrecords : ledger.recordsForRun runId = s.ledger.recordsForRun runId :=
      hrecorded.appended.recordsForRun_of_ne hrun
    obtain ⟨hordered, htracks, hnamed, hcopies⟩ := h
    rw [← hrecords] at htracks hnamed hcopies
    exact ⟨hrecorded.appended.ordered hordered, htracks, hnamed, hcopies⟩

section

variable [MessageBody B] [ExactBody B] (hstored : s.storedRecords runId = .ok records)
include hstored

/-- A repair and a restart change nothing. -/
lemma InSync.repaired (hrecord : record ∈ records) :
    s.bus.repairDurableMessages record.seq records record.payload.messages = (s.bus, .ok ()) := by
  obtain rfl := eq_of_storedRecords hstored
  exact h.tracks.repair (h.ordered.sorted.filter _) hrecord

lemma InSync.restarted : replay records = s.bus := by
  obtain rfl := eq_of_storedRecords hstored
  exact h.tracks.replayed.symm

end

end

lemma InSync.step [MessageBody B] [ExactBody B] (hapart : Apart direct broadcasts)
    (h : InSync runId direct broadcasts s) (hids : event.DeliversUnder direct broadcasts)
    (hwrite : BusWrite runId s event s') : InSync runId direct broadcasts s' := by
  cases hwrite with
  | kept => exact h
  | repaired hstored hrecord =>
    rw [h.repaired hstored hrecord]
    exact h
  | recorded hwrite hdelivers hrecorded =>
    exact h.recorded hapart hwrite (hdelivers direct broadcasts hids) hrecorded
  | elsewhere hrecorded => exact h.elsewhere hrecorded
  | restarted hstored =>
    rw [h.restarted hstored]
    exact h

lemma InSync.empty : InSync runId direct broadcasts (.empty : BusState B) where
  ordered := LedgerState.Ordered.empty
  tracks := by
    have hnone : ∀ {message later}, ¬Delivered
        (BusState.empty.ledger.recordsForRun runId) (message : AgentMessage B) later := by
      rintro message later ⟨earlier, record, hsplit, -⟩
      exact absurd hsplit (by simp [BusState.empty, LedgerState.empty, LedgerState.recordsForRun])
    exact ⟨fun _ _ h => absurd h hnone, fun _ _ _ _ h => absurd h hnone,
      fun _ _ h => absurd h not_mem_nil,
      fun _ => nodup_nil, fun _ h => absurd rfl h, rfl⟩
  named := forall_mem_nil _
  copies := forall_mem_nil _

end

end SolarisMesh.Messages
