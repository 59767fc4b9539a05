import SolarisMesh.Store.SingleWriter

/-!
# The host outbox

A delivery is queued under the epoch of the session's lease. When the lease changes hands, the
pending deliveries are moved to the new epoch and numbered again, in the order they are listed.
They are listed by the time they were queued at, and the clock may go back.
-/

namespace SolarisMesh.Store

open HostDelivery Prod.Lex List Lib

/-! ## Sorting by arrival -/

/-- A list whose ties are broken by its own order is sorted exactly if the times are. -/
lemma insertionSort_eq_self_iff {α γ δ : Type*} [LinearOrder γ] [LinearOrder δ] {time : α → γ}
    {rank : α → δ} {values : List α}
    (hties : values.Pairwise fun a b => time a = time b → rank a ≤ rank b) :
    values.insertionSort (fun a b => toLex (time a, rank a) ≤ toLex (time b, rank b)) = values ↔
      values.Pairwise (time · ≤ time ·) := by
  constructor
  · intro hsorted
    have hpairwise := pairwise_insertionSort
      (fun a b => toLex (time a, rank a) ≤ toLex (time b, rank b)) values
    rw [hsorted] at hpairwise
    refine hpairwise.imp fun hle => ?_
    rcases toLex_le_toLex.mp hle with hlt | ⟨heq, -⟩
    · exact hlt.le
    · exact heq.le
  · intro htimes
    refine List.Pairwise.insertionSort_eq ?_
    refine (htimes.and hties).imp fun h => toLex_le_toLex.mpr ?_
    rcases h.1.lt_or_eq with hlt | heq
    · exact .inl hlt
    · exact .inr ⟨heq, h.2 heq⟩

/-- In a sorted list the smaller key comes first. -/
lemma idxOf_lt_idxOf {α γ : Type*} [DecidableEq α] [LinearOrder γ] {key : α → γ}
    {values : List α} (hsorted : values.Pairwise (key · ≤ key ·)) {a b : α} (ha : a ∈ values)
    (hb : b ∈ values) (hlt : key a < key b) : values.idxOf a < values.idxOf b := by
  have hbeforeA := idxOf_lt_length_of_mem ha
  have hbeforeB := idxOf_lt_length_of_mem hb
  by_contra hnot
  rcases (Nat.le_of_not_lt hnot).lt_or_eq with hbefore | hsame
  · have hle := pairwise_iff_getElem.1 hsorted _ _ hbeforeB hbeforeA hbefore
    rw [getElem_idxOf, getElem_idxOf] at hle
    exact absurd hlt (not_lt.2 hle)
  · rw [(idxOf_inj hb).1 hsame] at hlt
    exact lt_irrefl _ hlt

/-! ## What a history queued -/

/-- The delivery a step put into the outbox. -/
def enqueuedBy (x : StoreStep) : Option HostDelivery :=
  match x.event.call with
  | .enqueueHostDelivery .. => (x.after.outbox.drop x.before.outbox.length).head?
  | _ => none

/-- The delivery a step marked as acknowledged. -/
def acknowledgedBy (x : StoreStep) : Option String :=
  match x.event.call with
  | .acknowledgeHostDelivery _ _ deliveryId _ _ =>
    if x.after.outbox = x.before.outbox then none else some deliveryId
  | _ => none

def enqueued (trace : List StoreStep) : List HostDelivery := trace.filterMap enqueuedBy

def acknowledged (trace : List StoreStep) : List String := trace.filterMap acknowledgedBy

/-- What a session has queued and nobody acknowledged, in the order it was queued. -/
def waiting (trace : List StoreStep) (sessionId : String) : List HostDelivery :=
  (enqueued trace).filter fun delivery =>
    delivery.sessionId = sessionId && !(acknowledged trace).contains delivery.deliveryId

/-! ## The rows of the outbox in the order they were queued -/

namespace HostDelivery

/-- What adoption and acknowledgement leave of a delivery. -/
def core (delivery : HostDelivery) : HostDelivery :=
  { delivery with runEpoch := 0, sequence := 0, acknowledgedAtMs := none }

lemma eq_of_core {a b : HostDelivery} (h : a.core = b.core) : a.deliveryId = b.deliveryId ∧
    a.sessionId = b.sessionId ∧ a.createdAtMs = b.createdAtMs :=
  ⟨(congrArg deliveryId h :), (congrArg sessionId h :), (congrArg createdAtMs h :)⟩

/-- The place of a delivery in its session. -/
def place (delivery : HostDelivery) : ℤ ×ₗ ℤ := toLex (delivery.runEpoch, delivery.sequence)

/-- Two rows of a session have different places, and pending ones of the same time have them in
the order they were queued. -/
def Apart (a b : HostDelivery) : Prop :=
  a.sessionId = b.sessionId → a.place ≠ b.place ∧
    (a.acknowledgedAtMs = none → b.acknowledgedAtMs = none → a.createdAtMs = b.createdAtMs →
      a.place < b.place)

end HostDelivery

open HostDelivery (core place)

structure Queue (db : Database) (queued : List HostDelivery) (gone : List String)
    (rows : List HostDelivery) : Prop where
  perm : rows.Perm db.outbox
  same : rows.map core = queued.map core
  nodup : (rows.map (·.deliveryId)).Nodup
  gone : ∀ row ∈ rows, row.acknowledgedAtMs = none ↔ row.deliveryId ∉ gone
  apart : rows.Pairwise HostDelivery.Apart
  bounded : ∀ row ∈ rows, ∃ lease, db.leases row.sessionId = some lease ∧ row.runEpoch ≤ lease.epoch

/-- Leases stay and their epochs do not fall. -/
def LeasesGrow (db db' : Database) : Prop :=
  ∀ sessionId lease, db.leases sessionId = some lease →
    ∃ lease', db'.leases sessionId = some lease' ∧ lease.epoch ≤ lease'.epoch

section

variable {db db' : Database} {queued rows pending : List HostDelivery}
  {gone : List String} {earlier trace : List StoreStep} {sessionId : String}
  {outbox : StoredHostOutbox} {delivery row : HostDelivery} {runEpoch first nowMs : ℤ}

lemma leasesGrow_of_call (h : EpochHistory db earlier) {call : StoreCall}
    (hrows : RowWrite db call db') : LeasesGrow db db' := by
  intro sessionId lease hlease
  obtain ⟨hsame, -⟩ | ⟨ownerId, epoch, expiresAtMs, -, -, -, hepoch, hafter⟩ |
    ⟨held, nowMs, ownerId, expiresAtMs, hholds, htarget, -, -, hafter⟩ :=
    hrows.lease_cases sessionId
  · exact ⟨lease, hsame.trans hlease, le_rfl⟩
  · exact ⟨_, hafter, (h.takeover hepoch hlease).le⟩
  · obtain ⟨expiry, -, hcurrent⟩ := hholds.current
    rw [htarget, hlease, Option.some.injEq] at hcurrent
    refine ⟨_, hafter, ?_⟩
    rw [hcurrent]

/-- The next sequence is above all of its epoch. -/
lemma lt_of_nextSequence {deliveries : List HostDelivery} {sequence : ℤ}
    (h : nextSequence deliveries sessionId runEpoch = .ok sequence) (hmem : delivery ∈ deliveries)
    (hsession : delivery.sessionId = sessionId) (hepoch : delivery.runEpoch = runEpoch) :
    delivery.sequence < sequence := by
  have hmem' : delivery.sequence ∈ (deliveries.filter fun delivery =>
      delivery.sessionId = sessionId && delivery.runEpoch = runEpoch).map (·.sequence) := by
    refine mem_map_of_mem (mem_filter.2 ⟨hmem, ?_⟩)
    rw [Bool.and_eq_true, decide_eq_true_eq, decide_eq_true_eq]
    exact ⟨hsession, hepoch⟩
  unfold nextSequence at h
  split at h
  · next hnone =>
    rw [List.max?_eq_none_iff] at hnone
    rw [hnone] at hmem'
    cases hmem'
  · next last hlast =>
    rw [orElseThrow_eq_ok] at h
    have hle : delivery.sequence ≤ last := (List.max?_eq_some_iff.1 hlast).2 _ hmem'
    have hnext := i64CheckedAdd_eq_some h
    omega

/-! ### Queueing -/

lemma Queue.enqueue (h : Queue db queued gone rows) {deliveryId msgId : String}
    {digest : Option String} {payload : List UInt8}
      (hgone : ∀ id ∈ gone, ∃ row ∈ rows, row.deliveryId = id)
    (hcall : enqueueHostDelivery db outbox deliveryId msgId digest payload nowMs =
      .ok (db', delivery)) :
    Queue db' (queued ++ [delivery]) gone (rows ++ [delivery]) := by
  obtain ⟨hepoch, ⟨sequence, _, hsequence, rfl⟩, hnew, rfl⟩ := enqueueHostDelivery_eq_ok hcall
  obtain ⟨-, lease, hlease, hlast⟩ := requireHostOutboxEpoch_eq_ok hepoch
  have hfresh : ∀ row ∈ rows, row.deliveryId ≠ deliveryId := fun row hrow =>
    hnew row (h.perm.subset hrow)
  constructor
  case perm => exact h.perm.append_right _
  case same => rw [map_append, map_append, h.same]
  case nodup =>
    rw [map_append, map_singleton, ← concat_eq_append]
    refine h.nodup.concat fun hmem => ?_
    obtain ⟨row, hrow, heq⟩ := mem_map.1 hmem
    exact hfresh row hrow heq
  case gone =>
    intro row hrow
    rcases mem_append.1 hrow with hrow | hrow
    · exact h.gone row hrow
    · rw [mem_singleton.1 hrow]
      refine iff_of_true rfl fun hmem => ?_
      obtain ⟨row, hrow, heq⟩ := hgone _ hmem
      exact hfresh row hrow heq
  case apart =>
    refine pairwise_append.2 ⟨h.apart, pairwise_singleton _ _, ?_⟩
    intro row hrow new hmem hsession
    rw [mem_singleton.1 hmem] at hsession ⊢
    -- a row of this session is in an earlier epoch or has a smaller number
    have hplace : row.place < toLex (outbox.runEpoch, sequence) := by
      obtain ⟨lease', hlease', hle⟩ := h.bounded row hrow
      rw [hsession, hlease] at hlease'
      cases hlease'
      rw [hlast] at hle
      refine toLex_lt_toLex.2 ?_
      rcases hle.lt_or_eq with hlt | heq
      · exact .inl hlt
      · exact .inr ⟨heq, lt_of_nextSequence hsequence (h.perm.subset hrow) hsession heq⟩
    exact ⟨hplace.ne, fun _ _ _ => hplace⟩
  case bounded =>
    intro row hrow
    rcases mem_append.1 hrow with hrow | hrow
    · exact h.bounded row hrow
    · rw [mem_singleton.1 hrow]
      exact ⟨lease, hlease, hlast.ge⟩

/-! ### Acknowledging -/

/-- A change of rows that keeps their core keeps the queue, if the rest of it does. -/
lemma Queue.map (h : Queue db queued gone rows) {change : HostDelivery → HostDelivery}
    {gone' : List String} (hcore : ∀ row, (change row).core = row.core)
    (hperm : (db.outbox.map change).Perm db'.outbox)
    (hgone : ∀ row ∈ rows, (change row).acknowledgedAtMs = none ↔ row.deliveryId ∉ gone')
    (hapart : rows.Pairwise fun a b => a.sessionId = b.sessionId →
      (change a).place ≠ (change b).place ∧ ((change a).acknowledgedAtMs = none →
        (change b).acknowledgedAtMs = none → a.createdAtMs = b.createdAtMs →
          (change a).place < (change b).place))
    (hbounded : ∀ row ∈ rows, ∃ lease, db'.leases row.sessionId = some lease ∧
      (change row).runEpoch ≤ lease.epoch) :
    Queue db' queued gone' (rows.map change) := by
  have hid (row : HostDelivery) := (eq_of_core (hcore row)).1
  refine ⟨(h.perm.map _).trans hperm, ?_, ?_, forall_mem_map.2 fun row hrow => ?_,
    pairwise_map.2 (hapart.imp fun {a b} hapart => ?_), forall_mem_map.2 fun row hrow => ?_⟩
  · rw [← h.same, map_map]
    exact map_congr_left fun row _ => hcore row
  · rw [map_map, show (·.deliveryId) ∘ change = (·.deliveryId) from funext hid]
    exact h.nodup
  · rw [hid]
    exact hgone row hrow
  · obtain ⟨-, hsessionA, htimeA⟩ := eq_of_core (hcore a)
    obtain ⟨-, hsessionB, htimeB⟩ := eq_of_core (hcore b)
    rwa [HostDelivery.Apart, hsessionA, hsessionB, htimeA, htimeB]
  · rw [(eq_of_core (hcore row)).2.1]
    exact hbounded row hrow

/-- An acknowledged delivery keeps its core and its place. -/
lemma acknowledge_keeps (deliveryId : String) (nowMs : ℤ) (delivery : HostDelivery) :
    (acknowledge deliveryId nowMs delivery).core = delivery.core ∧
      (acknowledge deliveryId nowMs delivery).place = delivery.place ∧
      (acknowledge deliveryId nowMs delivery).runEpoch = delivery.runEpoch := by
  unfold acknowledge
  split <;> exact ⟨rfl, rfl, rfl⟩

lemma acknowledge_pending_iff {deliveryId : String} :
    (acknowledge deliveryId nowMs delivery).acknowledgedAtMs = none ↔
      delivery.acknowledgedAtMs = none ∧ delivery.deliveryId ≠ deliveryId := by
  unfold acknowledge
  split
  · next heq => exact iff_of_false nofun fun h => h.2 heq
  · next hne => exact (and_iff_left hne).symm

lemma Queue.acknowledge (h : Queue db queued gone rows) (deliveryId : String) (nowMs : ℤ) :
    Queue { db with outbox := db.outbox.map (acknowledge deliveryId nowMs) } queued
      (gone ++ [deliveryId]) (rows.map (acknowledge deliveryId nowMs)) := by
  refine h.map (fun row => (acknowledge_keeps ..).1) (.refl _) (fun row hrow => ?_) ?_
    fun row hrow => ?_
  · rw [acknowledge_pending_iff, h.gone row hrow, mem_append, mem_singleton, not_or]
  · refine h.apart.imp fun {a b} hapart hsession => ?_
    rw [(acknowledge_keeps deliveryId nowMs a).2.1, (acknowledge_keeps deliveryId nowMs b).2.1,
      acknowledge_pending_iff, acknowledge_pending_iff]
    obtain ⟨hne, hlt⟩ := hapart hsession
    exact ⟨hne, fun hA hB => hlt hA.1 hB.1⟩
  · rw [(acknowledge_keeps ..).2.2]
    exact h.bounded row hrow

/-! ### Adoption -/

/-- A pending delivery in its new epoch, numbered by its place in the list. -/
def HostDelivery.renumber (runEpoch first : ℤ) (pending : List HostDelivery)
    (delivery : HostDelivery) : HostDelivery :=
  { delivery with runEpoch, sequence := first + pending.idxOf delivery }

lemma adopt_eq_ok {adopted : List HostDelivery}
    (h : adopt sessionId runEpoch first pending = .ok adopted) :
    adopted = pending.mapIdx fun index delivery =>
      { delivery with runEpoch, sequence := first + index } := by
  induction pending generalizing first adopted with
  | nil =>
    cases h
    rfl
  | cons delivery pending ih =>
    rw [adopt] at h
    obtain ⟨next, hnext, h⟩ := bind_eq_ok.1 h
    obtain ⟨rest, hrest, h⟩ := bind_eq_ok.1 h
    cases h
    rw [orElseThrow_eq_ok] at hnext
    have hnumber (index : ℕ) : next + index = first + (index + 1 : ℕ) := by
      have := i64CheckedAdd_eq_some hnext
      omega
    simp [ih hrest, hnumber]

lemma mapIdx_renumber (hnodup : pending.Nodup) :
    (pending.mapIdx fun index delivery =>
      { delivery with runEpoch, sequence := first + (index : ℤ) }) =
        pending.map (HostDelivery.renumber runEpoch first pending) := by
  refine ext_getElem (by simp) fun index _ _ => ?_
  rw [getElem_mapIdx, getElem_map, HostDelivery.renumber, hnodup.idxOf_getElem]

/-- What is moved stays with its session. -/
lemma adopt_mem {adopted : List HostDelivery}
    (h : adopt sessionId runEpoch first pending = .ok adopted)
    (hpending : ∀ delivery ∈ pending, delivery.sessionId = sessionId) (hrow : row ∈ adopted) :
    row.sessionId = sessionId ∧ row.runEpoch = runEpoch := by
  rw [adopt_eq_ok h] at hrow
  obtain ⟨index, hlt, rfl⟩ := mem_mapIdx.1 hrow
  exact ⟨hpending pending[index] (getElem_mem hlt), rfl⟩

/-- Adoption as a change of each row. -/
def HostDelivery.adopted (sessionId : String) (runEpoch first : ℤ) (pending : List HostDelivery)
    (delivery : HostDelivery) : HostDelivery :=
  if isPendingFor sessionId delivery then delivery.renumber runEpoch first pending else delivery

/-- An adopted delivery keeps everything but its place. -/
lemma adopted_keeps (sessionId : String) (runEpoch first : ℤ) (pending : List HostDelivery)
    (delivery : HostDelivery) :
    (delivery.adopted sessionId runEpoch first pending).core = delivery.core ∧
      (delivery.adopted sessionId runEpoch first pending).acknowledgedAtMs =
        delivery.acknowledgedAtMs := by
  unfold HostDelivery.adopted
  split <;> exact ⟨rfl, rfl⟩

lemma isPendingFor_iff :
    isPendingFor sessionId delivery = true ↔
      delivery.sessionId = sessionId ∧ delivery.acknowledgedAtMs = none := by
  rw [isPendingFor, Bool.and_eq_true, decide_eq_true_eq, Option.isNone_iff_eq_none]

lemma pairwise_queryPendingDeliveries (db : Database) (sessionId : String)
    (runEpoch : Option ℤ) :
    (queryPendingDeliveries db sessionId runEpoch).Pairwise (·.orderKey ≤ ·.orderKey) :=
  pairwise_insertionSort (fun a b : HostDelivery => a.orderKey ≤ b.orderKey) _

lemma perm_queryPendingDeliveries (db : Database) (sessionId : String) :
    (queryPendingDeliveries db sessionId none).Perm
      (db.outbox.filter (isPendingFor sessionId)) := by
  refine (perm_insertionSort _ _).trans (List.Perm.of_eq ?_)
  exact filter_congr fun delivery _ => Bool.and_true _

/-- Among deliveries of one time the place decides. -/
lemma orderKey_lt {a b : HostDelivery} (htime : a.createdAtMs = b.createdAtMs)
    (hplace : a.place < b.place) : a.orderKey < b.orderKey := by
  refine toLex_lt_toLex.2 (.inr ⟨htime, toLex_lt_toLex.2 ?_⟩)
  rcases toLex_lt_toLex.1 hplace with hepoch | ⟨hepoch, hsequence⟩
  · exact .inl hepoch
  · exact .inr ⟨hepoch, toLex_lt_toLex.2 (.inl hsequence)⟩

lemma perm_adopted {outbox : List HostDelivery}
    (hpending : pending.Perm (outbox.filter (isPendingFor sessionId))) :
    (outbox.map (HostDelivery.adopted sessionId runEpoch first pending)).Perm
      (outbox.filter (!isPendingFor sessionId ·) ++
        pending.map (HostDelivery.renumber runEpoch first pending)) := by
  have hkept : (outbox.filter (!isPendingFor sessionId ·)).map
      (HostDelivery.adopted sessionId runEpoch first pending) =
        outbox.filter (!isPendingFor sessionId ·) := by
    refine (map_congr_left fun delivery hdelivery => ?_).trans (map_id _)
    have hnot := (mem_filter.1 hdelivery).2
    rw [Bool.not_eq_true'] at hnot
    rw [HostDelivery.adopted, hnot, if_neg Bool.false_ne_true, id]
  have hmoved : (outbox.filter (isPendingFor sessionId)).map
      (HostDelivery.adopted sessionId runEpoch first pending) =
        (outbox.filter (isPendingFor sessionId)).map
          (HostDelivery.renumber runEpoch first pending) := by
    refine map_congr_left fun delivery hdelivery => ?_
    rw [HostDelivery.adopted, if_pos (mem_filter.1 hdelivery).2]
  have hsplit := ((filter_append_perm (isPendingFor sessionId) outbox).map
    (HostDelivery.adopted sessionId runEpoch first pending)).symm
  rw [map_append, hkept, hmoved] at hsplit
  exact (hsplit.trans perm_append_comm).trans ((hpending.map _).symm.append_left _)

lemma Queue.adopt (h : Queue db queued gone rows) {adopted : List HostDelivery} {lease : LeaseRow}
    (hlease : db.leases sessionId = some lease) (hepoch : lease.epoch = runEpoch)
    (hfirst : nextSequence (db.outbox.filter (!isPendingFor sessionId ·)) sessionId runEpoch =
      .ok first)
    (hadopted : adopt sessionId runEpoch first (queryPendingDeliveries db sessionId none) =
      .ok adopted) :
    Queue { db with outbox := db.outbox.filter (!isPendingFor sessionId ·) ++ adopted } queued gone
      (rows.map (HostDelivery.adopted sessionId runEpoch first
        (queryPendingDeliveries db sessionId none))) := by
  have hquery := perm_queryPendingDeliveries db sessionId
  rw [adopt_eq_ok hadopted, mapIdx_renumber (hquery.nodup_iff.2
    ((h.perm.nodup_iff.1 (List.Nodup.of_map _ h.nodup)).filter _))]
  have hsorted := pairwise_queryPendingDeliveries db sessionId none
  generalize queryPendingDeliveries db sessionId none = pending at hquery hsorted ⊢
  have hmem : ∀ row ∈ rows, isPendingFor sessionId row = true → row ∈ pending := by
    intro row hrow hpending
    exact hquery.mem_iff.2 (mem_filter.2 ⟨h.perm.subset hrow, hpending⟩)
  have hplaced : ∀ row, isPendingFor sessionId row = true →
      (row.adopted sessionId runEpoch first pending).place =
        toLex (runEpoch, first + (pending.idxOf row : ℤ)) := by
    intro row hpending
    rw [HostDelivery.adopted, if_pos hpending]
    rfl
  have hunplaced : ∀ row, ¬ isPendingFor sessionId row = true →
      row.adopted sessionId runEpoch first pending = row := by
    intro row hpending
    rw [HostDelivery.adopted, if_neg hpending]
  -- a row that stays in this epoch is below the first new number
  have hbelow : ∀ row ∈ rows, row.sessionId = sessionId → ¬ isPendingFor sessionId row = true →
      ∀ index : ℕ, row.place ≠ toLex (runEpoch, first + (index : ℤ)) := by
    intro row hrow hsession hpending index heq
    obtain ⟨hsame, hsequence⟩ := Prod.mk.inj (toLex.injective heq)
    have hkept : row ∈ db.outbox.filter (!isPendingFor sessionId ·) := by
      refine mem_filter.2 ⟨h.perm.subset hrow, ?_⟩
      rw [Bool.not_eq_true']
      exact Bool.not_eq_true _ ▸ hpending
    have hlt := lt_of_nextSequence hfirst hkept hsession hsame
    omega
  refine h.map (fun row => (adopted_keeps ..).1) (perm_adopted hquery) (fun row hrow => ?_) ?_
    fun row hrow => ?_
  · rw [(adopted_keeps ..).2]
    exact h.gone row hrow
  · have hdistinct : rows.Pairwise (· ≠ ·) := List.Nodup.of_map _ h.nodup
    refine (h.apart.and hdistinct).imp_of_mem ?_
    rintro a b ha hb ⟨hapart, hne⟩ hsession
    rw [(adopted_keeps sessionId runEpoch first pending a).2,
      (adopted_keeps sessionId runEpoch first pending b).2]
    obtain ⟨hplaces, horder⟩ := hapart hsession
    by_cases hpendingA : isPendingFor sessionId a = true <;>
      by_cases hpendingB : isPendingFor sessionId b = true
    · rw [hplaced a hpendingA, hplaced b hpendingB]
      constructor
      · intro heq
        have hindex := (Prod.mk.inj (toLex.injective heq)).2
        have hsame : pending.idxOf a = pending.idxOf b := by omega
        exact hne ((idxOf_inj (hmem a ha hpendingA)).1 hsame)
      · intro hA hB htime
        have hlt := idxOf_lt_idxOf hsorted (hmem a ha hpendingA) (hmem b hb hpendingB)
          (orderKey_lt htime (horder hA hB htime))
        refine toLex_lt_toLex.2 (.inr ⟨rfl, ?_⟩)
        dsimp only
        omega
    · rw [hplaced a hpendingA, hunplaced b hpendingB]
      have hsessionB := hsession.symm.trans (isPendingFor_iff.1 hpendingA).1
      refine ⟨(hbelow b hb hsessionB hpendingB _).symm, fun _ hB => ?_⟩
      exact absurd (isPendingFor_iff.2 ⟨hsessionB, hB⟩) hpendingB
    · rw [hunplaced a hpendingA, hplaced b hpendingB]
      have hsessionA := hsession.trans (isPendingFor_iff.1 hpendingB).1
      refine ⟨hbelow a ha hsessionA hpendingA _, fun hA => ?_⟩
      exact absurd (isPendingFor_iff.2 ⟨hsessionA, hA⟩) hpendingA
    · rw [hunplaced a hpendingA, hunplaced b hpendingB]
      exact ⟨hplaces, horder⟩
  · by_cases hpending : isPendingFor sessionId row = true
    · refine ⟨lease, (isPendingFor_iff.1 hpending).1 ▸ hlease, ?_⟩
      rw [HostDelivery.adopted, if_pos hpending]
      exact hepoch.ge
    · rw [hunplaced row hpending]
      exact h.bounded row hrow

/-! ### Histories -/

/-- The outbox holds what the history queued; an outbox that was handed out and is still current
sees all pending deliveries of its session. -/
structure OutboxHistory (db : Database) (earlier : List StoreStep) : Prop where
  epochs : EpochHistory db earlier
  queue : ∃ rows, Queue db (enqueued earlier) (acknowledged earlier) rows
  known : ∀ id ∈ acknowledged earlier, ∃ row ∈ db.outbox, row.deliveryId = id
  issued : ∀ y ∈ earlier, ∀ outbox, y.answer = .ok (.outbox outbox) →
    ∃ lease, db.leases outbox.sessionId = some lease ∧ outbox.runEpoch ≤ lease.epoch ∧
      (lease.epoch = outbox.runEpoch → ∀ row ∈ db.outbox,
        isPendingFor outbox.sessionId row = true → row.runEpoch = outbox.runEpoch)

lemma map_acknowledge_ne {outbox : List HostDelivery} (hmem : delivery ∈ outbox)
    (hpending : delivery.acknowledgedAtMs = none) :
    outbox.map (acknowledge delivery.deliveryId nowMs) ≠ outbox := by
  intro heq
  have hsame : ∀ other ∈ outbox, acknowledge delivery.deliveryId nowMs other = id other :=
    map_inj_left.1 (heq.trans (map_id outbox).symm)
  have hkept := congrArg HostDelivery.acknowledgedAtMs (hsame delivery hmem)
  rw [acknowledge, if_pos rfl, id, hpending] at hkept
  cases hkept

/-- What a committed call leaves of the outbox, and what the history notes of it. -/
inductive OutboxWrite (db db' : Database) : Option HostDelivery → Option String → Prop
  | kept (houtbox : db'.outbox = db.outbox) : OutboxWrite db db' none none
  | queued {outbox : StoredHostOutbox} {deliveryId msgId : String} {digest : Option String}
      {payload : List UInt8} {nowMs : ℤ} {delivery : HostDelivery}
      (hqueued : enqueueHostDelivery db outbox deliveryId msgId digest payload nowMs =
        .ok (db', delivery)) :
      OutboxWrite db db' (some delivery) none
  | acknowledged {nowMs : ℤ} {delivery : HostDelivery} (hmem : delivery ∈ db.outbox)
      (hdb : db' =
        { db with outbox := db.outbox.map (acknowledge delivery.deliveryId nowMs) }) :
      OutboxWrite db db' none (some delivery.deliveryId)
  | adopted {sessionId : String} {runEpoch first : ℤ} {moved : List HostDelivery}
      {lease : LeaseRow} (hlease : db.leases sessionId = some lease)
        (hepoch : lease.epoch = runEpoch)
      (hfirst : nextSequence (db.outbox.filter (!isPendingFor sessionId ·)) sessionId runEpoch =
        .ok first)
      (hmoved : adopt sessionId runEpoch first (queryPendingDeliveries db sessionId none) =
        .ok moved)
      (hdb : db' = { db with outbox := db.outbox.filter (!isPendingFor sessionId ·) ++ moved }) :
      OutboxWrite db db' none none

/-- Every step is one of these writes. -/
lemma step_outboxWrite (db : Database) (event : StoreEvent) :
    OutboxWrite db (storeMachine.next db event)
      (enqueuedBy (storeMachine.stepAt db event)) (acknowledgedBy
        (storeMachine.stepAt db event)) := by
  have hafter : (storeMachine.stepAt db event).after = storeMachine.next db event := rfl
  have hbefore : (storeMachine.stepAt db event).before = db := rfl
  have hevent : (storeMachine.stepAt db event).event.call = event.call := rfl
  have hkept (houtbox : (storeMachine.next db event).outbox = db.outbox) :
      OutboxWrite db (storeMachine.next db event)
        (enqueuedBy (storeMachine.stepAt db event))
        (acknowledgedBy (storeMachine.stepAt db event)) := by
    have hnone : enqueuedBy (storeMachine.stepAt db event) = none := by
      unfold enqueuedBy
      split
      · rw [hafter, hbefore, houtbox, drop_length, List.head?_nil]
      · rfl
    have hunread : acknowledgedBy (storeMachine.stepAt db event) = none := by
      unfold acknowledgedBy
      split
      · exact if_pos houtbox
      · rfl
    rw [hnone, hunread]
    exact .kept houtbox
  obtain ⟨hsame, -⟩ | ⟨⟨-, -, answer, hcommit⟩, -⟩ := stepAt_cases db event
  · exact hkept (congrArg Database.outbox hsame)
  · have hcommit : db.call event.call = .ok (storeMachine.next db event, answer) := hcommit
    cases hcall : event.call with
    | enqueueHostDelivery outbox deliveryId msgId digest payload nowMs =>
      rw [hcall] at hcommit
      obtain ⟨delivery, h, -⟩ := answering_eq_ok hcommit
      have houtbox := congrArg Database.outbox (enqueueHostDelivery_eq_ok h).2.2.2
      simp only [enqueuedBy, acknowledgedBy, hevent, hcall, hafter, hbefore, houtbox,
        drop_left, List.head?_cons]
      exact .queued h
    | acknowledgeHostDelivery outbox runEpoch deliveryId digest nowMs =>
      rw [hcall] at hcommit
      obtain ⟨now, h, -⟩ := answering_eq_ok hcommit
      obtain ⟨-, delivery, hmem, rfl, -, ⟨-, hdb⟩ | ⟨hpending, hdb⟩⟩ :=
        acknowledgeHostDelivery_eq_ok h
      · exact hkept (congrArg Database.outbox hdb)
      · simp only [enqueuedBy, acknowledgedBy, hevent, hcall, hafter, hbefore, hdb,
          if_neg (map_acknowledge_ne hmem hpending)]
        exact .acknowledged hmem rfl
    | prepareHostOutbox sessionId runId nowMs =>
      rw [hcall] at hcommit
      obtain ⟨outbox, h, -⟩ := answering_eq_ok hcommit
      obtain ⟨rfl, hepoch, ⟨-, hdb⟩ | ⟨first, moved, hfirst, hmoved, hdb⟩⟩ :=
        prepareHostOutbox_eq_ok h
      · exact hkept (congrArg Database.outbox hdb)
      · obtain ⟨-, lease, hlease, hlast⟩ := requireHostOutboxEpoch_eq_ok hepoch
        simp only [enqueuedBy, acknowledgedBy, hevent, hcall]
        exact .adopted hlease hlast hfirst hmoved hdb
    | _ => exact hkept ((call_writes hcommit).outbox (by rw [hcall]; rfl))

lemma enqueued_append (earlier : List StoreStep) (x : StoreStep) :
    enqueued (earlier ++ [x]) = enqueued earlier ++ (enqueuedBy x).toList := by
  rw [enqueued, filterMap_append, ← enqueued]
  cases hx : enqueuedBy x <;> simp [hx]

lemma acknowledged_append (earlier : List StoreStep) (x : StoreStep) :
    acknowledged (earlier ++ [x]) = acknowledged earlier ++ (acknowledgedBy x).toList := by
  rw [acknowledged, filterMap_append, ← acknowledged]
  cases hx : acknowledgedBy x <;> simp [hx]

lemma leasesGrow_step (h : EpochHistory db earlier) (event : StoreEvent) :
    LeasesGrow db (storeMachine.next db event) := by
  obtain ⟨hsame, -⟩ | ⟨⟨-, -, answer, hcall⟩, -⟩ := stepAt_cases db event
  · have hsame : storeMachine.next db event = db := hsame
    rw [hsame]
    exact fun _ lease hlease => ⟨lease, hlease, le_rfl⟩
  · exact leasesGrow_of_call h (call_writes hcall).rows

/-- The rows of the outbox after a step, in the order they were queued. -/
lemma OutboxHistory.queue_step (h : OutboxHistory db earlier) (event : StoreEvent) :
    ∃ rows, Queue (storeMachine.next db event)
      (enqueued (earlier ++ [storeMachine.stepAt db event]))
      (acknowledged (earlier ++ [storeMachine.stepAt db event])) rows := by
  obtain ⟨rows, hqueue⟩ := h.queue
  rw [enqueued_append, acknowledged_append]
  have hwrite := step_outboxWrite db event
  have hleases := leasesGrow_step h.epochs event
  generalize enqueuedBy (storeMachine.stepAt db event) = new at hwrite ⊢
  generalize acknowledgedBy (storeMachine.stepAt db event) = read at hwrite ⊢
  cases hwrite with
  | kept houtbox =>
    rw [Option.toList_none, Option.toList_none, append_nil, append_nil]
    refine ⟨rows, { hqueue with perm := houtbox ▸ hqueue.perm, bounded := fun row hrow => ?_ }⟩
    obtain ⟨lease, hlease, hle⟩ := hqueue.bounded row hrow
    obtain ⟨lease', hlease', hgrows⟩ := hleases _ _ hlease
    exact ⟨lease', hlease', hle.trans hgrows⟩
  | queued hqueued =>
    rw [Option.toList_none, append_nil]
    refine ⟨_, hqueue.enqueue (fun id hid => ?_) hqueued⟩
    obtain ⟨row, hrow, heq⟩ := h.known id hid
    exact ⟨row, hqueue.perm.mem_iff.2 hrow, heq⟩
  | acknowledged hmem hdb =>
    rw [Option.toList_none, append_nil, hdb]
    exact ⟨_, hqueue.acknowledge _ _⟩
  | adopted hlease hepoch hfirst hmoved hdb =>
    rw [Option.toList_none, Option.toList_none, append_nil, append_nil, hdb]
    exact ⟨_, hqueue.adopt hlease hepoch hfirst hmoved⟩

/-- Rows are never removed. -/
lemma OutboxHistory.ids_step (h : OutboxHistory db earlier) (event : StoreEvent)
    (hrow : row ∈ db.outbox) :
    ∃ row' ∈ (storeMachine.next db event).outbox, row'.deliveryId = row.deliveryId := by
  obtain ⟨rows, hqueue⟩ := h.queue
  obtain ⟨rows', hqueue'⟩ := h.queue_step event
  have hcore : row.core ∈ rows'.map core := by
    rw [hqueue'.same, enqueued_append, map_append, ← hqueue.same]
    exact mem_append_left _ (mem_map_of_mem (hqueue.perm.mem_iff.2 hrow))
  obtain ⟨row', hrow', heq⟩ := mem_map.1 hcore
  have hid : row'.core.deliveryId = row.core.deliveryId := by rw [heq]
  exact ⟨row', hqueue'.perm.subset hrow', hid⟩

lemma OutboxHistory.known_step (h : OutboxHistory db earlier) (event : StoreEvent) :
    ∀ id ∈ acknowledged (earlier ++ [storeMachine.stepAt db event]),
      ∃ row ∈ (storeMachine.next db event).outbox, row.deliveryId = id := by
  intro id hid
  have hrow : ∃ row ∈ db.outbox, row.deliveryId = id := by
    rw [acknowledged_append, mem_append] at hid
    rcases hid with hid | hid
    · exact h.known id hid
    · have hwrite := step_outboxWrite db event
      rw [Option.mem_toList] at hid
      rw [hid] at hwrite
      generalize enqueuedBy (storeMachine.stepAt db event) = new at hwrite
      cases hwrite with
      | acknowledged hmem => exact ⟨_, hmem, rfl⟩
  obtain ⟨row, hrow, rfl⟩ := hrow
  exact h.ids_step event hrow

/-- The epoch of a pending row that a step brings in is that of the lease. -/
lemma pending_step {event : StoreEvent} (hrow : row ∈ (storeMachine.next db event).outbox)
    (hpending : isPendingFor sessionId row = true) :
    (∃ old ∈ db.outbox, isPendingFor sessionId old = true ∧ old.runEpoch = row.runEpoch) ∨
      ∃ lease, db.leases sessionId = some lease ∧ row.runEpoch = lease.epoch := by
  have hwrite := step_outboxWrite db event
  generalize enqueuedBy (storeMachine.stepAt db event) = new at hwrite
  generalize acknowledgedBy (storeMachine.stepAt db event) = read at hwrite
  cases hwrite with
  | kept houtbox => exact .inl ⟨row, houtbox ▸ hrow, hpending, rfl⟩
  | queued hqueued =>
    obtain ⟨hepoch, ⟨sequence, _, -, rfl⟩, -, hdb⟩ := enqueueHostDelivery_eq_ok hqueued
    rw [hdb] at hrow
    rcases mem_append.1 hrow with hrow | hrow
    · exact .inl ⟨row, hrow, hpending, rfl⟩
    · obtain ⟨-, lease, hlease, hlast⟩ := requireHostOutboxEpoch_eq_ok hepoch
      rw [mem_singleton.1 hrow] at hpending ⊢
      exact .inr ⟨lease, (isPendingFor_iff.1 hpending).1 ▸ hlease, hlast.symm⟩
  | acknowledged hmem hdb =>
    rw [hdb] at hrow
    obtain ⟨old, hold, rfl⟩ := mem_map.1 hrow
    obtain ⟨hcore, -, hsame⟩ := acknowledge_keeps _ _ old
    rw [isPendingFor_iff, acknowledge_pending_iff] at hpending
    rw [(eq_of_core hcore).2.1] at hpending
    exact .inl ⟨old, hold, isPendingFor_iff.2 ⟨hpending.1, hpending.2.1⟩, hsame.symm⟩
  | @adopted target runEpoch first moved lease hlease hepoch hfirst hmoved hdb =>
    rw [hdb] at hrow
    rcases mem_append.1 hrow with hrow | hrow
    · exact .inl ⟨row, (mem_filter.1 hrow).1, hpending, rfl⟩
    · obtain ⟨htarget, hrowEpoch⟩ : row.sessionId = target ∧ row.runEpoch = runEpoch :=
        adopt_mem hmoved (fun d hd => (isPendingFor_iff.1 (mem_queryPendingDeliveries.1 hd).2.1).1)
          hrow
      have hsession := (isPendingFor_iff.1 hpending).1
      rw [htarget] at hsession
      exact .inr ⟨lease, hsession ▸ hlease, hrowEpoch.trans hepoch.symm⟩

lemma OutboxHistory.step (h : OutboxHistory db earlier) (event : StoreEvent) :
    OutboxHistory (storeMachine.next db event) (earlier ++ [storeMachine.stepAt db event]) := by
  refine ⟨h.epochs.step event, h.queue_step event, h.known_step event, fun y hy outbox hanswer =>
    ?_⟩
  have hgrow := leasesGrow_step h.epochs event
  rcases mem_append.1 hy with hy | hy
  · obtain ⟨lease, hlease, hle, hcurrent⟩ := h.issued y hy outbox hanswer
    obtain ⟨lease', hlease', hgrows⟩ := hgrow _ _ hlease
    refine ⟨lease', hlease', hle.trans hgrows, fun hlast row hrow hpending => ?_⟩
    have hsame : lease.epoch = outbox.runEpoch := le_antisymm (hlast ▸ hgrows) hle
    rcases pending_step hrow hpending with ⟨old, hold, holdPending, hepoch⟩ | ⟨_, hlease'', hepoch⟩
    · rw [← hepoch]
      exact hcurrent hsame old hold holdPending
    · rw [hlease] at hlease''
      cases hlease''
      exact hepoch.trans hsame
  · -- an outbox is handed out by the step that moves the pending deliveries to its epoch
    rw [mem_singleton.1 hy] at hanswer
    have hcall := call_of_answer hanswer
    cases hevent : event.call with
    | prepareHostOutbox sessionId runId nowMs =>
      rw [hevent] at hcall
      obtain ⟨prepared, hprepare, htag⟩ := answering_eq_ok hcall
      cases htag
      obtain ⟨rfl, hepoch, hmoved⟩ := prepareHostOutbox_eq_ok hprepare
      obtain ⟨-, lease, hlease, hlast⟩ := requireHostOutboxEpoch_eq_ok hepoch
      obtain ⟨lease', hlease', hgrows⟩ := hgrow _ _ hlease
      refine ⟨lease', hlease', hlast ▸ hgrows, fun _ row hrow hpending => ?_⟩
      rcases hmoved with ⟨hall, hsame⟩ | ⟨first, adopted, -, hadopted, hdb⟩
      · exact hall row (hsame ▸ hrow) hpending
      · rw [hdb] at hrow
        rcases mem_append.1 hrow with hrow | hrow
        · have hnot := (mem_filter.1 hrow).2
          rw [hpending] at hnot
          cases hnot
        · exact (adopt_mem hadopted (fun d hd =>
            (isPendingFor_iff.1 (mem_queryPendingDeliveries.1 hd).2.1).1) hrow).2
    | _ =>
      rw [hevent] at hcall
      dsimp only [Database.call] at hcall
      obtain ⟨_, -, htag⟩ := answering_eq_ok hcall
      cases htag

lemma outboxHistory_run (events : List StoreEvent) :
    OutboxHistory (storeMachine.run .empty events) (storeMachine.trace .empty events) := by
  refine Machine.history_invariant (fun db earlier event h => h.step event) ?_ events
  exact ⟨⟨fun _ _ => rfl, forall_mem_nil _⟩,
    ⟨[], .nil, rfl, nodup_nil, forall_mem_nil _, .nil,
      forall_mem_nil _⟩,
    forall_mem_nil _, forall_mem_nil _⟩

/-! ### The pending list -/

/-- Pending rows and waiting deliveries are the same but for their places. -/
lemma Queue.pending_core (h : Queue db (enqueued trace) (acknowledged trace) rows)
    (sessionId : String) :
    (rows.filter (isPendingFor sessionId)).map core =
      (waiting trace sessionId).map core := by
  have hrows : rows.filter (isPendingFor sessionId) = rows.filter ((fun delivery =>
      decide (delivery.sessionId = sessionId) &&
        !(acknowledged trace).contains delivery.deliveryId) ∘ core) := by
    refine filter_congr fun row hrow => ?_
    rw [Bool.eq_iff_iff, isPendingFor_iff, h.gone row hrow]
    show _ ↔ (decide (row.sessionId = sessionId) &&
      !(acknowledged trace).contains row.deliveryId) = true
    simp
  have hwaiting : waiting trace sessionId = (enqueued trace).filter ((fun delivery =>
      decide (delivery.sessionId = sessionId) &&
        !(acknowledged trace).contains delivery.deliveryId) ∘ core) := rfl
  rw [hrows, hwaiting, ← filter_map, ← filter_map, h.same]

lemma eq_of_perm_of_map_eq {α β : Type*} {f : α → β} {l₁ l₂ : List α} (hperm : l₁.Perm l₂)
    (hnodup : (l₂.map f).Nodup) (hmap : l₁.map f = l₂.map f) : l₁ = l₂ := by
  have hinj := inj_on_of_nodup_map hnodup
  refine ext_getElem hperm.length_eq fun index h₁ h₂ => ?_
  refine hinj (hperm.subset (getElem_mem h₁)) (getElem_mem h₂) ?_
  have hget : (l₁.map f)[index]? = (l₂.map f)[index]? := by rw [hmap]
  rw [List.getElem?_map, List.getElem?_map, List.getElem?_eq_getElem h₁,
    List.getElem?_eq_getElem h₂] at hget
  exact Option.some.inj hget

/-- The pending rows, sorted from the order they were queued in. -/
lemma Queue.query_eq (h : Queue db queued gone rows) (sessionId : String) :
    queryPendingDeliveries db sessionId none =
      (rows.filter (isPendingFor sessionId)).insertionSort (·.orderKey ≤ ·.orderKey) := by
  have hquery := (perm_queryPendingDeliveries db sessionId).trans (h.perm.symm.filter _)
  refine List.Perm.eq_of_pairwise ?_ (pairwise_queryPendingDeliveries db sessionId none)
    (pairwise_insertionSort (fun a b : HostDelivery => a.orderKey ≤ b.orderKey) _)
    (hquery.trans (perm_insertionSort _ _).symm)
  intro a b ha hb hab hba
  have hid : a.deliveryId = b.deliveryId :=
    congrArg (fun key => (ofLex (ofLex (ofLex key).2).2).2) (le_antisymm hab hba)
  have hrow : ∀ row ∈ rows.filter (isPendingFor sessionId), row ∈ rows :=
    fun row hrow => (mem_filter.1 hrow).1
  exact inj_on_of_nodup_map h.nodup (hrow a (hquery.subset ha))
    (hrow b ((perm_insertionSort _ _).subset hb)) hid

/-- The pending list is in the order of the queue exactly if the clock did not run back between
deliveries that are still waiting. -/
lemma Queue.query_in_order_iff (h : Queue db (enqueued trace) (acknowledged trace) rows)
    (sessionId : String) :
    (queryPendingDeliveries db sessionId none).map core =
        (waiting trace sessionId).map core ↔
      (waiting trace sessionId).Pairwise (·.createdAtMs ≤ ·.createdAtMs) := by
  have hnodup : ((rows.filter (isPendingFor sessionId)).map core).Nodup := by
    refine List.Nodup.of_map HostDelivery.deliveryId ?_
    rw [map_map]
    exact h.nodup.sublist (filter_sublist.map _)
  have hties : (rows.filter (isPendingFor sessionId)).Pairwise fun a b =>
      a.createdAtMs = b.createdAtMs → toLex (a.runEpoch, toLex (a.sequence, a.deliveryId)) ≤
        toLex (b.runEpoch, toLex (b.sequence, b.deliveryId)) := by
    refine List.Pairwise.imp_of_mem ?_ (h.apart.sublist filter_sublist)
    intro a b ha hb hapart htime
    obtain ⟨hsessionA, hpendingA⟩ := isPendingFor_iff.1 (mem_filter.1 ha).2
    obtain ⟨hsessionB, hpendingB⟩ := isPendingFor_iff.1 (mem_filter.1 hb).2
    have hplace := (hapart (hsessionA.trans hsessionB.symm)).2 hpendingA hpendingB htime
    rw [place, place, toLex_lt_toLex] at hplace
    refine toLex_le_toLex.mpr (hplace.imp id fun hsequence => ?_)
    exact ⟨hsequence.1, toLex_le_toLex.mpr (.inl hsequence.2)⟩
  have htimes : (waiting trace sessionId).Pairwise (·.createdAtMs ≤ ·.createdAtMs) ↔
      (rows.filter (isPendingFor sessionId)).Pairwise (·.createdAtMs ≤ ·.createdAtMs) := by
    have hmap : ∀ deliveries : List HostDelivery,
        deliveries.Pairwise (·.createdAtMs ≤ ·.createdAtMs) ↔
          (deliveries.map core).Pairwise (·.createdAtMs ≤ ·.createdAtMs) := by
      intro deliveries
      rw [pairwise_map]
      rfl
    rw [hmap, ← h.pending_core, ← hmap]
  rw [h.query_eq, ← h.pending_core, htimes, ← insertionSort_eq_self_iff hties]
  exact ⟨eq_of_perm_of_map_eq (perm_insertionSort _ _) hnodup, congrArg _⟩

/-- The outbox an enqueue or an acknowledgement goes through. -/
def StoreCall.throughOutbox : StoreCall → Option StoredHostOutbox
  | .enqueueHostDelivery outbox .. => some outbox
  | .acknowledgeHostDelivery outbox .. => some outbox
  | _ => none

/-- Enqueues and acknowledgements are committed under the lease of the session only. -/
lemma current_of_committed {call : StoreCall} {answer : StoreAnswer}
    (hcall : db.call call = .ok (db', answer)) (houtbox : call.throughOutbox = some outbox) :
    ∃ lease, db.leases outbox.sessionId = some lease ∧ lease.epoch = outbox.runEpoch := by
  cases call <;> cases houtbox <;> obtain ⟨_, h, -⟩ := answering_eq_ok hcall
  case enqueueHostDelivery =>
    exact (requireHostOutboxEpoch_eq_ok (enqueueHostDelivery_eq_ok h).1).2
  case acknowledgeHostDelivery =>
    exact (requireHostOutboxEpoch_eq_ok (acknowledgeHostDelivery_eq_ok h).1).2

/-- What the outbox keeps over a history. -/
structure OutboxKept (db : Database) (trace : List StoreStep) : Prop where
  /-- No delivery is queued twice. -/
  once : ((enqueued trace).map (·.deliveryId)).Nodup
  /-- The pending list has every delivery that waits, once, and no other. -/
  pending : ∀ sessionId, ((queryPendingDeliveries db sessionId none).map core).Perm
    ((waiting trace sessionId).map core)
  /-- An outbox that was handed out and still answers shows all of them. -/
  shown : ∀ y ∈ trace, ∀ outbox, y.answer = .ok (.outbox outbox) → ∀ nowMs deliveries,
    pendingHostDeliveries db outbox nowMs = .ok deliveries →
      deliveries = queryPendingDeliveries db outbox.sessionId none
  /-- Enqueues and acknowledgements that answer, or that change the outbox, come from the
  current epoch. -/
  current : ∀ y ∈ trace, ∀ outbox, y.event.call.throughOutbox = some outbox →
    ((∃ answer, y.answer = .ok answer) ∨ y.after.outbox ≠ y.before.outbox) →
      ∃ lease, y.before.leases outbox.sessionId = some lease ∧ lease.epoch = outbox.runEpoch
  placed : (db.outbox.map fun delivery =>
    (delivery.sessionId, delivery.runEpoch, delivery.sequence)).Nodup

lemma Queue.placed (h : Queue db queued gone rows) :
    (db.outbox.map fun delivery =>
      (delivery.sessionId, delivery.runEpoch, delivery.sequence)).Nodup := by
  rw [← (h.perm.map _).nodup_iff, List.Nodup, pairwise_map]
  refine h.apart.imp fun hapart heq => ?_
  rw [Prod.mk.injEq, Prod.mk.injEq] at heq
  obtain ⟨hsession, hepoch, hsequence⟩ := heq
  refine (hapart hsession).1 ?_
  rw [place, place, hepoch, hsequence]

lemma current_of_mem_trace {events : List StoreEvent} {y : StoreStep}
    (hy : y ∈ storeMachine.trace .empty events) (houtbox : y.event.call.throughOutbox = some outbox)
    (hdone : (∃ answer, y.answer = .ok answer) ∨ y.after.outbox ≠ y.before.outbox) :
    ∃ lease, y.before.leases outbox.sessionId = some lease ∧ lease.epoch = outbox.runEpoch := by
  obtain ⟨before, after, -, hstep⟩ := storeMachine.exists_of_mem_trace hy
  rw [hstep] at hdone ⊢
  rcases stepAt_cases (storeMachine.run .empty before) y.event with
    ⟨hsame, ⟨error, herror⟩, -⟩ | ⟨⟨-, -, answer, hcommit⟩, -⟩
  · rcases hdone with ⟨answer, hanswer⟩ | hchanged
    · rw [herror] at hanswer
      cases hanswer
    · exact absurd (congrArg Database.outbox hsame) hchanged
  · exact current_of_committed hcommit houtbox

lemma OutboxHistory.shown (h : OutboxHistory db trace) {y : StoreStep} (hy : y ∈ trace)
    (hanswer : y.answer = .ok (.outbox outbox)) {deliveries : List HostDelivery}
    (hpending : pendingHostDeliveries db outbox nowMs = .ok deliveries) :
    deliveries = queryPendingDeliveries db outbox.sessionId none := by
  obtain ⟨lease, hlease, -, hcurrent⟩ := h.issued y hy outbox hanswer
  unfold pendingHostDeliveries at hpending
  obtain ⟨-, hpending⟩ := check_bind_eq_ok.1 hpending
  obtain ⟨epoch, hepoch, hpending⟩ := bind_eq_ok.1 hpending
  cases hpending
  obtain ⟨hexpected, lease', hlease', hlast⟩ := requireHostOutboxEpoch_eq_ok hepoch
  rw [Option.all_some, decide_eq_true_eq] at hexpected
  rw [hlease] at hlease'
  cases hlease'
  unfold queryPendingDeliveries
  refine congrArg (List.insertionSort _) (filter_congr fun row hrow => ?_)
  cases hmine : isPendingFor outbox.sessionId row with
  | false => rfl
  | true =>
    have hsame := hcurrent (hlast.trans hexpected.symm) row hrow hmine
    simp [hsame]

/-- In every history of the store, with any clocks, the outbox loses and repeats no delivery;
its pending list is in the order of the enqueues exactly while the clock readings of the waiting
deliveries are. -/
theorem host_outbox_in_order_iff (events : List StoreEvent) :
    OutboxKept (storeMachine.run .empty events) (storeMachine.trace .empty events) ∧
      ∀ sessionId,
        (queryPendingDeliveries (storeMachine.run .empty events) sessionId none).map
              core =
            (waiting (storeMachine.trace .empty events) sessionId).map core ↔
          (waiting (storeMachine.trace .empty events) sessionId).Pairwise
            (·.createdAtMs ≤ ·.createdAtMs) := by
  have h := outboxHistory_run events
  obtain ⟨rows, hqueue⟩ := h.queue
  refine ⟨⟨?_, fun sessionId => ?_, fun y hy outbox hanswer nowMs deliveries => h.shown hy hanswer,
    fun y hy outbox => current_of_mem_trace hy, hqueue.placed⟩,
    hqueue.query_in_order_iff⟩
  · have hids : (enqueued (storeMachine.trace .empty events)).map (·.deliveryId) =
        rows.map (·.deliveryId) := by
      have hsame := congrArg (List.map HostDelivery.deliveryId) hqueue.same
      rw [map_map, map_map] at hsame
      exact hsame.symm
    rw [hids]
    exact hqueue.nodup
  · rw [← hqueue.pending_core, hqueue.query_eq]
    exact (perm_insertionSort _ _).map _

end

/-! ### A clock that runs back -/

section ClockBack

def hostSession : Session where
  id := "session"
  runId := some "run"
  memorySnapshot := none
  document := ""

def hostOutbox : StoredHostOutbox := ⟨"session", "run", 1⟩

/-- A session queues one delivery, and the next one after the clock was set back. -/
def clockBack : List StoreEvent :=
  [⟨.createActive hostSession "engine" 10, sound⟩,
    ⟨.prepareHostOutbox "session" "run" 10, sound⟩,
    ⟨.enqueueHostDelivery hostOutbox "first" "message" (some "digest") [] 100, sound⟩,
    ⟨.enqueueHostDelivery hostOutbox "second" "message" (some "digest") [] 50, sound⟩]

/-- Both deliveries wait, and the host is shown the second one first. -/
theorem host_outbox_clock_back :
    (waiting (storeMachine.trace .empty clockBack) "session").map (·.deliveryId) =
        ["first", "second"] ∧
      (pendingHostDeliveries (storeMachine.run .empty clockBack) hostOutbox 100).toOption.map
        (·.map (·.deliveryId)) = some ["second", "first"] := by
  decide +kernel

end ClockBack

end SolarisMesh.Store
