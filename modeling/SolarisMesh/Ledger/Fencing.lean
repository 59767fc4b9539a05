import SolarisMesh.Ledger.Lease
import SolarisMesh.Lib.Fencing

/-!
# The lease fences every stale owner

Each successful ledger call acts on the lease of a run in one of four ways: it grants the
lease, uses it, releases it, or leaves it alone. With that, the ledger of either backend
simulates a fencing lease per run, and the order of epochs and sequences is the general
fact about such leases.
-/

namespace SolarisMesh.Ledger

open List Lib SolarisMesh.Types LedgerState

variable {V : Type}

/-! ## What a call did to the records -/

/-- Records of one run were appended with sequences from the counter. -/
structure Appended (runId : RunId) (state state' : LedgerState V)
    (written : List (LedgerRecord V)) : Prop where
  records : state'.records = state.records ++ written
  leases : state'.workflowMutationLeases = state.workflowMutationLeases
  counter : state.nextSequence ≤ state'.nextSequence
  sequences : ∀ r ∈ written, state.nextSequence < r.seq ∧ r.seq ≤ state'.nextSequence
  run : ∀ r ∈ written, r.runId = runId
  sorted : written.Pairwise (·.seq < ·.seq)

lemma Appended.refl (runId : RunId) (state : LedgerState V) : Appended runId state state [] :=
  ⟨by simp, rfl, Nat.le_refl _, by simp, by simp, .nil⟩

lemma appended_insertRecord (state : LedgerState V) {seq : ℕ} (runId : RunId)
    (timestamp : ℤ) (durability : DurabilityClass) (recordType : String) (payload : V)
    (hseq : seq = state.nextSequence + 1) :
    Appended runId state
      (state.insertRecord seq runId timestamp durability recordType payload).1
      [(state.insertRecord seq runId timestamp durability recordType payload).2] := by
  refine ⟨rfl, rfl, ?_, ?_, ?_, ?_⟩ <;> simp [insertRecord, hseq]

lemma Appended.trans {runId : RunId} {a b c : LedgerState V} {w w' : List (LedgerRecord V)}
    (hab : Appended runId a b w) (hbc : Appended runId b c w') :
    Appended runId a c (w ++ w') where
  records := by rw [hbc.records, hab.records, append_assoc]
  leases := hbc.leases.trans hab.leases
  counter := Nat.le_trans hab.counter hbc.counter
  sequences r hr := by
    have := hab.counter
    have := hbc.counter
    rcases mem_append.mp hr with hr | hr
    · have := hab.sequences r hr
      omega
    · have := hbc.sequences r hr
      omega
  run r hr := by
    rcases mem_append.mp hr with hr | hr
    · exact hab.run r hr
    · exact hbc.run r hr
  sorted := by
    refine pairwise_append.mpr ⟨hab.sorted, hbc.sorted, fun r hr r' hr' => ?_⟩
    exact Nat.lt_of_le_of_lt (hab.sequences r hr).2 (hbc.sequences r' hr').1

lemma Appended.of_logicalRecords {runId : RunId} {a b : LedgerState V}
    {w : List (LedgerRecord V)} (h : Appended runId a b w) (rows : List (LogicalRow V)) :
    Appended runId a { b with logicalRecords := rows } w :=
  ⟨h.records, h.leases, h.counter, h.sequences, h.run, h.sorted⟩

variable {state' : LedgerState V}

lemma appendPending_appended {allocate : ℕ → IoResult ℕ}
    (hallocate : ∀ n q, allocate n = .ok q → q = n + 1) {runId : RunId} {timestamp : ℤ}
    {state : LedgerState V} {pending : List (PendingRecord V)} {records : List (LedgerRecord V)}
    (h : appendPending allocate runId timestamp state pending = .ok (state', records)) :
    Appended runId state state' records := by
  induction pending generalizing state records with
  | nil =>
    simp only [appendPending, Except.ok.injEq, Prod.mk.injEq] at h
    obtain ⟨rfl, rfl⟩ := h
    exact .refl _ _
  | cons head pending ih =>
    obtain ⟨durability, recordType, payload⟩ := head
    simp only [appendPending, bind_eq_ok, pure_eq_ok, Prod.mk.injEq, Prod.exists] at h
    obtain ⟨seq, hseq, final, rest, hrest, rfl, rfl⟩ := h
    exact (appended_insertRecord state runId timestamp durability recordType payload
      (hallocate _ _ hseq)).trans (ih hrest)

/-- A durable record of a type, as a logical append writes it. -/
def LedgerRecord.Logical (recordType : String) (record : LedgerRecord V) : Prop :=
  record.durability ≠ .ephemeral ∧ record.recordType = recordType

section Logical

variable [DecidableEq V] [LedgerPayload V] {state : LedgerState V} {runId : RunId}
  {durability : DurabilityClass} {recordType : String} {fields : List String} {payload : V}
  {clock : ℤ} {record : LedgerRecord V}

lemma compareAndAppendInMemoryLocked_appended
    (h : compareAndAppendInMemoryLocked state runId durability recordType fields payload clock =
      .ok (state', record)) : durability ≠ .ephemeral ∧
    ∃ written, Appended runId state state' written ∧ ∀ r ∈ written, r.Logical recordType := by
  simp only [compareAndAppendInMemoryLocked, requireDurable, bind_eq_ok, require_eq_ok,
    decide_eq_true_eq] at h
  obtain ⟨_, hdurable, identity, _, matched, _, h⟩ := h
  refine ⟨hdurable, ?_⟩
  split at h
  · simp only [bind_eq_ok, pure_eq_ok] at h
    obtain ⟨seq, hseq, h⟩ := h
    have happ := appended_insertRecord state runId clock durability recordType payload
      (nextSequenceInMemory_eq_ok hseq)
    obtain ⟨rfl, rfl⟩ := Prod.mk.inj h
    exact ⟨_, happ, forall_mem_singleton.2 ⟨hdurable, rfl⟩⟩
  · simp only [bind_eq_ok, pure_eq_ok, Prod.mk.injEq] at h
    obtain ⟨_, _, rfl, -⟩ := h
    exact ⟨[], .refl _ _, by simp⟩
  · cases h

omit [LedgerPayload V] in
lemma insertMapping_eq_ok {row : LogicalRow V} (h : insertMapping state row = .ok state') :
    state' = { state with logicalRecords := state.logicalRecords ++ [row] } := by
  simp only [insertMapping, bind_eq_ok, pure_eq_ok] at h
  obtain ⟨_, _, rfl⟩ := h
  rfl

lemma backfillOrInsert_appended {identity : LogicalIdentity V}
    (hdurable : durability ≠ .ephemeral)
    (h : backfillOrInsert state runId durability recordType fields identity payload clock =
      .ok (state', record)) :
    (∃ written, Appended runId state state' written ∧ ∀ r ∈ written, r.Logical recordType) ∧
      (state.nextSequence ≤ i64Max.toNat → state'.nextSequence ≤ i64Max.toNat) := by
  simp only [backfillOrInsert, bind_eq_ok] at h
  obtain ⟨legacy, _, matched, _, h⟩ := h
  split at h
  · simp only [bind_eq_ok, pure_eq_ok, Prod.mk.injEq] at h
    obtain ⟨seq, hseq, bound, hbound, rfl, -⟩ := h
    obtain rfl := insertMapping_eq_ok hbound
    refine ⟨⟨_, (appended_insertRecord state runId clock durability recordType payload
      (allocateSqliteSequence_eq_ok hseq)).of_logicalRecords _,
      forall_mem_singleton.2 ⟨hdurable, rfl⟩⟩, fun _ => ?_⟩
    unfold allocateSqliteSequence at hseq
    split at hseq
    · next hroom => exact Except.ok.inj hseq ▸ hroom
    · cases hseq
  · simp only [bind_eq_ok, pure_eq_ok, Prod.mk.injEq] at h
    obtain ⟨_, _, bound, hbound, rfl, -⟩ := h
    obtain rfl := insertMapping_eq_ok hbound
    exact ⟨⟨[], (Appended.refl _ _).of_logicalRecords _, by simp⟩, id⟩
  · cases h

lemma compareAndAppendSqliteTransaction_appended
    (h : compareAndAppendSqliteTransaction state runId durability recordType fields payload
      clock = .ok (state', record)) : durability ≠ .ephemeral ∧
    (∃ written, Appended runId state state' written ∧ ∀ r ∈ written, r.Logical recordType) ∧
      (state.nextSequence ≤ i64Max.toNat → state'.nextSequence ≤ i64Max.toNat) := by
  simp only [compareAndAppendSqliteTransaction, requireDurable, bind_eq_ok, require_eq_ok,
    decide_eq_true_eq] at h
  obtain ⟨_, hdurable, identity, _, mapped, _, h⟩ := h
  refine ⟨hdurable, ?_⟩
  split at h
  · simp only [bind_eq_ok, pure_eq_ok, Prod.mk.injEq] at h
    obtain ⟨_, _, rfl, -⟩ := h
    exact ⟨⟨[], .refl _ _, by simp⟩, id⟩
  · exact backfillOrInsert_appended hdurable h

end Logical

/-! ## What a call did to the lease -/

/-- A fenced call under `lease` succeeded at `now` and wrote `written`: the row let it
through, it keeps owner and epoch, and only an extending call moves the expiry. -/
structure Fenced (lease : WorkflowMutationLease) (now : ℤ) (extending : Bool)
    (written : List (LedgerRecord V)) (state state' : LedgerState V) : Prop where
  used : ∃ row row' : WorkflowMutationLeaseRow, ∃ middle : LedgerState V,
    state.workflowMutationLeases lease.runId = some row ∧
    row.ownerId = some lease.ownerId ∧ row.epoch = lease.epoch ∧ now < row.expiresAtUnixMs ∧
    Appended lease.runId state middle written ∧
    state' = middle.setLease lease.runId row' ∧
    row'.ownerId = row.ownerId ∧ row'.epoch = row.epoch ∧
    row'.expiresAtUnixMs = if extending then leaseExpiry now else row.expiresAtUnixMs

variable {lease : WorkflowMutationLease} {state : LedgerState V}
  {set : WorkflowMutationLeaseRow → WorkflowMutationLeaseRow} {row : WorkflowMutationLeaseRow}

variable {now : ℤ}

lemma requireCurrent_eq_ok {current : WorkflowMutationLeaseRow} {u : Unit}
    (h : requireCurrent current lease now = .ok u) :
    current.ownerId = some lease.ownerId ∧ current.epoch = lease.epoch ∧
      now < current.expiresAtUnixMs := by
  simp only [requireCurrent, bind_eq_ok, require_eq_ok, Bool.and_eq_true,
    decide_eq_true_eq] at h
  obtain ⟨_, _, ⟨howner, hepoch⟩, hexpiry⟩ := h
  exact ⟨howner, hepoch, hexpiry⟩

lemma updateSqliteLease_eq_ok (h : updateSqliteLease state lease set = .ok state') :
    ∃ row, state.workflowMutationLeases lease.runId = some row ∧
      row.ownerId = some lease.ownerId ∧ row.epoch = lease.epoch ∧
      state' = state.setLease lease.runId (set row) := by
  simp only [updateSqliteLease, leaseRow, bind_eq_ok, require_eq_ok, pure_eq_ok,
    orElseThrow_eq_ok, Bool.and_eq_true, decide_eq_true_eq] at h
  obtain ⟨_, _, row, hrow, _, ⟨howner, hepoch⟩, rfl⟩ := h
  exact ⟨row, hrow, howner, hepoch, rfl⟩

lemma requireSqliteCurrent_eq_ok (h : requireSqliteCurrent state lease now = .ok row) :
    state.workflowMutationLeases lease.runId = some row ∧
      row.ownerId = some lease.ownerId ∧ row.epoch = lease.epoch ∧
      now < row.expiresAtUnixMs := by
  simp only [requireSqliteCurrent, leaseRow, bind_eq_ok, pure_eq_ok,
    orElseThrow_eq_ok] at h
  obtain ⟨current, hrow, _, hcurrent, rfl⟩ := h
  exact ⟨hrow, requireCurrent_eq_ok hcurrent⟩

/-- A fenced SQLite call: check, append, then update the row. -/
lemma fenced_of_sqlite {middle : LedgerState V} {extending : Bool}
    {written : List (LedgerRecord V)} (hcurrent : requireSqliteCurrent state lease now = .ok row)
    (happ : Appended lease.runId state middle written)
    (hupdate : updateSqliteLease middle lease set = .ok state')
    (hset : ∀ r, (set r).ownerId = r.ownerId ∧ (set r).epoch = r.epoch ∧
      (set r).expiresAtUnixMs = if extending then leaseExpiry now else r.expiresAtUnixMs) :
    Fenced lease now extending written state state' := by
  obtain ⟨hrow, howner, hepoch, hexpiry⟩ := requireSqliteCurrent_eq_ok hcurrent
  obtain ⟨row', hrow', -, -, rfl⟩ := updateSqliteLease_eq_ok hupdate
  rw [happ.leases, hrow] at hrow'
  cases hrow'
  obtain ⟨h₁, h₂, h₃⟩ := hset row
  exact ⟨row, set row, middle, hrow, howner, hepoch, hexpiry, happ, rfl, h₁, h₂, h₃⟩

lemma fenced_of_inMemory {middle : LedgerState V} {extending : Bool}
    {row' : WorkflowMutationLeaseRow} {u : Unit} {written : List (LedgerRecord V)}
    (hrow : state.workflowMutationLeases lease.runId = some row)
    (hcurrent : requireCurrent row lease now = .ok u)
    (happ : Appended lease.runId state middle written) (howner : row'.ownerId = row.ownerId)
    (hepoch : row'.epoch = row.epoch) (hexpiry : row'.expiresAtUnixMs =
      if extending then leaseExpiry now else row.expiresAtUnixMs) :
    Fenced lease now extending written state (middle.setLease lease.runId row') := by
  obtain ⟨h₁, h₂, h₃⟩ := requireCurrent_eq_ok hcurrent
  exact ⟨row, row', middle, hrow, h₁, h₂, h₃, happ, rfl, howner, hepoch, hexpiry⟩

variable {token : WorkflowMutationLease}

section Effects

variable {state : LedgerState V} {lease : WorkflowMutationLease}

variable {backend : Backend}

lemma renew_fenced (h : renewWorkflowMutationLease backend state lease now = .ok (state', token)) :
    Fenced lease now true [] state state' := by
  unfold renewWorkflowMutationLease at h
  cases backend with
  | inMemory =>
    simp only [renewWorkflowMutationLeaseInMemory, leaseRow, bind_eq_ok, pure_eq_ok,
      orElseThrow_eq_ok, Prod.mk.injEq] at h
    obtain ⟨row, hrow, _, hcurrent, rfl, -⟩ := h
    exact fenced_of_inMemory hrow hcurrent (.refl _ _) rfl rfl rfl
  | sqlite =>
    simp only [renewWorkflowMutationLeaseSqlite, updateHeartbeat, bind_eq_ok, pure_eq_ok,
      Prod.mk.injEq] at h
    obtain ⟨row, hcurrent, renewed, hupdate, rfl, -⟩ := h
    exact fenced_of_sqlite hcurrent (.refl _ _) hupdate fun r => ⟨rfl, rfl, rfl⟩

lemma commitRestore_fenced {expected : ℕ} {commit : WorkflowRestoreCommit}
    (h : commitWorkflowRestore backend state lease expected now = .ok (state', commit)) :
    Fenced lease now true [] state state' := by
  unfold commitWorkflowRestore at h
  cases backend with
  | inMemory =>
    simp only [commitWorkflowRestoreInMemory, leaseRow, bind_eq_ok,
      orElseThrow_eq_ok] at h
    obtain ⟨row, hrow, _, hcurrent, h⟩ := h
    split at h <;> simp only [pure_eq_ok, Prod.mk.injEq] at h <;> obtain ⟨rfl, -⟩ := h
    · exact fenced_of_inMemory hrow hcurrent (.refl _ _) rfl rfl rfl
    · exact fenced_of_inMemory hrow hcurrent (.refl _ _) rfl rfl rfl
  | sqlite =>
    simp only [commitWorkflowRestoreSqlite, bind_eq_ok, pure_eq_ok, Prod.mk.injEq] at h
    obtain ⟨row, hcurrent, _, _, _, _, updated, hupdate, rfl, -⟩ := h
    exact fenced_of_sqlite hcurrent (.refl _ _) hupdate fun r => ⟨rfl, rfl, rfl⟩

variable {durability : DurabilityClass}

lemma append_fenced {recordType : String} {payload : V} {record : LedgerRecord V}
    (h : appendUnderWorkflowLease backend state lease now durability recordType payload =
      .ok (state', record)) :
    durability ≠ .ephemeral ∧ Fenced lease now false [record] state state' ∧
      record.Logical recordType := by
  unfold appendUnderWorkflowLease at h
  cases backend with
  | inMemory =>
    simp only [appendUnderWorkflowLeaseInMemory, requireDurableWorkflowRecord, leaseRow,
      bind_eq_ok, pure_eq_ok, require_eq_ok, decide_eq_true_eq, orElseThrow_eq_ok,
      Prod.mk.injEq] at h
    obtain ⟨_, hdurable, row, hrow, _, hcurrent, seq, hseq, rfl, rfl⟩ := h
    exact ⟨hdurable, fenced_of_inMemory hrow hcurrent (appended_insertRecord state lease.runId now
      durability recordType payload (nextSequenceInMemory_eq_ok hseq)) rfl rfl rfl, hdurable, rfl⟩
  | sqlite =>
    simp only [appendUnderWorkflowLeaseSqlite, requireDurableWorkflowRecord,
      advanceSqliteObservedSequence, bind_eq_ok, pure_eq_ok, require_eq_ok, decide_eq_true_eq,
      Prod.mk.injEq] at h
    obtain ⟨_, hdurable, row, hcurrent, seq, hseq, advanced, ⟨_, _, hupdate⟩, rfl, rfl⟩ := h
    exact ⟨hdurable, fenced_of_sqlite hcurrent (appended_insertRecord state lease.runId now
      durability
      recordType payload (allocateSqliteSequence_eq_ok hseq)) hupdate fun r => ⟨rfl, rfl, rfl⟩,
      hdurable, rfl⟩

variable [LedgerPayload V]

lemma compareAndAppend_fenced [DecidableEq V] {recordType : String} {fields : List String}
    {payload : V} {clock : ℤ} {record : LedgerRecord V}
    (h : compareAndAppendUnderWorkflowLease backend state lease now durability recordType fields
      payload clock = .ok (state', record)) :
    durability ≠ .ephemeral ∧ ∃ written, Fenced lease now false written state state' ∧
      ∀ r ∈ written, r.Logical recordType := by
  unfold compareAndAppendUnderWorkflowLease at h
  cases backend with
  | inMemory =>
    simp only [compareAndAppendUnderWorkflowLeaseInMemory, leaseRow, bind_eq_ok,
      pure_eq_ok, orElseThrow_eq_ok, Prod.mk.injEq, Prod.exists] at h
    obtain ⟨row, hrow, _, hcurrent, appended, _, happend, rfl, -⟩ := h
    obtain ⟨hdurable, written, happ, hlogical⟩ := compareAndAppendInMemoryLocked_appended happend
    exact ⟨hdurable, written, fenced_of_inMemory hrow hcurrent happ rfl rfl rfl, hlogical⟩
  | sqlite =>
    simp only [compareAndAppendUnderWorkflowLeaseSqlite, advanceSqliteObservedSequence,
      bind_eq_ok, pure_eq_ok, Prod.mk.injEq, Prod.exists] at h
    obtain ⟨_, _, row, hcurrent, appended, _, happend, advanced, ⟨_, _, hupdate⟩, rfl, -⟩ := h
    obtain ⟨hdurable, ⟨written, happ, hlogical⟩, -⟩ :=
      compareAndAppendSqliteTransaction_appended happend
    exact ⟨hdurable, written, fenced_of_sqlite hcurrent happ hupdate fun r => ⟨rfl, rfl, rfl⟩,
      hlogical⟩

lemma admit_fenced {root : RunId} {maxTasks : ℕ} {tasks : List TaskRecord}
    {additional : List (PendingRecord V)} {clock : ℤ} {visit : RunId → ℕ}
    {records : List (LedgerRecord V)}
    (h : admitTasksAndAppendUnderWorkflowLease backend state lease now root maxTasks tasks
      additional clock visit = .ok (state', records)) :
    Fenced lease now true records state state' := by
  unfold admitTasksAndAppendUnderWorkflowLease at h
  cases backend with
  | inMemory =>
    simp only [admitTasksAndAppendUnderWorkflowLeaseInMemory, leaseRow, bind_eq_ok,
      pure_eq_ok, orElseThrow_eq_ok, Prod.mk.injEq, Prod.exists] at h
    obtain ⟨row, hrow, _, hcurrent, pending, _, appended, _, happend, rfl, rfl⟩ := h
    exact fenced_of_inMemory hrow hcurrent
      (appendPending_appended (fun _ _ => nextSequenceInMemory_eq_ok) happend) rfl rfl rfl
  | sqlite =>
    simp only [admitTasksAndAppendUnderWorkflowLeaseSqlite, advanceSqliteObservedSequence,
      updateHeartbeat, bind_eq_ok, pure_eq_ok, Prod.mk.injEq, Prod.exists] at h
    obtain ⟨row, hcurrent, pending, _, appended, _, happend, extended, hextend, advanced,
      ⟨_, _, hupdate⟩, rfl, rfl⟩ := h
    have happ := appendPending_appended (fun _ _ => allocateSqliteSequence_eq_ok) happend
    -- two updates of the row: heartbeat with expiry, then the observed sequence
    obtain ⟨hrow, howner, hepoch, hexpiry⟩ := requireSqliteCurrent_eq_ok hcurrent
    obtain ⟨row₁, hrow₁, -, -, rfl⟩ := updateSqliteLease_eq_ok hextend
    obtain ⟨row₂, hrow₂, -, -, rfl⟩ := updateSqliteLease_eq_ok hupdate
    rw [happ.leases, hrow] at hrow₁
    cases hrow₁
    rw [setLease_leases_self] at hrow₂
    cases hrow₂
    rw [setLease_setLease]
    exact ⟨row, _, appended, hrow, howner, hepoch, hexpiry, happ, rfl, rfl, rfl, rfl⟩

end Effects

/-- The lease was granted to `ownerId` at `now`. -/
structure Granted (runId : RunId) (ownerId : String) (now : ℤ) (token : WorkflowMutationLease)
    (state state' : LedgerState V) : Prop where
  token_run : token.runId = runId
  token_owner : token.ownerId = ownerId
  token_epoch : token.epoch = existingEpoch (state.workflowMutationLeases runId) + 1
  token_expiry : token.expiresAtUnixMs = leaseExpiry now
  row : ∃ row : WorkflowMutationLeaseRow, state' = state.setLease runId row ∧
    row.ownerId = some ownerId ∧ row.epoch = token.epoch ∧ row.expiresAtUnixMs = leaseExpiry now

variable {backend : Backend}

lemma acquire_granted {state : LedgerState V} {runId : RunId} {ownerId : String}
    (h : acquireWorkflowMutationLease backend state runId ownerId now = .ok (state', token)) :
    Granted runId ownerId now token state state' := by
  have hgrant : ∀ epoch observed, epoch = existingEpoch (state.workflowMutationLeases runId) + 1 →
      state.grantLease runId ownerId now epoch observed = (state', token) →
      Granted runId ownerId now token state state' := by
    rintro epoch observed hepoch ⟨⟩
    exact ⟨rfl, rfl, hepoch, rfl, _, rfl, rfl, rfl, rfl⟩
  unfold acquireWorkflowMutationLease at h
  cases backend with
  | inMemory =>
    simp only [acquireWorkflowMutationLeaseInMemory, bind_eq_ok, pure_eq_ok,
      orElseThrow_eq_ok] at h
    obtain ⟨_, _, _, _, epoch, hepoch, h⟩ := h
    exact hgrant epoch _ (u64CheckedAdd_eq_some hepoch) h
  | sqlite =>
    simp only [acquireWorkflowMutationLeaseSqlite, bind_eq_ok, pure_eq_ok, orElseThrow_eq_ok] at h
    obtain ⟨_, _, _, _, epoch, hepoch, _, _, _, _, _, _, h⟩ := h
    exact hgrant epoch _ (u64CheckedAdd_eq_some hepoch) h

/-- The holder of the token gave the lease back; the epoch stays. -/
lemma release_eq_ok {state : LedgerState V}
    (h : releaseWorkflowMutationLease backend state lease = .ok state') :
    ∃ row row' : WorkflowMutationLeaseRow,
      state.workflowMutationLeases lease.runId = some row ∧
      row.ownerId = some lease.ownerId ∧ row.epoch = lease.epoch ∧
      state' = state.setLease lease.runId row' ∧ row'.ownerId = none ∧
      row'.epoch = row.epoch ∧ row'.expiresAtUnixMs = 0 := by
  unfold releaseWorkflowMutationLease at h
  cases backend with
  | inMemory =>
    simp only [releaseWorkflowMutationLeaseInMemory, leaseRow, bind_eq_ok, pure_eq_ok,
      require_eq_ok, orElseThrow_eq_ok, Bool.and_eq_true, decide_eq_true_eq] at h
    obtain ⟨row, hrow, _, ⟨howner, hepoch⟩, rfl⟩ := h
    exact ⟨row, _, hrow, howner, hepoch, rfl, rfl, rfl, rfl⟩
  | sqlite =>
    obtain ⟨row, hrow, howner, hepoch, rfl⟩ := updateSqliteLease_eq_ok h
    exact ⟨row, _, hrow, howner, hepoch, rfl, rfl, rfl, rfl⟩

/-! ## Reading the trace -/

abbrev LeaseStep (V : Type) := Machine.Step (LedgerState V) (LeaseCall V) (IoResult (LeaseAnswer V))

/-- The token and clock of a call that is checked against the lease. -/
def LeaseCall.fencedBy : LeaseCall V → Option (WorkflowMutationLease × ℤ)
  | .renew lease now | .commitRestore lease _ now | .append lease now _ _ _
  | .compareAndAppend lease now _ _ _ _ _ | .admission lease now _ _ _ _ _ _ => some (lease, now)
  | .acquire _ _ _ | .release _ | .deleteRun _ => none

/-- The call moves the expiry of the lease when it succeeds. -/
def LeaseCall.extending : LeaseCall V → Bool
  | .renew _ _ | .commitRestore _ _ _ | .admission _ _ _ _ _ _ _ _ => true
  | _ => false

variable {answer : LeaseAnswer V}

/-- What a successful call did. -/
inductive LeaseEffect (state : LedgerState V) :
    LeaseCall V → LeaseAnswer V → LedgerState V → Prop
  | granted {run ownerId now token state'} (h : Granted run ownerId now token state state') :
      LeaseEffect state (.acquire run ownerId now) (.lease token) state'
  | fenced {call answer lease now written state'}
      (hcall : LeaseCall.fencedBy call = some (lease, now))
      (h : Fenced lease now call.extending written state state') :
      LeaseEffect state call answer state'
  | released {lease row row'} (hrow : state.workflowMutationLeases lease.runId = some row)
      (howner : row.ownerId = some lease.ownerId) (hepoch : row.epoch = lease.epoch)
      (howner' : row'.ownerId = none) (hepoch' : row'.epoch = row.epoch)
      (hexpiry' : row'.expiresAtUnixMs = 0) :
      LeaseEffect state (.release lease) .done (state.setLease lease.runId row')
  | deleted {runId count state'}
      (hleases : state'.workflowMutationLeases = state.workflowMutationLeases)
      (hcounter : state'.nextSequence = state.nextSequence) :
      LeaseEffect state (.deleteRun runId) (.deleted count) state'

lemma executeLeaseCall_eq_ok [DecidableEq V] [LedgerPayload V] {state : LedgerState V}
    {call : LeaseCall V} (h : executeLeaseCall backend state call = .ok (state', answer)) :
    LeaseEffect state call answer state' := by
  cases call
  case release lease =>
    obtain ⟨released, hreleased, h⟩ := map_eq_ok.1 h
    cases h
    obtain ⟨row, row', hrow, howner, hepoch, rfl, howner', hepoch', hexpiry'⟩ :=
      release_eq_ok hreleased
    exact .released hrow howner hepoch howner' hepoch' hexpiry'
  case deleteRun => cases backend <;> cases h <;> exact .deleted rfl rfl
  all_goals obtain ⟨_, hcall, rfl⟩ := answering_eq_ok h
  case acquire => exact .granted (acquire_granted hcall)
  case renew => exact .fenced rfl (renew_fenced hcall)
  case commitRestore => exact .fenced rfl (commitRestore_fenced hcall)
  case append => exact .fenced rfl (append_fenced hcall).2.1
  case compareAndAppend =>
    obtain ⟨-, written, hfenced, -⟩ := compareAndAppend_fenced hcall
    exact .fenced rfl hfenced
  case admission => exact .fenced rfl (admit_fenced hcall)

namespace LeaseStep

def succeeded (step : LeaseStep V) : Bool :=
  match step.answer with
  | .ok _ => true
  | .error _ => false

/-- The step acquired the lease of the run and was given `token`. -/
def Acquired (runId : RunId) (token : WorkflowMutationLease) (step : LeaseStep V) : Prop :=
  (∃ ownerId now, step.event = .acquire runId ownerId now) ∧ step.answer = .ok (.lease token)

/-- The step was a successful fenced call on the run under `lease` at `now`. -/
def FencedBy (runId : RunId) (lease : WorkflowMutationLease) (now : ℤ) (step : LeaseStep V) :
    Prop :=
  step.event.fencedBy = some (lease, now) ∧ lease.runId = runId ∧ step.succeeded = true

/-- The step released the lease of the run that `token` stands for. -/
def Released (runId : RunId) (token : WorkflowMutationLease) (step : LeaseStep V) : Prop :=
  ∃ lease, step.event = .release lease ∧ lease.runId = runId ∧
    lease.ownerId = token.ownerId ∧ lease.epoch = token.epoch ∧ step.succeeded = true

/-- The records the step wrote. -/
def written (step : LeaseStep V) : List (LedgerRecord V) :=
  step.after.records.drop step.before.records.length

/-- The expiry of a token: set by the acquisition that issued it, moved by every successful
renewal, restore commit and admission under it. -/
def expiryAfter (token : WorkflowMutationLease) (expiry : ℤ) : List (LeaseStep V) → ℤ
  | [] => expiry
  | step :: steps =>
    match step.event.fencedBy with
    | some (lease, now) =>
      if step.succeeded ∧ step.event.extending ∧ lease.runId = token.runId ∧
          lease.ownerId = token.ownerId ∧ lease.epoch = token.epoch then
        expiryAfter token (leaseExpiry now) steps
      else expiryAfter token expiry steps
    | none => expiryAfter token expiry steps

end LeaseStep

open LeaseStep (expiryAfter succeeded written)

/-! ## The ledger simulates a fencing lease per run -/

/-- The lease of a run, as a fencing lease. -/
def leaseOf (state : LedgerState V) (runId : RunId) : Fencing.Lease String :=
  match state.workflowMutationLeases runId with
  | none => ⟨none, 0, 0, state.nextSequence⟩
  | some row => ⟨row.ownerId, row.epoch, row.expiresAtUnixMs, state.nextSequence⟩

/-- What a step does to the lease of a run. -/
def actionOf (runId : RunId) (step : LeaseStep V) : Fencing.Action String :=
  match step.event, step.answer with
  | _, .error _ => .allocate step.after.nextSequence
  | .acquire run ownerId now, .ok _ =>
    if run = runId then .grant ownerId (leaseExpiry now) else .allocate step.after.nextSequence
  | .release lease, .ok _ =>
    if lease.runId = runId then .release lease.ownerId lease.epoch
    else .allocate step.after.nextSequence
  | event, .ok _ =>
    match event.fencedBy with
    | some (lease, now) =>
      if lease.runId = runId then
        .use lease.ownerId lease.epoch now
          (if event.extending then some (leaseExpiry now) else none)
          (step.written.map (·.seq)) step.after.nextSequence
      else .allocate step.after.nextSequence
    | none => .allocate step.after.nextSequence

section Simulation

variable {state : LedgerState V} {runId : RunId}

@[simp] lemma leaseOf_last (state : LedgerState V) (runId : RunId) :
    (leaseOf state runId).last = state.nextSequence := by
  unfold leaseOf
  split <;> rfl

lemma leaseOf_epoch (state : LedgerState V) (runId : RunId) :
    (leaseOf state runId).epoch = existingEpoch (state.workflowMutationLeases runId) := by
  unfold leaseOf
  split
  · next h => rw [h]; rfl
  · next row h => rw [h]; rfl

lemma leaseOf_of_some (h : state.workflowMutationLeases runId = some row) :
    leaseOf state runId = ⟨row.ownerId, row.epoch, row.expiresAtUnixMs, state.nextSequence⟩ := by
  simp [leaseOf, h]

/-- The lease of a run allows the action and goes on as after it. -/
def Simulates (runId : RunId) (state state' : LedgerState V) (action : Fencing.Action String) :
    Prop :=
  (leaseOf state runId).Allows action ∧ leaseOf state' runId = (leaseOf state runId).after action

/-- The step of a run that the call did not touch. -/
lemma simulates_allocate
    (hrow : state'.workflowMutationLeases runId = state.workflowMutationLeases runId)
    (hcounter : state.nextSequence ≤ state'.nextSequence) :
    Simulates runId state state' (.allocate state'.nextSequence) := by
  refine ⟨by simpa [Fencing.Lease.Allows] using hcounter, ?_⟩
  unfold leaseOf
  rw [hrow]
  split <;> rfl

lemma Fenced.simulates {extending : Bool} {written : List (LedgerRecord V)}
    (h : Fenced lease now extending written state state') :
    Simulates runId state state' (if lease.runId = runId then .use lease.ownerId lease.epoch now
        (if extending then some (leaseExpiry now) else none)
        ((state'.records.drop state.records.length).map (·.seq)) state'.nextSequence
      else .allocate state'.nextSequence) := by
  obtain ⟨row, row', middle, hrow, howner, hepoch, hnow, happ, rfl, howner', hepoch',
    hexpiry'⟩ := h.used
  split
  · next heq =>
    subst heq
    have hwritten : (middle.setLease lease.runId row').records.drop state.records.length =
        written := by simp [happ.records]
    rw [Simulates, hwritten, leaseOf_of_some hrow,
      leaseOf_of_some (setLease_leases_self middle lease.runId row')]
    refine ⟨⟨howner, hepoch, hnow, happ.counter, ?_⟩, ?_⟩
    · intro q hq
      obtain ⟨r, hr, rfl⟩ := mem_map.mp hq
      exact happ.sequences r hr
    · cases extending <;>
        simp [Fencing.Lease.after, howner', hepoch', hexpiry']
  · next hne =>
    refine simulates_allocate ?_ happ.counter
    rw [setLease_leases_of_ne _ _ (Ne.symm hne), happ.leases]

lemma Granted.simulates {run : RunId} {ownerId : String}
    (h : Granted run ownerId now token state state') :
    Simulates runId state state' (if run = runId then .grant ownerId (leaseExpiry now)
      else .allocate state'.nextSequence) := by
  obtain ⟨row, rfl, howner, hepoch, hexpiry⟩ := h.row
  split
  · next heq =>
    subst heq
    rw [Simulates, leaseOf_of_some (setLease_leases_self state run row)]
    simp [Fencing.Lease.Allows, Fencing.Lease.after, howner, hepoch, hexpiry, h.token_epoch,
      leaseOf_epoch]
  · next hne => exact simulates_allocate (setLease_leases_of_ne _ _ (Ne.symm hne)) le_rfl

end Simulation

variable {state : LedgerState V} {call : LeaseCall V}

lemma actionOf_fenced (hcall : call.fencedBy = some (lease, now)) (runId : RunId) :
    actionOf runId ⟨state, call, .ok answer, state'⟩ =
      if lease.runId = runId then
        .use lease.ownerId lease.epoch now
          (if call.extending then some (leaseExpiry now) else none)
          ((state'.records.drop state.records.length).map (·.seq)) state'.nextSequence
      else .allocate state'.nextSequence := by
  cases call <;> cases hcall <;> rfl

lemma LeaseEffect.simulates (h : LeaseEffect state call answer state') (runId : RunId) :
    Simulates runId state state' (actionOf runId ⟨state, call, .ok answer, state'⟩) := by
  cases h with
  | granted h => exact h.simulates
  | fenced hcall h =>
    rw [actionOf_fenced hcall]
    exact h.simulates
  | @released lease row row' hrow howner hepoch howner' hepoch' hexpiry' =>
    simp only [actionOf]
    split
    · next heq =>
      subst heq
      rw [Simulates, leaseOf_of_some hrow, leaseOf_of_some (setLease_leases_self ..)]
      exact ⟨⟨howner, hepoch⟩, by simp [Fencing.Lease.after, howner', hepoch', hexpiry']⟩
    · next hne =>
      exact simulates_allocate (setLease_leases_of_ne _ _ (Ne.symm hne)) le_rfl
  | deleted hleases hcounter =>
    exact simulates_allocate (by rw [hleases]) hcounter.ge

/-! ## Reading the actions of a trace -/

variable {step : LeaseStep V}

lemma actionOf_of_fencedBy {runId : RunId} (h : LeaseStep.FencedBy runId lease now step) :
    actionOf runId step = .use lease.ownerId lease.epoch now
      (if step.event.extending then some (leaseExpiry now) else none)
      (step.written.map (·.seq)) step.after.nextSequence := by
  obtain ⟨hcall, hrun, hok⟩ := h
  obtain ⟨state, call, answer, state'⟩ := step
  cases answer with
  | error e => cases hok
  | ok answer => exact (actionOf_fenced hcall runId).trans (if_pos hrun)

lemma actionOf_of_released {runId : RunId} (h : LeaseStep.Released runId token step) :
    actionOf runId step = .release token.ownerId token.epoch := by
  obtain ⟨lease, hevent, hrun, howner, hepoch, hok⟩ := h
  obtain ⟨state, call, answer, state'⟩ := step
  obtain rfl : call = .release lease := hevent
  cases answer with
  | error e => cases hok
  | ok answer => simp [actionOf, hrun, howner, hepoch]

lemma expiryUnder_map (token : WorkflowMutationLease) (expiry : ℤ) (steps : List (LeaseStep V)) :
    Fencing.Lease.expiryUnder token.ownerId token.epoch expiry
      (steps.map (actionOf token.runId)) = expiryAfter token expiry steps := by
  induction steps generalizing expiry with
  | nil => rfl
  | cons step steps ih =>
    obtain ⟨state, call, answer, state'⟩ := step
    rw [map_cons]
    cases answer with
    | error e =>
      rw [expiryAfter]
      split <;> simpa [actionOf, Fencing.Lease.expiryUnder, succeeded] using ih _
    | ok answer =>
      cases call <;>
        simp only [actionOf, LeaseCall.fencedBy, LeaseCall.extending, expiryAfter,
          succeeded, true_and] <;>
        first
        | split <;> simp [Fencing.Lease.expiryUnder, *]
        | simp [Fencing.Lease.expiryUnder, *]

/-! ## Whole traces -/

variable [DecidableEq V] [LedgerPayload V]

lemma stepAt_of_ok (h : executeLeaseCall backend state call = .ok (state', answer)) :
    (leaseMachine V backend).stepAt state call = ⟨state, call, .ok answer, state'⟩ := by
  simp [Machine.stepAt, Machine.answer, Machine.next, leaseMachine, h]

lemma stepAt_of_error {e : IoError} (h : executeLeaseCall backend state call = .error e) :
    (leaseMachine V backend).stepAt state call = ⟨state, call, .error e, state⟩ := by
  simp [Machine.stepAt, Machine.answer, Machine.next, leaseMachine, h]

/-- One step of the ledger is one action on the lease of every run. -/
lemma stepAt_simulates (backend : Backend) (state : LedgerState V) (call : LeaseCall V)
    (runId : RunId) :
    let step := (leaseMachine V backend).stepAt state call
    Simulates runId state step.after (actionOf runId step) := by
  cases hexec : executeLeaseCall backend state call with
  | error e =>
    rw [stepAt_of_error hexec]
    exact simulates_allocate rfl le_rfl
  | ok result =>
    rw [stepAt_of_ok hexec]
    exact (executeLeaseCall_eq_ok hexec).simulates runId

/-- A run of the ledger is a list of allowed actions on the lease of every run. -/
lemma trace_simulates (backend : Backend) (state : LedgerState V) (calls : List (LeaseCall V))
    (runId : RunId) :
    (leaseOf state runId).Allowed
      (((leaseMachine V backend).trace state calls).map (actionOf runId)) := by
  induction calls generalizing state with
  | nil => trivial
  | cons call calls ih =>
    obtain ⟨hallows, hafter⟩ := stepAt_simulates backend state call runId
    rw [Machine.trace_cons, map_cons]
    refine ⟨hallows, ?_⟩
    rw [← hafter]
    exact ih _

lemma leaseOf_run (state : LedgerState V) (calls : List (LeaseCall V)) (runId : RunId) :
    leaseOf ((leaseMachine V backend).run state calls) runId =
      (((leaseMachine V backend).trace state calls).map (actionOf runId)).foldl
        Fencing.Lease.after (leaseOf state runId) := by
  induction calls generalizing state with
  | nil => rfl
  | cons call calls ih =>
    rw [Machine.run_cons, ih, Machine.trace_cons, map_cons, foldl_cons]
    rw [← (stepAt_simulates backend state call runId).2]
    rfl

/-- An acquisition grants the epoch after the last one, to the holder of the token. -/
lemma acquired_lease {runId : RunId}
    (h : LeaseStep.Acquired runId token ((leaseMachine V backend).stepAt state call)) :
    token.runId = runId ∧ token.epoch = (leaseOf state runId).epoch + 1 ∧
    leaseOf ((leaseMachine V backend).next state call) runId =
      ⟨token.ownerId, token.epoch, token.expiresAtUnixMs, state.nextSequence⟩ := by
  obtain ⟨⟨ownerId, now, hevent⟩, hanswer⟩ := h
  obtain rfl : call = .acquire runId ownerId now := hevent
  cases hexec : executeLeaseCall backend state (.acquire runId ownerId now) with
  | error e =>
    rw [stepAt_of_error hexec] at hanswer
    cases hanswer
  | ok result =>
    have hstep := stepAt_of_ok hexec
    rw [hstep] at hanswer
    obtain ⟨state', answer⟩ := result
    cases hanswer
    have hnext : (leaseMachine V backend).next state (.acquire runId ownerId now) = state' :=
      congrArg Machine.Step.after hstep
    cases executeLeaseCall_eq_ok hexec with
    | fenced hcall => cases hcall
    | granted hgranted =>
      have hepoch : token.epoch = (leaseOf state runId).epoch + 1 := by
        rw [leaseOf_epoch, hgranted.token_epoch]
      refine ⟨hgranted.token_run, hepoch, ?_⟩
      rw [hnext, hgranted.simulates.2, if_pos rfl]
      simp [Fencing.Lease.after, hepoch, hgranted.token_owner, hgranted.token_expiry]

/-! ## Epochs, tokens and sequences over a run -/

section Runs

variable (backend) (state : LedgerState V) (calls : List (LeaseCall V)) (runId : RunId)

lemma epoch_le_run :
    (leaseOf state runId).epoch ≤
      (leaseOf ((leaseMachine V backend).run state calls) runId).epoch := by
  rw [leaseOf_run]
  exact Fencing.Lease.epoch_le_foldl _ _

/-- Epochs of successful acquisitions strictly increase. -/
lemma acquired_epochs_lt :
    ((leaseMachine V backend).trace state calls).Pairwise fun x y =>
      ∀ token token', LeaseStep.Acquired runId token x → LeaseStep.Acquired runId token' y →
        token.epoch < token'.epoch := by
  induction calls generalizing state with
  | nil => exact .nil
  | cons call calls ih =>
    refine .cons (fun y hy token token' hx hy' => ?_) (ih _)
    obtain ⟨before, after, rfl, hstep⟩ := Machine.exists_of_mem_trace _ hy
    rw [hstep] at hy'
    have hfirst : (leaseOf ((leaseMachine V backend).next state call) runId).epoch =
        token.epoch := congrArg Fencing.Lease.epoch (acquired_lease hx).2.2
    have hsecond := (acquired_lease hy').2.1
    have hmono := epoch_le_run backend ((leaseMachine V backend).next state call) before runId
    omega

/-- Between the acquisition that issued a token and a fenced call that succeeds under it,
nobody acquired the lease, the token was not released and it has not run out. -/
lemma fenced_while_held {before between after : List (LeaseStep V)} {x y : LeaseStep V}
    (htrace : (leaseMachine V backend).trace state calls = before ++ x :: (between ++ y :: after))
    (hx : LeaseStep.Acquired runId token x) (hy : LeaseStep.FencedBy runId lease now y)
    (howner : lease.ownerId = token.ownerId) (hepoch : lease.epoch = token.epoch) :
    (∀ z ∈ between, ∀ token', ¬ LeaseStep.Acquired runId token' z) ∧
      (∀ z ∈ between, ¬ LeaseStep.Released runId token z) ∧
      now < expiryAfter token token.expiresAtUnixMs between := by
  obtain ⟨callsBefore, call, callsAfter, rfl, rfl, rfl, hrest⟩ :=
    Machine.trace_eq_append_cons _ htrace
  obtain ⟨rfl, -, hlease⟩ := acquired_lease hx
  have hallowed := trace_simulates backend ((leaseMachine V backend).next
    ((leaseMachine V backend).run state callsBefore) call) callsAfter token.runId
  rw [← hrest, map_append, map_cons, actionOf_of_fencedBy hy, howner, hepoch] at hallowed
  obtain ⟨hgrant, hrelease, hexpiry⟩ :=
    Fencing.Lease.held_use (by rw [hlease]) (by rw [hlease]) hallowed
  refine ⟨fun z hz token' hacquired => ?_, fun z hz hreleased => ?_, ?_⟩
  · obtain ⟨⟨ownerId, now, hevent⟩, hanswer⟩ := hacquired
    refine hgrant ownerId (leaseExpiry now) (mem_map.2 ⟨z, hz, ?_⟩)
    simp [actionOf, hevent, hanswer]
  · exact hrelease (actionOf_of_released hreleased ▸ mem_map_of_mem hz)
  · rwa [hlease, expiryUnder_map] at hexpiry

/-- Later fenced calls have no smaller epoch and write later sequences. -/
lemma fenced_in_order :
    ((leaseMachine V backend).trace state calls).Pairwise fun x y =>
      ∀ lease now lease' now', LeaseStep.FencedBy runId lease now x →
        LeaseStep.FencedBy runId lease' now' y →
        lease.epoch ≤ lease'.epoch ∧ ∀ r ∈ x.written, ∀ r' ∈ y.written, r.seq < r'.seq := by
  have hpairwise := Fencing.Lease.allowed_pairwise
    (trace_simulates backend state calls runId)
  rw [pairwise_map] at hpairwise
  refine hpairwise.imp fun {x y} hxy lease now lease' now' hx hy => ?_
  rw [actionOf_of_fencedBy hx, actionOf_of_fencedBy hy] at hxy
  exact ⟨hxy.1, fun r hr r' hr' =>
    hxy.2 _ (mem_map_of_mem hr) _ (mem_map_of_mem hr')⟩

/-- Records written under a smaller epoch have smaller sequences, in whatever order the two
calls are named. -/
lemma written_lt_of_epoch_lt {x y : LeaseStep V} {lease' : WorkflowMutationLease} {now' : ℤ}
    (hmemx : x ∈ (leaseMachine V backend).trace state calls)
    (hmemy : y ∈ (leaseMachine V backend).trace state calls)
    (hx : LeaseStep.FencedBy runId lease now x) (hy : LeaseStep.FencedBy runId lease' now' y)
    (hepoch : lease.epoch < lease'.epoch) :
    ∀ r ∈ x.written, ∀ r' ∈ y.written, r.seq < r'.seq := by
  have horder := fenced_in_order backend state calls runId
  obtain ⟨xs, ys, hsplit⟩ := append_of_mem hmemx
  rw [hsplit] at hmemy horder
  obtain ⟨-, htail, hcross⟩ := pairwise_append.mp horder
  rcases mem_append.mp hmemy with hmem | hmem
  · -- the call under the greater epoch cannot have come first
    have := (hcross y hmem x mem_cons_self _ _ _ _ hy hx).1
    omega
  · rcases mem_cons.mp hmem with rfl | hmem
    · obtain ⟨rfl, -⟩ := Prod.mk.inj (Option.some.inj (hx.1.symm.trans hy.1))
      omega
    · exact (rel_of_pairwise_cons htail hmem _ _ _ _ hx hy).2

end Runs

/-- A workflow lease fences every stale owner, on either backend, for any calls by any
owners with any clock values: acquisitions get growing epochs, a fenced call works only
under a token that is the latest, not released and not run out, and records written under
a smaller epoch come first in the ledger's order. -/
theorem workflow_lease_fences_stale_owners (backend : Backend) (state : LedgerState V)
    (calls : List (LeaseCall V)) (runId : RunId) :
    let trace := (leaseMachine V backend).trace state calls
    (trace.Pairwise fun x y =>
      ∀ token token', LeaseStep.Acquired runId token x → LeaseStep.Acquired runId token' y →
        token.epoch < token'.epoch) ∧
    (∀ before x between y after token lease now,
      trace = before ++ x :: (between ++ y :: after) →
      LeaseStep.Acquired runId token x → LeaseStep.FencedBy runId lease now y →
      lease.ownerId = token.ownerId → lease.epoch = token.epoch →
        (∀ z ∈ between, ∀ token', ¬ LeaseStep.Acquired runId token' z) ∧
        (∀ z ∈ between, ¬ LeaseStep.Released runId token z) ∧
        now < expiryAfter token token.expiresAtUnixMs between) ∧
    ∀ x ∈ trace, ∀ y ∈ trace, ∀ lease now lease' now',
      LeaseStep.FencedBy runId lease now x → LeaseStep.FencedBy runId lease' now' y →
      lease.epoch < lease'.epoch →
      ∀ r ∈ written x, ∀ r' ∈ written y, r.seq < r'.seq := by
  refine ⟨acquired_epochs_lt backend _ calls runId, ?_, ?_⟩
  · intro before x between y after token lease now htrace hx hy howner hepoch
    exact fenced_while_held backend _ calls runId htrace hx hy howner hepoch
  · intro x hmemx y hmemy lease now lease' now' hx hy hepoch
    exact written_lt_of_epoch_lt backend _ calls runId hmemx hmemy hx hy hepoch

end SolarisMesh.Ledger
