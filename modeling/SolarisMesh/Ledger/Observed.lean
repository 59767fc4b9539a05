import SolarisMesh.Ledger.Logical

/-!
# What a lease has observed

A lease row carries the last sequence of its run that the holder has seen. Every call under a
lease moves it: an append to the sequence it wrote, a restore to the last of the run. An admission
that writes nothing takes it from the records in memory but from the token in SQLite, so a token
that is older than the row moves it back.
-/

namespace SolarisMesh.Ledger

open LedgerState Lib SolarisMesh.Types RuntimeLedger

variable {V : Type}

/-- The lease row of the run is at the last record of the run. -/
def LedgerState.Observes (state : LedgerState V) (runId : RunId) : Prop :=
  ∃ row, state.workflowMutationLeases runId = some row ∧
    row.observedSequence = state.lastSequence runId

/-- Two ledgers in step with the same lease rows, whose numbers fit into SQLite. -/
structure LeasedInStep [LedgerPayload V] (left right : LedgerState V) : Prop
    extends InStep left right where
  leases : left.workflowMutationLeases = right.workflowMutationLeases
  counterFits : right.nextSequence ≤ i64Max.toNat
  rowsFit : ∀ runId row, right.workflowMutationLeases runId = some row →
    row.epoch ≤ i64Max.toNat ∧ row.committedSequence ≤ right.nextSequence

section Rows

variable {state : LedgerState V} {lease : WorkflowMutationLease} {row : WorkflowMutationLeaseRow}

lemma u64ToSqlite_ok {value : ℕ} (h : value ≤ i64Max.toNat) (label : String) :
    u64ToSqlite value label = .ok value := if_pos h

section Holder

variable (state) (hrow : state.workflowMutationLeases lease.runId = some row)
  (howner : row.ownerId = some lease.ownerId) (hepoch : row.epoch = lease.epoch)
  (hfits : row.epoch ≤ i64Max.toNat)
include hrow howner hepoch hfits

/-- The holder of the lease changes the row. -/
lemma updateSqliteLease_ok (set : WorkflowMutationLeaseRow → WorkflowMutationLeaseRow) :
    updateSqliteLease state lease set = .ok (state.setLease lease.runId (set row)) := by
  unfold updateSqliteLease LedgerState.leaseRow
  rw [u64ToSqlite_ok (hepoch ▸ hfits), hrow]
  simp [orElseThrow, bind, Except.bind, howner, hepoch, require, pure, Except.pure]

lemma advanceSqliteObservedSequence_ok {observed : ℕ} (hobserved : observed ≤ i64Max.toNat) :
    advanceSqliteObservedSequence state lease observed =
      .ok (state.setLease lease.runId { row with observedSequence := observed }) := by
  unfold advanceSqliteObservedSequence
  rw [u64ToSqlite_ok hobserved]
  exact updateSqliteLease_ok _ hrow howner hepoch hfits _

lemma advanceWorkflowMutationLeaseSqlite_ok {sequence : ℕ} (hlast : sequence ≤ i64Max.toNat)
    (now : ℤ) :
    advanceWorkflowMutationLeaseSqlite state lease now sequence =
      .ok (state.setLease lease.runId { row with
        heartbeatAtUnixMs := now, expiresAtUnixMs := leaseExpiry now,
        observedSequence := sequence }) := by
  unfold advanceWorkflowMutationLeaseSqlite updateHeartbeat
  rw [updateSqliteLease_ok state hrow howner hepoch hfits]
  have hextended := setLease_leases_self state lease.runId
    { row with heartbeatAtUnixMs := now, expiresAtUnixMs := leaseExpiry now }
  refine (advanceSqliteObservedSequence_ok _ hextended howner hepoch hfits hlast).trans ?_
  rw [setLease_setLease]

end Holder

/-- Both ledgers move the row of a lease to the last record of the run after an admission: SQLite
reads it from what it wrote, the in-memory ledger from the records of the run. A token that wrote
nothing keeps what it has seen. -/
lemma observed_pushPending {pending : List (PendingRecord V)} (time : ℤ)
    (hidle : pending = [] → lease.observedSequence = state.lastSequence lease.runId) :
    ((pushPending lease.runId time state pending).2.getLast?.map (·.seq)).getD
        lease.observedSequence =
          (pushPending lease.runId time state pending).1.lastSequence lease.runId ∧
      (((pushPending lease.runId time state pending).1.recordsForRun lease.runId).getLast?.map
        (·.seq)).getD lease.observedSequence =
          (pushPending lease.runId time state pending).1.lastSequence lease.runId := by
  by_cases hnone : pending = []
  · subst hnone
    refine ⟨hidle rfl, ?_⟩
    rw [hidle rfl, pushPending, LedgerState.lastSequence]
    cases ((state.recordsForRun lease.runId).getLast?.map (·.seq)) <;> rfl
  · obtain ⟨happ, hcontent⟩ := pushPending_appended lease.runId time pending state
    have hwritten : (pushPending lease.runId time state pending).2 ≠ [] := by
      intro habsurd
      rw [habsurd] at hcontent
      exact hnone hcontent.symm
    rw [LedgerState.lastSequence, happ.recordsForRun_self,
      List.getLast?_append_of_ne_nil _ hwritten, List.getLast?_eq_some_getLast hwritten]
    exact ⟨rfl, rfl⟩

end Rows

variable {runId : RunId}

section Alike

variable {left right : LedgerState V}

lemma Alike.lastSequence (h : Alike left right) (runId : RunId) :
    left.lastSequence runId = right.lastSequence runId := by
  have hseqs : (left.recordsForRun runId).map (·.seq) = (right.recordsForRun runId).map (·.seq) :=
    map_untimed (h.recordsForRun runId) _ fun _ => rfl
  have hlast := congrArg List.getLast? hseqs
  rw [List.getLast?_map, List.getLast?_map] at hlast
  rw [LedgerState.lastSequence, hlast, LedgerState.lastSequence]

variable [LedgerPayload V]

/-- Setting the row of a run in both ledgers. -/
lemma LeasedInStep.setLease (h : LeasedInStep left right) (runId : RunId)
    {row : WorkflowMutationLeaseRow} (hepoch : row.epoch ≤ i64Max.toNat)
    (hcommitted : row.committedSequence ≤ right.nextSequence) :
    LeasedInStep (left.setLease runId row) (right.setLease runId row) where
  records := h.records
  counter := h.counter
  ordered := setLease_ordered.2 h.ordered
  bound := h.bound
  leases := by
    show Function.update left.workflowMutationLeases runId _ = _
    rw [h.leases]
    rfl
  counterFits := h.counterFits
  rowsFit run found hfound := by
    by_cases hrun : run = runId
    · subst hrun
      rw [setLease_leases_self] at hfound
      cases hfound
      exact ⟨hepoch, hcommitted⟩
    · rw [setLease_leases_of_ne _ _ hrun] at hfound
      exact h.rowsFit run found hfound

/-- What both ledgers wrote keeps them in step with their rows. -/
lemma LeasedInStep.written {left' right' : LedgerState V} (h : LeasedInStep left right)
    (hstep : InStep left' right')
    (hleft : left'.workflowMutationLeases = left.workflowMutationLeases)
    (hright : right'.workflowMutationLeases = right.workflowMutationLeases)
    (hcounter : right.nextSequence ≤ right'.nextSequence)
    (hfits : right'.nextSequence ≤ i64Max.toNat) : LeasedInStep left' right' where
  toInStep := hstep
  leases := hleft.trans (h.leases.trans hright.symm)
  counterFits := hfits
  rowsFit run row hrow := by
    obtain ⟨hepoch, hcommitted⟩ := h.rowsFit run row (hright ▸ hrow)
    exact ⟨hepoch, hcommitted.trans hcounter⟩

lemma LeasedInStep.observes (h : LeasedInStep left right) (hobserves : right.Observes runId) :
    left.Observes runId := by
  obtain ⟨row, hrow, hobserved⟩ := hobserves
  exact ⟨row, by rw [h.leases, hrow], by rw [hobserved, h.lastSequence]⟩

end Alike

/-! ## The calls under a lease -/

/-- Both calls fail, or both succeed, stay in step and leave the row of the run at its last
record. -/
def LeaseResults [LedgerPayload V] {α β : Type} (runId : RunId)
    (result : IoResult (LedgerState V × α)) (result' : IoResult (LedgerState V × β)) : Prop :=
  (∃ e e', result = .error e ∧ result' = .error e') ∨
    ∃ left right a b, result = .ok (left, a) ∧ result' = .ok (right, b) ∧
      LeasedInStep left right ∧ right.Observes runId

section Calls

variable [LedgerPayload V] {left right : LedgerState V}
  {lease : WorkflowMutationLease} {now : ℤ}

section

variable (h : LeasedInStep left right)
include h

lemma acquire_results
    (hepoch : existingEpoch (right.workflowMutationLeases runId) + 1 ≤ i64Max.toNat)
    (ownerId : String) (now : ℤ) :
    LeaseResults runId (acquireWorkflowMutationLease .inMemory left runId ownerId now)
      (acquireWorkflowMutationLease .sqlite right runId ownerId now) := by
  have hlast : left.lastSequence runId ≤ i64Max.toNat := by
    rw [h.lastSequence]
    exact (right.lastSequence_le h.ordered runId).trans h.counterFits
  have hcommitted : ((right.workflowMutationLeases runId).map (·.committedSequence)).getD 0 ≤
      right.nextSequence := by
    cases hrow : right.workflowMutationLeases runId with
    | none => exact Nat.zero_le _
    | some row => exact (h.rowsFit runId row hrow).2
  simp only [acquireWorkflowMutationLease, acquireWorkflowMutationLeaseInMemory,
    acquireWorkflowMutationLeaseSqlite, h.leases, runSequence_eq_lastSequence h.ordered,
    ← h.lastSequence]
  cases requireOwner ownerId with
  | error e => exact .inl ⟨_, _, rfl, rfl⟩
  | ok _ =>
    cases requireAcquirable (right.workflowMutationLeases runId) runId ownerId now with
    | error e => exact .inl ⟨_, _, rfl, rfl⟩
    | ok _ =>
      simp only [u64CheckedAdd_of_le hepoch, orElseThrow, u64ToSqlite_ok hepoch,
        u64ToSqlite_ok hlast, u64ToSqlite_ok (hcommitted.trans h.counterFits), bind, Except.bind,
        pure, Except.pure, LedgerState.grantLease, h.leases]
      exact .inr ⟨_, _, _, _, rfl, rfl, h.setLease runId hepoch hcommitted,
        _, setLease_leases_self .., h.lastSequence runId⟩

/-- A token is refused by both ledgers, or both go on with the row it holds. -/
lemma LeasedInStep.held {α β : Type} (lease : WorkflowMutationLease) (now : ℤ)
    {f : WorkflowMutationLeaseRow → IoResult (LedgerState V × α)}
    {g : WorkflowMutationLeaseRow → IoResult (LedgerState V × β)}
    (hheld : ∀ row, right.workflowMutationLeases lease.runId = some row →
      row.ownerId = some lease.ownerId → row.epoch = lease.epoch →
      LeaseResults lease.runId (f row) (g row)) :
    LeaseResults lease.runId
      (do let current ← left.leaseRow lease
          requireCurrent current lease now
          f current)
      (do let current ← requireSqliteCurrent right lease now
          g current) := by
  simp only [requireSqliteCurrent, LedgerState.leaseRow, h.leases]
  cases hrow : right.workflowMutationLeases lease.runId with
  | none => exact .inl ⟨_, _, rfl, rfl⟩
  | some row =>
    simp only [orElseThrow, bind, Except.bind]
    cases hcurrent : requireCurrent row lease now with
    | error e => exact .inl ⟨_, _, rfl, rfl⟩
    | ok _ =>
      obtain ⟨howner, hepoch, -⟩ := requireCurrent_eq_ok hcurrent
      exact hheld row hrow howner hepoch

/-- Both ledgers set the row of the run to the same, at the last record of the run. -/
lemma LeasedInStep.advanced {α β : Type} {row : WorkflowMutationLeaseRow}
    (hepoch : row.epoch ≤ i64Max.toNat) (hcommitted : row.committedSequence ≤ right.nextSequence)
    (hobserved : row.observedSequence = right.lastSequence runId) (a : α) (b : β) :
    LeaseResults runId (.ok (left.setLease runId row, a)) (.ok (right.setLease runId row, b)) :=
  .inr ⟨_, _, a, b, rfl, rfl, h.setLease runId hepoch hcommitted, row, setLease_leases_self ..,
    hobserved.trans setLease_lastSequence.symm⟩

lemma append_results (hroom : right.nextSequence + 1 ≤ i64Max.toNat)
    (durability : DurabilityClass) (recordType : String) (payload : V) :
    LeaseResults lease.runId
      (appendUnderWorkflowLease .inMemory left lease now durability recordType payload)
      (appendUnderWorkflowLease .sqlite right lease now durability recordType payload) := by
  simp only [appendUnderWorkflowLease, appendUnderWorkflowLeaseInMemory,
    appendUnderWorkflowLeaseSqlite]
  cases requireDurableWorkflowRecord durability with
  | error e => exact .inl ⟨_, _, rfl, rfl⟩
  | ok _ =>
    refine h.held lease now fun row hrow howner hepoch => ?_
    have hnext : nextSequenceInMemory left.nextSequence = .ok (right.nextSequence + 1) := by
      rw [nextSequenceInMemory, h.counter, u64CheckedAdd_of_le hroom]
      rfl
    obtain ⟨hinserted, -⟩ := h.insertRecord (right.nextSequence + 1) lease.runId now now
      durability recordType payload
    have hwritten : LeasedInStep
        (left.insertRecord (right.nextSequence + 1) lease.runId now durability recordType payload).1
        (right.insertRecord (right.nextSequence + 1) lease.runId now durability recordType
          payload).1 :=
      h.written ⟨hinserted, (appended_insertRecord right lease.runId now durability recordType
        payload rfl).ordered h.ordered, h.bound.append rfl rfl⟩ rfl rfl (Nat.le_succ _) hroom
    obtain ⟨hfits, hcommitted⟩ := h.rowsFit lease.runId row hrow
    have hadvance := advanceSqliteObservedSequence_ok
      (right.insertRecord (right.nextSequence + 1) lease.runId now durability recordType
        payload).1 hrow howner hepoch hfits hroom
    simp only [hnext, allocateSqliteSequence_eq, if_pos hroom, hadvance, bind, Except.bind, pure,
      Except.pure]
    refine hwritten.advanced ?_ ?_ ?_ _ _
    · exact hfits
    · exact hcommitted.trans (Nat.le_succ _)
    · simp [LedgerState.lastSequence, LedgerState.recordsForRun, LedgerState.insertRecord]

lemma compareAndAppend_leaseResults [DecidableEq V] {durability : DurabilityClass}
    {recordType : String} {fields : List String} {payload : V}
    (hdurable : durability ≠ .ephemeral)
    (hfind : ∀ identity, canonicalIdentity payload fields = .ok identity →
      right.Findable lease.runId recordType fields identity payload) (clock : ℤ) :
    LeaseResults lease.runId
      (compareAndAppendUnderWorkflowLease .inMemory left lease now durability recordType fields
        payload clock)
      (compareAndAppendUnderWorkflowLease .sqlite right lease now durability recordType fields
        payload clock) := by
  have hok : requireDurableWorkflowRecord durability = .ok () := by
    simp [requireDurableWorkflowRecord, require, hdurable]
  simp only [compareAndAppendUnderWorkflowLease, compareAndAppendUnderWorkflowLeaseInMemory,
    compareAndAppendUnderWorkflowLeaseSqlite, hok]
  refine h.held lease now fun row hrow howner hepoch => ?_
  rcases compareAndAppend_results h.toInStep hdurable hfind clock with
    ⟨e, hl, hr⟩ | ⟨left', right', record, record', hl, hr, -, hstep⟩
  · rw [hl, hr]
    exact .inl ⟨e, e, rfl, rfl⟩
  · obtain ⟨-, _, happ, -⟩ := compareAndAppendInMemoryLocked_appended hl
    obtain ⟨-, ⟨_, happ', -⟩, hfit⟩ := compareAndAppendSqliteTransaction_appended hr
    have hfits' := hfit h.counterFits
    have hwritten := h.written hstep happ.leases happ'.leases happ'.counter hfits'
    obtain ⟨hfits, hcommitted⟩ := h.rowsFit lease.runId row hrow
    have hadvance := advanceSqliteObservedSequence_ok right' (happ'.leases ▸ hrow) howner hepoch
      hfits ((right'.lastSequence_le hstep.ordered lease.runId).trans hfits')
    simp only [hl, hr, hadvance, hstep.lastSequence,
      runSequence_eq_lastSequence hstep.ordered, bind, Except.bind, pure, Except.pure]
    refine hwritten.advanced ?_ ?_ rfl _ _
    exacts [hfits, hcommitted.trans happ'.counter]

lemma commitRestore_results (expected : ℕ) :
    LeaseResults lease.runId (commitWorkflowRestore .inMemory left lease expected now)
      (commitWorkflowRestore .sqlite right lease expected now) := by
  simp only [commitWorkflowRestore, commitWorkflowRestoreInMemory, commitWorkflowRestoreSqlite,
    runSequence_eq_lastSequence h.ordered]
  refine h.held lease now fun row hrow howner hepoch => ?_
  obtain ⟨hfits, hcommitted⟩ := h.rowsFit lease.runId row hrow
  have hlast := right.lastSequence_le h.ordered lease.runId
  have hobserved := hlast.trans h.counterFits
  simp only [hrow, h.lastSequence, bind, Except.bind, u64ToSqlite_ok hobserved,
    Option.map_some, Option.getD_some, pure, Except.pure]
  by_cases hsame : right.lastSequence lease.runId = expected
  · subst hsame
    simp only [if_true, u64ToSqlite_ok hobserved, updateSqliteLease_ok _ hrow howner hepoch hfits,
      ne_eq, not_true_eq_false, if_false]
    refine h.advanced ?_ ?_ rfl _ _
    exacts [hfits, hlast]
  · simp only [hsame, if_false, u64ToSqlite_ok (hcommitted.trans h.counterFits),
      updateSqliteLease_ok _ hrow howner hepoch hfits, ne_eq, not_false_eq_true, if_true]
    refine h.advanced ?_ ?_ rfl _ _
    exacts [hfits, hcommitted]

end

/-- Both ledgers accept or refuse; they stay in step, and after a success the row of the run is at
its last record. -/
structure LeaseSteps {α β : Type} (runId : RunId) (x : LedgerState V × IoResult α)
    (y : LedgerState V × IoResult β) : Prop where
  inStep : LeasedInStep x.1 y.1
  accepted : x.2.isOk = y.2.isOk
  observes : y.2.isOk = true → y.1.Observes runId

lemma LeaseResults.steps (h : LeasedInStep left right) {α β : Type}
    {result : IoResult (LedgerState V × α)} {result' : IoResult (LedgerState V × β)}
    (hresults : LeaseResults runId result result') :
    LeaseSteps runId (committed left result) (committed right result') := by
  rcases hresults with ⟨e, e', rfl, rfl⟩ | ⟨left', right', a, b, rfl, rfl, hstep, hobserves⟩
  · exact ⟨h, rfl, fun habsurd => by cases habsurd⟩
  · exact ⟨hstep, rfl, fun _ => hobserves⟩

/-- An admission under a lease, by a token that has seen the last record of the run if there is
nothing to write. -/
lemma admission_steps (h : LeasedInStep left right) {batch : TaskAdmission V}
    (hrun : batch.runId = lease.runId) (hsettled : batch.Settled right)
    (hidle : admissionPending .sqlite right batch = .ok [] →
      lease.observedSequence = right.lastSequence lease.runId) (clock : ℤ) :
    LeaseSteps lease.runId
      (admitTasksAndAppend .inMemory left batch (some (lease, now)) clock)
      (admitTasksAndAppend .sqlite right batch (some (lease, now)) clock) := by
  have hagree := admissionPending_agree h.toAlike hsettled
  have hvalidate : validateWorkflowMutationLease left (some (lease, now)) =
      validateWorkflowMutationLease right (some (lease, now)) := by
    simp only [validateWorkflowMutationLease, LedgerState.leaseRow, h.leases]
  simp only [admitTasksAndAppend, admitTasksAndAppendInMemoryInner,
    admitTasksAndAppendSqliteInner, checkAdmissionInMemory, hagree, hrun, hvalidate]
  cases hvalid : validateWorkflowMutationLease right (some (lease, now)) with
  | error e => exact ⟨h, rfl, fun habsurd => by cases habsurd⟩
  | ok _ =>
    cases hpending : admissionPending .sqlite right batch with
    | error e => exact ⟨h, rfl, fun habsurd => by cases habsurd⟩
    | ok pending =>
      simp only [validateWorkflowMutationLease, LedgerState.leaseRow, bind_eq_ok,
        orElseThrow_eq_ok] at hvalid
      obtain ⟨row, hrow, hcurrent⟩ := hvalid
      obtain ⟨howner, hepoch, -⟩ := requireCurrent_eq_ok hcurrent
      obtain ⟨hfits, hcommitted⟩ := h.rowsFit lease.runId row hrow
      have hroom := length_pending_le hsettled hpending
      have hroom' : u64CheckedAdd left.nextSequence pending.length =
          some (left.nextSequence + pending.length) := u64CheckedAdd_of_le (h.counter ▸ hroom)
      have hidle : pending = [] → lease.observedSequence = right.lastSequence lease.runId := by
        rintro rfl
        exact hidle hpending
      have hidle' : pending = [] → lease.observedSequence = left.lastSequence lease.runId := by
        rw [h.lastSequence]
        exact hidle
      obtain ⟨happ, -⟩ := pushPending_appended lease.runId clock pending right
      obtain ⟨hpushed, -⟩ := h.pushPending lease.runId now clock pending
      have hcounter := pushPending_counter lease.runId clock pending right
      have hwritten : LeasedInStep (pushPending lease.runId now left pending).1
          (pushPending lease.runId clock right pending).1 :=
        h.written ⟨hpushed, happ.ordered h.ordered,
          h.bound.append happ.records (pushPending_rest ..).2⟩
          (pushPending_rest ..).1 (pushPending_rest ..).1 happ.counter (hcounter ▸ hroom)
      have hrowLeft : (pushPending lease.runId now left pending).1.workflowMutationLeases
          lease.runId = some row := by rw [(pushPending_rest ..).1, h.leases, hrow]
      have hrowRight : (pushPending lease.runId clock right pending).1.workflowMutationLeases
          lease.runId = some row := by rw [(pushPending_rest ..).1, hrow]
      have hadvance := advanceWorkflowMutationLeaseSqlite_ok _ hrowRight howner hepoch hfits
        ((LedgerState.lastSequence_le _ hwritten.ordered lease.runId).trans hwritten.counterFits)
          now
      simp only [bind, Except.bind, pure, Except.pure, hroom', orElseThrow,
        appendPending_eq allocateSqliteSequence_eq, if_pos (Or.inr hroom), Option.map_some,
        Option.getD_some, (observed_pushPending now hidle').2, (observed_pushPending clock hidle).1,
        advanceWorkflowMutationLeaseInMemory, hrowLeft, hadvance, committed]
      rw [hpushed.lastSequence]
      exact ⟨hwritten.setLease lease.runId hfits (hcommitted.trans happ.counter), rfl,
        fun _ => ⟨_, setLease_leases_self .., rfl⟩⟩

/-- Tagging the answers changes nothing. -/
lemma LeaseSteps.tagged {α : Type} {tag : α → LeaseAnswer V} {x y : LedgerState V × IoResult α}
    (h : LeaseSteps runId x y) :
    LeaseSteps runId (answered tag x) (answered tag y) := by
  have hok : ∀ result : IoResult α, (result.map tag).isOk = result.isOk := by
    rintro (e | a) <;> rfl
  exact ⟨h.inStep, (hok _).trans (h.accepted.trans (hok _).symm),
    fun haccepted => h.observes ((hok _).symm.trans haccepted)⟩

lemma LeaseResults.answering {α : Type} {tag : α → LeaseAnswer V}
    {result result' : IoResult (LedgerState V × α)} (h : LeaseResults runId result result') :
    LeaseResults runId (answering tag result) (answering tag result') := by
  rcases h with ⟨e, e', rfl, rfl⟩ | ⟨left', right', a, b, rfl, rfl, hstep, hobserves⟩
  · exact .inl ⟨e, e', rfl, rfl⟩
  · exact .inr ⟨left', right', tag a, tag b, rfl, rfl, hstep, hobserves⟩

end Calls

/-! ## Histories of leased calls -/

/-- The run whose lease a call takes or uses. -/
def LedgerCall.leasedRun : LedgerCall V → Option RunId
  | .leased (.acquire runId _ _) => some runId
  | .leased (.append lease _ _ _ _) | .leased (.compareAndAppend lease _ _ _ _ _ _)
  | .leased (.commitRestore lease _ _) | .leased (.admission lease _ _ _ _ _ _ _) =>
    some lease.runId
  | _ => none

/-- An acquisition or a fenced call that finds what it needs, with room in SQLite. An admission
with nothing to write has a token that has seen the last record of the run. -/
inductive LedgerCall.Steady [DecidableEq V] [LedgerPayload V] (state : LedgerState V) :
    LedgerCall V → Prop
  | acquire {runId ownerId now}
      (hepoch : existingEpoch (state.workflowMutationLeases runId) + 1 ≤ i64Max.toNat) :
      Steady state (.leased (.acquire runId ownerId now))
  | append {lease now durability recordType payload}
      (hroom : state.nextSequence + 1 ≤ i64Max.toNat) :
      Steady state (.leased (.append lease now durability recordType payload))
  | compareAndAppend {lease now durability recordType fields payload clock}
      (hdurable : durability ≠ .ephemeral)
      (hfind : ∀ identity, canonicalIdentity payload fields = .ok identity →
        state.Findable lease.runId recordType fields identity payload) :
      Steady state
        (.leased (.compareAndAppend lease now durability recordType fields payload clock))
  | commitRestore {lease expected now} : Steady state (.leased (.commitRestore lease expected now))
  | admission {lease now root maxTasks tasks additional clock visit}
      (hsettled : (⟨root, lease.runId, maxTasks, tasks, additional, visit⟩ :
        TaskAdmission V).Settled state)
      (hidle : admissionPending .sqlite state
          ⟨root, lease.runId, maxTasks, tasks, additional, visit⟩ = .ok [] →
        lease.observedSequence = state.lastSequence lease.runId) :
      Steady state
        (.leased (.admission lease now root maxTasks tasks additional clock visit))

section Histories

variable [DecidableEq V] [LedgerPayload V] {left right : LedgerState V}

lemma steady_steps (h : LeasedInStep left right) {call : LedgerCall V}
    (hsteady : call.Steady right) :
    ∃ runId, call.leasedRun = some runId ∧
      LeaseSteps runId (execute .inMemory left call)
        (execute .sqlite right call) := by
  cases hsteady with
  | acquire hepoch => exact ⟨_, rfl, (acquire_results h hepoch _ _).answering.steps h⟩
  | append hroom => exact ⟨_, rfl, (append_results h hroom _ _ _).answering.steps h⟩
  | compareAndAppend hdurable hfind =>
    exact ⟨_, rfl, (compareAndAppend_leaseResults h hdurable hfind _).answering.steps h⟩
  | commitRestore => exact ⟨_, rfl, (commitRestore_results h _).answering.steps h⟩
  | admission hsettled hidle => exact ⟨_, rfl, (admission_steps h rfl hsettled hidle _).tagged⟩

/-- Along every history of steady calls from empty ledgers, both backends accept and refuse the
same, their lease rows are equal, and after every success the row of the run is at its last
record. -/
theorem steady_leases_observe (calls : List (LedgerCall V))
    (hsteady : ∀ y ∈ (ledgerMachine V .sqlite).trace (.empty V) calls,
      y.event.Steady y.before) :
    List.Forall₂ (fun x y =>
        x.answer.isOk = y.answer.isOk ∧
        x.after.workflowMutationLeases = y.after.workflowMutationLeases ∧
        ∀ runId, y.event.leasedRun = some runId → y.answer.isOk = true →
          x.after.Observes runId ∧ y.after.Observes runId)
      ((ledgerMachine V .inMemory).trace (.empty V) calls)
      ((ledgerMachine V .sqlite).trace (.empty V) calls) := by
  have hstart : LeasedInStep (LedgerState.empty V) (.empty V) :=
    { records := rfl, counter := rfl, ordered := .empty,
      bound := List.forall_mem_nil _, leases := rfl,
      counterFits := Nat.zero_le _, rowsFit := fun _ _ hrow => nomatch hrow }
  refine Machine.trace_forall₂ (R := LeasedInStep) (C := fun state call => call.Steady state) ?_
    hstart hsteady
  intro left right call hstep hcall
  obtain ⟨runId, hrun, hsteps⟩ := steady_steps hstep hcall
  refine ⟨hsteps.inStep, hsteps.accepted, hsteps.inStep.leases, fun runId' hrun' haccepted => ?_⟩
  rw [show call.leasedRun = some runId' from hrun'] at hrun
  cases hrun
  have hobserves := hsteps.observes haccepted
  exact ⟨hsteps.inStep.observes hobserves, hobserves⟩

end Histories

/-! ## A token that has not seen the last record -/

/-- The token of the first acquisition. -/
def firstToken : WorkflowMutationLease := ⟨"r", "o", 1, 90000, 0⟩

def idleAdmission : LedgerCall Json :=
  .leased (.admission firstToken 2 "r" 0 [] [] 2 fun _ => 0)

/-- The holder appends a record, then admits nothing with the token it was given at first. -/
def staleToken : List (LedgerCall Json) :=
  [.leased (.acquire "r" "o" 0), .leased (.append firstToken 1 .syncCritical "event" .null),
    idleAdmission]

/-- The row of the run, as far as it has observed, beside the last sequence of the run. -/
def observedAndLast (state : LedgerState Json) : Option ℕ × ℕ :=
  ((state.workflowMutationLeases "r").map (·.observedSequence), state.lastSequence "r")

theorem stale_token_moves_row_back :
    ((ledgerMachine Json .sqlite).trace (.empty Json) staleToken).map
        (fun x => (x.answer.isOk, observedAndLast x.after)) =
      [(true, some 0, 0), (true, some 1, 1), (true, some 0, 1)] ∧
    ((ledgerMachine Json .inMemory).trace (.empty Json) staleToken).map
        (fun x => (x.answer.isOk, observedAndLast x.after)) =
      [(true, some 0, 0), (true, some 1, 1), (true, some 1, 1)] := by
  decide +kernel

/-- An event is appended under the first token, and found if it was before. -/
def bindLeased : LedgerCall Json :=
  .leased (.compareAndAppend firstToken 1 .syncCritical "event" ["id"] sampleEvent 1)

/-- The holder acquires the lease, appends a record, an event twice and a task, and admits nothing
with a token that has seen them. -/
def freshToken : List (LedgerCall Json) :=
  [.leased (.acquire "r" "o" 0), .leased (.append firstToken 1 .syncCritical "note" .null),
    bindLeased, bindLeased,
    .leased (.admission firstToken 2 "r" 1 [plainTask "t" none] [] 2 fun _ => 0),
    .leased (.admission { firstToken with observedSequence := 3 } 3 "r" 1 [plainTask "t" none] [] 3
      fun _ => 0)]

theorem fresh_token_observes :
    ((ledgerMachine Json .sqlite).trace (.empty Json) freshToken).map
        (fun x => (x.answer.isOk, observedAndLast x.after)) =
      [(true, some 0, 0), (true, some 1, 1), (true, some 2, 2), (true, some 2, 2),
        (true, some 3, 3), (true, some 3, 3)] ∧
      List.Forall₂ (fun x y => x.after.workflowMutationLeases = y.after.workflowMutationLeases)
        ((ledgerMachine Json .inMemory).trace (.empty Json) freshToken)
        ((ledgerMachine Json .sqlite).trace (.empty Json) freshToken) := by
  have hsteady : ∀ y ∈ (ledgerMachine Json .sqlite).trace (.empty Json) freshToken,
      y.event.Steady y.before := by
    intro y hy
    simp only [freshToken, Machine.trace_cons, Machine.trace_nil, List.mem_cons, List.not_mem_nil,
      or_false] at hy
    rcases hy with rfl | rfl | rfl | rfl | rfl | rfl
    · exact .acquire (by decide)
    · exact .append (by decide +kernel)
    · exact .compareAndAppend (by decide) fun _ => findable_sampleEvent (by decide +kernel)
    · exact .compareAndAppend (by decide) fun _ => findable_sampleEvent (by decide +kernel)
    · exact .admission (by decide +kernel) (by decide +kernel)
    · exact .admission (by decide +kernel) (by decide +kernel)
  exact ⟨by decide +kernel, (steady_leases_observe freshToken hsteady).imp fun _ _ h => h.2.1⟩

end SolarisMesh.Ledger
