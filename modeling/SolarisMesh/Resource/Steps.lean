import SolarisMesh.Resource.Replay

/-!
# Operations as steps of a journal

What every operation does to the parts of the state that the records carry, and what it
writes. Each operation that succeeds is one step of the journal of its run, and keeps from
the log the identifiers that it applies at a change written as a checkpoint.
-/

namespace SolarisMesh.Resource

open Finset Lib ResourceStateDelta

variable {F R : Type} {f : F64 F} {now : ℤ}

/-! ## Rates are functions of the counters -/

structure ResourceUsage.RatesFresh (f : F64 F) (usage : ResourceUsage F) : Prop where
  useful : usage.usefulCallRate = callRate f usage.usefulToolCalls usage.toolCalls
  duplicate : usage.duplicateCallRate = callRate f usage.duplicateToolCalls usage.toolCalls

lemma ResourceUsage.RatesFresh.recovered_eq {usage : ResourceUsage F}
    (h : usage.RatesFresh f) :
    usage.recovered f = { usage with activeAgents := 0, concurrentEffects := 0 } := by
  simp only [ResourceUsage.recovered, refreshCallRates, refreshUsefulCallRate,
    refreshDuplicateCallRate, ← h.useful, ← h.duplicate]

lemma subset_observeCalls (seen : Finset String) (calls : List ToolCallStat) :
    seen ⊆ (observeCalls seen calls).1 := by
  induction calls generalizing seen with
  | nil => exact Finset.Subset.refl _
  | cons call calls ih =>
    have hrest : seen ⊆ (observeCalls (insert call.fingerprint seen) calls).1 :=
      (subset_insert _ _).trans (ih _)
    unfold observeCalls
    split
    · exact hrest
    · exact hrest

/-! ## What the operations do to the state -/

/-- The identifiers that an operation would apply in a state. -/
def Operation.newEffects (operation : Operation F) (state : ResourceState F) : Finset String :=
  match operation.effectId with
  | some effectId => {effectId} \ state.appliedUsageEffects
  | none => ∅

/-- The sets of the state only grow, by `added` where identifiers are concerned, and a change
that does not ask to be persisted is one that a restart does not see. -/
structure Change.Grows (f : F64 F) (before : ResourceState F) (change : Change F R)
    (added : Finset String) : Prop where
  applied : change.state.appliedUsageEffects = before.appliedUsageEffects ∪ added
  fresh : Disjoint added before.appliedUsageEffects
  seen : before.usage.seenToolCallFingerprints ⊆ change.state.usage.seenToolCallFingerprints
  rates : before.usage.RatesFresh f → change.state.usage.RatesFresh f
  unwritten : change.changed = false →
    added = ∅ ∧ ∀ now, change.state.durable f now = before.durable f now

namespace Change.Grows

variable {before : ResourceState F} {change : Change F R} {added : Finset String}

lemma succeeds (h : change.Grows f before added) (ok : R → Bool) :
    (change.succeeds ok).Grows f before added :=
  ⟨h.applied, h.fresh, h.seen, h.rates, h.unwritten⟩

section

variable (hseen : before.usage.seenToolCallFingerprints ⊆
  change.state.usage.seenToolCallFingerprints)
  (hrates : before.usage.RatesFresh f → change.state.usage.RatesFresh f)

include hseen hrates

/-- A transient change. -/
lemma of_durable (happlied : change.state.appliedUsageEffects = before.appliedUsageEffects)
    (hdurable : ∀ now, change.state.durable f now = before.durable f now) :
    change.Grows f before ∅ where
  applied := by rw [happlied, union_empty]
  fresh := disjoint_empty_left _
  seen := hseen
  rates := hrates
  unwritten _ := ⟨rfl, hdurable⟩

variable (hchanged : change.changed = true)

include hchanged

/-- A persisted change that leaves the applied identifiers alone. -/
lemma of_changed (happlied : change.state.appliedUsageEffects = before.appliedUsageEffects) :
    change.Grows f before ∅ where
  applied := by rw [happlied, union_empty]
  fresh := disjoint_empty_left _
  seen := hseen
  rates := hrates
  unwritten h := absurd h (ne_false_of_eq_true hchanged)

/-- A change under an identifier that is not applied yet. -/
lemma of_insert {effectId : String}
    (happlied : change.state.appliedUsageEffects = insert effectId before.appliedUsageEffects) :
    change.Grows f before ({effectId} \ before.appliedUsageEffects) where
  applied := by
    rw [happlied, union_sdiff_self_eq_union, union_comm, insert_eq]
  fresh := sdiff_disjoint
  seen := hseen
  rates := hrates
  unwritten h := absurd h (ne_false_of_eq_true hchanged)

end

variable {manager : Manager F}

lemma refuse (result : R) : (manager.refuse result).Grows f manager.state ∅ :=
  of_durable (Finset.Subset.refl _) id rfl fun _ => rfl

end Change.Grows

/-! ## What an admission checks -/

section Operations

variable {manager : Manager F} {depth : ℕ}

/-- No deeper than the budget allows. -/
def ResourceBudget.AllowsDepth (budget : ResourceBudget F) (depth : ℕ) : Prop :=
  ∀ limit ∈ budget.maxSpawnDepth, depth ≤ limit

/-- So many descendants are within the budget. -/
def ResourceBudget.AllowsDescendants (budget : ResourceBudget F) (total : ℕ) : Prop :=
  ∀ limit ∈ budget.maxTotalDescendantsPerRun, total ≤ limit

lemma Manager.spawnDepthBlockReason_eq_none (h : manager.spawnDepthBlockReason depth = none) :
    manager.state.budget.AllowsDepth depth := by
  intro limit hlimit
  rw [spawnDepthBlockReason, Option.map_eq_none_iff, Option.mem_def.1 hlimit] at h
  simpa [Option.filter] using h

@[elab_as_elim]
lemma Manager.tryAcquireAgent_ind {motive : Change F Bool → Prop}
    (refused : motive (manager.refuse false))
    (admitted : manager.state.usage.activeAgents < manager.effectiveAgentLimit →
      manager.state.budget.AllowsDepth depth →
      manager.state.budget.AllowsDescendants (manager.state.usage.totalDescendants + 1) →
      motive ⟨true, true, { manager.state with
        usage := { manager.state.usage with
          activeAgents := manager.state.usage.activeAgents + 1
          totalDescendants := manager.state.usage.totalDescendants + 1 } }⟩) :
    motive (manager.tryAcquireAgent f now depth) := by
  unfold tryAcquireAgent
  dsimp only
  split
  · exact refused
  · next hblocked =>
    split
    · exact refused
    · next hfull =>
      cases hadd : u64CheckedAdd manager.state.usage.totalDescendants 1 with
      | none => exact refused
      | some total =>
        have htotal : total = manager.state.usage.totalDescendants + 1 := by
          unfold u64CheckedAdd at hadd
          split at hadd
          · exact (Option.some.inj hadd).symm
          · cases hadd
        subst htotal
        rw [Option.not_isSome_iff_eq_none, hardAgentBlockReason, Option.orElse_eq_none,
          Option.orElse_eq_none] at hblocked
        refine admitted (not_le.1 hfull) (spawnDepthBlockReason_eq_none hblocked.1) fun limit
          hlimit => ?_
        have hnone := hblocked.2.1
        rw [descendantBlockReason, Option.mem_def.1 hlimit] at hnone
        by_contra hlt
        have hle : limit ≤ manager.state.usage.totalDescendants := by omega
        simp [Option.filter, hle] at hnone

@[elab_as_elim]
lemma Manager.tryAcquireReattachedAgent_ind {motive : Change F Bool → Prop}
    (refused : motive (manager.refuse false))
    (admitted : manager.state.usage.activeAgents < manager.effectiveAgentLimit →
      manager.state.budget.AllowsDepth depth →
      motive ⟨true, false, { manager.state with
        usage := { manager.state.usage with
          activeAgents := manager.state.usage.activeAgents + 1 } }⟩) :
    motive (manager.tryAcquireReattachedAgent f now depth) := by
  unfold tryAcquireReattachedAgent
  dsimp only
  split
  · exact refused
  · next hblocked =>
    split
    · exact refused
    · next hfull =>
      rw [Option.not_isSome_iff_eq_none, hardReattachedAgentBlockReason,
        Option.orElse_eq_none] at hblocked
      exact admitted (not_le.1 hfull) (spawnDepthBlockReason_eq_none hblocked.1)

/-- One effect is always allowed. -/
def ResourceBudget.AllowsEffects (budget : ResourceBudget F) (running : ℕ) : Prop :=
  ∀ limit ∈ budget.maxConcurrentEffects, running < max limit 1

@[elab_as_elim]
lemma Manager.tryAcquireEffect_ind {motive : Change F Bool → Prop}
    (refused : motive (manager.refuse false))
    (admitted : manager.state.budget.AllowsEffects manager.state.usage.concurrentEffects →
      motive ⟨true, false, { manager.state with
        usage := { manager.state.usage with
          concurrentEffects := manager.state.usage.concurrentEffects + 1 } }⟩) :
    motive (manager.tryAcquireEffect f now) := by
  unfold tryAcquireEffect
  dsimp only
  split
  · exact refused
  · split
    · exact refused
    · next hfull =>
      refine admitted fun limit hlimit => ?_
      by_contra hle
      refine hfull ?_
      rw [Option.mem_def.1 hlimit, Option.any_some]
      exact decide_eq_true (not_lt.1 hle)

/-- The operations on the rate window. -/
def Operation.isRate : Operation F → Bool
  | acquireProviderRequest _ | markProviderRequestStarted _ _ | rollbackProviderRequestStart _ _
  | commitProviderTokens _ _ _ | releaseProviderTokens _ _ | releaseProviderReservation _ _ => true
  | _ => false

/-- A change of the rate window at most, which is persisted if the operation succeeds. -/
inductive Change.OnWindow (manager : Manager F) : Change F Bool → Prop
  | kept (result : Bool) : OnWindow manager (manager.refuse result)
  | written (result : Bool) (window : ProviderRateWindow) :
      OnWindow manager (manager.putWindow result true window)
  | failed (changed : Bool) (window : ProviderRateWindow) :
      OnWindow manager (manager.putWindow false changed window)

lemma Change.OnWindow.usage {change : Change F Bool} (h : change.OnWindow manager) :
    change.state.usage = manager.state.usage := by
  cases h <;> rfl

lemma Change.OnWindow.grows {change : Change F Bool} (h : change.OnWindow manager)
    (hok : change.result = true) : change.Grows f manager.state ∅ := by
  cases h with
  | kept result => exact .refuse result
  | written => exact .of_changed (Finset.Subset.refl _) id rfl rfl
  | failed => cases hok

lemma Change.OnWindow.inWindow (start : ℤ) (settle : ProviderRateWindow → ProviderRateWindow) :
    ((manager.inWindow start settle).succeeds fun _ => true).OnWindow manager := by
  unfold Manager.inWindow
  dsimp only
  split
  · exact .kept _
  · exact .written _ _

lemma Operation.onWindow {operation : Operation F} (h : operation.isRate = true) :
    (operation.update f manager now).OnWindow manager := by
  cases operation with
  | acquireProviderRequest =>
    unfold update Manager.acquireProviderRequest
    dsimp only
    split
    · exact .failed _ _
    · split
      · exact .failed _ _
      · exact .written _ _
  | markProviderRequestStarted =>
    unfold update Manager.markProviderRequestStarted
    dsimp only
    split
    · split
      · exact .written _ _
      · split <;> exact .written _ _
    · split
      -- the one branch that can leave a window unpersisted fails
      · exact .failed _ _
      · exact .written _ _
  | rollbackProviderRequestStart =>
    unfold update Manager.rollbackProviderRequestStart
    dsimp only
    split
    · exact .kept _
    · split
      · exact .kept _
      · exact .written _ _
  | commitProviderTokens | releaseProviderTokens | releaseProviderReservation =>
    exact .inWindow _ _
  | _ => cases h

lemma sdiff_of_applied {effectId : String} {applied : Finset String} (h : effectId ∈ applied) :
    ({effectId} : Finset String) \ applied = ∅ := by
  rw [sdiff_eq_empty_iff_subset, singleton_subset_iff]
  exact h

/-- Every operation that succeeds, at once. -/
lemma Operation.grows (operation : Operation F)
    (h : (operation.update f manager now).result = true) :
    (operation.update f manager now).Grows f manager.state
      (operation.newEffects manager.state) := by
  cases operation with
  | setBudget budget | setProviderSignals signals =>
    exact .of_changed (Finset.Subset.refl _) id rfl rfl
  | tryAcquireAgent depth =>
    rw [update]
    refine Manager.tryAcquireAgent_ind ?_ fun _ _ _ => ?_
    · exact .refuse _
    · exact .of_changed (Finset.Subset.refl _) (fun h => ⟨h.useful, h.duplicate⟩) rfl rfl
  | tryAcquireReattachedAgent depth =>
    rw [update]
    refine Manager.tryAcquireReattachedAgent_ind ?_ fun _ _ => ?_
    · exact .refuse _
    · exact .of_durable (Finset.Subset.refl _) (fun h => ⟨h.useful, h.duplicate⟩) rfl fun _ => rfl
  | tryAcquireEffect =>
    rw [update]
    refine Manager.tryAcquireEffect_ind ?_ fun _ => ?_
    · exact .refuse _
    · exact .of_durable (Finset.Subset.refl _) (fun h => ⟨h.useful, h.duplicate⟩) rfl fun _ => rfl
  | releaseAgent | releaseEffect =>
    exact .of_durable (Finset.Subset.refl _) (fun h => ⟨h.useful, h.duplicate⟩) rfl fun _ => rfl
  | acquireProviderRequest | markProviderRequestStarted | rollbackProviderRequestStart
  | commitProviderTokens | releaseProviderTokens | releaseProviderReservation =>
    exact (onWindow rfl).grows h
  | recordModelUsage usage | recordTokensAndCost tokens cost =>
    exact .of_changed (Finset.Subset.refl _) (fun h => ⟨h.useful, h.duplicate⟩) rfl rfl
  | recordModelUsageOnce effectId usage countTurn =>
    refine Change.Grows.succeeds (?_ : Change.Grows f manager.state _ ({effectId} \ _)) fun _ =>
      true
    unfold Manager.recordModelUsageOnce
    split
    · rename_i happlied
      rw [sdiff_of_applied happlied]
      exact .refuse _
    · refine .of_insert ?_ ?_ rfl rfl
      exacts [Finset.Subset.refl _, fun h => ⟨h.useful, h.duplicate⟩]
  | recordToolCallsOnce roundCallId calls =>
    refine Change.Grows.succeeds
      (?_ : Change.Grows f manager.state _ ({Manager.toolRoundEffect roundCallId} \ _)) fun _ =>
        true
    unfold Manager.recordToolCallsOnce
    dsimp only
    split
    · rename_i happlied
      rw [sdiff_of_applied happlied]
      exact .refuse _
    · exact .of_insert (subset_observeCalls _ _) (fun _ => ⟨rfl, rfl⟩) rfl rfl

end Operations

/-! ## One operation is one step of the journal -/

section Sessions

variable [DecidableEq F] {session next : Session F} {request : Request F} {manager : Manager F}

lemma u64SaturatingAdd_lt_interval {n : ℕ} :
    u64SaturatingAdd n 1 < resourceSnapshotInterval ↔ n + 1 < resourceSnapshotInterval := by
  simp only [u64SaturatingAdd, u64Max, resourceSnapshotInterval]
  omega

/-- What a change that is made writes. -/
inductive Session.Writes (f : F64 F) (session : Session F) (change : Change F R) :
    Session F → Prop
  | nothing {next : Session F} (hstate : next.manager.state = change.state)
      (hcount : next.manager.resourceDeltasSinceSnapshot =
        session.manager.resourceDeltasSinceSnapshot)
      (hrecords : next.records = session.records)
      (hsame : change.changed = false ∨ change.state = session.manager.state) :
      Writes f session change next
  | delta {next : Session F} {delta : ResourceStateDelta F (ResourceBudget F)}
      (hstate : next.manager.state = change.state)
      (hcount : next.manager.resourceDeltasSinceSnapshot =
        u64SaturatingAdd session.manager.resourceDeltasSinceSnapshot 1)
      (hrecords : next.records = session.records ++ [.delta ((delta.reread f).mapBudget .write)])
      (hdelta : between session.manager.state change.state = some delta)
      (hlt : session.manager.resourceDeltasSinceSnapshot + 1 < resourceSnapshotInterval) :
      Writes f session change next
  | checkpoint {next : Session F} (hstate : next.manager.state = change.state)
      (hcount : next.manager.resourceDeltasSinceSnapshot = 0)
      (hrecords : next.records =
        session.records ++ [.checkpoint (checkpoint (change.state.reread f))])
      (hreason : between session.manager.state change.state = none ∨
        resourceSnapshotInterval ≤ session.manager.resourceDeltasSinceSnapshot + 1) :
      Writes f session change next

variable {fault : Option String} {change : Change F R}

omit [DecidableEq F] in
lemma Session.appendRecord_eq_ok {record : Record F}
    (h : session.appendRecord fault record = .ok next) :
    next = { session with records := session.records ++ [record] } := by
  cases fault with
  | none =>
    cases h
    rfl
  | some error => cases h

omit [DecidableEq F] in
lemma Session.persistSnapshot_eq_ok (h : session.persistSnapshot f fault = .ok next) :
    next.manager.state = session.manager.state ∧
      next.manager.resourceDeltasSinceSnapshot = 0 ∧
      next.records =
        session.records ++ [.checkpoint (checkpoint (session.manager.state.reread f))] := by
  simp only [persistSnapshot, bind_eq_ok, pure_eq_ok] at h
  obtain ⟨appended, happend, rfl⟩ := h
  rw [appendRecord_eq_ok happend]
  exact ⟨rfl, rfl, rfl⟩

lemma Session.persistStateChange_writes
    (h : session.persistStateChange f fault change.state = .ok next) :
    session.Writes f change next := by
  unfold persistStateChange at h
  dsimp only at h
  split at h
  · rename_i hsame
    cases h
    exact .nothing rfl rfl rfl (.inr hsame.symm)
  · split at h
    · rename_i delta hdelta
      split at h
      · rename_i hlt
        simp only [bind_eq_ok, pure_eq_ok] at h
        obtain ⟨appended, happend, rfl⟩ := h
        rw [appendRecord_eq_ok happend]
        exact .delta rfl rfl rfl hdelta (u64SaturatingAdd_lt_interval.mp hlt)
      · rename_i hge
        obtain ⟨hstate, hcount, hrecords⟩ := persistSnapshot_eq_ok h
        rw [u64SaturatingAdd_lt_interval, not_lt] at hge
        exact .checkpoint hstate hcount hrecords (.inr hge)
    · rename_i hnone
      obtain ⟨hstate, hcount, hrecords⟩ := persistSnapshot_eq_ok h
      exact .checkpoint hstate hcount hrecords (.inl hnone)

/-- A ledger that takes every record persists every change. -/
lemma Session.persistStateChange_none (f : F64 F) (session : Session F) (after : ResourceState F) :
    ∃ next, session.persistStateChange f none after = .ok next := by
  unfold persistStateChange
  dsimp only
  split
  · exact ⟨_, rfl⟩
  · split
    · split
      · exact ⟨_, rfl⟩
      · exact ⟨_, rfl⟩
    · exact ⟨_, rfl⟩

/-- A ledger that takes no record persists no change. -/
lemma Session.persistStateChange_fault {error : String} {after : ResourceState F}
    (h : session.manager.state ≠ after) :
    session.persistStateChange f (some error) after = .error error := by
  unfold persistStateChange
  dsimp only
  rw [if_neg h]
  split
  · split
    · rfl
    · rfl
  · rfl

/-- An update is made and answered, or the ledger refuses its record and it is taken back. -/
@[elab_as_elim]
lemma Session.withStateUpdate_ind {motive : Except String R × Session F → Prop}
    (made : ∀ next, session.Writes f change next → motive (.ok change.result, next))
    (refused : ∀ error next, fault ≠ none → next.manager.state = session.manager.state →
      next.records = session.records → motive (.error error, next)) :
    motive (session.withStateUpdate f fault change) := by
  unfold withStateUpdate
  split
  · cases hpersist : session.persistStateChange f fault change.state with
    | ok persisted => exact made _ (persistStateChange_writes hpersist)
    | error cause =>
      refine refused _ _ ?_ rfl rfl
      rintro rfl
      obtain ⟨next, hnext⟩ := session.persistStateChange_none f change.state
      rw [hpersist] at hnext
      cases hnext
  · next hchanged => exact made _ (.nothing rfl rfl rfl (.inl (Bool.eq_false_iff.2 hchanged)))

lemma Session.perform_writes (h : session.perform f request = some next) :
    (session.change f request).result = true ∧
      session.Writes f (session.change f request) next := by
  unfold perform at h
  revert h
  refine withStateUpdate_ind (fun after hwrites => ?_) fun _ _ _ _ _ h => ?_
  · cases hresult : (session.change f request).result with
    | true =>
      rintro ⟨⟩
      exact ⟨rfl, hwrites⟩
    | false => rintro ⟨⟩
  · cases h

/-- The identifiers that a request applies without a record of them: those of a change that
is written as a checkpoint. -/
def Session.unrecorded (session : Session F) (request : Request F) : Finset String :=
  if session.manager.resourceDeltasSinceSnapshot + 1 < resourceSnapshotInterval then ∅
  else request.operation.newEffects session.manager.state

omit [DecidableEq F] in
lemma Session.live_eq {state : ResourceState F} {count : ℕ} {ids : Finset String}
    {records : List (Record F)} (hstate : session.manager.state = state)
    (hcount : session.manager.resourceDeltasSinceSnapshot = count)
    (hids : state.appliedUsageEffects = ids) (hrecords : session.records = records) :
    session.live = ⟨(state, count), ids, records⟩ := by
  subst hstate hcount hids hrecords
  rfl

lemma Session.perform_step (h : session.perform f request = some next)
    (hreread : next.manager.state.Rereads f) (manager : Manager F) (now : ℤ) :
    Journal.Step (reader f manager now) session.live (session.unrecorded request) next.live := by
  obtain ⟨hresult, hwrites⟩ := perform_writes h
  have hgrows := request.operation.grows hresult
  change (session.change f request).Grows f _ _ at hgrows
  obtain ⟨added, hbetween, hadded⟩ := between_eq_some
    (by rw [hgrows.applied]; exact subset_union_left) hgrows.seen
  cases hwrites with
  | nothing hstate hcount hrecords hsame =>
    -- nothing new is applied, and a restart does not see the change
    have hquiet : request.operation.newEffects session.manager.state = ∅ ∧
        (session.change f request).state.durable f now =
          session.manager.state.durable f now := by
      rcases hsame with hchanged | hsame
      · exact ⟨(hgrows.unwritten hchanged).1, (hgrows.unwritten hchanged).2 now⟩
      · refine ⟨?_, by rw [hsame]⟩
        have happlied := hgrows.applied
        rw [hsame, eq_comm, union_eq_left] at happlied
        exact (disjoint_self_iff_empty _).mp (hgrows.fresh.mono_right happlied)
    have hids := hgrows.applied
    rw [hquiet.1, union_empty] at hids
    have hlost : session.unrecorded request = ∅ := by
      unfold unrecorded
      rw [hquiet.1, ite_self]
    rw [hlost, live_eq hstate hcount hids hrecords]
    exact .unwritten (by simp only [reader, hquiet.2])
  | @delta delta hstate hcount hrecords hdelta hlt =>
    obtain rfl : delta = added := Option.some.inj (hdelta.symm.trans hbetween)
    rw [hgrows.applied, union_sdiff_cancel_left hgrows.fresh.symm] at hadded
    have hlost : session.unrecorded request = ∅ := if_pos hlt
    rw [hlost, live_eq hstate hcount hgrows.applied hrecords]
    refine .difference hgrows.fresh ?_ ?_
    · rintro ⟨p, n⟩ hp hview
      simp only [reader, Prod.mk.injEq] at hview
      obtain ⟨p', happly, hdurable⟩ := apply_between hdelta (hstate ▸ hreread) hview.1
      rw [← read_mapBudget_write (reread f delta)] at happly
      refine ⟨_, reader_restore.mpr
        (storedState_append_delta (reader_restore.mp hp) happly), ?_⟩
      simp only [reader, hdurable, hview.2]
    · rw [show (reader f manager now).history = appliedUsageHistory from rfl,
        appliedUsageHistory_append_delta, ← hadded]
  | checkpoint hstate hcount hrecords hreason =>
    have hlost : session.unrecorded request =
        request.operation.newEffects session.manager.state := by
      rcases hreason with hnone | hge
      · -- the sets only grow, so that there is a delta
        rw [hnone] at hbetween
        cases hbetween
      · exact if_neg (by omega)
    rw [hlost, live_eq hstate hcount hgrows.applied hrecords]
    refine .checkpoint hgrows.fresh ?_ ?_
    · exact ⟨_, reader_restore.mpr (storedState_append_checkpoint checkpointState_checkpoint),
        congrArg (·, 0) ((hstate ▸ hreread).durable now)⟩
    · exact appliedUsageHistory_append_checkpoint

lemma Session.Writes.state (h : session.Writes f change next) :
    next.manager.state = change.state := by
  cases h with
  | nothing hstate | delta hstate | checkpoint hstate => exact hstate

/-! ## Whole sequences of operations -/

variable {requests : List (Request F)} {final : Session F}

/-- No operation of the sequence applies a new identifier when the next change is written as
a checkpoint. -/
def Session.RecordsEffects (f : F64 F) : Session F → List (Request F) → Prop
  | _, [] => True
  | session, request :: requests =>
    (request.operation.newEffects session.manager.state = ∅ ∨
      session.manager.resourceDeltasSinceSnapshot + 1 < resourceSnapshotInterval) ∧
    ∀ next ∈ session.perform f request, next.RecordsEffects f requests

/-- The numbers of every state of the run read back as themselves. -/
def Session.KeepsNumbers (f : F64 F) : Session F → List (Request F) → Prop
  | session, [] => session.manager.state.Rereads f
  | session, request :: requests => session.manager.state.Rereads f ∧
    ∀ next ∈ session.perform f request, next.KeepsNumbers f requests

instance Session.decidableRecordsEffects : (session : Session F) → (requests : List (Request F)) →
    Decidable (session.RecordsEffects f requests)
  | _, [] => isTrue trivial
  | session, request :: requests =>
    have := fun next => decidableRecordsEffects next requests
    inferInstanceAs (Decidable (_ ∧ ∀ next ∈ session.perform f request, _))

omit [DecidableEq F] in
lemma Session.unrecorded_eq_empty_iff : session.unrecorded request = ∅ ↔
    request.operation.newEffects session.manager.state = ∅ ∨
      session.manager.resourceDeltasSinceSnapshot + 1 < resourceSnapshotInterval := by
  unfold unrecorded
  split
  · rename_i hlt
    simp [hlt]
  · rename_i hge
    simp [hge]

lemma Session.performAll_cons (h : session.performAll f (request :: requests) = some final) :
    ∃ next, session.perform f request = some next ∧ next.performAll f requests = some final :=
  Option.bind_eq_some_iff.mp h

lemma Session.KeepsNumbers.rereads (h : session.KeepsNumbers f requests) :
    session.manager.state.Rereads f := by
  cases requests with
  | nil => exact h
  | cons => exact h.1

/-- Nothing is asked where every number reads back as itself. -/
lemma Session.keepsNumbers_of_exact (hexact : f.reread = id) (session : Session F)
    (requests : List (Request F)) : session.KeepsNumbers f requests := by
  have hrereads (state : ResourceState F) : state.Rereads f := by
    constructor <;> simp [ResourceBudget.reread, ProviderSignals.reread, hexact]
  induction requests generalizing session with
  | nil => exact hrereads _
  | cons _ _ ih => exact ⟨hrereads _, fun next _ => ih next⟩

lemma Session.performAll_run (h : session.performAll f requests = some final)
    (hnumbers : session.KeepsNumbers f requests) (manager : Manager F) (now : ℤ) :
    ∃ losts, Journal.Run (reader f manager now) session.live losts final.live ∧
      ((∀ lost ∈ losts, lost = ∅) ↔ session.RecordsEffects f requests) := by
  induction requests generalizing session with
  | nil =>
    cases h
    exact ⟨[], .nil _, by simp [RecordsEffects]⟩
  | cons request requests ih =>
    obtain ⟨next, hperform, hrest⟩ := performAll_cons h
    have hnext := hnumbers.2 next hperform
    obtain ⟨losts, hrun, hlosts⟩ := ih hrest hnext
    refine ⟨_, .cons (perform_step hperform hnext.rereads manager now) hrun, ?_⟩
    simp [RecordsEffects, hperform, hlosts, unrecorded_eq_empty_iff]

/-- What holds of a session stays true if every operation that succeeds keeps it. -/
lemma Session.performAll_invariant {P : Session F → Prop}
    (hstep : ∀ session request next, session.perform f request = some next → P session → P next)
    (h : session.performAll f requests = some final) (hP : P session) : P final := by
  induction requests generalizing session with
  | nil =>
    cases h
    exact hP
  | cons request requests ih =>
    obtain ⟨next, hperform, hrest⟩ := performAll_cons h
    exact ih hrest (hstep _ _ _ hperform hP)

lemma Session.perform_applied (h : session.perform f request = some next) :
    next.manager.state.appliedUsageEffects = session.manager.state.appliedUsageEffects ∪
      request.operation.newEffects session.manager.state := by
  obtain ⟨hresult, hwrites⟩ := perform_writes h
  rw [hwrites.state]
  exact (request.operation.grows hresult).applied

/-- What was applied stays applied. -/
lemma Session.performAll_effectId {effectId : String}
    (h : session.performAll f requests = some final) (hmem : request ∈ requests)
    (heffect : request.operation.effectId = some effectId) :
    effectId ∈ final.manager.state.appliedUsageEffects := by
  induction requests generalizing session with
  | nil => cases hmem
  | cons request' requests ih =>
    obtain ⟨next, hperform, hrest⟩ := performAll_cons h
    rcases List.mem_cons.mp hmem with rfl | hmem
    · refine performAll_invariant
        (P := fun s => effectId ∈ s.manager.state.appliedUsageEffects) ?_ hrest ?_
      · intro s r s' hs hin
        rw [perform_applied hs]
        exact mem_union_left _ hin
      · rw [perform_applied hperform, Operation.newEffects, heffect]
        simp
    · exact ih hrest hmem

end Sessions

end SolarisMesh.Resource
