import SolarisMesh.Lib.Journal
import SolarisMesh.Resource.Persistence

/-!
# Reading back what was written

How the stored state of a run moves with each record that is appended, which identifiers the
records name, and that a delta leads from the state before a change to the state after it, up
to what a restart resets.
-/

namespace SolarisMesh.Resource

open List Lib

variable {F : Type} (f : F64 F)

/-! ## What a restart brings back -/

/-- The usage after a restart. -/
def ResourceUsage.recovered (usage : ResourceUsage F) : ResourceUsage F :=
  { usage with activeAgents := 0, concurrentEffects := 0 }.refreshCallRates f

/-- What a restart at `now` brings back of a state, apart from the applied identifiers. -/
def ResourceState.durable (now : ℤ) (state : ResourceState F) : ResourceState F :=
  { normalizeRecoveredState f now state with appliedUsageEffects := ∅ }

/-- The numbers that a restart brings back read back as themselves. The rates of tool calls are
computed again. -/
structure ResourceState.Rereads (state : ResourceState F) : Prop where
  budget : state.budget.reread f = state.budget
  providerSignals : state.providerSignals.reread f = state.providerSignals
  cost : f.reread state.usage.cost = state.usage.cost

variable {f} {now : ℤ} {p s : ResourceState F}

lemma ResourceState.durable_eq_iff : p.durable f now = s.durable f now ↔
    p.budget = s.budget ∧ p.providerSignals = s.providerSignals ∧
      p.usage.recovered f = s.usage.recovered f ∧ p.deadlineUnixMs = s.deadlineUnixMs ∧
      p.providerRate.normalizeRecovered now = s.providerRate.normalizeRecovered now := by
  simp [ResourceState.durable, normalizeRecoveredState, ResourceUsage.recovered]

lemma ResourceState.Rereads.recovered (h : s.Rereads f) :
    (s.usage.reread f).recovered f = s.usage.recovered f := by
  simp only [ResourceUsage.reread, ResourceUsage.recovered, h.cost]
  rfl

lemma ResourceState.Rereads.durable (h : s.Rereads f) (now : ℤ) :
    (s.reread f).durable f now = s.durable f now :=
  durable_eq_iff.2 ⟨h.budget, h.providerSignals, h.recovered, rfl, rfl⟩

lemma ResourceUsage.seen_eq_of_recovered_eq {u v : ResourceUsage F}
    (h : u.recovered f = v.recovered f) :
    u.seenToolCallFingerprints = v.seenToolCallFingerprints := by
  show (u.recovered f).seenToolCallFingerprints = (v.recovered f).seenToolCallFingerprints
  rw [h]

/-- A window that is read twice is read as at the second time. -/
lemma ProviderRateWindow.normalizeRecovered_twice {earlier later : ℤ} (h : earlier ≤ later)
    (window : ProviderRateWindow) :
    (window.normalizeRecovered earlier).normalizeRecovered later =
      window.normalizeRecovered later := by
  by_cases hover : window.startedAtUnixMs ≠ 0 ∧ window.isOver earlier
  · -- the window is over at the first time, and stays over
    have hlater : window.startedAtUnixMs ≠ 0 ∧ window.isOver later := by
      have hearlier := of_decide_eq_true hover.2
      refine ⟨hover.1, decide_eq_true ?_⟩
      simp only [windowMs, i64SaturatingSub, i64Min, i64Max] at hearlier ⊢
      omega
    simp only [normalizeRecovered, if_pos hover, if_pos hlater]
    rfl
  · rw [normalizeRecovered.eq_def earlier, if_neg hover]
    simp only [normalizeRecovered]
    split <;> rename_i hlater
    · have hlater' : window.startedAtUnixMs ≠ 0 ∧ window.isOver later := hlater
      rw [if_pos hlater']
    · have hlater' : ¬ (window.startedAtUnixMs ≠ 0 ∧ window.isOver later) := hlater
      rw [if_neg hlater']
      simp

/-! ## The stored state as records are appended -/

variable {found : ResourceState F × ℕ} {behind : List (Record F)}

section Stored

variable {manager : Manager F} {records : List (Record F)} {payload : Checkpoint F}
  {stored : ResourceStateDelta F (StoredBudget F)} {n : ℕ}

lemma lastCheckpoint_append_checkpoint :
    lastCheckpoint (records ++ [.checkpoint payload]) = some (payload, []) := by
  induction records with
  | nil => rfl
  | cons record records ih => simp [lastCheckpoint, ih]

lemma lastCheckpoint_append_delta :
    lastCheckpoint (records ++ [.delta stored]) =
      (lastCheckpoint records).map fun found => (found.1, found.2 ++ [.delta stored]) := by
  induction records with
  | nil => rfl
  | cons record records ih =>
    simp only [cons_append, lastCheckpoint, ih]
    cases lastCheckpoint records <;> cases record <;> rfl

lemma lastCheckpoint_subset (h : lastCheckpoint records = some (payload, behind)) :
    .checkpoint payload ∈ records ∧ behind ⊆ records := by
  induction records with
  | nil => cases h
  | cons record records ih =>
    cases hfound : lastCheckpoint records with
    | some found =>
      simp only [lastCheckpoint, hfound, Option.some.injEq] at h
      obtain ⟨hpayload, hbehind⟩ := ih (hfound.trans (congrArg some h))
      exact ⟨mem_cons_of_mem _ hpayload, subset_cons_of_subset _ hbehind⟩
    | none =>
      cases record with
      | checkpoint c =>
        simp only [lastCheckpoint, hfound, Option.some.injEq, Prod.mk.injEq] at h
        obtain ⟨rfl, rfl⟩ := h
        exact ⟨mem_cons_self, subset_cons_self _ _⟩
      | delta d | other => simp [lastCheckpoint, hfound] at h

lemma applyDeltas_append_delta :
    applyDeltas (behind ++ [.delta stored]) found = do
      let (state, count) ← applyDeltas behind found
      let state ← (resourceStateDeltaFromRecord stored).apply state
      return (state, u64SaturatingAdd count 1) := by
  induction behind generalizing found with
  | nil =>
    obtain ⟨state, count⟩ := found
    rfl
  | cons record behind ih =>
    obtain ⟨state, count⟩ := found
    cases record with
    | delta d =>
      simp only [cons_append, applyDeltas, ih, bind_assoc]
    | checkpoint c | other => simpa only [cons_append, applyDeltas] using ih

lemma storedState_append_delta {p' : ResourceState F}
    (h : storedState manager records = .ok (some (p, n)))
    (happly : (resourceStateDeltaFromRecord stored).apply p = .ok p') :
    storedState manager (records ++ [.delta stored]) =
      .ok (some (p', u64SaturatingAdd n 1)) := by
  unfold storedState at h ⊢
  rw [lastCheckpoint_append_delta]
  cases hfound : lastCheckpoint records with
  | none =>
    simp only [hfound] at h
    split at h <;> simp at h
  | some found =>
    simp only [hfound, bind_eq_ok, pure_eq_ok, Option.some.injEq] at h
    obtain ⟨state, hstate, found', hdeltas, rfl⟩ := h
    simp only [Option.map_some, bind_eq_ok, pure_eq_ok, applyDeltas_append_delta]
    exact ⟨state, hstate, _, ⟨_, hdeltas, p', happly, rfl⟩, rfl⟩

lemma storedState_append_checkpoint
    (hstate : checkpointState manager payload = .ok p) :
    storedState manager (records ++ [.checkpoint payload]) = .ok (some (p, 0)) := by
  unfold storedState
  rw [lastCheckpoint_append_checkpoint]
  simp only [bind_eq_ok, pure_eq_ok]
  exact ⟨p, hstate, (p, 0), rfl, rfl⟩

lemma checkpointState_checkpoint :
    checkpointState manager (Session.checkpoint s) =
      .ok { s with appliedUsageEffects := ∅ } := rfl

/-! ## Applied identifiers -/

lemma appliedUsageHistory_append (records records' : List (Record F)) :
    appliedUsageHistory (records ++ records') =
      appliedUsageHistory records ∪ appliedUsageHistory records' := by
  induction records with
  | nil => simp [appliedUsageHistory]
  | cons record records ih => simp [appliedUsageHistory, ih]

lemma appliedUsageEffects_subset_history {record : Record F} (h : record ∈ records) :
    record.appliedUsageEffects ⊆ appliedUsageHistory records := by
  induction records with
  | nil => cases h
  | cons record' records ih =>
    rcases mem_cons.mp h with rfl | h
    · exact Finset.subset_union_left
    · exact (ih h).trans Finset.subset_union_right

lemma applyDeltas_applied_subset {found' : ResourceState F × ℕ}
    (h : applyDeltas behind found = .ok found') (hsubset : behind ⊆ records)
    (hfound : found.1.appliedUsageEffects ⊆ appliedUsageHistory records) :
    found'.1.appliedUsageEffects ⊆ appliedUsageHistory records := by
  induction behind generalizing found with
  | nil =>
    cases h
    exact hfound
  | cons record behind ih =>
    obtain ⟨state, count⟩ := found
    have hrecord := appliedUsageEffects_subset_history (hsubset mem_cons_self)
    have hbehind : behind ⊆ records := fun _ h => hsubset (mem_cons_of_mem _ h)
    cases record with
    | delta d =>
      simp only [applyDeltas, ResourceStateDelta.apply, bind_eq_ok, pure_eq_ok] at h
      obtain ⟨_, ⟨_, _, rfl⟩, hrest⟩ := h
      exact ih hrest hbehind (Finset.union_subset hfound hrecord)
    | checkpoint c | other => exact ih h hbehind hfound

/-- The records name every identifier of the state they store. -/
lemma storedState_applied_subset (h : storedState manager records = .ok (some (p, n))) :
    p.appliedUsageEffects ⊆ appliedUsageHistory records := by
  unfold storedState at h
  cases hfound : lastCheckpoint records with
  | none =>
    simp only [hfound] at h
    split at h <;> simp at h
  | some found =>
    obtain ⟨payload, behind⟩ := found
    obtain ⟨hpayload, hbehind⟩ := lastCheckpoint_subset hfound
    simp only [hfound, bind_eq_ok, pure_eq_ok, Option.some.injEq] at h
    obtain ⟨state, hstate, found', hdeltas, rfl⟩ := h
    refine applyDeltas_applied_subset hdeltas hbehind ?_
    simp only [checkpointState, bind_eq_ok, pure_eq_ok] at hstate
    obtain ⟨_, _, _, _, rfl⟩ := hstate
    exact appliedUsageEffects_subset_history hpayload

/-- A run that stores no state names no identifiers. -/
lemma appliedUsageHistory_eq_empty (h : storedState manager records = .ok none) :
    appliedUsageHistory records = ∅ := by
  unfold storedState at h
  cases hfound : lastCheckpoint records with
  | some found =>
    simp only [hfound, bind_eq_ok, pure_eq_ok, reduceCtorEq, and_false, exists_false] at h
  | none =>
    have hdelta : records.any Record.isDelta = false := by
      by_contra hany
      rw [Bool.not_eq_false] at hany
      simp only [hfound, if_pos hany, reduceCtorEq] at h
    clear h
    induction records with
    | nil => rfl
    | cons record records ih =>
      rw [any_cons, Bool.or_eq_false_iff] at hdelta
      have hrest : lastCheckpoint records = none := by
        cases hrest : lastCheckpoint records with
        | none => rfl
        | some found => simp [lastCheckpoint, hrest] at hfound
      cases record with
      | checkpoint c => simp [lastCheckpoint, hrest] at hfound
      | delta d => cases hdelta.1
      | other => simp [appliedUsageHistory, Record.appliedUsageEffects, ih hrest hdelta.2]

lemma appliedUsageHistory_append_delta (delta : ResourceStateDelta F (ResourceBudget F)) :
    appliedUsageHistory (records ++ [.delta ((delta.reread f).mapBudget .write)]) =
      appliedUsageHistory records ∪ delta.appliedUsageEffectsAdded := by
  rw [appliedUsageHistory_append]
  simp [appliedUsageHistory, Record.appliedUsageEffects, ResourceStateDelta.mapBudget,
    ResourceStateDelta.reread]

lemma appliedUsageHistory_append_checkpoint :
    appliedUsageHistory (records ++ [.checkpoint (Session.checkpoint s)]) =
      appliedUsageHistory records := by
  rw [appliedUsageHistory_append]
  simp [appliedUsageHistory, Record.appliedUsageEffects, Session.checkpoint]

end Stored

/-! ## A delta leads from the state before to the state after -/

section Delta

variable [DecidableEq F] {before after : ResourceState F}
  {delta : ResourceStateDelta F (ResourceBudget F)}

namespace ResourceStateDelta

omit [DecidableEq F] in
lemma read_mapBudget_write (delta : ResourceStateDelta F (ResourceBudget F)) :
    resourceStateDeltaFromRecord (delta.mapBudget .write) = delta := by
  cases delta with
  | mk _ budget => cases budget <;> rfl

/-- A change brings a value to its new state, up to what `g` forgets and `r` reads back. -/
lemma map_changed_getD {α β : Type} [DecidableEq α] {g : α → β} {r : α → α} {a b c : α}
    (hr : g (r b) = g b) (h : g c = g a) : g (((changed a b).map r).getD c) = g b := by
  by_cases hab : a = b
  · simp [changed, ← hab, h]
  · simp [changed, hab, hr]

/-- The same for the usage, where the fingerprints are apart. -/
lemma view_applyUsage {β : Type} {g : ResourceUsage F → β} {u v w : ResourceUsage F}
    (hg : ∀ {u v}, g u = g v → u.seenToolCallFingerprints = v.seenToolCallFingerprints)
    (hr : g (w.reread f) = g w)
    (hseen : v.seenToolCallFingerprints ⊆ w.seenToolCallFingerprints)
    (husage : delta.usage =
      (changed v w).map fun usage => { usage with seenToolCallFingerprints := ∅ })
    (hadded : delta.seenToolCallFingerprintsAdded =
      w.seenToolCallFingerprints \ v.seenToolCallFingerprints)
    (h : g u = g v) : g ((delta.reread f).applyUsage u) = g w := by
  have hu := hg h
  have hw : u.seenToolCallFingerprints ∪ (delta.reread f).seenToolCallFingerprintsAdded =
      w.seenToolCallFingerprints := by
    rw [reread, hadded, hu, Finset.union_sdiff_of_subset hseen]
  rw [applyUsage, hw, reread, husage]
  by_cases hvw : v = w
  · rw [changed, if_pos hvw, ← hvw, ← h, ← hu]
    rfl
  · rw [changed, if_neg hvw, ← hr]
    rfl

lemma between_eq_some
    (happlied : before.appliedUsageEffects ⊆ after.appliedUsageEffects)
    (hseen : before.usage.seenToolCallFingerprints ⊆ after.usage.seenToolCallFingerprints) :
    ∃ delta, between before after = some delta ∧
      delta.appliedUsageEffectsAdded =
        after.appliedUsageEffects \ before.appliedUsageEffects := by
  unfold between
  rw [if_neg (by simp [happlied, hseen])]
  exact ⟨_, rfl, rfl⟩

lemma between_added (h : between before after = some delta) :
    delta.appliedUsageEffectsAdded = after.appliedUsageEffects \ before.appliedUsageEffects := by
  unfold between at h
  split at h
  · cases h
  · cases h
    rfl

/-- The delta brings a view of the usage to its new state. -/
lemma apply_between_view {β : Type} {g : ResourceUsage F → β}
    (hg : ∀ {u v}, g u = g v → u.seenToolCallFingerprints = v.seenToolCallFingerprints)
    (hr : g (after.usage.reread f) = g after.usage) (h : between before after = some delta)
    (hp : g p.usage = g before.usage) :
    ∃ p', (delta.reread f).apply p = .ok p' ∧ g p'.usage = g after.usage := by
  unfold between at h
  split at h
  · cases h
  · rename_i hsubset
    rw [not_or, not_not, not_not] at hsubset
    cases h
    exact ⟨_, rfl, view_applyUsage hg hr hsubset.2 rfl rfl hp⟩

/-- Applied to what a restart would bring back of the state before, the delta that is read back
gives what a restart would bring back of the state after. -/
lemma apply_between (h : between before after = some delta) (hafter : after.Rereads f)
    (hp : p.durable f now = before.durable f now) :
    ∃ p', (delta.reread f).apply p = .ok p' ∧ p'.durable f now = after.durable f now := by
  unfold between at h
  split at h
  · cases h
  · rename_i hsubset
    rw [not_or, not_not, not_not] at hsubset
    cases h
    refine ⟨_, rfl, ?_⟩
    rw [ResourceState.durable_eq_iff] at hp ⊢
    obtain ⟨hbudget, hsignals, husage, hdeadline, hrate⟩ := hp
    refine ⟨map_changed_getD (g := id) hafter.budget hbudget,
      map_changed_getD (g := id) hafter.providerSignals hsignals,
      view_applyUsage ResourceUsage.seen_eq_of_recovered_eq hafter.recovered hsubset.2 rfl rfl
        husage, ?_, ?_⟩
    · have hchanged := map_changed_getD (g := id) (r := id) (b := after.deadlineUnixMs) rfl
        hdeadline
      rwa [Option.map_id] at hchanged
    · have hchanged := map_changed_getD (r := id) (b := after.providerRate) rfl hrate
      rwa [Option.map_id] at hchanged

end ResourceStateDelta

end Delta

/-! ## The journal of a run -/

/-- How the records of a run are read back at `now` by a manager. -/
def reader (f : F64 F) (manager : Manager F) (now : ℤ) :
    Journal.Reader (List (Record F)) (ResourceState F × ℕ) (ResourceState F × ℕ) String where
  restore records :=
    match storedState manager records with
    | .ok found => found
    | .error _ => none
  history := appliedUsageHistory
  view found := (found.1.durable f now, found.2)

lemma reader_restore {manager : Manager F} {records : List (Record F)} :
    (reader f manager now).restore records = some found ↔
      storedState manager records = .ok (some found) := by
  simp only [reader]
  cases storedState manager records with
  | ok found' => simp
  | error e => simp

def Session.live (session : Session F) :
    Journal.Live (List (Record F)) (ResourceState F × ℕ) String where
  state := (session.manager.state, session.manager.resourceDeltasSinceSnapshot)
  ids := session.manager.state.appliedUsageEffects
  log := session.records

end SolarisMesh.Resource
