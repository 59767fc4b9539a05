import SolarisMesh.Resource.Steps

/-!
# A restart brings back the resource manager

A manager that is attached to a run has the state of the one that wrote the run, up to what a
restart resets. It has the same applied identifiers, so that nothing is accounted twice,
exactly if none was applied by a change that was written as a checkpoint.
-/

namespace SolarisMesh.Resource

open Session Lib

variable {F : Type} [DecidableEq F] {f : F64 F}

/-! ## Runs whose checkpoints say everything -/

/-- The checkpoint says all that is otherwise taken from the manager that reads it. -/
structure Checkpoint.Complete (payload : Checkpoint F) : Prop where
  budget : payload.budget.isSome
  providerSignals : payload.providerSignals.isSome
  deadline : payload.deadlineUnixMs.isSome

variable {records : List (Record F)}

omit [DecidableEq F] in
lemma storedState_eq_of_complete (h : ∀ payload, .checkpoint payload ∈ records → payload.Complete)
    (m m' : Manager F) : storedState m records = storedState m' records := by
  unfold storedState
  cases hfound : lastCheckpoint records with
  | none => rfl
  | some found =>
    -- a complete checkpoint reads the same for every manager
    have hcomplete := h _ (lastCheckpoint_subset hfound).1
    obtain ⟨budget, hbudget⟩ := Option.isSome_iff_exists.mp hcomplete.budget
    obtain ⟨signals, hsignals⟩ := Option.isSome_iff_exists.mp hcomplete.providerSignals
    obtain ⟨deadline, hdeadline⟩ := Option.isSome_iff_exists.mp hcomplete.deadline
    simp only [checkpointState, hbudget, hsignals, hdeadline, Option.map_some, Option.getD_some]

/-! ## Attaching a manager -/

/-- What holds of a session from the moment its manager is attached: `manager` would read its
state back at `now`. -/
structure Session.Attached (f : F64 F) (manager : Manager F) (now : ℤ) (session : Session F) :
    Prop where
  tracks : Journal.Tracks (reader f manager now) session.live
  rates : session.manager.state.usage.RatesFresh f
  count : session.manager.resourceDeltasSinceSnapshot < resourceSnapshotInterval

variable {session : Session F} {manager : Manager F}

lemma Session.Attached.performAll {final : Session F} {requests : List (Request F)} {now : ℤ}
    (h : session.Attached f manager now) (hrun : session.performAll f requests = some final)
    (hnumbers : session.KeepsNumbers f requests) : final.Attached f manager now where
  tracks := by
    obtain ⟨losts, hjournal, -⟩ := performAll_run hrun hnumbers manager now
    exact hjournal.tracks h.tracks
  rates := performAll_invariant (P := fun s => s.manager.state.usage.RatesFresh f)
    (fun _ _ _ hperform hrates => by
      obtain ⟨hresult, hwrites⟩ := perform_writes hperform
      rw [hwrites.state]
      exact (Operation.grows _ hresult).rates hrates) hrun h.rates
  count := performAll_invariant
    (P := fun s => s.manager.resourceDeltasSinceSnapshot < resourceSnapshotInterval)
    (fun _ _ _ hperform hlt => by
      cases (perform_writes hperform).2 with
      | nothing _ hcount => rwa [hcount]
      | delta _ hcount _ _ hlt' => rwa [hcount, u64SaturatingAdd_lt_interval]
      | checkpoint _ hcount =>
        rw [hcount]
        decide) hrun h.count

omit [DecidableEq F] in
/-- A session whose state was just written as a checkpoint. -/
lemma Session.Attached.of_checkpoint
    (hrecords : session.records =
      records ++ [.checkpoint (checkpoint (session.manager.state.reread f))])
    (hcount : session.manager.resourceDeltasSinceSnapshot = 0)
    (hreread : session.manager.state.Rereads f)
    (hrates : session.manager.state.usage.RatesFresh f) (manager : Manager F) (now : ℤ) :
    session.Attached f manager now ∧
      appliedUsageHistory session.records = appliedUsageHistory records := by
  refine ⟨⟨?_, hrates, ?_⟩, ?_⟩
  · refine ⟨({ session.manager.state.reread f with appliedUsageEffects := ∅ }, 0),
      reader_restore.mpr ?_, ?_⟩
    · show storedState manager session.records = _
      rw [hrecords]
      exact storedState_append_checkpoint checkpointState_checkpoint
    · simp only [reader, live, hcount]
      exact congrArg (·, 0) (hreread.durable now)
  · rw [hcount]
    decide
  · rw [hrecords, appliedUsageHistory_append_checkpoint]

omit [DecidableEq F] in
lemma restoreAppliedUsageHistory_applied {p : ResourceState F} {n : ℕ}
    (h : storedState manager records = .ok (some (p, n))) :
    (restoreAppliedUsageHistory records p).appliedUsageEffects = appliedUsageHistory records :=
  Finset.union_eq_right.mpr (storedState_applied_subset h)

omit [DecidableEq F] in
/-- A manager that could be attached takes over what the run stores. It writes a checkpoint, unless
the run stores a state with few deltas. -/
lemma attach_eq_ok {now : ℤ} {fault : Option String}
    (h : attach f manager now fault records = .ok session) :
    ∃ found, storedState manager records = .ok found ∧
      session.manager.state = found.elim manager.state (fun found =>
        normalizeRecoveredState f now (restoreAppliedUsageHistory records found.1)) ∧
      ((session.records =
          records ++ [.checkpoint (Session.checkpoint (session.manager.state.reread f))] ∧
          session.manager.resourceDeltasSinceSnapshot = 0) ∨
        ∃ p, found = some (p, session.manager.resourceDeltasSinceSnapshot) ∧
          session.records = records ∧
          session.manager.resourceDeltasSinceSnapshot < resourceSnapshotInterval) := by
  simp only [attach, restoreLatestState, bind_eq_ok] at h
  obtain ⟨restored, ⟨found, hfound, hrestored⟩, hsession⟩ := h
  refine ⟨found, hfound, ?_⟩
  rcases found with _ | ⟨p, n⟩ <;> cases hrestored <;> split at hsession
  · rw [mapError_eq_ok] at hsession
    obtain ⟨hstate, hcount, hrecords⟩ := persistSnapshot_eq_ok hsession
    exact ⟨hstate, .inl ⟨hstate ▸ hrecords, hcount⟩⟩
  · next hold => simp at hold
  · rw [mapError_eq_ok] at hsession
    obtain ⟨hstate, hcount, hrecords⟩ := persistSnapshot_eq_ok hsession
    exact ⟨hstate, .inl ⟨hstate ▸ hrecords, hcount⟩⟩
  · next hfew =>
    cases hsession
    have hlt : n < resourceSnapshotInterval := by simpa using hfew
    exact ⟨rfl, .inr ⟨p, rfl, rfl, hlt⟩⟩

omit [DecidableEq F] in
/-- A run that stores a state with few deltas can always be attached to. -/
lemma attach_of_storedState {now : ℤ} {fault : Option String} {p : ResourceState F} {n : ℕ}
    (hstored : storedState manager records = .ok (some (p, n)))
    (hfew : n < resourceSnapshotInterval) :
    attach f manager now fault records =
      .ok ⟨{ manager with
        state := normalizeRecoveredState f now (restoreAppliedUsageHistory records p)
        resourceDeltasSinceSnapshot := n }, records⟩ := by
  simp only [attach, restoreLatestState, bind_eq_ok]
  refine ⟨_, ⟨_, hstored, rfl⟩, ?_⟩
  rw [if_neg (by simpa using hfew)]
  rfl

omit [DecidableEq F] in
/-- A fresh manager that could be attached to a run. -/
lemma attach_new {budget : ResourceBudget F} {hint : ℕ} {start later : ℤ} {fault : Option String}
    (hclock : start ≤ later)
    (hcomplete : ∀ payload, .checkpoint payload ∈ records → payload.Complete)
    (h : attach f (.new f budget start hint) start fault records = .ok session)
    (hreread : session.manager.state.Rereads f) (manager : Manager F) :
    session.Attached f manager later ∧
      appliedUsageHistory session.records = session.manager.state.appliedUsageEffects := by
  obtain ⟨found, hfound, hstate, hwritten⟩ := attach_eq_ok h
  have hrates : session.manager.state.usage.RatesFresh f := by
    rw [hstate]
    cases found <;> exact ⟨rfl, rfl⟩
  have happlied : appliedUsageHistory records = session.manager.state.appliedUsageEffects := by
    rw [hstate]
    cases found
    · exact appliedUsageHistory_eq_empty hfound
    · exact (restoreAppliedUsageHistory_applied hfound).symm
  obtain ⟨hrecords, hcount⟩ | ⟨p, rfl, hrecords, hfew⟩ := hwritten
  · obtain ⟨hattached, hhistory⟩ :=
      Session.Attached.of_checkpoint hrecords hcount hreread hrates manager later
    exact ⟨hattached, hhistory.trans happlied⟩
  · have hstored : storedState manager session.records = _ :=
      hrecords ▸ (storedState_eq_of_complete hcomplete _ _).trans hfound
    refine ⟨⟨⟨_, reader_restore.2 hstored, ?_⟩, hrates, hfew⟩, hrecords ▸ happlied⟩
    simp only [reader, Session.live, hstate, Prod.mk.injEq]
    refine ⟨(ResourceState.durable_eq_iff.2 ?_).symm, trivial⟩
    exact ⟨rfl, rfl, rfl, rfl, ProviderRateWindow.normalizeRecovered_twice hclock _⟩

/-! ## The restart -/

/-- What a manager that is attached at `now` has of the one that wrote the run. -/
structure Session.Recovered (now : ℤ) (live restored : Session F) : Prop where
  budget : restored.manager.state.budget = live.manager.state.budget
  providerSignals : restored.manager.state.providerSignals = live.manager.state.providerSignals
  deadline : restored.manager.state.deadlineUnixMs = live.manager.state.deadlineUnixMs
  usage : restored.manager.state.usage =
    { live.manager.state.usage with activeAgents := 0, concurrentEffects := 0 }
  providerRate : restored.manager.state.providerRate =
    live.manager.state.providerRate.normalizeRecovered now
  applied : restored.manager.state.appliedUsageEffects = live.manager.state.appliedUsageEffects

/-- No identifier that was applied in the sequence is accounted again. -/
def Session.AppliesOnce (f : F64 F) (requests : List (Request F)) (restored : Session F) : Prop :=
  ∀ request ∈ requests, ∀ effectId, request.operation.effectId = some effectId →
    ∀ (operation : Operation F) (now : ℤ), operation.effectId = some effectId →
      (operation.update f restored.manager now).state.usage = restored.manager.state.usage

variable {now : ℤ} {fault : Option String}

omit [DecidableEq F] in
/-- All but the identifiers come back whatever was written when; of the identifiers, those
that the records name. -/
lemma Session.Attached.attach (h : session.Attached f manager now) (fault : Option String) :
    ∃ restored, attach f manager now fault session.records = .ok restored ∧
      restored.manager.state.appliedUsageEffects = appliedUsageHistory session.records ∧
      (restored.manager.state.appliedUsageEffects = session.manager.state.appliedUsageEffects →
        session.Recovered now restored) := by
  obtain ⟨⟨p, n⟩, hp, hview⟩ := h.tracks
  have hstored := reader_restore.mp hp
  simp only [reader, live, Prod.mk.injEq] at hview
  obtain ⟨hdurable, rfl⟩ := hview
  obtain ⟨hbudget, hsignals, husage, hdeadline, hrate⟩ := ResourceState.durable_eq_iff.mp hdurable
  refine ⟨_, attach_of_storedState hstored h.count, ?_, fun happlied => ?_⟩
  · exact restoreAppliedUsageHistory_applied hstored
  · exact ⟨hbudget, hsignals, hdeadline, husage.trans h.rates.recovered_eq, hrate, happlied⟩

omit [DecidableEq F] in
lemma Session.update_applied_usage {operation : Operation F} {effectId : String}
    (heffect : operation.effectId = some effectId)
    (happlied : effectId ∈ manager.state.appliedUsageEffects) :
    (operation.update f manager now).state.usage = manager.state.usage := by
  cases operation with
  | recordModelUsageOnce id usage countTurn =>
    cases heffect
    simp only [Operation.update, Change.succeeds, Manager.recordModelUsageOnce, if_pos happlied,
      Manager.refuse]
  | recordToolCallsOnce id calls =>
    cases heffect
    simp only [Operation.update, Change.succeeds, Manager.recordToolCallsOnce, if_pos happlied,
      Manager.refuse]
  | _ => cases heffect

/-- **A restart recovers the manager** of a run whose numbers read back as themselves exactly if no
operation of the sequence applied a new identifier at a change that was written as a checkpoint. -/
theorem restart_recovers_iff (budget budget' : ResourceBudget F) (hint hint' : ℕ)
    (start later : ℤ) (fault fault' : Option String) (records : List (Record F))
    (requests : List (Request F)) {session final : Session F} (hclock : start ≤ later)
    (hcomplete : ∀ payload, .checkpoint payload ∈ records → payload.Complete)
    (hattach : attach f (.new f budget start hint) start fault records = .ok session)
    (hrun : session.performAll f requests = some final)
    (hnumbers : session.KeepsNumbers f requests) :
    ∃ restored, attach f (.new f budget' later hint') later fault' final.records = .ok restored ∧
      (final.Recovered later restored ∧ restored.AppliesOnce f requests ↔
        session.RecordsEffects f requests) := by
  obtain ⟨hattached, hhistory⟩ :=
    attach_new hclock hcomplete hattach hnumbers.rereads (.new f budget' later hint')
  obtain ⟨restored, hrestored, happlied, hrecovered⟩ :=
    (hattached.performAll hrun hnumbers).attach fault'
  refine ⟨restored, hrestored, ?_⟩
  obtain ⟨losts, hjournal, hlosts⟩ :=
    performAll_run hrun hnumbers (.new f budget' later hint') later
  -- the records name all identifiers exactly if none was kept from them
  have hids : appliedUsageHistory final.records = final.manager.state.appliedUsageEffects ↔
      session.RecordsEffects f requests := (hjournal.history_eq_iff hhistory).trans hlosts
  rw [← hids, ← happlied]
  constructor
  · rintro ⟨h, -⟩
    exact h.applied
  · intro h
    refine ⟨hrecovered h, ?_⟩
    intro request hmem effectId heffect operation now hoperation
    apply update_applied_usage hoperation
    rw [h]
    exact performAll_effectId hrun hmem heffect

/-! ## A checkpoint that loses an identifier -/

/-- Costs counted in whole units. -/
def wholeUnits : F64 ℕ where
  zero := 0
  add := (· + ·)
  le a b := a ≤ b
  priced := (· * ·)
  perMillion cost := cost / 1000000
  ratio a b := a / b
  costEpsilon _ := 0
  fixed6 := toString
  reread := id

/-- A response of one token. -/
def oneToken : TokenUsage := { inputTokens := 1 }

/-- One response that is accounted once, after `n` responses without an identifier. -/
def onceAfter (n : ℕ) : List (Request ℕ) :=
  List.replicate n { operation := .recordModelUsage oneToken, now := 1 } ++
    [{ operation := .recordModelUsageOnce "effect" oneToken false, now := 1 }]

/-- With few changes before it, the identifier is recorded and comes back. -/
theorem once_after_two_recovered : ∃ session final restored,
    attach wholeUnits (.new wholeUnits {} 1 4) 1 none [] = .ok session ∧
      session.performAll wholeUnits (onceAfter 2) = some final ∧
      attach wholeUnits (.new wholeUnits {} 2 4) 2 none final.records = .ok restored ∧
      final.Recovered 2 restored ∧ restored.AppliesOnce wholeUnits (onceAfter 2) := by
  obtain ⟨restored, hrestored, hiff⟩ := restart_recovers_iff (f := wholeUnits) {} {} 4 4 1 2
    none none [] (onceAfter 2) (by decide) (by simp) rfl rfl (keepsNumbers_of_exact rfl _ _)
  exact ⟨_, _, restored, rfl, rfl, hrestored, hiff.mpr (by decide +kernel)⟩

/-- The session at the restart and the one after it, when the identifier is applied by the
64th change. -/
def relaunch : Option (Session ℕ × Session ℕ) := do
  let session ← (attach wholeUnits (.new wholeUnits {} 1 4) 1 none []).toOption
  let final ← session.performAll wholeUnits (onceAfter 63)
  let restored ← (attach wholeUnits (.new wholeUnits {} 2 4) 2 none final.records).toOption
  return (final, restored)

/-- The 64th change is written as a checkpoint: after the restart its identifier is gone, and
the response is accounted a second time. -/
theorem once_at_checkpoint_not_recovered : ∃ session final restored,
    attach wholeUnits (.new wholeUnits {} 1 4) 1 none [] = .ok session ∧
      session.performAll wholeUnits (onceAfter 63) = some final ∧
      attach wholeUnits (.new wholeUnits {} 2 4) 2 none final.records = .ok restored ∧
      "effect" ∈ final.manager.state.appliedUsageEffects ∧
      "effect" ∉ restored.manager.state.appliedUsageEffects ∧
      restored.manager.state.usage.tokens = 64 ∧
      (restored.manager.recordModelUsageOnce wholeUnits "effect" oneToken false).state.usage.tokens
        = 65 := by
  have hobserved : relaunch.any (fun (final, restored) => decide (
      "effect" ∈ final.manager.state.appliedUsageEffects ∧
      "effect" ∉ restored.manager.state.appliedUsageEffects ∧
      restored.manager.state.usage.tokens = 64 ∧
      (restored.manager.recordModelUsageOnce wholeUnits "effect" oneToken
        false).state.usage.tokens = 65)) = true := by
    decide +kernel
  cases hrelaunch : relaunch with
  | none => simp [hrelaunch] at hobserved
  | some sessions =>
    rw [hrelaunch, Option.any_some] at hobserved
    obtain ⟨final, restored⟩ := sessions
    simp only [relaunch, Option.bind_eq_bind, Option.bind_eq_some_iff, toOption_eq_some,
      Option.pure_def, Option.some.injEq, Prod.mk.injEq] at hrelaunch
    obtain ⟨session, hattach, final', hrun, restored', hrestored, rfl, rfl⟩ := hrelaunch
    exact ⟨session, _, _, hattach, hrun, hrestored, of_decide_eq_true hobserved⟩

end SolarisMesh.Resource
