import SolarisMesh.Lib.Machine
import SolarisMesh.Resource.Restore
import Mathlib.Data.Finset.Card

/-!
# Tool rounds across restarts

The counters of tool calls and the fingerprints that were seen come back with every restart. The
identifiers of the rounds come back only if the records name them: one that was applied by a change
written as a checkpoint is forgotten by the next restart, and its round is then counted again.
-/

namespace SolarisMesh.Resource

open List Lib

variable {F : Type}

/-- A round that is recorded, with what the ledger answers, or a new manager for the run. -/
inductive RoundEvent (F : Type) where
  | round (roundCallId : String) (calls : List ToolCallStat) (fault : Option String)
  | restart (budget : ResourceBudget F) (systemParallelismHint : ℕ) (now : ℤ)
    (fault : Option String)

/-- The calls of an event. -/
def RoundEvent.size : RoundEvent F → ℕ
  | round _ calls _ => calls.length
  | restart .. => 0

def RoundEvent.isRestart : RoundEvent F → Bool
  | round .. => false
  | restart .. => true

/-- The manager of a run and the rounds whose recording it has answered with success. -/
structure ToolRounds (F : Type) where
  session : Session F
  recorded : Finset String

namespace ToolRounds

variable [DecidableEq F] (f : F64 F)

/-- A manager that cannot be attached does not replace the one before. -/
def step (rounds : ToolRounds F) : RoundEvent F → ToolRounds F
  | .round roundCallId calls fault =>
    match rounds.session.withStateUpdate f fault
        (rounds.session.manager.recordToolCallsOnce f roundCallId calls) with
    | (.ok (), session) => ⟨session, insert roundCallId rounds.recorded⟩
    | (.error _, session) => { rounds with session }
  | .restart budget hint now fault =>
    match attach f (.new f budget now hint) now fault rounds.session.records with
    | .ok session => { rounds with session }
    | .error _ => rounds

def machine : Machine (ToolRounds F) (RoundEvent F) Unit :=
  ⟨fun rounds event => (rounds.step f event, ())⟩

def usage (rounds : ToolRounds F) : ResourceUsage F := rounds.session.manager.state.usage

/-- Recording a round again changes nothing, whatever its calls are and the ledger answers. -/
def Repeats (rounds : ToolRounds F) : Prop :=
  ∀ roundCallId ∈ rounds.recorded, ∀ calls fault,
    (rounds.step f (.round roundCallId calls fault)).session = rounds.session

omit [DecidableEq F] in
/-- A round that is new is recorded by a change that is written as a checkpoint. -/
def Loses (rounds : ToolRounds F) : RoundEvent F → Prop
  | .round roundCallId _ fault => fault = none ∧
    Manager.toolRoundEffect roundCallId ∉ rounds.session.manager.state.appliedUsageEffects ∧
    resourceSnapshotInterval ≤ rounds.session.manager.resourceDeltasSinceSnapshot + 1
  | .restart .. => False

end ToolRounds

/-! ## The counters -/

/-- Every call was the first with its fingerprint or a duplicate. -/
structure ResourceUsage.Counted (usage : ResourceUsage F) : Prop where
  calls : usage.toolCalls = usage.duplicateToolCalls + usage.seenToolCallFingerprints.card
  useful : usage.usefulToolCalls ≤ usage.toolCalls

lemma observeCalls_card {calls : List ToolCallStat} (h : calls.length ≤ u64Max)
    (seen : Finset String) :
    (observeCalls seen calls).2 + (observeCalls seen calls).1.card = calls.length + seen.card := by
  induction calls generalizing seen with
  | nil => rfl
  | cons call calls ih =>
    rw [length_cons] at h
    have hrest := ih (by omega) (insert call.fingerprint seen)
    have hsubset := Finset.card_le_card (subset_observeCalls (insert call.fingerprint seen) calls)
    rw [observeCalls, length_cons]
    split
    · next hseen =>
      rw [Finset.insert_eq_of_mem hseen] at hrest hsubset ⊢
      simp only [u64SaturatingAdd]
      omega
    · next hnew =>
      rw [Finset.card_insert_of_notMem hnew] at hrest
      omega

variable {f : F64 F} {usage : ResourceUsage F}

/-- One round, as long as the counters are machine words. -/
lemma ResourceUsage.Counted.applyToolCalls (h : usage.Counted) {calls : List ToolCallStat}
    (hfits : usage.toolCalls + calls.length ≤ u64Max) :
    (usage.applyToolCalls f calls).Counted ∧
      (usage.applyToolCalls f calls).toolCalls = usage.toolCalls + calls.length := by
  obtain ⟨hcalls, huseful⟩ := h
  have hobserved := observeCalls_card (by omega : calls.length ≤ u64Max)
    usage.seenToolCallFingerprints
  have hsubset := Finset.card_le_card (subset_observeCalls usage.seenToolCallFingerprints calls)
  have hfiltered := length_filter_le ToolCallStat.isUsefulCall calls
  refine ⟨⟨?_, ?_⟩, ?_⟩
  all_goals
    simp only [ResourceUsage.applyToolCalls, refreshCallRates, refreshUsefulCallRate,
      refreshDuplicateCallRate, u64SaturatingAdd]
    omega

/-- The counters of tool calls. -/
def ResourceUsage.counts (usage : ResourceUsage F) : ℕ × ℕ × ℕ × Finset String :=
  (usage.toolCalls, usage.usefulToolCalls, usage.duplicateToolCalls, usage.seenToolCallFingerprints)

lemma ResourceUsage.seen_eq_of_counts_eq {u v : ResourceUsage F} (h : u.counts = v.counts) :
    u.seenToolCallFingerprints = v.seenToolCallFingerprints := by
  simp only [counts, Prod.mk.injEq] at h
  exact h.2.2.2

lemma ResourceUsage.Counted.of_counts_eq {other : ResourceUsage F}
    (h : usage.counts = other.counts) (hcounted : other.Counted) :
    usage.Counted ∧ usage.toolCalls = other.toolCalls := by
  simp only [counts, Prod.mk.injEq] at h
  obtain ⟨hcalls, huseful, hduplicate, hseen⟩ := h
  refine ⟨⟨?_, ?_⟩, hcalls⟩
  · rw [hcalls, hduplicate, hseen]
    exact hcounted.calls
  · rw [hcalls, huseful]
    exact hcounted.useful

/-! ## What the records store -/

/-- Every manager reads the counters of the session back from its records, with few deltas. -/
structure Session.Stores (session : Session F) : Prop where
  stored : ∃ p, (∀ manager, storedState manager session.records =
      .ok (some (p, session.manager.resourceDeltasSinceSnapshot))) ∧
    p.usage.counts = session.manager.state.usage.counts
  few : session.manager.resourceDeltasSinceSnapshot < resourceSnapshotInterval

lemma Session.Stores.of_checkpoint {session : Session F} {records : List (Record F)}
    (h : session.records = records ++ [.checkpoint (checkpoint (session.manager.state.reread f))])
    (hcount : session.manager.resourceDeltasSinceSnapshot = 0) : session.Stores where
  stored := ⟨{ session.manager.state.reread f with appliedUsageEffects := ∅ }, fun _ =>
    h ▸ hcount ▸ storedState_append_checkpoint checkpointState_checkpoint, rfl⟩
  few := hcount ▸ by decide

lemma Session.Stores.writes [DecidableEq F] {session next : Session F} {R : Type}
    {change : Change F R} (h : session.Stores) (hwrites : session.Writes f change next)
    (hsame : change.changed = false → change.state = session.manager.state) : next.Stores := by
  obtain ⟨⟨p, hstored, hcounts⟩, hfew⟩ := h
  cases hwrites with
  | nothing hstate hcount hrecords hkept =>
    have hunchanged := hkept.elim hsame id
    exact ⟨⟨p, by rwa [hrecords, hcount], by rw [hstate, hunchanged, hcounts]⟩, by rwa [hcount]⟩
  | @delta delta hstate hcount hrecords hdelta hlt =>
    obtain ⟨p', happly, hcounts'⟩ :=
      ResourceStateDelta.apply_between_view ResourceUsage.seen_eq_of_counts_eq rfl hdelta hcounts
    rw [← ResourceStateDelta.read_mapBudget_write (delta.reread f)] at happly
    refine ⟨⟨p', fun manager => ?_, hstate ▸ hcounts'⟩, ?_⟩
    · rw [hrecords, hcount]
      exact storedState_append_delta (hstored manager) happly
    · rwa [hcount, u64SaturatingAdd_lt_interval]
  | checkpoint hstate hcount hrecords => exact .of_checkpoint (hstate ▸ hrecords) hcount

/-- A restart always succeeds, and takes the counters and the identifiers from the records. -/
lemma Session.Stores.attach {session : Session F} (h : session.Stores) (manager : Manager F)
    (now : ℤ) (fault : Option String) :
    ∃ restored, attach f manager now fault session.records = .ok restored ∧
      restored.records = session.records ∧ restored.Stores ∧
      restored.manager.state.usage.counts = session.manager.state.usage.counts ∧
      restored.manager.state.appliedUsageEffects = appliedUsageHistory session.records := by
  obtain ⟨⟨p, hstored, hcounts⟩, hfew⟩ := h
  exact ⟨_, attach_of_storedState (hstored manager) hfew, rfl, ⟨⟨p, hstored, rfl⟩, hfew⟩, hcounts,
    restoreAppliedUsageHistory_applied (hstored manager)⟩

/-! ## One event -/

namespace ToolRounds

variable [DecidableEq F] {rounds : ToolRounds F}

/-- The recorded rounds are the applied ones. -/
def Applied (rounds : ToolRounds F) : Prop :=
  ∀ roundCallId ∈ rounds.recorded,
    Manager.toolRoundEffect roundCallId ∈ rounds.session.manager.state.appliedUsageEffects

variable (f) in
/-- What one event does. -/
inductive Steps (rounds : ToolRounds F) : RoundEvent F → ToolRounds F → Prop
  | repeated {roundCallId calls fault} (happlied : Manager.toolRoundEffect roundCallId ∈
        rounds.session.manager.state.appliedUsageEffects) :
      Steps rounds (.round roundCallId calls fault)
        ⟨rounds.session, insert roundCallId rounds.recorded⟩
  | counted {roundCallId calls next} (hnew : Manager.toolRoundEffect roundCallId ∉
        rounds.session.manager.state.appliedUsageEffects)
      (hwrites : rounds.session.Writes f
        (rounds.session.manager.recordToolCallsOnce f roundCallId calls) next) :
      Steps rounds (.round roundCallId calls none) ⟨next, insert roundCallId rounds.recorded⟩
  | refused {roundCallId calls error} :
      Steps rounds (.round roundCallId calls (some error))
        ⟨rounds.session.recordPersistenceError error, rounds.recorded⟩
  | restarted {budget hint now fault next}
      (hattach : attach f (.new f budget now hint) now fault rounds.session.records = .ok next) :
      Steps rounds (.restart budget hint now fault) ⟨next, rounds.recorded⟩

lemma step_steps (h : rounds.session.Stores) (event : RoundEvent F) :
    Steps f rounds event (rounds.step f event) := by
  cases event with
  | round roundCallId calls fault =>
    by_cases happlied : Manager.toolRoundEffect roundCallId ∈
        rounds.session.manager.state.appliedUsageEffects
    · simp only [step, Manager.recordToolCallsOnce, if_pos happlied]
      exact .repeated happlied
    · cases fault with
      | none =>
        rw [step]
        refine Session.withStateUpdate_ind (fun next hwrites => ?_) fun _ _ hfault => ?_
        · exact .counted happlied hwrites
        · exact absurd rfl hfault
      | some error =>
        have hchanges : rounds.session.manager.state ≠
            (rounds.session.manager.recordToolCallsOnce f roundCallId calls).state := by
          intro hsame
          refine happlied ?_
          rw [hsame, Manager.recordToolCallsOnce, if_neg happlied]
          exact Finset.mem_insert_self _ _
        have hchanged : (rounds.session.manager.recordToolCallsOnce f roundCallId calls).changed =
            true := by
          rw [Manager.recordToolCallsOnce, if_neg happlied]
        simp only [step, Session.withStateUpdate, if_pos hchanged,
          Session.persistStateChange_fault hchanges]
        exact .refused
  | restart budget hint now fault =>
    obtain ⟨next, hattach, -⟩ := h.attach (f := f) (.new f budget now hint) now fault
    simp only [step, hattach]
    exact .restarted hattach

variable {event : RoundEvent F} {next : ToolRounds F}

/-- What one event does to the counters. -/
lemma Steps.counts (hsteps : Steps f rounds event next) (h : rounds.session.Stores) :
    next.session.Stores ∧ (rounds.usage.Counted →
      rounds.usage.toolCalls + event.size ≤ u64Max →
      next.usage.Counted ∧ next.usage.toolCalls ≤ rounds.usage.toolCalls + event.size) := by
  cases hsteps with
  | repeated => exact ⟨h, fun hcounted _ => ⟨hcounted, Nat.le_add_right _ _⟩⟩
  | refused =>
    exact ⟨⟨h.stored, h.few⟩, fun hcounted _ => ⟨hcounted, Nat.le_add_right _ _⟩⟩
  | counted hnew hwrites =>
    have hstate := hwrites.state
    refine ⟨h.writes hwrites fun hsame => ?_, fun hcounted hfits => ?_⟩
    · simp only [Manager.recordToolCallsOnce, if_neg hnew] at hsame
      cases hsame
    · simp only [Manager.recordToolCallsOnce, if_neg hnew] at hstate
      simp only [usage, hstate]
      obtain ⟨hcounted, hcalls⟩ := ResourceUsage.Counted.applyToolCalls hcounted hfits
      exact ⟨hcounted, hcalls.le⟩
  | restarted hattach =>
    obtain ⟨restored, hrestored, -, hstores, hcounts, -⟩ := h.attach _ _ _
    rw [hattach] at hrestored
    cases hrestored
    refine ⟨hstores, fun hcounted _ => ?_⟩
    obtain ⟨hcounted, hcalls⟩ := ResourceUsage.Counted.of_counts_eq hcounts hcounted
    exact ⟨hcounted, (hcalls.trans_le (Nat.le_add_right _ _) :)⟩

/-! ## The rounds that the records name -/

/-- The identifiers in the manager are those of the recorded rounds, and the records name no
other. -/
structure Kept (rounds : ToolRounds F) : Prop where
  stores : rounds.session.Stores
  applied : rounds.session.manager.state.appliedUsageEffects =
    rounds.recorded.image Manager.toolRoundEffect
  named : appliedUsageHistory rounds.session.records ⊆
    rounds.session.manager.state.appliedUsageEffects

/-- A recorded round is not named in the records. -/
def Lost (rounds : ToolRounds F) : Prop :=
  ∃ roundCallId ∈ rounds.recorded,
    Manager.toolRoundEffect roundCallId ∉ appliedUsageHistory rounds.session.records

omit [DecidableEq F] in
lemma Kept.all (h : rounds.Kept) : rounds.Applied := fun _ hid =>
  h.applied ▸ Finset.mem_image_of_mem _ hid

lemma toolRoundEffect_injective : Function.Injective Manager.toolRoundEffect :=
  fun _ _ h => (String.append_right_inj _).1 h

/-- A round that is new is named by a delta and not by a checkpoint. -/
lemma Kept.counted {roundCallId : String} {calls : List ToolCallStat} {session : Session F}
    (h : rounds.Kept) (hnew : Manager.toolRoundEffect roundCallId ∉
      rounds.session.manager.state.appliedUsageEffects)
    (hwrites : rounds.session.Writes f
      (rounds.session.manager.recordToolCallsOnce f roundCallId calls) session) :
    (⟨session, insert roundCallId rounds.recorded⟩ : ToolRounds F).Kept ∧
      ((⟨session, insert roundCallId rounds.recorded⟩ : ToolRounds F).Lost ↔
        rounds.Lost ∨ rounds.Loses (.round roundCallId calls none)) := by
  have hchange : (rounds.session.manager.recordToolCallsOnce f roundCallId calls).changed = true ∧
      (rounds.session.manager.recordToolCallsOnce f roundCallId calls).state.appliedUsageEffects =
        insert (Manager.toolRoundEffect roundCallId)
          rounds.session.manager.state.appliedUsageEffects ∧
      rounds.session.manager.state.usage.seenToolCallFingerprints ⊆
        (rounds.session.manager.recordToolCallsOnce f
          roundCallId calls).state.usage.seenToolCallFingerprints := by
    rw [Manager.recordToolCallsOnce, if_neg hnew]
    exact ⟨rfl, rfl, subset_observeCalls _ _⟩
  obtain ⟨hchanged, hinsert, hseen⟩ := hchange
  have hstores := h.stores.writes hwrites fun hsame =>
    absurd (hchanged.symm.trans hsame) (by decide)
  have happlied : session.manager.state.appliedUsageEffects =
      (insert roundCallId rounds.recorded).image Manager.toolRoundEffect := by
    rw [hwrites.state, hinsert, h.applied, Finset.image_insert]
  have hsubset : rounds.session.manager.state.appliedUsageEffects ⊆
      session.manager.state.appliedUsageEffects := by
    rw [hwrites.state, hinsert]
    exact Finset.subset_insert _ _
  cases hwrites with
  | nothing hstate _ _ hsame =>
    obtain hsame | hsame := hsame
    · rw [hchanged] at hsame
      cases hsame
    · rw [hsame] at hinsert
      exact absurd (hinsert ▸ Finset.mem_insert_self _ _) hnew
  | @delta delta hstate _ hrecords hdelta hlt =>
    have hadded : delta.appliedUsageEffectsAdded = {Manager.toolRoundEffect roundCallId} := by
      rw [ResourceStateDelta.between_added hdelta, hinsert, Finset.insert_sdiff_of_notMem _ hnew,
        Finset.sdiff_self, insert_empty_eq]
    have hhistory : appliedUsageHistory session.records =
        insert (Manager.toolRoundEffect roundCallId)
          (appliedUsageHistory rounds.session.records) := by
      rw [hrecords, appliedUsageHistory_append_delta, hadded, Finset.union_comm,
        ← Finset.insert_eq]
    refine ⟨⟨hstores, happlied, ?_⟩, ?_⟩
    · rw [hhistory, hstate, hinsert]
      exact Finset.insert_subset_insert _ h.named
    · rw [or_iff_left fun hloses => (not_le.2 hlt) hloses.2.2]
      simp only [Lost, hhistory, Finset.mem_insert, not_or]
      constructor
      · rintro ⟨id, rfl | hid, hne, hlost⟩
        · exact absurd rfl hne
        · exact ⟨id, hid, hlost⟩
      · rintro ⟨id, hid, hlost⟩
        exact ⟨id, .inr hid, fun heq => hnew (heq ▸ h.all id hid), hlost⟩
  | checkpoint hstate _ hrecords hreason =>
    have hhistory : appliedUsageHistory session.records =
        appliedUsageHistory rounds.session.records := by
      rw [hrecords, appliedUsageHistory_append_checkpoint]
    refine ⟨⟨hstores, happlied, hhistory.trans_subset (h.named.trans hsubset)⟩, iff_of_true ?_ ?_⟩
    · exact ⟨roundCallId, Finset.mem_insert_self _ _, fun hmem => hnew (h.named (hhistory ▸ hmem))⟩
    · refine .inr ⟨rfl, hnew, hreason.resolve_left fun hnone => ?_⟩
      -- the sets only grow, so that there is a delta
      obtain ⟨_, hdelta, -⟩ :=
        ResourceStateDelta.between_eq_some (hstate ▸ hsubset) hseen
      rw [hdelta] at hnone
      cases hnone

/-- A round leaves what is named and adds at most itself. -/
lemma Kept.round {roundCallId : String} {calls : List ToolCallStat} {fault : Option String}
    (h : rounds.Kept) (hsteps : Steps f rounds (.round roundCallId calls fault) next) :
    next.Kept ∧ (next.Lost ↔ rounds.Lost ∨ rounds.Loses (.round roundCallId calls fault)) := by
  cases hsteps with
  | repeated happlied =>
    have hrecorded : insert roundCallId rounds.recorded = rounds.recorded := by
      rw [h.applied, Finset.mem_image] at happlied
      obtain ⟨_, hmem, heq⟩ := happlied
      exact Finset.insert_eq_of_mem (toolRoundEffect_injective heq ▸ hmem)
    rw [hrecorded]
    exact ⟨h, (or_iff_left fun hloses => hloses.2.1 happlied).symm⟩
  | counted hnew hwrites => exact h.counted hnew hwrites
  | refused =>
    refine ⟨⟨⟨h.stores.stored, h.stores.few⟩, h.applied, h.named⟩, (or_iff_left ?_).symm⟩
    rintro ⟨⟨⟩, -⟩

/-- A restart keeps what is named. -/
lemma Kept.restart {budget : ResourceBudget F} {hint : ℕ} {now : ℤ} {fault : Option String}
    (h : rounds.Kept) (hsteps : Steps f rounds (.restart budget hint now fault) next) :
    (next.Applied ↔ ¬ rounds.Lost) ∧ (¬ rounds.Lost → next.Kept ∧ ¬ next.Lost) := by
  cases hsteps with
  | restarted hattach =>
    obtain ⟨restored, hrestored, hrecords, hstores, -, happlied⟩ := h.stores.attach _ _ _
    rw [hattach] at hrestored
    cases hrestored
    simp only [Applied, Lost, happlied, hrecords, not_exists, not_and, not_not]
    refine ⟨trivial, fun hnamed => ⟨⟨hstores, ?_, ?_⟩, hnamed⟩⟩
    · show _ = rounds.recorded.image _
      rw [happlied, ← h.applied]
      refine h.named.antisymm ?_
      rw [h.applied, Finset.image_subset_iff]
      exact hnamed
    · show appliedUsageHistory _ ⊆ _
      rw [happlied, hrecords]

/-- Only a round that is applied can be repeated without a change. -/
lemma repeats_iff : rounds.Repeats f ↔ rounds.Applied := by
  constructor
  · intro hrepeats id hid
    by_contra hnew
    have hsame := hrepeats id hid [] none
    rw [step] at hsame
    refine hnew ?_
    revert hsame
    refine Session.withStateUpdate_ind (fun next hwrites hsame => ?_) fun _ _ hfault => ?_
    · have hstate := hwrites.state
      rw [show next = rounds.session from hsame] at hstate
      rw [hstate, Manager.recordToolCallsOnce, if_neg hnew]
      exact Finset.mem_insert_self _ _
    · exact absurd rfl hfault
  · intro happlied id hid calls fault
    simp only [step, Manager.recordToolCallsOnce, if_pos (happlied id hid)]
    rfl

/-! ## Whole runs -/

lemma run_counts (hstores : rounds.session.Stores) (h : rounds.usage.Counted)
    (events : List (RoundEvent F))
    (hfits : rounds.usage.toolCalls + (events.map RoundEvent.size).sum ≤ u64Max) :
    ((machine f).run rounds events).usage.Counted := by
  induction events generalizing rounds with
  | nil => exact h
  | cons event events ih =>
    rw [map_cons, sum_cons] at hfits
    obtain ⟨hnext, hcounts⟩ := (step_steps (f := f) hstores event).counts hstores
    obtain ⟨hcounted, hle⟩ := hcounts h (by omega)
    refine ih hnext hcounted ?_
    show (rounds.step f event).usage.toolCalls + _ ≤ _
    omega

/-- Recorded rounds stay applied unless a restart comes after one that the records do not name. -/
lemma trace_applied_iff (h : rounds.Kept) (events : List (RoundEvent F)) :
    (∀ x ∈ (machine f).trace rounds events, x.after.Applied) ↔
      ((machine f).trace rounds events).Pairwise
          (fun x y => x.before.Loses x.event → y.event.isRestart = false) ∧
        (rounds.Lost → ∀ x ∈ (machine f).trace rounds events, x.event.isRestart = false) := by
  induction events generalizing rounds with
  | nil => simp
  | cons event events ih =>
    have hsteps := step_steps (f := f) h.stores event
    rw [Machine.trace_cons, forall_mem_cons, forall_mem_cons, pairwise_cons]
    cases event with
    | round roundCallId calls fault =>
      obtain ⟨hkept, hlost⟩ := h.round hsteps
      have hrest := ih hkept
      rw [hlost] at hrest
      refine (and_iff_right hkept.all).trans (hrest.trans ⟨?_, ?_⟩)
      · rintro ⟨hpair, hlater⟩
        exact ⟨⟨fun y hy hloses => hlater (.inr hloses) y hy, hpair⟩,
          fun hlost => ⟨rfl, hlater (.inl hlost)⟩⟩
      · rintro ⟨⟨hloses, hpair⟩, hlost⟩
        exact ⟨hpair, Or.rec (fun h => (hlost h).2) fun h y hy => hloses y hy h⟩
    | restart budget hint now fault =>
      obtain ⟨happlied, hnext⟩ := h.restart hsteps
      by_cases hlost : rounds.Lost
      · exact iff_of_false (fun hall => happlied.1 hall.1 hlost)
          fun hall => Bool.noConfusion (hall.2 hlost).1
      · obtain ⟨hkept, hnamed⟩ := hnext hlost
        refine (and_iff_right (happlied.2 hlost)).trans ((ih hkept).trans ⟨?_, ?_⟩)
        · rintro ⟨hpair, -⟩
          exact ⟨⟨fun _ _ hloses => hloses.elim, hpair⟩, fun h => absurd h hlost⟩
        · rintro ⟨⟨-, hpair⟩, -⟩
          exact ⟨hpair, fun h => absurd h hnamed⟩

end ToolRounds

/-- In every run of tool rounds and restarts whose calls can be counted, every call was the first
with its fingerprint or a duplicate. Recording a round again changes nothing at any time exactly if
no restart comes after a new round that was written as a checkpoint. -/
theorem tool_rounds_counted [DecidableEq F] (f : F64 F) (budget : ResourceBudget F) (hint : ℕ)
    (created : ℤ) (fault : Option String) (records : List (Record F)) (session : Session F)
    (hfresh : storedState (.new f budget created hint) records = .ok none)
    (hattach : attach f (.new f budget created hint) created fault records = .ok session)
    (events : List (RoundEvent F)) (hfits : (events.map RoundEvent.size).sum ≤ u64Max) :
    let final := (ToolRounds.machine f).run ⟨session, ∅⟩ events
    let trace := (ToolRounds.machine f).trace ⟨session, ∅⟩ events
    final.usage.toolCalls =
        final.usage.duplicateToolCalls + final.usage.seenToolCallFingerprints.card ∧
      final.usage.usefulToolCalls ≤ final.usage.toolCalls ∧
      ((∀ x ∈ trace, x.after.Repeats f) ↔
        trace.Pairwise fun x y => x.before.Loses x.event → y.event.isRestart = false) := by
  obtain ⟨found, hfound, hstate, hwritten⟩ := attach_eq_ok hattach
  rw [hfresh] at hfound
  cases hfound
  obtain ⟨hrecords, hcount⟩ | ⟨p, habsurd, -⟩ := hwritten
  swap
  · cases habsurd
  have hkept : (⟨session, ∅⟩ : ToolRounds F).Kept := by
    refine ⟨.of_checkpoint hrecords hcount, ?_, ?_⟩
    · rw [hstate]
      rfl
    · show appliedUsageHistory session.records ⊆ _
      rw [hrecords, appliedUsageHistory_append, appliedUsageHistory_eq_empty hfresh]
      exact (Finset.union_empty _).trans_subset (Finset.empty_subset _)
  have husage : session.manager.state.usage = .fresh f := by
    rw [hstate]
    rfl
  have hcounted : (⟨session, ∅⟩ : ToolRounds F).usage.Counted := by
    rw [ToolRounds.usage, husage]
    exact ⟨rfl, le_rfl⟩
  obtain ⟨hcalls, huseful⟩ := ToolRounds.run_counts (f := f) hkept.stores hcounted events (by
    rw [ToolRounds.usage, husage]
    exact (Nat.zero_add _).trans_le hfits)
  refine ⟨hcalls, huseful, ?_⟩
  simp only [ToolRounds.repeats_iff]
  refine (ToolRounds.trace_applied_iff hkept events).trans (and_iff_left ?_)
  rintro ⟨_, hmem, -⟩
  cases hmem

/-! ## A round at the checkpoint -/

/-- A round of one call after `n` rounds without calls, then a restart. -/
def roundsThenRestart (n : ℕ) : List (RoundEvent ℕ) :=
  (List.range n).map (fun index => .round (toString index) [] none) ++
    [.round "last" [⟨"call", .executed⟩] none, .restart {} 4 2 none]

theorem tool_rounds_counted_few : ∃ session,
    attach wholeUnits (.new wholeUnits {} 1 4) 1 none [] = .ok session ∧
    let final := (ToolRounds.machine wholeUnits).run ⟨session, ∅⟩ (roundsThenRestart 2)
    final.usage.toolCalls =
        final.usage.duplicateToolCalls + final.usage.seenToolCallFingerprints.card ∧
      final.usage.toolCalls = 1 :=
  ⟨_, rfl, (tool_rounds_counted wholeUnits {} 4 1 none [] _ rfl rfl (roundsThenRestart 2)
    (by decide)).1, by decide +kernel⟩

/-- The 64th round is written as a checkpoint: after the restart it is counted again. -/
theorem round_counted_again : ∃ session,
    attach wholeUnits (.new wholeUnits {} 1 4) 1 none [] = .ok session ∧
    let restarted := (ToolRounds.machine wholeUnits).run ⟨session, ∅⟩ (roundsThenRestart 63)
    "last" ∈ restarted.recorded ∧ restarted.usage.toolCalls = 1 ∧
      (restarted.step wholeUnits (.round "last" [⟨"call", .executed⟩] none)).usage.toolCalls = 2 :=
  ⟨_, rfl, by decide +kernel⟩

end SolarisMesh.Resource
