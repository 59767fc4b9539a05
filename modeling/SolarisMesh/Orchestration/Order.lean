import SolarisMesh.Lib.Checked
import SolarisMesh.Orchestration.ToolCalls

/-!
# Tool calls are answered in order

Both loops follow the batching loop: each call is one item of it, whose action is read off
the answers that the runtime gives for the call.
-/

namespace SolarisMesh.Orchestration

open List Lib ToolUse
open CallOutcome (entry isUnknown)
open Lib.Batch (Action Item Loop)

variable {M D : Type}

/-! ## Calls as items -/

/-- The action of a call that is answered with an error. -/
def rejection (status : ToolStatus) : Action :=
  .answer false (status == .outcomeUnknown) (status == .outcomeUnknown)

namespace ToolUse

variable (call : ToolUse M D) (concurrencySafe : Bool)

def proceedAction : Action :=
  match call.preToolGuard with
  | some (_, isOutcomeUnknown) => rejection (if isOutcomeUnknown then .outcomeUnknown else .denied)
  | none =>
    if concurrencySafe then .defer false call.executes call.outcome.isUnknown
    else .execute call.executes call.outcome.isUnknown

def approveAction : Action :=
  match call.issueLease with
  | .error _ => rejection .failed
  | .ok () =>
    match call.recordApproved with
    | .error _ => rejection .failed
    | .ok () =>
      if call.approvedEvaluation ≠ .allow then rejection .denied
      else call.proceedAction concurrencySafe

/-- A call that ends the round with `Quit` has no action of its own. -/
def confirmAction : Action :=
  match call.confirmation with
  | none => rejection .failed
  | some .approvedOnce | some .approvedAlways => call.approveAction concurrencySafe
  | some .denied => rejection .denied
  | some .quit => rejection .aborted

def requestApprovalAction : Action :=
  match if call.legacyAllowed then some .approved else call.hostApproval with
  | none => rejection .aborted
  | some (.denied _) => rejection .denied
  | some .approved =>
    match call.sessionFence with
    | .error _ => rejection .aborted
    | .ok () => call.approveAction concurrencySafe

variable (isError : Bool) (output : StoredOutput M D)

/-- The status that a durable outcome is replayed with; `none` when it is not replayed and
stops the round. -/
def replayed : Option ToolStatus :=
  match call.preHookHistory, DurableToolOutcome.decode output isError, call.postHooks with
  | .ok (), .ok recovered, .ok () =>
    if recovered.isLegacy && call.tool.any (·.changesContext) then none
    else some recovered.replayStatus
  | _, _, _ => none

def reuseAction : Action :=
  match call.replayed isError output with
  | none => .answer true true true
  | some status => .answer true (status == .outcomeUnknown) false

def takeUpAction (ask : ToolUse M D → Bool → Action) (call : ToolUse M D)
    (concurrencySafe : Bool) : Action :=
  match call.prepareToolEffect with
  | .error reason => rejection (call.unavailableToolRecovery reason).2
  | .ok () =>
    match call.recovery with
    | .error _ | .ok (.reconcile _) => rejection .outcomeUnknown
    | .ok (.reuse isError output) => call.reuseAction isError output
    | .ok .execute =>
      match call.recordDecision with
      | .error _ => rejection .failed
      | .ok () =>
        match call.evaluation with
        | .deny => rejection .denied
        | .ask | .autoReview => (ask call concurrencySafe).afterFlush
        | .allow => call.proceedAction concurrencySafe

def enterAction (ask : ToolUse M D → Bool → Action) (call : ToolUse M D)
    (concurrencySafe : Bool) : Action :=
  if concurrencySafe then takeUpAction ask call true else (takeUpAction ask call false).rechecked

def policyItem : Item String where
  id := call.id
  action :=
    match call.tool with
    | none => rejection (call.unavailableToolRecovery ("Unknown tool: " ++ call.name)).2
    | some tool => enterAction confirmAction call tool.isConcurrencySafe

def approvalItem : Item String where
  id := call.id
  action := enterAction requestApprovalAction call (call.tool.any (·.isConcurrencySafe))

/-! ## A call that is not concurrency-safe is never deferred -/

lemma proceedAction_not_defers : (call.proceedAction false).defers = false := by
  unfold proceedAction
  split <;> rfl

lemma approveAction_not_defers : (call.approveAction false).defers = false := by
  unfold approveAction
  split
  · rfl
  · split
    · rfl
    · split
      · rfl
      · exact call.proceedAction_not_defers

lemma confirmAction_not_defers : (call.confirmAction false).defers = false := by
  unfold confirmAction
  split
  · rfl
  · exact call.approveAction_not_defers
  · exact call.approveAction_not_defers
  · rfl
  · rfl

lemma requestApprovalAction_not_defers : (call.requestApprovalAction false).defers = false := by
  unfold requestApprovalAction
  split
  · rfl
  · rfl
  · split
    · rfl
    · exact call.approveAction_not_defers

lemma reuseAction_not_defers : (call.reuseAction isError output).defers = false := by
  unfold reuseAction
  split <;> rfl

lemma takeUpAction_not_defers {ask : ToolUse M D → Bool → Action} {call : ToolUse M D}
    (h : (ask call false).defers = false) : (takeUpAction ask call false).defers = false := by
  unfold takeUpAction
  split
  · rfl
  · split
    · rfl
    · rfl
    · exact reuseAction_not_defers ..
    · split
      · rfl
      · split
        · rfl
        · simpa using h
        · simpa using h
        · exact call.proceedAction_not_defers

end ToolUse

/-! ## The loops follow the batching loop -/

@[simp] lemma ToolUse.outcome_toolUseId (call : ToolUse M D) :
    call.outcome.block.toolUseId = call.id := by
  have hexecute : call.executeSingleWithEffectContext.block.toolUseId = call.id := by
    unfold executeSingleWithEffectContext
    split
    · rfl
    · split <;> rfl
  unfold outcome
  dsimp only
  split
  · exact hexecute
  · rfl
  · exact hexecute

/-- What is answered is what the rounds record. -/
structure Recorded (round : ToolRound M D) : Prop where
  results : round.results.map (·.toolUseId) = round.rounds.flatten.map (·.id)
  statuses : round.statuses.map (· == .outcomeUnknown) = round.rounds.flatten.map (·.unknown)
  modifiers : round.modifiers.length = round.results.length

/-- The round is where the batching loop is. -/
structure Follows (l : Loop String) (round : ToolRound M D) : Prop where
  log : l.log = round.rounds
  pending : l.pending.map Item.entry =
    round.pendingSafe.map fun call => call.outcome.entry call.executes
  stop : l.stop = round.stopAfterUnknown
  recorded : Recorded round

namespace Follows

variable {l : Loop String} {round : ToolRound M D} {call : ToolUse M D}

lemma start : Follows .start (.new : ToolRound M D) :=
  ⟨rfl, rfl, rfl, rfl, rfl, rfl⟩

/-- A batch is pushed call by call. -/
lemma foldl_push (calls : List (ToolUse M D)) (round : ToolRound M D) :
    let flushed := calls.foldl (fun round call => round.push call.outcome) round
    flushed.results = round.results ++ calls.map (·.outcome.block) ∧
      flushed.statuses = round.statuses ++ calls.map (·.outcome.status) ∧
      flushed.modifiers = round.modifiers ++ calls.map (·.outcome.modifier) := by
  induction calls generalizing round with
  | nil => simp
  | cons call calls ih => simpa [ToolRound.push] using ih (round.push call.outcome)

section

variable (h : Follows l round)
include h

lemma flush : Follows l.flush round.flushSafe := by
  unfold Loop.flush ToolRound.flushSafe
  have hpending := h.pending
  split
  · next hnil =>
    rw [hnil] at hpending
    have hnil' : round.pendingSafe = [] := by simpa using hpending.symm
    rw [hnil']
    exact h
  · next hne =>
    split
    · next hnil' =>
      rw [hnil'] at hpending
      exact absurd (by simpa using hpending) hne
    · obtain ⟨hresults, hstatuses, hmodifiers⟩ := foldl_push round.pendingSafe round
      refine ⟨by rw [h.log, hpending], rfl, ?_, ?_, ?_, ?_⟩
      · have hany : l.pending.any (·.entry.unknown) =
          (l.pending.map Item.entry).any (·.unknown) := by
          rw [any_map]
          rfl
        rw [hany, hpending, any_map, h.stop]
        rfl
      · simp [hresults, h.recorded.results, entry, Function.comp_def]
      · simp [hstatuses, h.recorded.statuses, entry, isUnknown,
          Function.comp_def]
      · simp [hresults, hmodifiers, h.recorded.modifiers]

/-- One call ends in a round of its own. -/
lemma conclude (outcome : CallOutcome M D) (ran stops : Bool) :
    Follows { l with log := l.log ++ [[outcome.entry ran]], stop := l.stop || stops }
      { round.conclude outcome ran with stopAfterUnknown := round.stopAfterUnknown || stops } where
  log := by rw [h.log]; rfl
  pending := h.pending
  stop := by rw [h.stop]
  recorded := by
    refine ⟨?_, ?_, ?_⟩
    · simp [ToolRound.conclude, ToolRound.push, h.recorded.results, entry]
    · simp [ToolRound.conclude, ToolRound.push, h.recorded.statuses, entry,
        isUnknown]
    · simp [ToolRound.conclude, ToolRound.push, h.recorded.modifiers]

lemma skip (action : Action) : Follows (l.skip ⟨call.id, action⟩) (round.skip call) := by
  have hskip := h.conclude ⟨skippedAfterReconciliation call.id, none, .aborted, none⟩ false false
  rw [Bool.or_false, Bool.or_false] at hskip
  exact hskip

lemma answer (recheck : Bool) (content : String) (status : ToolStatus) :
    Follows (l.put ⟨call.id, .answer recheck (status == .outcomeUnknown)
      (status == .outcomeUnknown)⟩) (round.answer call content status) :=
  h.conclude ⟨permissionErrorResult call.id content, none, status, none⟩ false _

lemma reject (content : String) (status : ToolStatus) :
    Follows (l.perform ⟨call.id, rejection status⟩) (round.reject call content status) :=
  h.flush.answer false content status

lemma unavailable (reason : String) :
    Follows (l.perform ⟨call.id, rejection (call.unavailableToolRecovery reason).2⟩)
      (round.unavailable call reason) :=
  h.reject _ _

lemma reuse (isError : Bool) (output : StoredOutput M D) :
    Follows (l.perform ⟨call.id, call.reuseAction isError output⟩)
      (round.reuse call isError output) := by
  have hflush := h.flush
  unfold ToolRound.reuse reuseAction replayed
  dsimp only
  by_cases hstop : round.flushSafe.stopAfterUnknown = true
  · have hstop' : l.flush.stop = true := hflush.stop.trans hstop
    rw [if_pos hstop]
    split
    · simpa [Loop.perform, hstop'] using hflush.skip _
    · simpa [Loop.perform, hstop'] using hflush.skip _
  · have hstop' : l.flush.stop = false := by simpa [hflush.stop] using hstop
    rw [if_neg hstop]
    have hperform : ∀ unknown stops, l.perform ⟨call.id, .answer true unknown stops⟩ =
        l.flush.put ⟨call.id, .answer true unknown stops⟩ := fun unknown stops => by
      simp [Loop.perform, hstop']
    have hunknown : ∀ content, Follows (l.perform ⟨call.id, .answer true true true⟩)
        (round.flushSafe.answer call content .outcomeUnknown) := fun content => by
      rw [hperform]
      exact hflush.answer true content .outcomeUnknown
    cases call.preHookHistory with
    | error error => exact hunknown _
    | ok =>
      cases DurableToolOutcome.decode output isError with
      | error reason => exact hunknown _
      | ok recovered =>
        have hrecovered : ∀ outcome : CallOutcome M D, ∀ unknown stops,
            outcome.entry false = ⟨call.id, unknown, false⟩ →
            Follows (l.perform ⟨call.id, .answer true unknown stops⟩)
              { round.flushSafe.conclude outcome false with
                stopAfterUnknown := round.flushSafe.stopAfterUnknown || stops } := by
          intro outcome unknown stops hentry
          have hend := hflush.conclude outcome false stops
          rw [hentry] at hend
          rw [hperform]
          exact hend
        cases call.postHooks with
        | error error =>
          dsimp only
          split
          · exact hunknown _
          · simpa using hrecovered (postHookOutcomeUnknown call.id error) true true rfl
        | ok =>
          dsimp only
          by_cases hlegacy : (recovered.isLegacy && call.tool.any (·.changesContext)) = true
          · rw [if_pos hlegacy, if_pos hlegacy]
            exact hunknown _
          · rw [if_neg hlegacy, if_neg hlegacy]
            have hend := hrecovered ⟨⟨call.id, recovered.content, recovered.isError⟩,
              recovered.modifier, recovered.replayStatus, recovered.metadata⟩ _ false rfl
            rw [Bool.or_false] at hend
            exact hend

end

/-- A call that is not concurrency-safe is taken up behind a flush. -/
def Ready (l : Loop String) (concurrencySafe : Bool) : Prop :=
  concurrencySafe = false → l.pending = [] ∧ l.stop = false

variable {concurrencySafe : Bool} {round' : ToolRound M D}

lemma Ready.flush (h : Ready l concurrencySafe) : Ready l.flush concurrencySafe := by
  intro hsafe
  obtain ⟨hpending, hstop⟩ := h hsafe
  rw [Loop.flush_of_nil hpending]
  exact ⟨hpending, hstop⟩

lemma proceed (h : Follows l round) (hready : Ready l concurrencySafe) :
    Follows (l.perform ⟨call.id, call.proceedAction concurrencySafe⟩)
      (round.proceed call concurrencySafe) := by
  unfold ToolRound.proceed proceedAction
  cases call.preToolGuard with
  | some error => exact h.reject _ _
  | none =>
    cases concurrencySafe with
    | true =>
      refine ⟨h.log, ?_, h.stop, h.recorded.results, h.recorded.statuses, h.recorded.modifiers⟩
      simp [Loop.perform, h.pending, Item.entry, entry]
    | false =>
      obtain ⟨hpending, hstop⟩ := hready rfl
      have hperform : l.perform ⟨call.id, .execute call.executes call.outcome.isUnknown⟩ =
          l.put ⟨call.id, .execute call.executes call.outcome.isUnknown⟩ := by
        simp [Loop.perform, Loop.flush_of_nil hpending, hstop]
      have hend := h.conclude call.outcome call.executes call.outcome.isUnknown
      simp only [entry, outcome_toolUseId] at hend
      dsimp only
      rw [if_neg (by simp), if_neg (by simp), hperform]
      exact hend

lemma approve (h : Follows l round) (hready : Ready l concurrencySafe) :
    Follows (l.perform ⟨call.id, call.approveAction concurrencySafe⟩)
      (round.approve call concurrencySafe) := by
  unfold ToolRound.approve approveAction
  cases call.issueLease with
  | error => exact h.reject _ _
  | ok =>
    cases call.recordApproved with
    | error => exact h.reject _ _
    | ok =>
      dsimp only
      by_cases hallow : call.approvedEvaluation ≠ .allow
      · rw [if_pos hallow, if_pos hallow]
        exact h.reject _ _
      · rw [if_neg hallow, if_neg hallow]
        exact h.proceed hready

/-- An approval is asked for behind a flush; it says what the call's item does. -/
def Asks (ask : ToolRound M D → ToolUse M D → Bool → Except ExecutionControl (ToolRound M D))
    (action : ToolUse M D → Bool → Action) : Prop :=
  ∀ ⦃l round call concurrencySafe round'⦄, Follows l round → l.pending = [] →
    Ready l concurrencySafe → ask round call concurrencySafe = .ok round' →
      Follows (l.perform ⟨call.id, action call concurrencySafe⟩) round'

lemma confirm_asks : Asks (M := M) (D := D) ToolRound.confirm confirmAction := by
  intro l round call concurrencySafe round' h hpending hready hask
  unfold ToolRound.confirm at hask
  unfold confirmAction
  cases hconfirmation : call.confirmation with
  | none =>
    simp only [hconfirmation] at hask
    cases hask
    rw [← Loop.flush_of_nil hpending] at h
    exact h.answer false "tool confirmation state unavailable" .failed
  | some confirmation =>
    simp only [hconfirmation] at hask
    cases confirmation with
    | approvedOnce | approvedAlways =>
      cases hask
      exact h.approve hready
    | denied =>
      cases hask
      exact h.reject _ _
    | quit => cases hask

lemma requestApproval_asks :
    Asks (M := M) (D := D) ToolRound.requestApproval requestApprovalAction := by
  intro l round call concurrencySafe round' h _ hready hask
  unfold ToolRound.requestApproval at hask
  unfold requestApprovalAction
  generalize (if call.legacyAllowed then some .approved else call.hostApproval) = approval
    at hask ⊢
  cases approval with
  | none => cases hask
  | some approval =>
    cases approval with
    | denied reason =>
      cases hask
      exact h.reject _ _
    | approved =>
      dsimp only at hask ⊢
      cases hfence : call.sessionFence with
      | error error =>
        simp only [hfence] at hask
        cases hask
        exact h.reject _ _
      | ok =>
        simp only [hfence] at hask
        cases hask
        exact h.approve hready

/-- The call was taken up behind a flush. -/
lemma perform_afterFlush {action : Action} {id : String}
    (h : Follows (l.flush.perform ⟨id, action⟩) round) :
    Follows (l.perform ⟨id, action.afterFlush⟩) round := by
  cases action with
  | answer | execute => simpa [Loop.perform, Action.afterFlush] using h
  | defer asked ran unknown =>
    have hpending := h.pending
    cases asked <;> exact ⟨by simpa [Loop.perform, Action.afterFlush] using h.log,
      by simpa [Loop.perform, Action.afterFlush, Item.entry] using hpending,
      by simpa [Loop.perform, Action.afterFlush] using h.stop, h.recorded⟩

variable {ask : ToolRound M D → ToolUse M D → Bool → Except ExecutionControl (ToolRound M D)}
  {action : ToolUse M D → Bool → Action}

lemma takeUp (hasks : Asks ask action) (h : Follows l round) (hready : Ready l concurrencySafe)
    (htake : round.takeUp ask call concurrencySafe = .ok round') :
    Follows (l.perform ⟨call.id, takeUpAction action call concurrencySafe⟩) round' := by
  have hasked : ask round.flushSafe call concurrencySafe = .ok round' →
      Follows (l.perform ⟨call.id, (action call concurrencySafe).afterFlush⟩) round' := by
    intro hask
    exact perform_afterFlush (hasks h.flush l.flush_pending hready.flush hask)
  revert htake
  unfold takeUpAction
  -- the two cases that ask are closed by `hasked` here
  fun_cases ToolRound.takeUp <;> intro htake <;> simp only [*]
  all_goals cases htake
  case case1 => exact h.unavailable _
  case case4 => exact h.reuse _ _
  case case9 => exact h.proceed hready
  all_goals exact h.reject _ _

lemma enter (hasks : Asks ask action) (hdefers : ∀ call, (action call false).defers = false)
    (h : Follows l round) (henter : round.enter ask call concurrencySafe = .ok round') :
    Follows (l.perform ⟨call.id, enterAction action call concurrencySafe⟩) round' := by
  unfold ToolRound.enter at henter
  unfold enterAction
  cases concurrencySafe with
  | true => exact takeUp hasks h (by simp [Ready]) henter
  | false =>
    have hflush := h.flush
    have hdefers' := takeUpAction_not_defers (hdefers call)
    rw [if_neg (by simp), Loop.perform_rechecked l call.id hdefers']
    rw [if_neg (by simp)] at henter
    dsimp only at henter
    by_cases hstop : round.flushSafe.stopAfterUnknown = true
    · rw [if_pos hstop] at henter
      rw [if_pos (hflush.stop.trans hstop)]
      cases henter
      exact hflush.skip _
    · have hstop' : l.flush.stop = false := by simpa [hflush.stop] using hstop
      rw [if_neg hstop] at henter
      rw [if_neg (by simp [hstop'])]
      exact takeUp hasks hflush (fun _ => ⟨l.flush_pending, hstop'⟩) henter

/-- A call of a stopped round is skipped. -/
lemma step {item : Item String} {body : Except ExecutionControl (ToolRound M D)}
    (h : Follows l round) (hid : item.id = call.id)
    (hcall : (if round.stopAfterUnknown then .ok (round.skip call) else body) = .ok round')
    (hbody : body = .ok round' → Follows (l.perform item) round') : Follows (l.step item)
      round' := by
  unfold Loop.step
  by_cases hstop : round.stopAfterUnknown = true
  · rw [if_pos hstop] at hcall
    rw [if_pos (h.stop.trans hstop), Loop.skip, hid]
    cases hcall
    exact h.skip item.action
  · rw [if_neg hstop] at hcall
    rw [if_neg (by simpa [h.stop] using hstop)]
    exact hbody hcall

lemma policyCall (h : Follows l round) (hcall : round.policyCall call = .ok round') :
    Follows (l.step call.policyItem) round' := by
  refine h.step rfl hcall fun hcall => ?_
  unfold policyItem
  cases htool : call.tool with
  | none =>
    simp only [htool] at hcall
    cases hcall
    exact h.unavailable _
  | some tool =>
    simp only [htool] at hcall
    exact enter confirm_asks confirmAction_not_defers h hcall

lemma approvalCall (h : Follows l round) (hcall : round.approvalCall call = .ok round') :
    Follows (l.step call.approvalItem) round' :=
  h.step rfl hcall (enter requestApproval_asks requestApprovalAction_not_defers h)

/-- A loop whose body follows the batching loop does so to its end. -/
lemma loop {body : ToolRound M D → ToolUse M D → Except ExecutionControl (ToolRound M D)}
    {item : ToolUse M D → Item String}
    (hbody : ∀ ⦃l round call round'⦄, Follows l round → body round call = .ok round' →
      Follows (l.step (item call)) round') {blocks : List (ContentBlock M D)}
    (hloop : ToolRound.loop body blocks = .ok round) :
    Follows (Loop.run ((toolUses blocks).map item)) round := by
  unfold ToolRound.loop at hloop
  obtain ⟨last, hlast, hflush⟩ := bind_eq_ok.mp hloop
  cases hflush
  refine Follows.flush ?_
  have h : Follows Loop.start (ToolRound.new : ToolRound M D) := start
  generalize Loop.start = l at h ⊢
  generalize ToolRound.new = first at h hlast
  clear hloop
  induction blocks generalizing l first with
  | nil =>
    cases hlast
    exact h
  | cons block blocks ih =>
    rw [foldlM_cons] at hlast
    obtain ⟨next, hnext, hrest⟩ := bind_eq_ok.mp hlast
    cases block with
    | other =>
      cases hnext
      exact ih l _ h hrest
    | toolUse call => exact ih _ next (hbody h hnext) hrest

end Follows

/-! ## Both loops -/

/-- Results, modifiers and statuses are of equal length, the i-th result carries the id of
the i-th call, and no tool is run for a call behind one that had already ended with an
unknown outcome. -/
structure AnsweredInOrder (calls : List (ToolUse M D)) (round : ToolRound M D) : Prop where
  modifiers : round.modifiers.length = round.results.length
  statuses : round.statuses.length = round.results.length
  results : round.results.map (·.toolUseId) = calls.map (·.id)
  stops : Batch.StopsAfterUnknown (calls.map (·.id)) round.rounds

lemma Follows.answeredInOrder_iff {calls : List (ToolUse M D)} {round : ToolRound M D}
    {item : ToolUse M D → Item String} (hid : ∀ call, (item call).id = call.id)
    (hnodup : (calls.map (·.id)).Nodup) (h : Follows (Loop.run (calls.map item)) round) :
    AnsweredInOrder calls round ↔ Batch.Orderly (calls.map item) := by
  have hids : (calls.map item).map (·.id) = calls.map (·.id) := by
    simp [Function.comp_def, hid]
  rw [← Batch.run_sound_iff (by rwa [hids]), hids, h.log]
  constructor
  · intro hanswered
    exact ⟨h.recorded.results.symm.trans hanswered.results, hanswered.stops⟩
  · rintro ⟨horder, hstops⟩
    have hresults := congrArg List.length h.recorded.results
    have hstatuses := congrArg List.length h.recorded.statuses
    simp only [length_map] at hresults hstatuses
    exact ⟨h.recorded.modifiers, by omega, h.recorded.results.trans horder, hstops⟩

/-- A round that does not quit answers its calls in order exactly when the calls are orderly
items. -/
theorem tool_calls_answered_in_order_iff (blocks : List (ContentBlock M D))
    (hnodup : ((toolUses blocks).map (·.id)).Nodup) :
    (∀ round, executeToolCallsWithPolicyContext blocks = .ok round →
      (AnsweredInOrder (toolUses blocks) round ↔
        Batch.Orderly ((toolUses blocks).map policyItem))) ∧
    (∀ round, executeToolCallsWithApprovalContext blocks = .ok round →
      (AnsweredInOrder (toolUses blocks) round ↔
        Batch.Orderly ((toolUses blocks).map approvalItem))) := by
  constructor
  · intro round hround
    have hfollows : Follows (Loop.run ((toolUses blocks).map policyItem)) round :=
      Follows.loop (fun _ _ _ _ h hcall => h.policyCall hcall) hround
    exact hfollows.answeredInOrder_iff (fun _ => rfl) hnodup
  · intro round hround
    have hfollows : Follows (Loop.run ((toolUses blocks).map approvalItem)) round :=
      Follows.loop (fun _ _ _ _ h hcall => h.approvalCall hcall) hround
    exact hfollows.answeredInOrder_iff (fun _ => rfl) hnodup

/-! ## Where the order is lost -/

/-- A concurrency-safe call that is allowed and ends well. -/
def readCall (id : String) : ToolUse Unit Unit where
  id := id
  name := "Read"
  tool := some ⟨true, false⟩
  exactEffectIntentExists := .ok false
  prepareToolEffect := .ok ()
  recovery := .ok .execute
  preHookHistory := .ok ()
  postHooks := .ok ()
  evaluation := .allow
  evaluationReason := ""
  recordDecision := .ok ()
  confirmation := some .approvedOnce
  legacyAllowed := false
  hostApproval := some .approved
  sessionFence := .ok ()
  issueLease := .ok ()
  approvedEvaluation := .allow
  recordApproved := .ok ()
  preToolGuard := none
  execution := .ran "done" false none .executed none .committed

/-- The call runs, but its outcome cannot be established. -/
def lostCall (id : String) : ToolUse Unit Unit :=
  { readCall id with execution := .ran "lost" true none .outcomeUnknown none .committed }

/-- The call has to be approved. -/
def askedCall (id : String) : ToolUse Unit Unit := { readCall id with evaluation := .ask }

/-- The call ended with an unknown outcome in an earlier round, which was stored. -/
def replayedCall (id : String) : ToolUse Unit Unit :=
  { readCall id with recovery := .ok (.reuse true (.v1 "lost" true .outcomeUnknown none none)) }

/-- One batch, in which the last call is lost. -/
def readBatch : List (ContentBlock Unit Unit) :=
  [.toolUse (readCall "a"), .other, .toolUse (lostCall "b")]

lemma readBatch_orderly (item : ToolUse Unit Unit → Item String)
    (ha : item (readCall "a") = ⟨"a", .defer false true false⟩)
    (hb : item (lostCall "b") = ⟨"b", .defer false true true⟩) :
    Batch.Orderly ((toolUses readBatch).map item) := by
  have hitems : (toolUses readBatch).map item =
      [⟨"a", .defer false true false⟩, ⟨"b", .defer false true true⟩] := by
    simp [toolUses, readBatch, ha, hb]
  have hlive : Batch.live ((toolUses readBatch).map item) = (toolUses readBatch).map item := by
    rw [hitems]
    rfl
  refine ⟨?_, ?_⟩
  · rw [hlive, hitems]
    simp [Batch.ToleratedQuietly, Item.tolerated, Item.entry, Item.stops]
  · intro d post hrest
    rw [hlive] at hrest
    simp at hrest

theorem readBatch_answered_in_order :
    (∃ round, executeToolCallsWithPolicyContext readBatch = .ok round ∧
      AnsweredInOrder (toolUses readBatch) round) ∧
    (∃ round, executeToolCallsWithApprovalContext readBatch = .ok round ∧
      AnsweredInOrder (toolUses readBatch) round) := by
  have hcalls := tool_calls_answered_in_order_iff readBatch (by decide)
  exact ⟨⟨_, rfl, (hcalls.1 _ rfl).mpr (readBatch_orderly _ rfl rfl)⟩,
    ⟨_, rfl, (hcalls.2 _ rfl).mpr (readBatch_orderly _ rfl rfl)⟩⟩

/-- The second call is approved after the first one was lost: it still runs, and is answered
behind the third. -/
def askedAfterLost : List (ContentBlock Unit Unit) :=
  [.toolUse (lostCall "a"), .toolUse (askedCall "b"), .toolUse (readCall "c")]

/-- The first call is known to be lost, and the second one still runs. -/
def readAfterReplayed : List (ContentBlock Unit Unit) :=
  [.toolUse (replayedCall "a"), .toolUse (readCall "b")]

lemma askedAfterLost_not_answered {round : ToolRound Unit Unit}
    (h : round.results.map (·.toolUseId) = ["a", "c", "b"]) :
    ¬ AnsweredInOrder (toolUses askedAfterLost) round := by
  intro hanswered
  have horder := h.symm.trans hanswered.results
  revert horder
  decide

lemma readAfterReplayed_not_answered {round : ToolRound Unit Unit}
    (h : round.rounds = [[⟨"a", true, false⟩], [⟨"b", false, true⟩]]) :
    ¬ AnsweredInOrder (toolUses readAfterReplayed) round := by
  intro hanswered
  have hstops := hanswered.stops
  rw [h] at hstops
  have hpair := rel_of_pairwise_cons hstops (mem_singleton.mpr rfl)
  exact hpair _ (mem_singleton.mpr rfl) rfl _ (mem_singleton.mpr rfl) rfl
    (List.Sublist.refl _)

theorem tool_calls_not_answered_in_order :
    ((toolUses askedAfterLost).map (·.id)).Nodup ∧
    ((toolUses readAfterReplayed).map (·.id)).Nodup ∧
    (∃ round, executeToolCallsWithPolicyContext askedAfterLost = .ok round ∧
      ¬ AnsweredInOrder (toolUses askedAfterLost) round) ∧
    (∃ round, executeToolCallsWithApprovalContext askedAfterLost = .ok round ∧
      ¬ AnsweredInOrder (toolUses askedAfterLost) round) ∧
    (∃ round, executeToolCallsWithPolicyContext readAfterReplayed = .ok round ∧
      ¬ AnsweredInOrder (toolUses readAfterReplayed) round) ∧
    (∃ round, executeToolCallsWithApprovalContext readAfterReplayed = .ok round ∧
      ¬ AnsweredInOrder (toolUses readAfterReplayed) round) :=
  ⟨by decide, by decide, ⟨_, rfl, askedAfterLost_not_answered rfl⟩,
    ⟨_, rfl, askedAfterLost_not_answered rfl⟩,
    ⟨_, rfl, readAfterReplayed_not_answered rfl⟩, ⟨_, rfl, readAfterReplayed_not_answered rfl⟩⟩

end SolarisMesh.Orchestration
