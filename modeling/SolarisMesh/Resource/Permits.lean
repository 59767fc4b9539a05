import SolarisMesh.Lib.Machine
import SolarisMesh.Resource.Restore

/-!
# Permits for agents and effects

A manager together with the permits it has given out and that are still held. Permits are admitted
and dropped in any order while budgets change, usage is recorded and the ledger refuses records.
-/

namespace SolarisMesh.Resource

open List Lib

variable {F : Type}

/-! ## Holders -/

/-- The operations that give out and take back permits for agents and effects. -/
def Operation.isAdmission : Operation F → Bool
  | tryAcquireAgent _ | tryAcquireReattachedAgent _ | tryAcquireEffect | releaseAgent
  | releaseEffect => true
  | _ => false

/-- The manager and the permits that are held, each by the number under which it was given out. A
permit is released once: by `release` or when it is dropped. -/
structure Holders (F : Type) where
  session : Session F
  agents : List ℕ
  effects : List ℕ
  given : ℕ

inductive PermitCall (F : Type) where
  | acquireAgent (depth : ℕ)
  | acquireReattachedAgent (depth : ℕ)
  | acquireEffect
  | dropAgent (permit : ℕ)
  | dropEffect (permit : ℕ)
  | other (operation : { operation : Operation F // operation.isAdmission = false })

/-- A call with what the clock and the ledger answer. -/
structure PermitRequest (F : Type) where
  call : PermitCall F
  now : ℤ
  fault : Option String := none

namespace Holders

variable [DecidableEq F] (f : F64 F)

/-- Runs an operation of the manager; whether it succeeds. -/
def perform (holders : Holders F) (request : PermitRequest F) (operation : Operation F) :
    Bool × Session F :=
  match holders.session.withStateUpdate f request.fault
      (operation.update f holders.session.manager request.now) with
  | (.ok admitted, session) => (admitted, session)
  | (.error _, session) => (false, session)

def step (holders : Holders F) (request : PermitRequest F) : Holders F × Bool :=
  match request.call with
  | .acquireAgent depth =>
    let (admitted, session) := holders.perform f request (.tryAcquireAgent depth)
    ({ holders with
        session
        agents := if admitted then holders.given :: holders.agents else holders.agents
        given := holders.given + 1 }, admitted)
  | .acquireReattachedAgent depth =>
    let (admitted, session) := holders.perform f request (.tryAcquireReattachedAgent depth)
    ({ holders with
        session
        agents := if admitted then holders.given :: holders.agents else holders.agents
        given := holders.given + 1 }, admitted)
  | .acquireEffect =>
    let (admitted, session) := holders.perform f request .tryAcquireEffect
    ({ holders with
        session
        effects := if admitted then holders.given :: holders.effects else holders.effects
        given := holders.given + 1 }, admitted)
  | .dropAgent permit =>
    if permit ∈ holders.agents then
      ({ holders with
          session := (holders.perform f request .releaseAgent).2
          agents := holders.agents.erase permit }, true)
    else (holders, false)
  | .dropEffect permit =>
    if permit ∈ holders.effects then
      ({ holders with
          session := (holders.perform f request .releaseEffect).2
          effects := holders.effects.erase permit }, true)
    else (holders, false)
  | .other operation =>
    let (done, session) := holders.perform f request operation.1
    ({ holders with session }, done)

def machine : Machine (Holders F) (PermitRequest F) Bool := ⟨step f⟩

end Holders

/-! ## What an admission checks -/

section Admission

variable {f : F64 F} {manager : Manager F} {now : ℤ}

/-- The counters of permits. -/
def ResourceUsage.permits (usage : ResourceUsage F) : ℕ × ℕ × ℕ :=
  (usage.activeAgents, usage.concurrentEffects, usage.totalDescendants)

lemma Operation.update_permits {operation : Operation F} (h : operation.isAdmission = false) :
    (operation.update f manager now).state.usage.permits = manager.state.usage.permits := by
  cases operation with
  | tryAcquireAgent | tryAcquireReattachedAgent | tryAcquireEffect | releaseAgent
  | releaseEffect => cases h
  | setBudget | setProviderSignals | recordModelUsage | recordTokensAndCost => rfl
  | acquireProviderRequest | markProviderRequestStarted | rollbackProviderRequestStart
  | commitProviderTokens | releaseProviderTokens | releaseProviderReservation =>
    rw [(onWindow rfl).usage]
  | recordModelUsageOnce =>
    simp only [update, Change.succeeds, Manager.recordModelUsageOnce]
    split_ifs <;> rfl
  | recordToolCallsOnce =>
    simp only [update, Change.succeeds, Manager.recordToolCallsOnce]
    split_ifs <;> rfl

end Admission

/-! ## Accounts -/

namespace Holders

variable [DecidableEq F] {f : F64 F}

/-- What the manager counts. -/
def usage (holders : Holders F) : ResourceUsage F := holders.session.manager.state.usage

/-- The budget in force. -/
def budget (holders : Holders F) : ResourceBudget F := holders.session.manager.state.budget

/-- The counters are the numbers of permits that are held. -/
structure Accounted (holders : Holders F) : Prop where
  agents : holders.usage.activeAgents = holders.agents.length
  effects : holders.usage.concurrentEffects = holders.effects.length

@[elab_as_elim]
lemma perform_ind {holders : Holders F} {request : PermitRequest F} {operation : Operation F}
    {motive : Bool × Session F → Prop}
    (refused : ∀ session, session.manager.state = holders.session.manager.state →
      motive (false, session))
    (made : ∀ session, session.manager.state =
        (operation.update f holders.session.manager request.now).state →
      motive ((operation.update f holders.session.manager request.now).result, session)) :
    motive (holders.perform f request operation) := by
  unfold perform
  refine Session.withStateUpdate_ind (fun session hwrites => ?_) fun _ session _ hstate _ => ?_
  · exact made session hwrites.state
  · exact refused session hstate

/-- A change that is not persisted is made whatever the ledger answers. -/
lemma perform_transient (holders : Holders F) (request : PermitRequest F)
    {operation : Operation F}
    (h : (operation.update f holders.session.manager request.now).changed = false) :
    (holders.perform f request operation).2.manager.state =
      (operation.update f holders.session.manager request.now).state := by
  unfold perform Session.withStateUpdate
  rw [h]
  rfl

/-- What a call that is answered with a permit has found. -/
def Admits (holders : Holders F) (request : PermitRequest F) : Prop :=
  match request.call with
  | .acquireAgent depth =>
    holders.usage.activeAgents < holders.session.manager.effectiveAgentLimit ∧
      holders.budget.AllowsDepth depth ∧
      holders.budget.AllowsDescendants (holders.usage.totalDescendants + 1)
  | .acquireReattachedAgent depth =>
    holders.usage.activeAgents < holders.session.manager.effectiveAgentLimit ∧
      holders.budget.AllowsDepth depth
  | .acquireEffect => holders.budget.AllowsEffects holders.usage.concurrentEffects
  | .dropAgent _ | .dropEffect _ | .other _ => True

/-- The counter of descendants stays or is increased within the budget. -/
def CountsDescendant (holders next : Holders F) : Prop :=
  next.usage.totalDescendants = holders.usage.totalDescendants ∨
    next.usage.totalDescendants = holders.usage.totalDescendants + 1 ∧
      holders.budget.AllowsDescendants next.usage.totalDescendants

variable (f) in
/-- One call. -/
lemma step_spec {holders : Holders F} (h : holders.Accounted) (request : PermitRequest F) :
    ((machine f).next holders request).Accounted ∧
      holders.CountsDescendant ((machine f).next holders request) ∧
      ((machine f).answer holders request = true → holders.Admits request) := by
  show (holders.step f request).1.Accounted ∧
    holders.CountsDescendant (holders.step f request).1 ∧
      ((holders.step f request).2 = true → _)
  have hrefused {session : Session F} {P : Prop}
      (hstate : session.manager.state = holders.session.manager.state) :
      Accounted { holders with session, given := holders.given + 1 } ∧
        holders.CountsDescendant { holders with session, given := holders.given + 1 } ∧
        (false = true → P) := by
    refine ⟨⟨?_, ?_⟩, .inl ?_, (absurd · Bool.false_ne_true)⟩
    all_goals simp only [usage, hstate]
    exacts [h.agents, h.effects]
  cases hcall : request.call <;> simp only [step, Admits, hcall]
  case acquireAgent depth =>
    refine perform_ind (fun _ => hrefused) fun session => ?_
    rw [Operation.update]
    refine Manager.tryAcquireAgent_ind hrefused fun hfree hdepth htotal hstate => ?_
    refine ⟨⟨?_, ?_⟩, .inr ⟨?_, ?_⟩, fun _ => ⟨hfree, hdepth, htotal⟩⟩
    all_goals simp only [usage, hstate]
    exacts [congrArg (· + 1) h.agents, h.effects, htotal]
  case acquireReattachedAgent depth =>
    refine perform_ind (fun _ => hrefused) fun session => ?_
    rw [Operation.update]
    refine Manager.tryAcquireReattachedAgent_ind hrefused fun hfree hdepth hstate => ?_
    refine ⟨⟨?_, ?_⟩, .inl ?_, fun _ => ⟨hfree, hdepth⟩⟩
    all_goals simp only [usage, hstate]
    exacts [congrArg (· + 1) h.agents, h.effects]
  case acquireEffect =>
    refine perform_ind (fun _ => hrefused) fun session => ?_
    rw [Operation.update]
    refine Manager.tryAcquireEffect_ind hrefused fun hadmits hstate => ?_
    refine ⟨⟨?_, ?_⟩, .inl ?_, fun _ => hadmits⟩
    all_goals simp only [usage, hstate]
    exacts [h.agents, congrArg (· + 1) h.effects]
  case dropAgent permit =>
    by_cases hmem : permit ∈ holders.agents
    · have hstate := holders.perform_transient request (show (Operation.update f
        holders.session.manager request.now .releaseAgent).changed = false from rfl)
      rw [if_pos hmem]
      refine ⟨⟨?_, ?_⟩, .inl ?_, fun _ => trivial⟩
      all_goals simp only [usage, hstate]
      · rw [length_erase_of_mem hmem, ← h.agents]
        rfl
      · exact h.effects
      · rfl
    · rw [if_neg hmem]
      exact ⟨h, .inl rfl, fun _ => trivial⟩
  case dropEffect permit =>
    by_cases hmem : permit ∈ holders.effects
    · have hstate := holders.perform_transient request (show (Operation.update f
        holders.session.manager request.now .releaseEffect).changed = false from rfl)
      rw [if_pos hmem]
      refine ⟨⟨?_, ?_⟩, .inl ?_, fun _ => trivial⟩
      all_goals simp only [usage, hstate]
      · exact h.agents
      · rw [length_erase_of_mem hmem, ← h.effects]
        rfl
      · rfl
    · rw [if_neg hmem]
      exact ⟨h, .inl rfl, fun _ => trivial⟩
  case other operation =>
    have hpermits : (holders.perform f request operation.1).2.manager.state.usage.permits =
        holders.usage.permits := by
      refine perform_ind (fun _ hstate => ?_) fun _ hstate => ?_
      all_goals rw [hstate]
      · rfl
      · exact Operation.update_permits operation.2
    simp only [ResourceUsage.permits, Prod.mk.injEq] at hpermits
    obtain ⟨hagents, heffects, htotal⟩ := hpermits
    exact ⟨⟨hagents.trans h.agents, heffects.trans h.effects⟩, .inl htotal, fun _ => trivial⟩

/-- No permit has been given out. -/
def start (session : Session F) : Holders F := ⟨session, [], [], 0⟩

/-- The counter stands where it stood at the start or where a step within the budget left it. -/
def DescendantsWithin (first : ℕ) (final : Holders F)
    (trace : List (Machine.Step (Holders F) (PermitRequest F) Bool)) : Prop :=
  final.usage.totalDescendants = first ∨ ∃ x ∈ trace,
    x.after.usage.totalDescendants = x.before.usage.totalDescendants + 1 ∧
    final.usage.totalDescendants = x.after.usage.totalDescendants ∧
    x.before.budget.AllowsDescendants final.usage.totalDescendants

variable (f) in
lemma run_spec {holders : Holders F} (h : holders.Accounted)
    (requests : List (PermitRequest F)) :
    ((machine f).run holders requests).Accounted ∧
      (∀ x ∈ (machine f).trace holders requests, x.answer = true → x.before.Admits x.event) ∧
      DescendantsWithin holders.usage.totalDescendants ((machine f).run holders requests)
        ((machine f).trace holders requests) := by
  refine Machine.history_invariant (m := machine f) (P := fun final trace => final.Accounted ∧
    (∀ x ∈ trace, x.answer = true → x.before.Admits x.event) ∧
      DescendantsWithin holders.usage.totalDescendants final trace) ?_
    ⟨h, forall_mem_nil _, .inl rfl⟩ requests
  rintro final trace request ⟨haccounted, hadmits, hwithin⟩
  obtain ⟨hnext, hcounts, hanswer⟩ := step_spec f haccounted request
  refine ⟨hnext, ?_, ?_⟩
  · intro x hx
    obtain hx | hx := mem_append.1 hx
    · exact hadmits x hx
    · cases mem_singleton.1 hx
      exact hanswer
  · obtain hsame | ⟨hmore, hallowed⟩ := hcounts
    · obtain hfirst | ⟨x, hx, hstep, hlast, hallowed⟩ := hwithin
      · exact .inl (hsame.trans hfirst)
      · exact .inr ⟨x, mem_append_left _ hx, hstep, hsame.trans hlast, hsame ▸ hallowed⟩
    · exact .inr ⟨_, mem_append_right _ mem_cons_self, hmore, rfl, hallowed⟩

end Holders

/-- A manager that counts no permits: a new one, or one that was attached to its run. -/
def Session.Idle (session : Session F) : Prop :=
  session.manager.state.usage.activeAgents = 0 ∧ session.manager.state.usage.concurrentEffects = 0

lemma attach_idle {f : F64 F} {budget : ResourceBudget F} {created now : ℤ} {hint : ℕ}
    {fault : Option String} {records : List (Record F)} {session : Session F}
    (h : attach f (.new f budget created hint) now fault records = .ok session) :
    session.Idle := by
  obtain ⟨found, -, hstate, -⟩ := attach_eq_ok h
  rw [Session.Idle, hstate]
  cases found <;> exact ⟨rfl, rfl⟩

/-- Permits are counted, admissions keep to the limits in force and the counter of descendants to
the limit in force when it was last increased. An agent that is reattached was counted before and is
not held to that limit. -/
theorem permits_counted_within_limits [DecidableEq F] (f : F64 F) (session : Session F)
    (hidle : session.Idle) (requests : List (PermitRequest F)) :
    let final := (Holders.machine f).run (.start session) requests
    let trace := (Holders.machine f).trace (.start session) requests
    final.usage.activeAgents = final.agents.length ∧
      final.usage.concurrentEffects = final.effects.length ∧
      (∀ x ∈ trace, x.answer = true → x.before.Admits x.event) ∧
      Holders.DescendantsWithin session.manager.state.usage.totalDescendants final trace := by
  have hstart : (Holders.start session).Accounted := ⟨hidle.1, hidle.2⟩
  obtain ⟨haccounted, hadmits, hwithin⟩ := Holders.run_spec f hstart requests
  exact ⟨haccounted.agents, haccounted.effects, hadmits, hwithin⟩

/-- One agent is admitted, the limit of descendants is lowered to none, the agent ends and is
reattached. -/
def reattachOverLimit : List (PermitRequest ℕ) :=
  [⟨.acquireAgent 1, 1, none⟩,
    ⟨.other ⟨.setBudget { maxTotalDescendantsPerRun := some 0 }, rfl⟩, 1, none⟩,
    ⟨.dropAgent 0, 1, none⟩, ⟨.acquireReattachedAgent 1, 1, none⟩]

/-- The last call is admitted although there are more descendants than the limit allows. -/
theorem reattached_over_descendant_limit : ∃ session,
    attach wholeUnits (.new wholeUnits {} 1 4) 1 none [] = .ok session ∧
      ((Holders.machine wholeUnits).trace (.start session) reattachOverLimit).any (fun x =>
        x.event.call matches .acquireReattachedAgent _ && x.answer &&
          decide (x.before.usage.totalDescendants = 1) &&
          decide (x.before.budget.maxTotalDescendantsPerRun = some 0)) = true :=
  ⟨_, rfl, by decide +kernel⟩

/-- The counts of a run in which the ledger refuses an admission. -/
theorem permits_counted_over_refused_record :
    let session : Session ℕ := ⟨.new wholeUnits {} 1 4, []⟩
    let requests : List (PermitRequest ℕ) :=
      [⟨.acquireAgent 1, 1, none⟩, ⟨.acquireAgent 1, 1, some "disk full"⟩,
        ⟨.acquireEffect, 1, none⟩]
    let final := (Holders.machine wholeUnits).run (.start session) requests
    session.Idle ∧ final.usage.activeAgents = final.agents.length ∧ final.agents.length = 1 :=
  ⟨⟨rfl, rfl⟩, (permits_counted_within_limits wholeUnits ⟨.new wholeUnits {} 1 4, []⟩ ⟨rfl, rfl⟩
    _).1, by decide +kernel⟩

end SolarisMesh.Resource
