import SolarisMesh.Tasks.Registry

/-!
# The life of a task

Over every history of compare-and-set calls a task is owned as its state demands, ends for good or
is queued again by a retry, counts one revision for each change, and takes each operation once.
-/

namespace SolarisMesh.Tasks

open List Lib SolarisMesh.Types Ledger
open TaskCasMutation (isOwned name)

/-- A new task is queued without an owner or assigned to one. -/
def Created (task : TaskRecord) : Prop :=
  task.state = .queued ∧ task.ownerAgentId = none ∨
    task.state = .assigned ∧ task.ownerAgentId ≠ none

/-- Queued tasks have no owner, assigned and running ones have one. -/
structure OwnerFits (task : TaskRecord) : Prop where
  queued : task.state = .queued → task.ownerAgentId = none
  active : task.state = .assigned ∨ task.state = .running → task.ownerAgentId ≠ none

variable {task : TaskRecord}

lemma Created.ownerFits (h : Created task) : OwnerFits task := by
  rcases h with ⟨hstate, howner⟩ | ⟨hstate, howner⟩
  · refine ⟨fun _ => howner, fun hactive => ?_⟩
    rw [hstate] at hactive
    rcases hactive with h | h <;> cases h
  · refine ⟨fun hqueued => ?_, fun _ => howner⟩
    rw [hstate] at hqueued
    cases hqueued

/-- The two ways a failed task is queued again. -/
inductive Requeues : TaskCasMutation → TaskRecord → Prop
  | retry {task : TaskRecord} (reason : Option String) (hdirect : task.workflowId = none)
      (hfailure : task.failureClass = some .retryable) : Requeues (.supervisorRetry reason) task
  | workflow {task : TaskRecord} {state : TaskState} {outcomeRef : Option String}
      {failureClass : Option TaskFailureClass} (hworkflow : task.workflowId ≠ none) :
      Requeues (.workflowState state true outcomeRef failureClass) task

/-- What a mutation may do to a task. -/
structure Moves (mutation : TaskCasMutation) (current next : TaskRecord) : Prop where
  identity : next.taskId = current.taskId ∧ next.workflowId = current.workflowId
  fits : OwnerFits next
  /-- Completed, cancelled and skipped tasks stay. -/
  unfinished : current.state ≠ .completed ∧ current.state ≠ .cancelled ∧ current.state ≠ .skipped
  requeued : current.state = .failed → next.state = .queued ∧ Requeues mutation current

section

variable {mutation : TaskCasMutation} {current next : TaskRecord} {newRevision : ℕ}

/-- A task that is not failed moves on to a state its owner fits. -/
lemma moves_of_active (hidentity : next.taskId = current.taskId ∧
      next.workflowId = current.workflowId) (hfits : OwnerFits next)
    (hstate : current.state = .queued ∨ current.state = .assigned ∨ current.state = .running) :
    Moves mutation current next := by
  refine ⟨hidentity, hfits, ?_, fun hfailed => ?_⟩
  · rcases hstate with h | h | h <;> rw [h] <;> decide
  · rw [hfailed] at hstate
    rcases hstate with h | h | h <;> cases h

/-- Finished tasks are owned or not. -/
lemma ownerFits_of_finished
    (h : task.state ≠ .queued ∧ task.state ≠ .assigned ∧ task.state ≠ .running) :
    OwnerFits task :=
  ⟨fun hqueued => absurd hqueued h.1, fun hactive => hactive.elim (fun h' => absurd h' h.2.1)
    fun h' => absurd h' h.2.2⟩

lemma isOwned_eq_true {owner : AgentId} :
    isOwned task owner = true ↔
      (task.state = .assigned ∨ task.state = .running) ∧ task.ownerAgentId = some owner := by
  rw [isOwned, Bool.and_eq_true, Bool.or_eq_true, decide_eq_true_eq,
    decide_eq_true_eq, decide_eq_true_eq]

lemma workflowMove_cases {before after : TaskState}
    (h : TaskCasMutation.workflowMoveAllowed before after = true) :
    (before = .queued ∨ before = .assigned ∨ before = .running) ∧
        (after ≠ .queued ∧ after ≠ .assigned ∧ after ≠ .running) ∨
      before = .failed ∧ after = .queued := by
  revert h
  cases before <;> cases after <;> decide

lemma apply_moves (h : mutation.apply current newRevision = .ok next) :
    Moves mutation current next ∧ next.revision = newRevision := by
  cases mutation <;>
    simp only [TaskCasMutation.apply, check_bind_eq_ok, require_eq_ok, pure_eq_ok, Bool.and_eq_true,
      Bool.or_eq_true, decide_eq_true_eq, isOwned_eq_true, Option.isNone_iff_eq_none] at h
  case assign owner =>
    obtain ⟨hguard, rfl⟩ := h
    exact ⟨moves_of_active ⟨rfl, rfl⟩ ⟨by simp, by simp⟩ (.inl hguard.1), rfl⟩
  case markRunning owner =>
    obtain ⟨hguard, rfl⟩ := h
    refine ⟨moves_of_active ⟨rfl, rfl⟩ ⟨by simp, fun _ => ?_⟩ (.inr (.inl hguard.1)), rfl⟩
    show current.ownerAgentId ≠ none
    rw [hguard.2]
    exact Option.some_ne_none _
  case handoff fromAgent toAgent =>
    obtain ⟨hguard, rfl⟩ := h
    exact ⟨moves_of_active ⟨rfl, rfl⟩ ⟨by simp, by simp⟩ (.inr hguard.1), rfl⟩
  case settle owner state outcomeRef failureClass =>
    obtain ⟨hterminal, hguard, rfl⟩ := h
    refine ⟨moves_of_active ⟨rfl, rfl⟩ (ownerFits_of_finished ?_) (.inr hguard.1), rfl⟩
    rcases hterminal with (rfl | rfl) | rfl <;> simp
  case skip reason =>
    obtain ⟨hguard, rfl⟩ := h
    exact ⟨moves_of_active ⟨rfl, rfl⟩ (ownerFits_of_finished (by simp)) (.inl hguard.1), rfl⟩
  case supervisorRetry reason =>
    obtain ⟨⟨⟨⟨hdirect, hstate⟩, hfailure⟩, -⟩, rfl⟩ := h
    refine ⟨⟨⟨rfl, rfl⟩, ⟨fun _ => rfl, fun hactive => ?_⟩, ?_,
      fun _ => ⟨rfl, .retry reason hdirect hfailure⟩⟩, rfl⟩
    · rcases hactive with h | h <;> cases h
    · rw [hstate]
      decide
  case workflowState state clearOwner outcomeRef failureClass =>
    obtain ⟨hworkflow, ⟨hmove, hguard⟩, rfl⟩ := h
    rcases workflowMove_cases hmove with ⟨hbefore, hafter⟩ | ⟨hfailed, rfl⟩
    · exact ⟨moves_of_active ⟨rfl, rfl⟩ (ownerFits_of_finished hafter) hbefore, rfl⟩
    · -- a failed task is queued again only with its owner cleared
      have hclear : clearOwner = true := by simpa [hfailed] using hguard
      subst hclear
      refine ⟨⟨⟨rfl, rfl⟩, ⟨fun _ => rfl, fun hactive => ?_⟩, ?_, fun _ => ⟨rfl, .workflow ?_⟩⟩,
        rfl⟩
      · rcases hactive with h | h <;> cases h
      · rw [hfailed]
        decide
      · exact Option.isSome_iff_ne_none.1 hworkflow

end

/-! ## Steps -/

section

variable {digest : TaskCasMutation → String} {s s' : TaskSystem} {event : TaskEvent}

variable {operationId : OperationId} {updated : TaskRecord} {taskId : TaskId}

lemma casDurable_eq_ok {α : Type} {registry registry' : TaskRegistry} {expectedRevision : ℕ}
    {mutationDigest : String} {mutation : TaskCasMutation} {persist : TaskRecord → IoResult α}
    {written : Option α}
    (h : registry.casDurable taskId expectedRevision operationId mutationDigest mutation persist =
      .ok (registry', written, updated)) : (∃ applied, registry.applied operationId = some applied ∧
      applied.isFor taskId expectedRevision mutationDigest = true ∧ registry' = registry ∧
      written = none ∧ updated = applied.result) ∨
    registry.applied operationId = none ∧ ∃ current value,
      registry.tasks taskId = some current ∧ current.revision = expectedRevision ∧
      u64CheckedAdd expectedRevision 1 = some (expectedRevision + 1) ∧
      mutation.apply current (expectedRevision + 1) = .ok updated ∧
      persist updated = .ok value ∧ written = some value ∧
      registry' = (registry.insertTask taskId updated).insertApplied operationId
        ⟨taskId, mutationDigest, expectedRevision, expectedRevision + 1, updated⟩ := by
  unfold TaskRegistry.casDurable at h
  cases happlied : registry.applied operationId with
  | some applied =>
    rw [happlied] at h
    obtain ⟨hfor, h⟩ := check_bind_eq_ok.1 h
    cases h
    exact .inl ⟨applied, rfl, require_eq_ok.1 hfor, rfl, rfl, rfl⟩
  | none =>
    rw [happlied] at h
    simp only [bind_eq_ok] at h
    obtain ⟨current, hcurrent, newRevision, hnew, _, hrevision, next, hnext, value, hvalue, h⟩ := h
    cases h
    rw [orElseThrow_eq_ok] at hcurrent hnew
    rw [require_eq_ok, decide_eq_true_eq] at hrevision
    have hadd := u64CheckedAdd_eq_some hnew
    subst hadd
    exact .inr ⟨rfl, current, value, hcurrent, hrevision, hnew, hnext, hvalue, rfl, rfl⟩

/-- What a step does. -/
inductive TaskWrite (digest : TaskCasMutation → String) (s : TaskSystem) :
    TaskEvent → TaskSystem → IoResult TaskAnswer → Prop
  | created (task : TaskRecord) :
      TaskWrite digest s (.create task) { s with registry := s.registry.upsert task } (.ok .done)
  | elsewhere (ledger : LedgerState TaskPayload) :
      TaskWrite digest s (.elsewhere ledger) { s with ledger } (.ok .done)
  | refused (call : CasCall) (error : IoError) : TaskWrite digest s (.cas call) s (.error error)
  | repeated {call : CasCall} {applied : AppliedTaskCas}
      (happlied : s.registry.applied call.operationId = some applied)
      (hfor : applied.isFor call.taskId call.expectedRevision (digest call.mutation) = true)
      (hknown : s.registry.tasks call.taskId ≠ none) :
      TaskWrite digest s (.cas call) s (.ok (.updated applied.result))
  | accepted {call : CasCall} {current next : TaskRecord} {ledger : LedgerState TaskPayload}
      (hnew : s.registry.applied call.operationId = none)
      (hcurrent : s.registry.tasks call.taskId = some current)
      (hrevision : current.revision = call.expectedRevision)
      (hadd : u64CheckedAdd call.expectedRevision 1 = some (call.expectedRevision + 1))
      (hmoves : Moves call.mutation current next)
      (hnext : next.revision = call.expectedRevision + 1) :
      TaskWrite digest s (.cas call)
        ⟨(s.registry.insertTask call.taskId next).insertApplied call.operationId
            ⟨call.taskId, digest call.mutation, call.expectedRevision, call.expectedRevision + 1,
              next⟩, ledger⟩
        (.ok (.updated next))

lemma step_write (digest : TaskCasMutation → String) (s : TaskSystem) (event : TaskEvent) :
    TaskWrite digest s event ((taskMachine digest).next s event)
      ((taskMachine digest).answer s event) := by
  cases event with
  | create task => exact .created task
  | elsewhere ledger => exact .elsewhere ledger
  | cas call =>
    unfold Machine.next Machine.answer taskMachine
    dsimp only
    cases happly : applyTaskCas digest s call with
    | error error => exact .refused call error
    | ok pair =>
      obtain ⟨next, updated⟩ := pair
      obtain ⟨expectedTask, hexpected, happly⟩ := bind_eq_ok.1 happly
      obtain ⟨⟨registry, written, result⟩, hcas, happly⟩ := bind_eq_ok.1 happly
      cases happly
      rw [orElseThrow_eq_ok] at hexpected
      rcases casDurable_eq_ok hcas with ⟨applied, happlied, hfor, rfl, rfl, rfl⟩ |
        ⟨hnew, current, value, hcurrent, hrevision, hadd, happlies, -, rfl, rfl⟩
      · exact .repeated happlied hfor (by rw [hexpected]; nofun)
      · obtain ⟨hmoves, hnext⟩ := apply_moves happlies
        exact .accepted hnew hcurrent hrevision hadd hmoves hnext

variable {answer : IoResult TaskAnswer}

/-- A task stays as it is, is new, or is moved by an accepted mutation. -/
lemma TaskWrite.task_cases (h : TaskWrite digest s event s' answer) (taskId : TaskId) :
    s'.registry.tasks taskId = s.registry.tasks taskId ∨
    (∃ task, event = .create task ∧ task.taskId = taskId ∧
      s'.registry.tasks taskId = some task) ∨
    ∃ call old new, event = .cas call ∧ call.taskId = taskId ∧
      s.registry.tasks taskId = some old ∧ s'.registry.tasks taskId = some new ∧
      answer = .ok (.updated new) ∧ Moves call.mutation old new ∧
      new.revision = old.revision + 1 := by
  cases h with
  | created task =>
    by_cases hid : task.taskId = taskId
    · refine .inr (.inl ⟨task, rfl, hid, ?_⟩)
      rw [← hid]
      exact s.registry.insertTask_self task.taskId task
    · exact .inl (Function.update_of_ne (Ne.symm hid) ..)
  | elsewhere ledger | refused call error | repeated happlied hfor hknown => exact .inl rfl
  | @accepted call current next ledger hnew hcurrent hrevision hadd hmoves hnext =>
    by_cases hid : call.taskId = taskId
    · subst hid
      refine .inr (.inr ⟨call, current, next, rfl, rfl, hcurrent,
        s.registry.insertTask_self call.taskId next, rfl, hmoves, ?_⟩)
      rw [hnext, hrevision]
    · exact .inl (Function.update_of_ne (Ne.symm hid) ..)

lemma TaskWrite.ownerFits (h : TaskWrite digest s event s' answer)
    (hcreated : ∀ task, event = .create task → task.taskId = taskId → Created task)
    (hfits : ∀ task, s.registry.tasks taskId = some task → OwnerFits task) :
    ∀ task, s'.registry.tasks taskId = some task → OwnerFits task := by
  intro task htask
  rcases h.task_cases taskId with hsame | ⟨new, hevent, hid, hnew⟩ |
    ⟨call, old, new, -, -, -, hnew, -, hmoves, -⟩
  · exact hfits task (hsame ▸ htask)
  · rw [hnew] at htask
    cases htask
    exact (hcreated _ hevent hid).ownerFits
  · rw [hnew] at htask
    cases htask
    exact hmoves.fits

/-- Applied operations stay applied, with their results. -/
lemma TaskWrite.applied_kept (h : TaskWrite digest s event s' answer) {applied : AppliedTaskCas}
    (happlied : s.registry.applied operationId = some applied) :
    s'.registry.applied operationId = some applied := by
  cases h with
  | created task | elsewhere ledger | refused call error | repeated happlied' hfor hknown =>
    exact happlied
  | @accepted call current next ledger hnew hcurrent hrevision hadd hmoves hnext =>
    refine (Function.update_of_ne (fun hsame => ?_) ..).trans happlied
    rw [hsame, hnew] at happlied
    cases happlied

/-- The operation was applied to a task that is still there, with this result. -/
def Applied (digest : TaskCasMutation → String) (call : CasCall) (updated : TaskRecord)
    (s : TaskSystem) : Prop :=
  s.registry.tasks call.taskId ≠ none ∧ ∃ applied,
    s.registry.applied call.operationId = some applied ∧
      applied.isFor call.taskId call.expectedRevision (digest call.mutation) = true ∧
      applied.result = updated

variable {call : CasCall}

lemma Applied.step (h : Applied digest call updated s)
    (hwrite : TaskWrite digest s event s' answer) : Applied digest call updated s' := by
  obtain ⟨hknown, applied, happlied, hrest⟩ := h
  refine ⟨?_, applied, hwrite.applied_kept happlied, hrest⟩
  obtain hsame | ⟨_, -, -, hnew⟩ | ⟨_, _, _, -, -, -, hnew, -⟩ := hwrite.task_cases call.taskId
  · rwa [hsame]
  all_goals
    rw [hnew]
    nofun

/-- A compare-and-set that answers has been applied. -/
lemma TaskWrite.applied (h : TaskWrite digest s (.cas call) s' (.ok (.updated updated))) :
    Applied digest call updated s' := by
  cases h with
  | repeated happlied hfor hknown => exact ⟨hknown, _, happlied, hfor, rfl⟩
  | accepted hnew hcurrent hrevision hadd hmoves hnext =>
    refine ⟨fun hnone => ?_, _, TaskRegistry.insertApplied_self .., ?_, rfl⟩
    · cases (s.registry.insertTask_self call.taskId updated).symm.trans hnone
    · simp [AppliedTaskCas.isFor, hadd]

/-- The same operation on the same task at the same revision. -/
structure CasCall.SameOperation (a b : CasCall) : Prop where
  taskId : a.taskId = b.taskId
  expectedRevision : a.expectedRevision = b.expectedRevision
  operationId : a.operationId = b.operationId
  mutation : a.mutation = b.mutation

/-- A repeated operation is answered from memory. -/
lemma Applied.repeats {call' : CasCall} (h : Applied digest call updated s)
    (hsame : call'.SameOperation call) : (taskMachine digest).next s (.cas call') = s ∧
      (taskMachine digest).answer s (.cas call') = .ok (.updated updated) := by
  obtain ⟨hknown, applied, happlied, hfor, rfl⟩ := h
  obtain ⟨task, htask⟩ := Option.ne_none_iff_exists'.1 hknown
  have happly : applyTaskCas digest s call' = .ok (s, applied.result) := by
    unfold applyTaskCas
    dsimp only
    rw [hsame.taskId, hsame.operationId, hsame.expectedRevision, hsame.mutation, htask]
    refine bind_eq_ok.2 ⟨task, rfl, bind_eq_ok.2 ⟨(s.registry, none, applied.result), ?_, rfl⟩⟩
    rw [TaskRegistry.casDurable, happlied]
    exact check_bind_eq_ok.2 ⟨require_eq_ok.2 hfor, rfl⟩
  unfold Machine.next Machine.answer taskMachine
  dsimp only
  rw [happly]
  exact ⟨rfl, rfl⟩

/-- A step that changes the registry applies an operation that was not applied before. -/
lemma TaskWrite.new_of_changed (h : TaskWrite digest s (.cas call) s' answer)
    (hchanged : s'.registry ≠ s.registry) :
    s.registry.applied call.operationId = none ∧
      s'.registry.applied call.operationId ≠ none := by
  cases h with
  | refused call error | repeated happlied hfor hknown => exact absurd rfl hchanged
  | accepted hnew hcurrent hrevision hadd hmoves hnext =>
    refine ⟨hnew, fun hnone => ?_⟩
    cases (TaskRegistry.insertApplied_self ..).symm.trans hnone

end

/-! ## Histories -/

section

variable {digest : TaskCasMutation → String} {events : List TaskEvent}

lemma write_of_mem {x : TaskStep} (hx : x ∈ (taskMachine digest).trace .empty events) :
    TaskWrite digest x.before x.event x.after x.answer := by
  have hstep := step_write digest x.before x.event
  rw [(taskMachine digest).eq_stepAt_of_mem_trace hx]
  exact hstep

/-- What every step keeps holds before each later step. -/
lemma holds_later {P : TaskSystem → Prop}
    (hstep : ∀ s s' event answer, TaskWrite digest s event s' answer → P s → P s')
    {earlier later : List TaskStep} {x y : TaskStep}
    (hsplit : (taskMachine digest).trace .empty events = earlier ++ x :: later) (hy : y ∈ later)
    (hx : P x.after) : P y.before := by
  obtain ⟨before, event, after, rfl, -, rfl, rfl⟩ :=
    (taskMachine digest).trace_eq_append_cons hsplit
  refine Machine.trace_invariant (C := fun _ _ => True) (fun s e h _ => ?_) hx
    (fun _ _ => trivial) y hy
  exact hstep s _ e _ (step_write digest s e) h

end

/-- A direct task, queued. -/
def retriedTask : TaskRecord :=
  ⟨"run", "task", 0, none, none, none, none, none, [], none, [], none, .queued, none, none⟩

def casAt (expectedRevision : ℕ) (operationId : OperationId) (mutation : TaskCasMutation) :
    TaskEvent :=
  .cas ⟨"run", "task", expectedRevision, operationId, mutation, .run, 0, true, true⟩

/-- The task is assigned, runs, fails and is queued again; the assignment is repeated. -/
def retriedEvents : List TaskEvent :=
  [.create retriedTask, casAt 0 "assign" (.assign "worker"), casAt 1 "run" (.markRunning "worker"),
    casAt 2 "settle" (.settle "worker" .failed none (some .retryable)),
    casAt 3 "retry" (.supervisorRetry none), casAt 0 "assign" (.assign "worker")]

end SolarisMesh.Tasks
