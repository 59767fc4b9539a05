import SolarisMesh.Store.SessionRows

/-!
# Rows of durable tasks

A task row moves on by one revision at a time, under the lease and at the revision of its
session. A terminal phase admits no other phase, but it admits itself: a second transition to
it with another call or another result overwrites what the row holds. And a call whose last
storage check fails reports an error for a row it has changed. Apart from these two, a
terminal row stays as it is and a failed call changes nothing.
-/

namespace SolarisMesh.Store

open Lib
open Database (call setTask empty)

/-! ## What a committed call does to the rows -/

/-- What a committed call does to the task rows. -/
inductive TaskWrite (db : Database) (call : StoreCall) : Database → Prop
  | kept {db' : Database} (htasks : db'.tasks = db.tasks) : TaskWrite db call db'
  | created {db' : Database} {lease : SessionLease} {taskKey : String} {inputDigest : List UInt8}
      {nowMs : ℤ} (hcall : call = .beginOrResumeTask lease taskKey inputDigest nowMs)
      (hbegins : Begins db lease taskKey inputDigest nowMs)
      (htasks : db'.tasks =
        (db.setTask lease.sessionId taskKey (Begun lease taskKey inputDigest)).tasks) :
      TaskWrite db call db'
  | checkpointed {db' : Database} {lease : SessionLease} {session : Session} {taskKey : String}
      {nowMs : ℤ} {row : SessionRow} {current : StoredDurableTask}
      (hcall : call = .checkpointTaskUser lease session taskKey nowMs)
      (hcheckpoints : Checkpoints db lease session taskKey nowMs row current)
      (htasks : db'.tasks =
        (db.setTask lease.sessionId taskKey (Checkpointed lease current)).tasks) :
      TaskWrite db call db'
  | moved {db' : Database} {lease : SessionLease} {taskKey : String} {expected : ℤ}
      {phase : DurableTaskPhase} {callId : Option String} {result : Option (List UInt8)}
      {nowMs : ℤ} {current : StoredDurableTask}
      (hcall : call = .transitionTask lease taskKey expected phase callId result nowMs)
      (htransits : Transits db lease taskKey expected phase callId result nowMs current)
      (htasks : db'.tasks =
        (db.setTask lease.sessionId taskKey (Moved lease current phase callId result)).tasks) :
      TaskWrite db call db'

section

variable {db db' : Database}

/-- What a committed call does to the tables. -/
structure CallWrites (db : Database) (call : StoreCall) (db' : Database) : Prop where
  rows : RowWrite db call db'
  tasks : TaskWrite db call db'
  outbox : call.delivers = false → db'.outbox = db.outbox

lemma call_writes {call : StoreCall} {answer : StoreAnswer}
    (h : db.call call = .ok (db', answer)) : CallWrites db call db' := by
  have hdelivers (hcall : call.delivers = true) (hacquires : call.acquires = none)
      (hwritten : call.written = none) : CallWrites db call db' := by
    obtain ⟨_, rfl⟩ := outbox_only hcall h
    exact ⟨.kept hacquires hwritten rfl, .kept rfl, fun hother => Bool.noConfusion (hcall ▸ hother)⟩
  cases call
  case prepareHostOutbox | enqueueHostDelivery | acknowledgeHostDelivery =>
    exact hdelivers rfl rfl rfl
  all_goals
    dsimp only [call] at h
    obtain ⟨_, h, -⟩ := answering_eq_ok h
  case createActive =>
    obtain ⟨runId, hrun, halive, hnew, -, rfl⟩ := createActive_eq_ok h
    exact ⟨.created rfl hrun halive hnew rfl, .kept rfl, fun _ => rfl⟩
  case loadActive =>
    obtain ⟨row, epoch, halive, hstored, hepoch, -, rfl⟩ := loadActive_eq_ok h
    exact ⟨.acquired rfl halive hstored hepoch rfl, .kept rfl, fun _ => rfl⟩
  case save =>
    obtain ⟨row, hwritten, hsnapshot, rfl⟩ := save_eq_ok h
    refine ⟨.written (.inl ⟨rfl, hsnapshot⟩) hwritten rfl, ?_, fun _ => ?_⟩ <;>
      rw [writeSession_of_holds hwritten.holds]
    exacts [.kept rfl, rfl]
  case heartbeat =>
    obtain ⟨hholds, rfl⟩ := heartbeat_eq_ok h
    exact ⟨.renewed (.inl ⟨rfl, rfl⟩) hholds rfl, .kept rfl, fun _ => rfl⟩
  case release =>
    obtain ⟨hholds, rfl⟩ := release_eq_ok h
    exact ⟨.renewed (.inr ⟨rfl, rfl⟩) hholds rfl, .kept rfl, fun _ => rfl⟩
  case loadTask =>
    obtain ⟨-, rfl⟩ := loadTask_eq_ok h
    exact ⟨.kept rfl rfl rfl, .kept rfl, fun _ => rfl⟩
  case beginOrResumeTask =>
    obtain ⟨-, ⟨-, rfl⟩ | ⟨hbegins, rfl⟩⟩ := beginOrResumeTask_eq_ok h
    · exact ⟨.kept rfl rfl rfl, .kept rfl, fun _ => rfl⟩
    · exact ⟨.kept rfl rfl rfl, .created rfl hbegins rfl, fun _ => rfl⟩
  case checkpointTaskUser =>
    obtain ⟨row, current, hcheckpoints, rfl, -⟩ := checkpointTaskUser_eq_ok.1 h
    refine ⟨.written (.inr ⟨_, rfl⟩) hcheckpoints.written rfl, ?_, fun _ => ?_⟩ <;>
      rw [writeSession_of_holds hcheckpoints.written.holds]
    exacts [.checkpointed rfl hcheckpoints rfl, rfl]
  case transitionTask =>
    obtain ⟨-, ⟨_, -, -, -, -, rfl⟩ | ⟨current, htransits, rfl⟩⟩ := transitionTask_eq_ok h
    · exact ⟨.kept rfl rfl rfl, .kept rfl, fun _ => rfl⟩
    · exact ⟨.kept rfl rfl rfl, .moved rfl htransits rfl, fun _ => rfl⟩
  case importSource =>
    obtain ⟨_, rfl⟩ | ⟨halive, hnew, _, rfl⟩ := importSource_eq_ok h
    · exact ⟨.kept rfl rfl rfl, .kept rfl, fun _ => rfl⟩
    · exact ⟨.imported rfl halive hnew rfl, .kept rfl, fun _ => rfl⟩
  case planRetentionGc =>
    obtain ⟨hcandidate, _, _, rfl⟩ := planRetentionGc_eq_ok h
    exact ⟨.buried rfl hcandidate rfl, .kept rfl, fun _ => rfl⟩

end

/-! ## Steps -/

/-- The lease, the key and the clock of a call on a task. -/
def StoreCall.taskTarget : StoreCall → Option (SessionLease × String × ℤ)
  | .beginOrResumeTask lease taskKey _ nowMs | .checkpointTaskUser lease _ taskKey nowMs
  | .transitionTask lease taskKey _ _ _ _ nowMs => some (lease, taskKey, nowMs)
  | _ => none

/-- The row stays, is new at revision 0, or is one revision further. -/
def MovedByOne (before after : Option StoredDurableTask) : Prop :=
  after = before ∨
    (before = none ∧ ∃ task, after = some task ∧ task.taskRevision = 0) ∨
    ∃ task task', before = some task ∧ after = some task' ∧
      task'.taskRevision = task.taskRevision + 1

/-- Terminal rows keep their phase, call and result. -/
def TerminalKept (before after : Database) : Prop :=
  ∀ sessionId taskKey task, before.tasks sessionId taskKey = some task →
    task.phase.isTerminal = true →
    ∃ task', after.tasks sessionId taskKey = some task' ∧ task'.phase = task.phase ∧
      task'.callId = task.callId ∧ task'.terminalResultJson = task.terminalResultJson

/-- What is expected of each step that touches tasks. -/
structure TaskStep (x : StoreStep) : Prop where
  terminal : TerminalKept x.before x.after
  fenced : ∀ lease taskKey nowMs answer,
    x.event.call.taskTarget = some (lease, taskKey, nowMs) → x.answer = .ok answer →
    (∃ row, Current x.before lease nowMs row) ∧
      MovedByOne (x.before.tasks lease.sessionId taskKey) (x.after.tasks lease.sessionId taskKey)
  failed : ∀ error, x.answer = .error error → x.after.tasks = x.before.tasks

variable (db : Database) (event : StoreEvent)

/-- A transition names the terminal phase of the row again, with another call or another result,
and passes its checks. -/
def Rewrites : Prop :=
  (event.checks db).opened = true ∧ (event.checks db).beforeCommit = true ∧
    ∃ lease taskKey expected callId result nowMs current,
      event.call = .transitionTask lease taskKey expected current.phase callId result nowMs ∧
      Transits db lease taskKey expected current.phase callId result nowMs current ∧
      current.phase.isTerminal = true

/-- The call passes the checks after which a task row is written. -/
def StoreCall.ChangesTask (db : Database) : StoreCall → Prop
  | .beginOrResumeTask lease taskKey inputDigest nowMs => Begins db lease taskKey inputDigest nowMs
  | .checkpointTaskUser lease session taskKey nowMs =>
    ∃ row current, Checkpoints db lease session taskKey nowMs row current
  | .transitionTask lease taskKey expected phase callId result nowMs =>
    ∃ current, Transits db lease taskKey expected phase callId result nowMs current
  | _ => False

/-- The last storage check fails for a call that writes a task row. -/
def FailsLate : Prop :=
  (event.checks db).opened = true ∧ (event.checks db).beforeCommit = true ∧
    (event.checks db).afterCommit = false ∧ event.call.ChangesTask db

lemma setTask_tasks_self (sessionId taskKey : String) (task : StoredDurableTask) :
    (db.setTask sessionId taskKey task).tasks sessionId taskKey = some task := by
  simp [setTask]

variable {sessionId taskKey : String}

lemma TerminalKept.refl : TerminalKept db db :=
  fun _ _ task htask _ => ⟨task, htask, rfl, rfl, rfl⟩

variable {db' : Database}

lemma TerminalKept.of_tasks {db : Database} (h : db'.tasks = db.tasks) :
    TerminalKept db db' := by
  intro sessionId taskKey task htask _
  exact ⟨task, by rw [h, htask], rfl, rfl, rfl⟩

lemma TerminalKept.trans {a b c : Database} (hab : TerminalKept a b) (hbc : TerminalKept b c) :
    TerminalKept a c := by
  intro sessionId taskKey task htask hterminal
  obtain ⟨task', htask', hphase, hcall, hresult⟩ := hab sessionId taskKey task htask hterminal
  obtain ⟨task'', htask'', hphase', hcall', hresult'⟩ :=
    hbc sessionId taskKey task' htask' (by rw [hphase]; exact hterminal)
  exact ⟨task'', htask'', hphase'.trans hphase, hcall'.trans hcall, hresult'.trans hresult⟩

/-- A write to one row keeps the terminal rows if that row was not terminal. -/
lemma TerminalKept.of_setTask {db : Database} {task : StoredDurableTask}
    (htasks : db'.tasks = (db.setTask sessionId taskKey task).tasks)
    (hlive : ∀ current, db.tasks sessionId taskKey = some current →
      current.phase.isTerminal = false) : TerminalKept db db' := by
  intro sessionId' taskKey' current hcurrent hterminal
  refine ⟨current, ?_, rfl, rfl, rfl⟩
  rw [htasks, setTask]
  by_cases hsession : sessionId' = sessionId
  · subst hsession
    have hkey : taskKey' ≠ taskKey := by
      rintro rfl
      rw [hlive current hcurrent] at hterminal
      cases hterminal
    simp [Function.update_of_ne hkey, hcurrent]
  · simp [Function.update_of_ne hsession, hcurrent]

/-- A terminal phase is followed by itself alone. -/
lemma eq_of_canTransitionTo {phase next : DurableTaskPhase} (hterminal : phase.isTerminal = true)
    (h : phase.canTransitionTo next = true) : phase = next := by
  unfold DurableTaskPhase.canTransitionTo at h
  by_cases heq : phase = next
  · exact heq
  · rw [if_neg heq, if_pos hterminal] at h
    cases h

/-- A committed call keeps the terminal rows unless it rewrites one. -/
lemma terminalKept_of_commits {db : Database} {event : StoreEvent}
    (hcommits : Commits db event db') (hkeeps : ¬Rewrites db event) : TerminalKept db db' := by
  obtain ⟨hopened, hchecked, answer, hcall⟩ := hcommits
  cases (call_writes hcall).tasks with
  | kept htasks => exact .of_tasks htasks
  | created _ hbegins htasks =>
    refine .of_setTask htasks fun current hcurrent => ?_
    rw [hbegins.new] at hcurrent
    cases hcurrent
  | checkpointed _ hcheckpoints htasks =>
    refine .of_setTask htasks fun current hcurrent => ?_
    rw [hcheckpoints.stored, Option.some.injEq] at hcurrent
    rw [← hcurrent, hcheckpoints.phase]
    rfl
  | moved hevent htransits htasks =>
    refine .of_setTask htasks fun current hcurrent => ?_
    rw [htransits.stored, Option.some.injEq] at hcurrent
    subst hcurrent
    by_contra hterminal
    rw [Bool.not_eq_false] at hterminal
    obtain rfl := eq_of_canTransitionTo hterminal htransits.allowed
    exact hkeeps ⟨hopened, hchecked, _, _, _, _, _, _, _, hevent, htransits, hterminal⟩

/-- A rewriting call changes a terminal row. -/
lemma not_terminalKept_of_rewrites {db : Database} {event : StoreEvent}
    (hrewrites : Rewrites db event) (hcommits : Commits db event db') : ¬TerminalKept db db' := by
  intro hkept
  obtain ⟨-, -, lease, taskKey, expected, callId, result, nowMs, current, hevent, htransits,
    hterminal⟩ := hrewrites
  obtain ⟨-, -, answer, hcall⟩ := hcommits
  rw [hevent, call, htransits.call] at hcall
  cases hcall
  obtain ⟨after, hafter, -, hcallId, hresult⟩ :=
    hkept lease.sessionId taskKey current htransits.stored hterminal
  rw [setTask_tasks_self, Option.some.injEq] at hafter
  subst hafter
  exact htransits.differs ⟨rfl, hcallId.symm, hresult.symm⟩

/-- A call that passes these checks is answered, and its row is another one. -/
lemma tasks_ne_of_changesTask {db : Database} {call : StoreCall} (h : call.ChangesTask db) :
    ∃ db' answer, db.call call = .ok (db', answer) ∧ db'.tasks ≠ db.tasks := by
  have hne {db' : Database} (lease : SessionLease) (taskKey : String) (task : StoredDurableTask)
      (hrow : db.tasks lease.sessionId taskKey ≠ some task)
      (htasks : db'.tasks = (db.setTask lease.sessionId taskKey task).tasks) :
      db'.tasks ≠ db.tasks := by
    intro heq
    rw [← heq, htasks, setTask_tasks_self] at hrow
    exact hrow rfl
  have hrevision {current task : StoredDurableTask}
      (h : task.taskRevision = current.taskRevision + 1) : some current ≠ some task := by
    rintro ⟨⟩
    omega
  cases call with
  | beginOrResumeTask lease taskKey inputDigest nowMs =>
    refine ⟨_, _, congrArg (answering StoreAnswer.task) (Begins.call h), hne lease taskKey _ ?_ rfl⟩
    rw [h.new]
    exact (Option.some_ne_none _).symm
  | checkpointTaskUser lease session taskKey nowMs =>
    obtain ⟨row, current, h⟩ := h
    have hcall := congrArg (answering fun answer : SessionLease × StoredDurableTask =>
      StoreAnswer.checkpointed answer.1 answer.2)
        (checkpointTaskUser_eq_ok.2 ⟨row, current, h, rfl, rfl, rfl⟩)
    refine ⟨_, _, hcall, hne lease taskKey (Checkpointed lease current) ?_ ?_⟩
    · rw [h.stored]
      exact hrevision rfl
    · rw [writeSession_of_holds h.written.holds]
      rfl
  | transitionTask lease taskKey expected phase callId result nowMs =>
    obtain ⟨current, h⟩ := h
    refine ⟨_, _, congrArg (answering StoreAnswer.task) h.call, hne lease taskKey _ ?_ rfl⟩
    rw [h.stored]
    exact hrevision rfl
  | _ => exact h.elim

lemma changesTask_of_call {db : Database} {call : StoreCall} {answer : StoreAnswer}
    (h : db.call call = .ok (db', answer)) (hchanged : db'.tasks ≠ db.tasks) :
    call.ChangesTask db := by
  cases (call_writes h).tasks with
  | kept htasks => exact absurd htasks hchanged
  | created hcall hbegins => exact hcall ▸ hbegins
  | checkpointed hcall hcheckpoints => exact hcall ▸ ⟨_, _, hcheckpoints⟩
  | moved hcall htransits => exact hcall ▸ ⟨_, htransits⟩

lemma MovedByOne.of_setTask {db : Database} {current task : StoredDurableTask}
    (hcurrent : db.tasks sessionId taskKey = some current)
    (hrevision : task.taskRevision = current.taskRevision + 1)
    (htasks : db'.tasks = (db.setTask sessionId taskKey task).tasks) :
    MovedByOne (db.tasks sessionId taskKey) (db'.tasks sessionId taskKey) :=
  .inr (.inr ⟨current, task, hcurrent, by rw [htasks, setTask_tasks_self], hrevision⟩)

/-- A task call that is committed is fenced and moves its row by at most one revision. -/
lemma fenced_of_call {db : Database} {call : StoreCall} {answer : StoreAnswer}
    {lease : SessionLease} {nowMs : ℤ} (htarget : call.taskTarget = some (lease, taskKey, nowMs))
    (h : db.call call = .ok (db', answer)) :
    (∃ row, Current db lease nowMs row) ∧
      MovedByOne (db.tasks lease.sessionId taskKey) (db'.tasks lease.sessionId taskKey) := by
  cases call <;> cases htarget
  all_goals
    dsimp only [call] at h
    obtain ⟨task, h, -⟩ := answering_eq_ok h
  case beginOrResumeTask =>
    obtain ⟨hcurrent, ⟨-, rfl⟩ | ⟨hbegins, rfl⟩⟩ := beginOrResumeTask_eq_ok h
    · exact ⟨hcurrent, .inl rfl⟩
    · exact ⟨hcurrent, .inr (.inl ⟨hbegins.new, _, setTask_tasks_self .., rfl⟩)⟩
  case checkpointTaskUser =>
    obtain ⟨row, current, hcheckpoints, rfl, -⟩ := checkpointTaskUser_eq_ok.1 h
    have hwritten := hcheckpoints.written
    refine ⟨⟨row, hwritten.holds, hwritten.stored, hwritten.revision⟩, ?_⟩
    rw [writeSession_of_holds hwritten.holds]
    exact .of_setTask hcheckpoints.stored rfl rfl
  case transitionTask =>
    obtain ⟨hcurrent, ⟨_, -, -, -, -, rfl⟩ | ⟨current, htransits, rfl⟩⟩ := transitionTask_eq_ok h
    · exact ⟨hcurrent, .inl rfl⟩
    · exact ⟨hcurrent, .of_setTask htransits.stored rfl rfl⟩

/-- A step is as expected exactly if it neither rewrites a terminal row nor fails late. -/
lemma taskStep_iff :
    TaskStep (storeMachine.stepAt db event) ↔ ¬Rewrites db event ∧ ¬FailsLate db event := by
  obtain ⟨hsame, ⟨error, herror⟩, hnone⟩ | ⟨hcommits, hanswer⟩ := stepAt_cases db event
  · have hexpected : TaskStep (storeMachine.stepAt db event) :=
      { terminal := .of_tasks (by rw [hsame]; rfl)
        fenced := by
          intro _ _ _ answer _ hok
          rw [herror] at hok
          cases hok
        failed := fun _ _ => by rw [hsame]; rfl }
    refine iff_of_true hexpected ⟨?_, ?_⟩
    · rintro ⟨hopened, hchecked, _, _, _, _, _, _, _, hevent, htransits, -⟩
      obtain ⟨db', answer, hcall, -⟩ :=
        tasks_ne_of_changesTask (hevent ▸ ⟨_, htransits⟩ : event.call.ChangesTask db)
      exact hnone db' ⟨hopened, hchecked, answer, hcall⟩
    · rintro ⟨hopened, hchecked, -, hchanges⟩
      obtain ⟨db', answer, hcall, -⟩ := tasks_ne_of_changesTask hchanges
      exact hnone db' ⟨hopened, hchecked, answer, hcall⟩
  · constructor
    · intro hstep
      refine ⟨fun hrewrites => not_terminalKept_of_rewrites hrewrites hcommits hstep.terminal, ?_⟩
      rintro ⟨-, -, hlate, hchanges⟩
      obtain ⟨db', answer, hcall, hchanged⟩ := tasks_ne_of_changesTask hchanges
      obtain rfl := hcommits.unique ⟨hcommits.1, hcommits.2.1, answer, hcall⟩
      obtain ⟨herror, -⟩ | ⟨hchecked, -⟩ := hanswer
      · exact hchanged (hstep.failed _ herror)
      · rw [hlate] at hchecked
        cases hchecked
    · rintro ⟨hkeeps, hearly⟩
      refine ⟨terminalKept_of_commits hcommits hkeeps, ?_, ?_⟩
      · intro lease taskKey nowMs answer htarget hok
        obtain ⟨herror, -⟩ | ⟨-, _, -, hcall⟩ := hanswer
        · rw [hok] at herror
          cases herror
        · exact fenced_of_call htarget hcall
      · intro error herror
        by_contra hchanged
        obtain ⟨-, hlate⟩ | ⟨-, _, hok, -⟩ := hanswer
        · obtain ⟨hopened, hchecked, _, hcall⟩ := hcommits
          exact hearly ⟨hopened, hchecked, hlate, changesTask_of_call hcall hchanged⟩
        · rw [hok] at herror
          cases herror

/-! ## Runs -/

/-- What is expected of the task rows in a run of the store: each step is as expected, and what
a terminal row holds is still there at every later time. -/
structure TasksSettle (events : List StoreEvent) : Prop where
  steps : ∀ x ∈ storeMachine.trace empty events, TaskStep x
  terminal : ∀ early middle late, events = early ++ middle ++ late →
    TerminalKept (storeMachine.run empty early)
      (storeMachine.run empty (early ++ middle))

/-- Task rows settle in exactly the runs in which no transition rewrites a terminal row and no
storage check fails after a row was changed. -/
theorem tasksSettle_iff (events : List StoreEvent) :
    TasksSettle events ↔ ∀ x ∈ storeMachine.trace empty events,
      ¬Rewrites x.before x.event ∧ ¬FailsLate x.before x.event := by
  have hstep : ∀ x ∈ storeMachine.trace empty events,
      (TaskStep x ↔ ¬Rewrites x.before x.event ∧ ¬FailsLate x.before x.event) := by
    intro x hx
    obtain ⟨before, _, _, hx⟩ := storeMachine.exists_of_mem_trace hx
    rw [hx]
    exact taskStep_iff _ _
  constructor
  · intro hsettle x hx
    exact (hstep x hx).1 (hsettle.steps x hx)
  · intro hkeeps
    have hsteps : ∀ x ∈ storeMachine.trace empty events, TaskStep x :=
      fun x hx => (hstep x hx).2 (hkeeps x hx)
    exact ⟨hsteps, Machine.trace_relation_between TerminalKept.refl
      (fun _ _ _ => TerminalKept.trans) fun x hx => (hsteps x hx).terminal⟩

/-! ## A result that is replaced -/

section Rewritten

def chatSession : Session where
  id := "chat"
  runId := some "run"
  memorySnapshot := none
  document := ""

def chatLease : SessionLease := ⟨"chat", "engine", 1, 0⟩

/-- A transition of the one task of the session. -/
def settling (expected : ℤ) (phase : DurableTaskPhase) (callId : String)
    (result : Option (List UInt8)) : StoreEvent :=
  ⟨.transitionTask chatLease "message" expected phase (some callId) result 10, sound⟩

/-- A session is created, its task begun and completed with result 1. -/
def completedOnce : List StoreEvent :=
  [⟨.createActive chatSession "engine" 10, sound⟩,
    ⟨.beginOrResumeTask chatLease "message" (List.replicate 32 0) 10, sound⟩,
    settling 0 .completed "call" (some [1])]

/-- The same transition with result 2. -/
def completedAgain : StoreEvent := settling 1 .completed "call" (some [2])

/-- The phase and the result of the task of the session. -/
def settledAs (db : Database) : Option (DurableTaskPhase × Option (List UInt8)) :=
  (db.tasks "chat" "message").map fun task => (task.phase, task.terminalResultJson)

/-- A completed task is completed a second time, and its first result is gone. -/
theorem completed_result_replaced :
    settledAs (storeMachine.run empty completedOnce) =
        some (.completed, some [1]) ∧
      settledAs (storeMachine.run empty (completedOnce ++ [completedAgain])) =
        some (.completed, some [2]) ∧
      ¬TasksSettle (completedOnce ++ [completedAgain]) := by
  rw [← and_assoc]
  refine (fun hsettled => ⟨hsettled, fun hsettle => ?_⟩) (by decide +kernel)
  obtain ⟨hfirst, hsecond⟩ := hsettled
  have hkept := hsettle.terminal completedOnce [completedAgain] [] (List.append_nil _).symm
  obtain ⟨task, htask, hfirst⟩ := Option.map_eq_some_iff.1 hfirst
  obtain ⟨hphase, hresult⟩ := Prod.mk.inj hfirst
  obtain ⟨task', htask', -, -, hresult'⟩ := hkept "chat" "message" task htask (by rw [hphase]; rfl)
  obtain ⟨task'', htask'', hsecond⟩ := Option.map_eq_some_iff.1 hsecond
  rw [htask', Option.some.injEq] at htask''
  subst htask''
  have hreplaced := hresult'.symm.trans (Prod.mk.inj hsecond).2
  rw [hresult] at hreplaced
  exact absurd hreplaced (by decide)

end Rewritten

end SolarisMesh.Store
