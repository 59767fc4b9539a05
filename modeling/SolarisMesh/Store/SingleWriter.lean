import SolarisMesh.Store.TaskRows

/-!
# One writer at a time

A session is written by the holder of its lease alone, at the revision it read. Each takeover
raises the epoch, so a former holder is refused. A tombstone ends all writing, and the run of a
session, once set, stays. `save` guards the memory snapshot in the same way; the checkpoint of
a task writes the session without that guard and can replace or drop it.
-/

namespace SolarisMesh.Store

open List Lib
open Database (call leases empty)

/-! ## Calls -/

/-- The lease a step hands to its caller. -/
def granted (x : StoreStep) : Option SessionLease :=
  match x.event.call, x.answer with
  | .createActive .., .ok (.lease lease) => some lease
  | .loadActive .., .ok (.active active) => some active.lease
  | _, _ => none

namespace StoreCall

/-- The lease and the clock of a call made under a lease. -/
def fence : StoreCall → Option (SessionLease × ℤ)
  | .save lease _ nowMs | .heartbeat lease nowMs | .release lease nowMs | .loadTask lease _ nowMs
  | .beginOrResumeTask lease _ _ nowMs | .checkpointTaskUser lease _ _ nowMs
  | .transitionTask lease _ _ _ _ _ nowMs => some (lease, nowMs)
  | _ => none

/-- The session a call of a client is about. -/
def target (call : StoreCall) : Option String :=
  (call.acquires.map (·.1)).or (call.fence.map (·.1.sessionId))

end StoreCall

variable {db db' : Database}

variable {call : StoreCall} {lease : SessionLease} {answer : StoreAnswer} {event : StoreEvent}
  {earlier : List StoreStep}

lemma holds_of_fence {nowMs : ℤ} (hfence : call.fence = some (lease, nowMs))
    (h : db.call call = .ok (db', answer)) : Holds db lease nowMs := by
  cases call <;> cases hfence
  case beginOrResumeTask | checkpointTaskUser | transitionTask =>
    obtain ⟨⟨_, hcurrent⟩, -⟩ := fenced_of_call rfl h
    exact hcurrent.holds
  all_goals
    dsimp only [call] at h
    obtain ⟨_, h, -⟩ := answering_eq_ok h
  case save =>
    obtain ⟨row, hwritten, -⟩ := save_eq_ok h
    exact hwritten.holds
  case heartbeat => exact (heartbeat_eq_ok h).1
  case release => exact (release_eq_ok h).1
  case loadTask => exact (loadTask_eq_ok h).1

/-- A committed call on a session finds no tombstone. -/
lemma alive_of_target {sessionId : String} (htarget : call.target = some sessionId)
    (h : db.call call = .ok (db', answer)) : db.tombstones sessionId = false := by
  rcases Option.or_eq_some_iff.1 htarget with hfirst | ⟨-, hsecond⟩
  · obtain ⟨⟨_, ownerId⟩, hacquires, rfl⟩ := Option.map_eq_some_iff.1 hfirst
    rcases (call_writes h).rows.lease_cases _ with ⟨-, hnone⟩ | ⟨_, _, _, -, halive, -⟩ |
      ⟨_, _, _, _, -, -, hnone, -⟩
    · exact absurd hacquires (hnone ownerId)
    · exact halive
    · rw [hacquires] at hnone
      cases hnone
  · obtain ⟨⟨lease, nowMs⟩, hfence, rfl⟩ := Option.map_eq_some_iff.1 hsecond
    exact (holds_of_fence hfence h).alive

/-- A step that answers has committed its call. -/
lemma call_of_answer (h : (storeMachine.stepAt db event).answer = .ok answer) :
    db.call event.call = .ok (storeMachine.next db event, answer) := by
  rcases stepAt_cases db event with ⟨-, ⟨error, herror⟩, -⟩ |
    ⟨-, ⟨herror, -⟩ | ⟨-, answer', hanswer, hcall⟩⟩
  · rw [herror] at h
    cases h
  · rw [herror] at h
    cases h
  · rw [hanswer, Except.ok.injEq] at h
    rw [← h]
    exact hcall

/-- The row after a grant is the lease granted. -/
lemma granted_row (h : granted (storeMachine.stepAt db event) = some lease) :
    event.call.acquires = some (lease.sessionId, lease.ownerId) ∧
      RowWrite db event.call (storeMachine.next db event) ∧
      ∃ expiresAtMs, (storeMachine.next db event).leases lease.sessionId =
        some ⟨some lease.ownerId, lease.epoch, expiresAtMs⟩ := by
  unfold granted at h
  split at h
  · next session ownerId nowMs lease' hevent hanswer =>
    cases h
    have hevent : event.call = .createActive session ownerId nowMs := hevent
    have hcall := call_of_answer hanswer
    have hrows := (call_writes hcall).rows
    rw [hevent] at hcall
    obtain ⟨_, hcreate, htag⟩ := answering_eq_ok hcall
    cases htag
    obtain ⟨_, -, -, -, rfl, hnext⟩ := createActive_eq_ok hcreate
    refine ⟨by rw [hevent]; rfl, hrows, some (leaseExpiry nowMs), ?_⟩
    exact (congrFun (congrArg leases hnext) _).trans (Function.update_self ..)
  · next sessionId ownerId nowMs active hevent hanswer =>
    cases h
    have hevent : event.call = .loadActive sessionId ownerId nowMs := hevent
    have hcall := call_of_answer hanswer
    have hrows := (call_writes hcall).rows
    rw [hevent] at hcall
    obtain ⟨_, hload, htag⟩ := answering_eq_ok hcall
    cases htag
    obtain ⟨_, _, -, -, -, rfl, hnext⟩ := loadActive_eq_ok hload
    refine ⟨by rw [hevent]; rfl, hrows, some (leaseExpiry nowMs), ?_⟩
    exact (congrFun (congrArg leases hnext) _).trans (Function.update_self ..)
  · cases h

/-! ## Steps -/

/-- Tombstones stay, and what they cover stays as it is. -/
def BuriedKept (before after : Database) : Prop :=
  ∀ sessionId, before.tombstones sessionId = true →
    after.tombstones sessionId = true ∧
      after.sessions sessionId = before.sessions sessionId ∧
      after.leases sessionId = before.leases sessionId ∧
      after.tasks sessionId = before.tasks sessionId

/-- A session keeps its run and its memory snapshot once it has them. -/
def SetOnce (before after : Database) : Prop :=
  ∀ sessionId row, before.sessions sessionId = some row →
    ∃ row', after.sessions sessionId = some row' ∧
      (∀ run, row.runId = some run → row'.runId = some run) ∧
      ∀ snapshot, row.session.memorySnapshot = some snapshot →
        row'.session.memorySnapshot = some snapshot

/-- What is expected of a step after the `earlier` ones. -/
structure WriterStep (earlier : List StoreStep) (x : StoreStep) : Prop where
  epochs : ∀ lease, granted x = some lease → ∀ y ∈ earlier, ∀ previous,
    granted y = some previous → previous.sessionId = lease.sessionId →
    previous.epoch < lease.epoch
  fenced : ∀ lease nowMs answer, x.event.call.fence = some (lease, nowMs) →
    x.answer = .ok answer → Holds x.before lease nowMs ∧
      ∀ y ∈ earlier, ∀ previous, granted y = some previous →
        previous.sessionId = lease.sessionId →
        previous.epoch < lease.epoch ∨
          previous.epoch = lease.epoch ∧ previous.ownerId = lease.ownerId
  writes : ∀ lease session answer, x.event.call.written = some (lease, session) →
    x.answer = .ok answer → ∃ row, x.before.sessions lease.sessionId = some row ∧
      row.revision = lease.revision ∧
      x.after.sessions lease.sessionId = some ⟨session, row.revision + 1, session.runId⟩
  unread : ∀ sessionId row, x.before.sessions sessionId = some row →
    x.after.sessions sessionId = some row ∨
      ∃ lease session, x.event.call.written = some (lease, session) ∧
        lease.sessionId = sessionId ∧ lease.revision = row.revision
  buried : BuriedKept x.before x.after
  refused : ∀ sessionId, x.event.call.target = some sessionId →
    x.before.tombstones sessionId = true → ∃ error, x.answer = .error error
  setOnce : SetOnce x.before x.after

/-- A task checkpoint is committed whose session lacks the stored memory snapshot. -/
def DropsSnapshot (db : Database) (event : StoreEvent) : Prop :=
  ∃ lease session taskKey nowMs row snapshot db',
    event.call = .checkpointTaskUser lease session taskKey nowMs ∧ Commits db event db' ∧
    db.sessions lease.sessionId = some row ∧
    row.session.memorySnapshot = some snapshot ∧ session.memorySnapshot ≠ some snapshot

lemma BuriedKept.refl (db : Database) : BuriedKept db db :=
  fun _ hburied => ⟨hburied, rfl, rfl, rfl⟩

lemma BuriedKept.trans {a b c : Database} (hab : BuriedKept a b) (hbc : BuriedKept b c) :
    BuriedKept a c := by
  intro sessionId hburied
  obtain ⟨hburied, hsession, hlease, htasks⟩ := hab sessionId hburied
  obtain ⟨hburied', hsession', hlease', htasks'⟩ := hbc sessionId hburied
  exact ⟨hburied', hsession'.trans hsession, hlease'.trans hlease, htasks'.trans htasks⟩

lemma SetOnce.refl (db : Database) : SetOnce db db :=
  fun _ row hrow => ⟨row, hrow, fun _ => id, fun _ => id⟩

lemma SetOnce.trans {a b c : Database} (hab : SetOnce a b) (hbc : SetOnce b c) :
    SetOnce a c := by
  intro sessionId row hrow
  obtain ⟨row', hrow', hrun, hsnapshot⟩ := hab sessionId row hrow
  obtain ⟨row'', hrow'', hrun', hsnapshot'⟩ := hbc sessionId row' hrow'
  exact ⟨row'', hrow'', fun run h => hrun' run (hrun run h),
    fun snapshot h => hsnapshot' snapshot (hsnapshot snapshot h)⟩

/-- No committed call touches what a tombstone covers. -/
lemma buriedKept_of_call (h : db.call call = .ok (db', answer)) : BuriedKept db db' := by
  intro sessionId hburied
  have hrows := (call_writes h).rows
  refine ⟨?_, ?_, ?_, ?_⟩
  · obtain hsame | ⟨_, -, hset⟩ := hrows.tombstone_cases sessionId
    · rw [hsame, hburied]
    · exact hset
  · obtain hsame | ⟨-, halive, -⟩ | ⟨lease, _, _, _, -, rfl, hwritten, -⟩ :=
      hrows.session_cases sessionId
    · exact hsame
    · rw [halive] at hburied
      cases hburied
    · rw [hwritten.holds.alive] at hburied
      cases hburied
  · obtain ⟨hsame, -⟩ | ⟨_, _, _, -, halive, -⟩ | ⟨lease, _, _, _, hholds, rfl, -⟩ :=
      hrows.lease_cases sessionId
    · exact hsame
    · rw [halive] at hburied
      cases hburied
    · rw [hholds.alive] at hburied
      cases hburied
  · -- a task call is made under a lease, so its session has no tombstone
    have hother : ∀ target, call.target = some target → sessionId ≠ target := by
      rintro target htarget rfl
      rw [alive_of_target htarget h] at hburied
      cases hburied
    cases (call_writes h).tasks with
    | kept htasks => rw [htasks]
    | created hcall _ htasks | checkpointed hcall _ htasks | moved hcall _ htasks =>
      rw [htasks]
      exact Function.update_of_ne (hother _ (by rw [hcall]; rfl)) ..

/-- A committed call keeps the runs and snapshots of sessions unless it drops a snapshot. -/
lemma setOnce_of_commits (hcommits : Commits db event db') (hkeeps : ¬DropsSnapshot db event) :
    SetOnce db db' := by
  intro sessionId row hrow
  obtain ⟨-, -, answer, hcall⟩ := id hcommits
  obtain hsame | ⟨hnone, -⟩ | ⟨lease, session, row', nowMs, -, rfl, hwritten, hguard, hafter⟩ :=
    (call_writes hcall).rows.session_cases sessionId
  · exact ⟨row, hsame.trans hrow, fun _ => id, fun _ => id⟩
  · rw [hrow] at hnone
    cases hnone
  · have hstored := hwritten.stored
    rw [hrow, Option.some.injEq] at hstored
    subst hstored
    refine ⟨_, hafter, hwritten.runId, fun snapshot hsnapshot => ?_⟩
    obtain ⟨taskKey, hevent⟩ | hguard := hguard
    · by_contra hdropped
      exact hkeeps ⟨lease, session, taskKey, nowMs, row, snapshot, db', hevent, hcommits, hrow,
        hsnapshot, hdropped⟩
    · exact hguard snapshot hsnapshot

lemma not_setOnce_of_dropsSnapshot (hcommits : Commits db event db')
    (hdrops : DropsSnapshot db event) : ¬SetOnce db db' := by
  intro hkept
  obtain ⟨lease, session, taskKey, nowMs, row, snapshot, -, hevent, -, hrow, hsnapshot, hdropped⟩ :=
    hdrops
  obtain ⟨-, -, answer, hcall⟩ := hcommits
  rw [hevent] at hcall
  dsimp only [call] at hcall
  obtain ⟨⟨renewed, task⟩, hcall, -⟩ := answering_eq_ok hcall
  obtain ⟨row', current, hcheckpoints, rfl, -⟩ := checkpointTaskUser_eq_ok.1 hcall
  have hwritten := hcheckpoints.written
  obtain ⟨after, hafter, -, hkept⟩ := hkept lease.sessionId row hrow
  have hsessions : ((db.writeSession lease session session.runId (lease.revision + 1)
      nowMs).setTask lease.sessionId taskKey (Checkpointed lease current)).sessions
      lease.sessionId = some ⟨session, lease.revision + 1, session.runId⟩ := by
    rw [writeSession_of_holds hwritten.holds]
    exact Function.update_self ..
  rw [hsessions, Option.some.injEq] at hafter
  subst hafter
  exact hdropped (hkept snapshot hsnapshot)

/-! ## The history of epochs -/

/-- The stored lease is the latest one granted. -/
structure EpochHistory (db : Database) (earlier : List StoreStep) : Prop where
  leased : ∀ sessionId, db.sessions sessionId = none → db.leases sessionId = none
  latest : ∀ y ∈ earlier, ∀ previous, granted y = some previous →
    ∃ row, db.leases previous.sessionId = some row ∧
      (previous.epoch < row.epoch ∨
        previous.epoch = row.epoch ∧ ∀ ownerId, row.ownerId = some ownerId →
          previous.ownerId = ownerId)

/-- A takeover is under a larger epoch than the row it replaces. -/
lemma EpochHistory.takeover (h : EpochHistory db earlier) {sessionId : String} {epoch : ℤ}
    {row : LeaseRow} (hepoch : db.sessions sessionId = none ∧ epoch = 1 ∨
      db.leases sessionId = none ∧ epoch = 1 ∨
      ∃ row, db.leases sessionId = some row ∧ epoch = row.epoch + 1)
    (hrow : db.leases sessionId = some row) : row.epoch < epoch := by
  obtain ⟨hnone, -⟩ | ⟨hnone, -⟩ | ⟨row', hrow', rfl⟩ := hepoch
  · rw [h.leased sessionId hnone] at hrow
    cases hrow
  · rw [hnone] at hrow
    cases hrow
  · rw [hrow, Option.some.injEq] at hrow'
    subst hrow'
    omega

/-- What the rows say of earlier grants, they still say after a committed call. -/
lemma EpochHistory.of_call (h : EpochHistory db earlier) (hrows : RowWrite db call db') :
    EpochHistory db' earlier := by
  refine ⟨fun sessionId hnone => ?_, fun y hy previous hprevious => ?_⟩
  · -- sessions are never removed, and a lease is taken on a stored session alone
    have hnone' : db.sessions sessionId = none := by
      obtain hsame | ⟨hbefore, -⟩ | ⟨_, _, _, _, -, -, -, -, hafter⟩ :=
        hrows.session_cases sessionId
      · exact hsame.symm.trans hnone
      · exact hbefore
      · rw [hafter] at hnone
        cases hnone
    have hunleased := h.leased sessionId hnone'
    obtain ⟨hsame, -⟩ | ⟨_, _, _, -, -, hstored, -⟩ | ⟨lease, nowMs, _, _, hholds, rfl, -⟩ :=
      hrows.lease_cases sessionId
    · exact hsame.trans hunleased
    · exact absurd hnone hstored
    · obtain ⟨expiry, -, hcurrent⟩ := hholds.current
      rw [hunleased] at hcurrent
      cases hcurrent
  · obtain ⟨row, hrow, hlatest⟩ := h.latest y hy previous hprevious
    obtain ⟨hsame, -⟩ | ⟨ownerId, epoch, expiresAtMs, -, -, -, hepoch, hafter⟩ |
      ⟨lease, nowMs, ownerId, expiresAtMs, hholds, htarget, -, howner, hafter⟩ :=
      hrows.lease_cases previous.sessionId
    · exact ⟨row, hsame.trans hrow, hlatest⟩
    · have hlt := h.takeover hepoch hrow
      refine ⟨_, hafter, .inl ?_⟩
      dsimp only
      omega
    · obtain ⟨expiry, -, hcurrent⟩ := hholds.current
      rw [htarget, hrow, Option.some.injEq] at hcurrent
      subst hcurrent
      refine ⟨_, hafter, hlatest.imp id fun ⟨heq, hsame⟩ => ⟨heq, fun owner hsome => ?_⟩⟩
      obtain rfl | rfl := howner
      · exact hsame owner hsome
      · cases hsome

lemma EpochHistory.step (h : EpochHistory db earlier) (event : StoreEvent) :
    EpochHistory (storeMachine.next db event) (earlier ++ [storeMachine.stepAt db event]) := by
  have hkept : EpochHistory (storeMachine.next db event) earlier := by
    obtain ⟨hsame, -⟩ | ⟨⟨-, -, answer, hcall⟩, -⟩ := stepAt_cases db event
    · have hsame : storeMachine.next db event = db := hsame
      rw [hsame]
      exact h
    · exact h.of_call (call_writes hcall).rows
  refine ⟨hkept.leased, fun y hy previous hprevious => ?_⟩
  obtain hy | hy := mem_append.1 hy
  · exact hkept.latest y hy previous hprevious
  · rw [mem_singleton] at hy
    subst hy
    obtain ⟨-, -, expiresAtMs, hrow⟩ := granted_row hprevious
    refine ⟨_, hrow, .inr ⟨rfl, fun ownerId hsome => ?_⟩⟩
    exact Option.some.inj hsome

/-- A committed call is as expected, the memory snapshot apart. -/
lemma writes_of_call {session : Session} (hcalled : call.written = some (lease, session))
    (h : db.call call = .ok (db', answer)) :
    ∃ row, db.sessions lease.sessionId = some row ∧ row.revision = lease.revision ∧
      db'.sessions lease.sessionId = some ⟨session, row.revision + 1, session.runId⟩ := by
  cases (call_writes h).rows with
  | @written lease' session' nowMs row hcall hwritten hrows =>
    have hsame : call.written = some (lease', session') := by
      obtain ⟨rfl, -⟩ | ⟨_, rfl⟩ := hcall <;> rfl
    rw [hcalled] at hsame
    cases hsame
    rw [writeSession_of_holds hwritten.holds] at hrows
    refine ⟨row, hwritten.stored, hwritten.revision, ?_⟩
    rw [hwritten.revision]
    exact (congrFun (congrArg Rows.sessions hrows) _).trans (Function.update_self ..)
  | kept _ hnone _ =>
    rw [hcalled] at hnone
    cases hnone
  | created hcall _ _ _ _ | acquired hcall _ _ _ _ | imported hcall _ _ _
  | buried hcall _ _ =>
    rw [hcall] at hcalled
    cases hcalled
  | renewed hcall _ _ => obtain ⟨rfl, -⟩ | ⟨rfl, -⟩ := hcall <;> cases hcalled

lemma EpochHistory.granted_above (h : EpochHistory db earlier)
    (hgranted : granted (storeMachine.stepAt db event) = some lease) :
    ∀ y ∈ earlier, ∀ previous, granted y = some previous →
      previous.sessionId = lease.sessionId → previous.epoch < lease.epoch := by
  intro y hy previous hprevious hsession
  obtain ⟨hacquires, hrows, expiresAtMs, hafter⟩ := granted_row hgranted
  obtain ⟨row, hrow, hlatest⟩ := h.latest y hy previous hprevious
  rw [hsession] at hrow
  have hle : previous.epoch ≤ row.epoch := hlatest.elim Int.le_of_lt fun hsame =>
    Int.le_of_eq hsame.1
  obtain ⟨-, hnone⟩ | ⟨_, epoch, _, -, -, -, hepoch, hafter'⟩ | ⟨_, _, _, _, -, -, hnone, -⟩ :=
    hrows.lease_cases lease.sessionId
  · exact absurd hacquires (hnone _)
  · have hlt := h.takeover hepoch hrow
    rw [hafter, Option.some.injEq, LeaseRow.mk.injEq] at hafter'
    omega
  · rw [hacquires] at hnone
    cases hnone

lemma unread_of_call (hrows : RowWrite db call db') {sessionId : String} {row : SessionRow}
    (hrow : db.sessions sessionId = some row) : db'.sessions sessionId = some row ∨
      ∃ lease session, call.written = some (lease, session) ∧ lease.sessionId = sessionId ∧
        lease.revision = row.revision := by
  obtain hsame | ⟨hnone, -⟩ | ⟨lease, session, row', _, hcalled, rfl, hwritten, -, -⟩ :=
    hrows.session_cases sessionId
  · exact .inl (hsame.trans hrow)
  · rw [hrow] at hnone
    cases hnone
  · have hstored := hwritten.stored
    rw [hrow, Option.some.injEq] at hstored
    subst hstored
    exact .inr ⟨lease, session, hcalled, rfl, hwritten.revision.symm⟩

/-- Each step is as expected exactly if it does not drop a memory snapshot. -/
lemma writerStep_iff (h : EpochHistory db earlier) (event : StoreEvent) :
    WriterStep earlier (storeMachine.stepAt db event) ↔ ¬DropsSnapshot db event := by
  have hstep := stepAt_cases db event
  constructor
  · intro hexpected hdrops
    obtain ⟨-, -, hnone⟩ | ⟨hcommits, -⟩ := hstep
    · obtain ⟨_, _, _, _, _, _, _, -, hcommits, -⟩ := hdrops
      exact hnone _ hcommits
    · exact not_setOnce_of_dropsSnapshot hcommits hdrops hexpected.setOnce
  · intro hkeeps
    refine ⟨fun lease => h.granted_above, ?_, ?_, ?_, ?_, ?_, ?_⟩
    · intro lease nowMs answer hfence hanswer
      have hholds := holds_of_fence hfence (call_of_answer hanswer)
      refine ⟨hholds, fun y hy previous hprevious hsession => ?_⟩
      obtain ⟨row, hrow, hlatest⟩ := h.latest y hy previous hprevious
      obtain ⟨expiry, -, hcurrent⟩ := hholds.current
      rw [hsession, hcurrent, Option.some.injEq] at hrow
      subst hrow
      exact hlatest.imp id fun ⟨hepoch, howner⟩ => ⟨hepoch, howner _ rfl⟩
    · intro lease session answer hwritten hanswer
      exact writes_of_call hwritten (call_of_answer hanswer)
    · intro sessionId row hrow
      obtain ⟨hsame, -⟩ | ⟨⟨-, -, answer, hcall⟩, -⟩ := hstep
      · rw [hsame]
        exact .inl hrow
      · exact unread_of_call (call_writes hcall).rows hrow
    · obtain ⟨hsame, -⟩ | ⟨⟨-, -, answer, hcall⟩, -⟩ := hstep
      · rw [hsame]
        exact .refl db
      · exact buriedKept_of_call hcall
    · intro sessionId htarget hburied
      cases hanswer : (storeMachine.stepAt db event).answer with
      | error error => exact ⟨error, rfl⟩
      | ok answer =>
        have halive : db.tombstones sessionId = false :=
          alive_of_target htarget (call_of_answer hanswer)
        have hburied : db.tombstones sessionId = true := hburied
        rw [halive] at hburied
        cases hburied
    · obtain ⟨hsame, -⟩ | ⟨hcommits, -⟩ := hstep
      · rw [hsame]
        exact .refl db
      · exact setOnce_of_commits hcommits hkeeps

/-! ## Runs -/

/-- What is expected of the sessions in a run of the store. -/
structure SingleWriter (events : List StoreEvent) : Prop where
  steps : ∀ earlier x later,
    storeMachine.trace empty events = earlier ++ x :: later → WriterStep earlier x
  buried : ∀ early middle late, events = early ++ middle ++ late →
    BuriedKept (storeMachine.run empty early)
      (storeMachine.run empty (early ++ middle))
  setOnce : ∀ early middle late, events = early ++ middle ++ late →
    SetOnce (storeMachine.run empty early)
      (storeMachine.run empty (early ++ middle))

lemma epochHistory_run (events : List StoreEvent) :
    EpochHistory (storeMachine.run empty events)
      (storeMachine.trace empty events) := by
  refine Machine.history_invariant (fun db earlier event h => h.step event) ?_ events
  exact ⟨fun _ _ => rfl, fun y hy => absurd hy not_mem_nil⟩

/-- Sessions have one writer at a time and keep what is set once in exactly the runs in which
no task checkpoint drops a memory snapshot. -/
theorem singleWriter_iff (events : List StoreEvent) :
    SingleWriter events ↔ ∀ x ∈ storeMachine.trace empty events,
      ¬DropsSnapshot x.before x.event := by
  constructor
  · intro hwriter x hx
    obtain ⟨earlier, later, hsplit⟩ := append_of_mem hx
    have hexpected := hwriter.steps earlier x later hsplit
    obtain ⟨before, event, _, -, rfl, rfl, -⟩ := storeMachine.trace_eq_append_cons hsplit
    exact (writerStep_iff (epochHistory_run before) event).1 hexpected
  · intro hkeeps
    have hsteps : ∀ earlier x later,
        storeMachine.trace empty events = earlier ++ x :: later →
        WriterStep earlier x := by
      intro earlier x later hsplit
      have hkept := hkeeps x (hsplit ▸ mem_append_right _ (mem_cons_self ..))
      obtain ⟨before, event, _, -, rfl, rfl, -⟩ := storeMachine.trace_eq_append_cons hsplit
      exact (writerStep_iff (epochHistory_run before) event).2 hkept
    have hmem : ∀ x ∈ storeMachine.trace empty events,
        ∃ earlier, WriterStep earlier x := by
      intro x hx
      obtain ⟨earlier, later, hsplit⟩ := append_of_mem hx
      exact ⟨earlier, hsteps earlier x later hsplit⟩
    refine ⟨hsteps, ?_, ?_⟩
    · refine Machine.trace_relation_between BuriedKept.refl (fun _ _ _ => BuriedKept.trans) ?_
      intro x hx
      obtain ⟨_, hexpected⟩ := hmem x hx
      exact hexpected.buried
    · refine Machine.trace_relation_between SetOnce.refl (fun _ _ _ => SetOnce.trans) ?_
      intro x hx
      obtain ⟨_, hexpected⟩ := hmem x hx
      exact hexpected.setOnce

/-! ## A snapshot that is replaced -/

section Dropped

def noted (snapshot : String) : Session where
  id := "chat"
  runId := some "run"
  memorySnapshot := some snapshot
  document := ""

/-- A session is created with a snapshot, and a task is begun. -/
def snapshotTaken : List StoreEvent :=
  [⟨.createActive (noted "first") "engine" 10, sound⟩,
    ⟨.beginOrResumeTask chatLease "message" (List.replicate 32 0) 10, sound⟩]

/-- The user's input is checkpointed with a session that holds another snapshot. -/
def otherSnapshot : StoreEvent :=
  ⟨.checkpointTaskUser chatLease (noted "second") "message" 10, sound⟩

/-- The memory snapshot of the stored session. -/
def snapshotOf (db : Database) : Option String :=
  (db.sessions "chat").bind (·.session.memorySnapshot)

/-- A task checkpoint replaces the memory snapshot of its session. -/
theorem checkpoint_replaces_snapshot :
    snapshotOf (storeMachine.run empty snapshotTaken) = some "first" ∧
      snapshotOf (storeMachine.run empty (snapshotTaken ++ [otherSnapshot])) =
        some "second" ∧
      ¬SingleWriter (snapshotTaken ++ [otherSnapshot]) := by
  rw [← and_assoc]
  refine (fun htaken => ⟨htaken, fun hwriter => ?_⟩) (by decide +kernel)
  obtain ⟨hfirst, hsecond⟩ := htaken
  have hkept := hwriter.setOnce snapshotTaken [otherSnapshot] [] (append_nil _).symm
  obtain ⟨row, hrow, hsnapshot⟩ := Option.bind_eq_some_iff.1 hfirst
  obtain ⟨row', hrow', -, hkept⟩ := hkept "chat" row hrow
  obtain ⟨row'', hrow'', hsnapshot'⟩ := Option.bind_eq_some_iff.1 hsecond
  rw [hrow', Option.some.injEq] at hrow''
  subst hrow''
  rw [hkept "first" hsnapshot] at hsnapshot'
  exact absurd hsnapshot' (by decide)

end Dropped

end SolarisMesh.Store
