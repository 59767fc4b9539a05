import SolarisMesh.Lib.Machine
import SolarisMesh.Store.Collection
import SolarisMesh.Store.Tasks

/-!
# Calls of the store

The transactions of the store as calls on the database, each with the storage checks made
around it, and what each committed call does to the rows of one session.
-/

namespace SolarisMesh.Store

open List Lib

inductive StoreCall where
  | createActive (session : Session) (ownerId : String) (nowMs : ℤ)
  | loadActive (sessionId ownerId : String) (nowMs : ℤ)
  | save (lease : SessionLease) (session : Session) (nowMs : ℤ)
  | heartbeat (lease : SessionLease) (nowMs : ℤ)
  | release (lease : SessionLease) (nowMs : ℤ)
  | loadTask (lease : SessionLease) (taskKey : String) (nowMs : ℤ)
  | beginOrResumeTask (lease : SessionLease) (taskKey : String) (inputDigest : List UInt8)
      (nowMs : ℤ)
  | checkpointTaskUser (lease : SessionLease) (session : Session) (taskKey : String) (nowMs : ℤ)
  | transitionTask (lease : SessionLease) (taskKey : String) (expectedTaskRevision : ℤ)
      (phase : DurableTaskPhase) (callId : Option String)
      (terminalResultJson : Option (List UInt8)) (nowMs : ℤ)
  | importSource (sourceDigest : String) (session : Session)
  | planRetentionGc (sessionId jobId : String) (nowMs : ℤ)
  | prepareHostOutbox (sessionId runId : String) (nowMs : ℤ)
  | enqueueHostDelivery (outbox : StoredHostOutbox) (deliveryId msgId : String)
      (digest : Option String) (payload : List UInt8) (nowMs : ℤ)
  | acknowledgeHostDelivery (outbox : StoredHostOutbox) (runEpoch : ℤ)
      (deliveryId digest : String) (nowMs : ℤ)
deriving DecidableEq, Repr

inductive StoreAnswer where
  | lease (lease : SessionLease)
  | active (active : ActiveSession)
  | done
  | found (task : Option StoredDurableTask)
  | task (task : StoredDurableTask)
  | checkpointed (lease : SessionLease) (task : StoredDurableTask)
  | outbox (outbox : StoredHostOutbox)
  | delivery (delivery : HostDelivery)
  | acknowledged (now : Bool)
deriving DecidableEq, Repr

def Database.call (db : Database) : StoreCall → Result (Database × StoreAnswer)
  | .createActive session ownerId nowMs => answering .lease (createActive db session ownerId nowMs)
  | .loadActive sessionId ownerId nowMs =>
    answering .active (Store.loadActive db sessionId ownerId nowMs)
  | .save lease session nowMs => answering .lease (Store.save db lease session nowMs)
  | .heartbeat lease nowMs => answering (fun _ => .done) (Store.heartbeat db lease nowMs)
  | .release lease nowMs => answering (fun _ => .done) (Store.release db lease nowMs)
  | .loadTask lease taskKey nowMs => answering .found (Store.loadTask db lease taskKey nowMs)
  | .beginOrResumeTask lease taskKey inputDigest nowMs =>
    answering .task (Store.beginOrResumeTask db lease taskKey inputDigest nowMs)
  | .checkpointTaskUser lease session taskKey nowMs =>
    answering (fun (lease, task) => .checkpointed lease task)
      (Store.checkpointTaskUser db lease session taskKey nowMs)
  | .transitionTask lease taskKey expected phase callId result nowMs =>
    answering .task (Store.transitionTask db lease taskKey expected phase callId result nowMs)
  | .importSource sourceDigest session =>
    answering (fun _ => .done) (Store.importSource db sourceDigest session)
  | .planRetentionGc sessionId jobId nowMs =>
    answering (fun _ => .done) (Store.planRetentionGc db sessionId jobId nowMs)
  | .prepareHostOutbox sessionId runId nowMs =>
    answering .outbox (Store.prepareHostOutbox db sessionId runId nowMs)
  | .enqueueHostDelivery outbox deliveryId msgId digest payload nowMs =>
    answering .delivery
      (Store.enqueueHostDelivery db outbox deliveryId msgId digest payload nowMs)
  | .acknowledgeHostDelivery outbox runEpoch deliveryId digest nowMs =>
    answering .acknowledged
      (Store.acknowledgeHostDelivery db outbox runEpoch deliveryId digest nowMs)

/-- A call and how the storage checks around it turn out. -/
structure StoreEvent where
  call : StoreCall
  storage : StorageChecks
deriving DecidableEq, Repr

/-- All storage checks succeed. -/
def sound : StorageChecks := ⟨true, true, true⟩

/-- The checks a call has to pass. A delivery that was acknowledged before is answered without a
commit, so that only the first check counts. -/
def StoreEvent.checks (db : Database) (event : StoreEvent) : StorageChecks :=
  match db.call event.call with
  | .ok (_, .acknowledged false) => { sound with opened := event.storage.opened }
  | _ => event.storage

/-- The store under calls of any clients, in any order. -/
def storeMachine : Machine Database StoreEvent (Result StoreAnswer) where
  step db event := transact (event.checks db) db (db.call event.call)

abbrev StoreStep := Machine.Step Database StoreEvent (Result StoreAnswer)

/-! ## Committed calls -/

/-- The call reaches its commit and writes `db'`. -/
def Commits (db : Database) (event : StoreEvent) (db' : Database) : Prop :=
  (event.checks db).opened = true ∧ (event.checks db).beforeCommit = true ∧
    ∃ answer, db.call event.call = .ok (db', answer)

variable {db : Database}

lemma Commits.unique {a b : Database} {event : StoreEvent} (ha : Commits db event a)
    (hb : Commits db event b) : a = b := by
  obtain ⟨-, -, _, ha⟩ := ha
  obtain ⟨-, -, _, hb⟩ := hb
  rw [ha, Except.ok.injEq, Prod.mk.injEq] at hb
  exact hb.1

/-- A step leaves the database and answers an error, or it commits its call. -/
lemma stepAt_cases (db : Database) (event : StoreEvent) :
    ((storeMachine.stepAt db event).after = db ∧
      (∃ error, (storeMachine.stepAt db event).answer = .error error) ∧
      ∀ db', ¬Commits db event db') ∨
    Commits db event (storeMachine.stepAt db event).after ∧
      ((storeMachine.stepAt db event).answer = .error .unsafePath ∧
          (event.checks db).afterCommit = false ∨
        (event.checks db).afterCommit = true ∧ ∃ answer,
          (storeMachine.stepAt db event).answer = .ok answer ∧
          db.call event.call = .ok ((storeMachine.stepAt db event).after, answer)) := by
  simp only [Commits, Machine.stepAt, Machine.next, Machine.answer, storeMachine, transact]
  obtain ⟨opened, beforeCommit, afterCommit⟩ := event.checks db
  cases opened with
  | false => exact .inl ⟨rfl, ⟨_, rfl⟩, fun _ h => absurd h.1 Bool.false_ne_true⟩
  | true =>
    cases hcall : db.call event.call with
    | error error =>
      refine .inl ⟨rfl, ⟨error, rfl⟩, ?_⟩
      rintro db' ⟨-, -, answer, hok⟩
      cases hok
    | ok pair =>
      cases beforeCommit with
      | false => exact .inl ⟨rfl, ⟨_, rfl⟩, fun _ h => absurd h.2.1 Bool.false_ne_true⟩
      | true =>
        cases afterCommit with
        | false => exact .inr ⟨⟨rfl, rfl, pair.2, rfl⟩, .inl ⟨rfl, rfl⟩⟩
        | true => exact .inr ⟨⟨rfl, rfl, pair.2, rfl⟩, .inr ⟨rfl, pair.2, rfl, rfl⟩⟩

/-! ## The lease of a session -/

/-- The lease names the row of its session, which has not run out, and the session lives. -/
structure Holds (db : Database) (lease : SessionLease) (nowMs : ℤ) : Prop where
  alive : db.tombstones lease.sessionId = false
  current : ∃ expiry, nowMs < expiry ∧
    db.leases lease.sessionId = some ⟨some lease.ownerId, lease.epoch, some expiry⟩

variable {u : Unit}

variable {sessionId : String}

lemma requireNotTombstoned_eq_ok :
    requireNotTombstoned db sessionId = .ok u ↔ db.tombstones sessionId = false := by
  rw [requireNotTombstoned, require_eq_ok, Bool.not_eq_true']

lemma requireCurrentLease_eq_ok {lease : SessionLease} {nowMs : ℤ} :
    requireCurrentLease db lease nowMs = .ok u ↔ Holds db lease nowMs := by
  simp only [requireCurrentLease, requireNotTombstoned_eq_ok, bind_eq_ok, exists_const,
    orElseThrow_eq_ok, require_eq_ok, Bool.and_eq_true, decide_eq_true_eq, Option.any_eq_true]
  constructor
  · rintro ⟨halive, row, hrow, ⟨howner, hepoch⟩, expiry, hsome, hlt⟩
    exact ⟨halive, expiry, hlt, by rw [hrow, ← howner, ← hepoch, ← hsome]⟩
  · rintro ⟨halive, expiry, hlt, hrow⟩
    exact ⟨halive, _, hrow, ⟨rfl, rfl⟩, expiry, rfl, hlt⟩

/-- Under the lease it names, a refresh sets the expiry. -/
lemma refreshLease_of_holds {lease : SessionLease} {nowMs : ℤ} (h : Holds db lease nowMs)
    (expiresAtMs : ℤ) :
    db.refreshLease lease expiresAtMs =
      db.setLease lease.sessionId ⟨some lease.ownerId, lease.epoch, some expiresAtMs⟩ := by
  obtain ⟨expiry, -, hrow⟩ := h.current
  unfold Database.refreshLease
  rw [hrow]
  simp

lemma acquiredEpoch_eq_ok {current : Option LeaseRow} {ownerId : String} {nowMs : ℤ} {epoch : ℤ}
    (h : acquiredEpoch current sessionId ownerId nowMs = .ok epoch) :
    (current = none ∧ epoch = 1) ∨ ∃ row, current = some row ∧ epoch = row.epoch + 1 := by
  cases current with
  | none =>
    cases h
    exact .inl ⟨rfl, rfl⟩
  | some row =>
    right
    refine ⟨row, rfl, ?_⟩
    unfold acquiredEpoch at h
    dsimp only at h
    split at h
    · split at h
      · cases h
      · exact i64CheckedAdd_eq_some (orElseThrow_eq_ok.1 h)
    · exact i64CheckedAdd_eq_some (orElseThrow_eq_ok.1 h)

lemma queryStoredSession_eq_ok {row : SessionRow} (h : queryStoredSession db sessionId = .ok row) :
    db.sessions sessionId = some row := by
  unfold queryStoredSession at h
  split at h
  · cases h
  · exact orElseThrow_eq_ok.1 h

lemma optionalNonemptyRunId_eq_ok {session : Session} {runId : Option String} :
    optionalNonemptyRunId session = .ok runId ↔
      session.runId = runId ∧ ∀ run, runId = some run → isBlank run = false := by
  unfold optionalNonemptyRunId
  cases session.runId with
  | none =>
    simp only [Except.ok.injEq]
    exact ⟨by rintro rfl; simp, And.left⟩
  | some run =>
    dsimp only
    split
    · next hblank =>
      refine ⟨fun h => (by simp at h), ?_⟩
      rintro ⟨rfl, h⟩
      exact absurd (hblank.symm.trans (h run rfl)) (by decide)
    · next hblank =>
      simp only [Except.ok.injEq]
      exact ⟨by rintro rfl; simpa using hblank, And.left⟩

/-! ## What the calls commit -/

section

variable {db' : Database} {lease : SessionLease} {session : Session} {nowMs : ℤ}

lemma createActive_eq_ok {ownerId : String} {granted : SessionLease}
    (h : createActive db session ownerId nowMs = .ok (db', granted)) :
    ∃ runId, session.runId = some runId ∧ db.tombstones session.id = false ∧
      db.sessions session.id = none ∧ granted = ⟨session.id, ownerId, 1, 0⟩ ∧
      db' = (syncSessionRunReference (db.setSession session.id ⟨session, 0, some runId⟩) session.id
        (some runId)).setLease session.id ⟨some ownerId, 1, some (leaseExpiry nowMs)⟩ := by
  simp only [createActive, requireNewSessionRunId, bind_eq_ok, orElseThrow_eq_ok, require_eq_ok,
    Option.isNone_iff_eq_none, pure_eq_ok, Prod.mk.injEq] at h
  obtain ⟨_, -, runId, ⟨requested, hrequested, rfl⟩, _, halive, _, -, _, hnew, rfl, rfl⟩ := h
  exact ⟨runId, (optionalNonemptyRunId_eq_ok.1 hrequested).1, requireNotTombstoned_eq_ok.1 halive,
    hnew, rfl, rfl⟩

variable {task : StoredDurableTask} {outbox : StoredHostOutbox}

lemma loadActive_eq_ok {ownerId : String} {active : ActiveSession}
    (h : loadActive db sessionId ownerId nowMs = .ok (db', active)) :
    ∃ row epoch, db.tombstones sessionId = false ∧ db.sessions sessionId = some row ∧
      acquiredEpoch (db.leases sessionId) sessionId ownerId nowMs = .ok epoch ∧
      active = ⟨row.session, ⟨sessionId, ownerId, epoch, row.revision⟩⟩ ∧
      db' = (syncSessionRunReference db sessionId row.session.runId).setLease sessionId
        ⟨some ownerId, epoch, some (leaseExpiry nowMs)⟩ := by
  simp only [loadActive, bind_eq_ok, pure_eq_ok, Prod.mk.injEq] at h
  obtain ⟨_, -, _, halive, row, hrow, runId, hrun, epoch, hepoch, rfl, rfl⟩ := h
  obtain ⟨rfl, -⟩ := optionalNonemptyRunId_eq_ok.1 hrun
  exact ⟨row, epoch, requireNotTombstoned_eq_ok.1 halive, queryStoredSession_eq_ok hrow, hepoch,
    rfl, rfl⟩

lemma requireRunIdKept_eq_ok {row : SessionRow} {requested : Option String} :
    requireRunIdKept row sessionId requested = .ok u ↔
      ∀ run, row.runId = some run → requested = some run := by
  rw [requireRunIdKept, require_eq_ok]
  cases row.runId with
  | none => simp
  | some run => simp [eq_comm]

lemma requireRevision_eq_ok {actual : ℤ} :
    requireRevision lease actual = .ok u ↔ actual = lease.revision := by
  rw [requireRevision, require_eq_ok, decide_eq_true_eq]

/-- A session written under its lease at the stored revision, with the stored run kept. -/
structure Written (db : Database) (lease : SessionLease) (session : Session) (nowMs : ℤ)
    (row : SessionRow) : Prop where
  holds : Holds db lease nowMs
  target : lease.sessionId = session.id
  stored : db.sessions lease.sessionId = some row
  revision : row.revision = lease.revision
  runId : ∀ run, row.runId = some run → session.runId = some run
  nonblank : ∀ run, session.runId = some run → isBlank run = false

lemma save_eq_ok {renewed : SessionLease} (h : save db lease session nowMs = .ok (db', renewed)) :
    ∃ row, Written db lease session nowMs row ∧
      (∀ snapshot, row.session.memorySnapshot = some snapshot →
        session.memorySnapshot = some snapshot) ∧
      db' = db.writeSession lease session session.runId (lease.revision + 1) nowMs := by
  simp only [save, bind_eq_ok] at h
  obtain ⟨_, htarget, _, -, _, -, row, hrow, _, hlease, requested, hrequested, _, hkept,
    _, hrevision, _, hsnapshot, h⟩ := h
  rw [require_eq_ok, decide_eq_true_eq] at htarget
  simp only [orElseThrow_eq_ok, pure_eq_ok, Prod.mk.injEq] at h
  obtain ⟨next, hnext, rfl, -⟩ := h
  obtain rfl := i64CheckedAdd_eq_some hnext
  obtain ⟨rfl, hblank⟩ := optionalNonemptyRunId_eq_ok.1 hrequested
  refine ⟨row, ⟨requireCurrentLease_eq_ok.1 hlease, htarget, queryStoredSession_eq_ok hrow,
    requireRevision_eq_ok.1 hrevision, requireRunIdKept_eq_ok.1 hkept, hblank⟩,
    fun snapshot hcurrent => ?_, rfl⟩
  rw [requireMemorySnapshotSetOnce, require_eq_ok, hcurrent] at hsnapshot
  simpa [eq_comm] using hsnapshot

lemma heartbeat_eq_ok (h : heartbeat db lease nowMs = .ok (db', u)) :
    Holds db lease nowMs ∧
      db' = db.setLease lease.sessionId
        ⟨some lease.ownerId, lease.epoch, some (leaseExpiry nowMs)⟩ := by
  simp only [heartbeat, bind_eq_ok] at h
  obtain ⟨_, -, _, hlease, h⟩ := h
  rw [pure_eq_ok, Prod.mk.injEq] at h
  have hholds := requireCurrentLease_eq_ok.1 hlease
  exact ⟨hholds, by rw [← h.1, refreshLease_of_holds hholds]⟩

lemma release_eq_ok (h : release db lease nowMs = .ok (db', u)) :
    Holds db lease nowMs ∧ db' = db.setLease lease.sessionId ⟨none, lease.epoch, none⟩ := by
  simp only [release, bind_eq_ok] at h
  obtain ⟨_, -, _, hlease, h⟩ := h
  rw [pure_eq_ok, Prod.mk.injEq] at h
  exact ⟨requireCurrentLease_eq_ok.1 hlease, h.1.symm⟩

/-! ### Tasks -/

variable {taskKey : String}

lemma loadTask_eq_ok {found : Option StoredDurableTask}
    (h : loadTask db lease taskKey nowMs = .ok (db', found)) :
    Holds db lease nowMs ∧ db' = db := by
  unfold loadTask at h
  obtain ⟨hlease, h⟩ := check_bind_eq_ok.1 h
  rw [pure_eq_ok, Prod.mk.injEq] at h
  exact ⟨requireCurrentLease_eq_ok.1 hlease, h.1.symm⟩

/-- A task call under the lease at the stored revision of the session. -/
structure Current (db : Database) (lease : SessionLease) (nowMs : ℤ) (row : SessionRow) : Prop where
  holds : Holds db lease nowMs
  stored : db.sessions lease.sessionId = some row
  revision : row.revision = lease.revision

/-- What is checked before a task is begun. -/
structure Begins (db : Database) (lease : SessionLease) (taskKey : String)
    (inputDigest : List UInt8) (nowMs : ℤ) : Prop where
  key : validTaskKey taskKey = true
  digest : inputDigest.length = 32
  fenced : ∃ row, Current db lease nowMs row
  new : db.tasks lease.sessionId taskKey = none

/-- A task that has just been begun. -/
def Begun (lease : SessionLease) (taskKey : String) (inputDigest : List UInt8) :
    StoredDurableTask :=
  ⟨taskKey, inputDigest, .created, none, lease.revision, 0, none⟩

lemma validateTaskIdentity_eq_ok {inputDigest : List UInt8} :
    validateTaskIdentity taskKey inputDigest = .ok u ↔
      validTaskKey taskKey = true ∧ inputDigest.length = 32 := by
  rw [validateTaskIdentity, require_eq_ok, Bool.and_eq_true, decide_eq_true_eq]

lemma beginOrResumeTask_eq_ok {inputDigest : List UInt8}
    (h : beginOrResumeTask db lease taskKey inputDigest nowMs = .ok (db', task)) :
    (∃ row, Current db lease nowMs row) ∧
      ((db.tasks lease.sessionId taskKey = some task ∧ db' = db) ∨
        (Begins db lease taskKey inputDigest nowMs ∧
          db' = db.setTask lease.sessionId taskKey (Begun lease taskKey inputDigest))) := by
  simp only [beginOrResumeTask, bind_eq_ok, validateTaskIdentity_eq_ok, requireCurrentLease_eq_ok,
    requireRevision_eq_ok] at h
  obtain ⟨_, ⟨hkey, hdigest⟩, _, hholds, row, hrow, _, hrevision, h⟩ := h
  have hcurrent : Current db lease nowMs row := ⟨hholds, orElseThrow_eq_ok.1 hrow, hrevision⟩
  refine ⟨⟨row, hcurrent⟩, ?_⟩
  unfold resumeTask at h
  split at h
  · next stored hstored =>
    obtain ⟨-, h⟩ := check_bind_eq_ok.1 h
    rw [pure_eq_ok, Prod.mk.injEq] at h
    obtain ⟨rfl, rfl⟩ := h
    exact .inl ⟨hstored, rfl⟩
  · next hnone =>
    cases h
    exact .inr ⟨⟨hkey, hdigest, ⟨row, hcurrent⟩, hnone⟩, by rw [Begun, ← hrevision]⟩

lemma Begins.call {inputDigest : List UInt8} (h : Begins db lease taskKey inputDigest nowMs) :
    beginOrResumeTask db lease taskKey inputDigest nowMs =
      .ok (db.setTask lease.sessionId taskKey (Begun lease taskKey inputDigest),
        Begun lease taskKey inputDigest) := by
  obtain ⟨row, hholds, hstored, hrevision⟩ := h.fenced
  simp only [beginOrResumeTask, bind_eq_ok, validateTaskIdentity_eq_ok, requireCurrentLease_eq_ok,
    requireRevision_eq_ok]
  refine ⟨(), ⟨h.key, h.digest⟩, (), hholds, row, orElseThrow_eq_ok.2 hstored, (), hrevision, ?_⟩
  rw [resumeTask, h.new, Begun, hrevision]

/-- What is checked before a task is checkpointed with its session. -/
structure Checkpoints (db : Database) (lease : SessionLease) (session : Session)
    (taskKey : String) (nowMs : ℤ) (row : SessionRow) (current : StoredDurableTask) : Prop where
  owner : lease.ownerId ≠ ""
  key : validTaskKey taskKey = true
  written : Written db lease session nowMs row
  stored : db.tasks lease.sessionId taskKey = some current
  phase : current.phase = .created
  callId : current.callId = none
  nextSession : (i64CheckedAdd lease.revision 1).isSome = true
  nextTask : (i64CheckedAdd current.taskRevision 1).isSome = true

/-- A task moved on to the phase `user_checkpointed` with the session it belongs to. -/
def Checkpointed (lease : SessionLease) (current : StoredDurableTask) : StoredDurableTask :=
  { current with
    phase := .userCheckpointed
    sessionRevision := lease.revision + 1
    taskRevision := current.taskRevision + 1 }

lemma validateTransitionInput_eq_ok {callId : Option String} {result : Option (List UInt8)} :
    validateTransitionInput taskKey callId result = .ok u ↔ validTaskKey taskKey = true ∧
      callId.all validCallId = true ∧ result.all (·.length ≤ 16 * 1024 * 1024) = true := by
  simp only [validateTransitionInput, check_bind_eq_ok, require_eq_ok]

lemma checkpointTaskUser_eq_ok {renewed : SessionLease} :
    checkpointTaskUser db lease session taskKey nowMs = .ok (db', renewed, task) ↔
      ∃ row current, Checkpoints db lease session taskKey nowMs row current ∧
        db' = (db.writeSession lease session session.runId (lease.revision + 1) nowMs).setTask
          lease.sessionId taskKey (Checkpointed lease current) ∧
        renewed = { lease with revision := lease.revision + 1 } ∧
        task = { Checkpointed lease current with callId := none, terminalResultJson := none } := by
  simp only [checkpointTaskUser, bind_eq_ok, validateOwner, validateTransitionInput_eq_ok,
    requireNotTombstoned_eq_ok, requireCurrentLease_eq_ok, requireRevision_eq_ok,
    optionalNonemptyRunId_eq_ok, requireRunIdKept_eq_ok, require_eq_ok, querySession,
    orElseThrow_eq_ok, Bool.and_eq_true, decide_eq_true_eq, Option.isNone_iff_eq_none, pure_eq_ok,
    Prod.mk.injEq]
  constructor
  · rintro ⟨_, htarget, _, howner, _, ⟨hkey, -, -⟩, _, -, row, hstored, _, hholds, _, hrevision,
      requested, ⟨rfl, hblank⟩, _, hkept, current, hcurrent, _, ⟨hphase, hcallId⟩, nextSession,
      hnextSession, nextTask, hnextTask, rfl, rfl, rfl⟩
    obtain rfl := i64CheckedAdd_eq_some hnextSession
    obtain rfl := i64CheckedAdd_eq_some hnextTask
    exact ⟨row, current, ⟨howner, hkey, ⟨hholds, htarget, hstored, hrevision, hkept, hblank⟩,
      hcurrent, hphase, hcallId, Option.isSome_iff_exists.2 ⟨_, hnextSession⟩,
      Option.isSome_iff_exists.2 ⟨_, hnextTask⟩⟩, rfl, rfl, rfl⟩
  · rintro ⟨row, current, h, rfl, rfl, rfl⟩
    obtain ⟨nextSession, hnextSession⟩ := Option.isSome_iff_exists.1 h.nextSession
    obtain ⟨nextTask, hnextTask⟩ := Option.isSome_iff_exists.1 h.nextTask
    obtain rfl := i64CheckedAdd_eq_some hnextSession
    obtain rfl := i64CheckedAdd_eq_some hnextTask
    exact ⟨(), h.written.target, (), h.owner, (), ⟨h.key, rfl, rfl⟩, (), h.written.holds.alive,
      row, h.written.stored, (), h.written.holds, (), h.written.revision, _,
      ⟨rfl, h.written.nonblank⟩, (), h.written.runId, current, h.stored, (), ⟨h.phase, h.callId⟩,
      _, hnextSession, _, hnextTask, rfl, rfl, rfl⟩

/-- What is checked before a transition moves the row of its task. -/
structure Transits (db : Database) (lease : SessionLease) (taskKey : String) (expected : ℤ)
    (phase : DurableTaskPhase) (callId : Option String) (result : Option (List UInt8)) (nowMs : ℤ)
    (current : StoredDurableTask) : Prop where
  key : validTaskKey taskKey = true
  validCall : callId.all validCallId = true
  fits : result.all (·.length ≤ 16 * 1024 * 1024) = true
  fenced : ∃ row, Current db lease nowMs row
  stored : db.tasks lease.sessionId taskKey = some current
  revision : current.taskRevision = expected
  differs : ¬(current.phase = phase ∧ current.callId = callId ∧ current.terminalResultJson = result)
  allowed : current.phase.canTransitionTo phase = true
  completes : phase = .completed ↔ result.isSome = true
  next : (i64CheckedAdd current.taskRevision 1).isSome = true

/-- A task moved on to `phase` with the call and the result it now has. -/
def Moved (lease : SessionLease) (current : StoredDurableTask) (phase : DurableTaskPhase)
    (callId : Option String) (terminalResultJson : Option (List UInt8)) : StoredDurableTask :=
  { current with
    phase
    callId
    sessionRevision := lease.revision
    taskRevision := current.taskRevision + 1
    terminalResultJson }

section Transition

variable {expected : ℤ} {phase : DurableTaskPhase} {callId : Option String}
  {result : Option (List UInt8)}

lemma transitionTask_eq_ok
    (h : transitionTask db lease taskKey expected phase callId result nowMs = .ok (db', task)) :
    (∃ row, Current db lease nowMs row) ∧
      ((∃ current, db.tasks lease.sessionId taskKey = some current ∧ current.phase = phase ∧
          current.callId = callId ∧ current.terminalResultJson = result ∧ db' = db) ∨
        ∃ current, Transits db lease taskKey expected phase callId result nowMs current ∧
          db' = db.setTask lease.sessionId taskKey (Moved lease current phase callId result)) := by
  simp only [transitionTask, bind_eq_ok, validateTransitionInput_eq_ok, requireCurrentLease_eq_ok,
    requireRevision_eq_ok, querySession, orElseThrow_eq_ok, require_eq_ok, decide_eq_true_eq] at h
  obtain ⟨_, ⟨hkey, hcallId, hfits⟩, _, hholds, row, hrow, _, hrevision, current, hcurrent, _,
    hexpected, h⟩ := h
  have hsession : ∃ row, Current db lease nowMs row := ⟨row, hholds, hrow, hrevision⟩
  refine ⟨hsession, ?_⟩
  by_cases hsame : current.phase = phase ∧ current.callId = callId ∧
      current.terminalResultJson = result
  · rw [if_pos hsame, pure_eq_ok, Prod.mk.injEq] at h
    exact .inl ⟨current, hcurrent, hsame.1, hsame.2.1, hsame.2.2, h.1.symm⟩
  · rw [if_neg hsame] at h
    simp only [moveTask, bind_eq_ok, orElseThrow_eq_ok, require_eq_ok, pure_eq_ok,
      Prod.mk.injEq, Bool.or_eq_true, decide_eq_true_eq, Option.isNone_iff_eq_none] at h
    obtain ⟨_, hcan, _, hwith, _, hwithout, next, hnext, rfl, -⟩ := h
    refine .inr ⟨current, ⟨hkey, hcallId, hfits, hsession, hcurrent, hexpected, hsame, hcan,
      ⟨fun hphase => hwith.resolve_left (not_not.2 hphase), fun hsome => hwithout.resolve_right ?_⟩,
      Option.isSome_iff_exists.2 ⟨_, hnext⟩⟩, ?_⟩
    · rintro rfl
      cases hsome
    · rw [Moved, ← hrevision, i64CheckedAdd_eq_some hnext]

lemma Transits.call {current : StoredDurableTask}
    (h : Transits db lease taskKey expected phase callId result nowMs current) :
    transitionTask db lease taskKey expected phase callId result nowMs =
      .ok (db.setTask lease.sessionId taskKey (Moved lease current phase callId result),
        Moved lease current phase callId result) := by
  obtain ⟨row, hholds, hrow, hrevision⟩ := h.fenced
  obtain ⟨next, hnext⟩ := Option.isSome_iff_exists.1 h.next
  simp only [transitionTask, bind_eq_ok, validateTransitionInput_eq_ok, requireCurrentLease_eq_ok,
    requireRevision_eq_ok, querySession, orElseThrow_eq_ok, require_eq_ok, decide_eq_true_eq]
  refine ⟨(), ⟨h.key, h.validCall, h.fits⟩, (), hholds, row, hrow, (), hrevision, current,
    h.stored, (), h.revision, ?_⟩
  rw [if_neg h.differs]
  simp only [moveTask, bind_eq_ok, orElseThrow_eq_ok, require_eq_ok, pure_eq_ok, Prod.mk.injEq,
    Bool.or_eq_true, decide_eq_true_eq, Option.isNone_iff_eq_none]
  refine ⟨(), h.allowed, (), ?_, (), ?_, next, hnext, ?_, ?_⟩
  · by_cases hphase : phase = .completed
    · exact .inr (h.completes.1 hphase)
    · exact .inl hphase
  · by_cases hphase : phase = .completed
    · exact .inl hphase
    · exact .inr (Option.not_isSome_iff_eq_none.1 (mt h.completes.2 hphase))
  all_goals rw [Moved, hrevision, i64CheckedAdd_eq_some hnext]

end Transition

/-! ### Imports, retention and the outbox -/

lemma importSource_eq_ok {sourceDigest : String}
    (h : importSource db sourceDigest session = .ok (db', u)) :
    (∃ migrationSources, db' = { db with migrationSources }) ∨
      (db.tombstones session.id = false ∧ db.sessions session.id = none ∧
        ∃ migrationSources, db' = syncSessionRunReference
          (Database.setSession { db with migrationSources } session.id
            ⟨session, 0, session.runId⟩) session.id
          (session.runId.filter fun runId => !isBlank runId)) := by
  unfold importSource at h
  split at h
  · cases h
    exact .inl ⟨db.migrationSources, rfl⟩
  · dsimp only at h
    split at h
    · cases h
      exact .inl ⟨_, rfl⟩
    · next hunknown =>
      cases h
      rw [Bool.or_eq_true, not_or, Bool.not_eq_true, Bool.not_eq_true, Option.isSome_eq_false_iff,
        Option.isNone_iff_eq_none] at hunknown
      exact .inr ⟨hunknown.1, hunknown.2, _, rfl⟩

lemma planRetentionGc_eq_ok {jobId : String}
    (h : planRetentionGc db sessionId jobId nowMs = .ok (db', u)) :
    isRetentionCandidate db sessionId nowMs = true ∧ ∃ jobs claims, db' = { db with
      tombstones := Function.update db.tombstones sessionId true
      jobs
      claims } := by
  simp only [planRetentionGc, bind_eq_ok] at h
  obtain ⟨_, hcandidate, _, -, h⟩ := h
  cases h
  exact ⟨require_eq_ok.1 hcandidate, _, _, rfl⟩

lemma mem_queryPendingDeliveries {runEpoch : Option ℤ} {delivery : HostDelivery} :
    delivery ∈ queryPendingDeliveries db sessionId runEpoch ↔ delivery ∈ db.outbox ∧
      isPendingFor sessionId delivery = true ∧ runEpoch.all (delivery.runEpoch = ·) = true := by
  rw [queryPendingDeliveries, mem_insertionSort, mem_filter, Bool.and_eq_true]

/-- The outbox of a live session belongs to the epoch of its lease. -/
lemma requireHostOutboxEpoch_eq_ok {runId : String} {expected : Option ℤ} {epoch : ℤ}
    (h : requireHostOutboxEpoch db sessionId runId expected nowMs = .ok epoch) :
    expected.all (· = epoch) = true ∧
      ∃ lease, db.leases sessionId = some lease ∧ lease.epoch = epoch := by
  simp only [requireHostOutboxEpoch, bind_eq_ok] at h
  obtain ⟨_, -, row, -, _, -, lease, hlease, _, -, _, hexpected, h⟩ := h
  cases h
  exact ⟨require_eq_ok.1 hexpected, lease, orElseThrow_eq_ok.1 hlease, rfl⟩

lemma enqueueHostDelivery_eq_ok {deliveryId msgId : String} {digest : Option String}
    {payload : List UInt8} {delivery : HostDelivery}
    (h : enqueueHostDelivery db outbox deliveryId msgId digest payload nowMs =
      .ok (db', delivery)) :
    requireHostOutboxEpoch db outbox.sessionId outbox.runId (some outbox.runEpoch) nowMs =
        .ok outbox.runEpoch ∧
      (∃ sequence marker, nextSequence db.outbox outbox.sessionId outbox.runEpoch = .ok sequence ∧
        delivery = ⟨deliveryId, outbox.sessionId, msgId, outbox.runEpoch, sequence, marker, payload,
          nowMs, none⟩) ∧
      (∀ other ∈ db.outbox, other.deliveryId ≠ deliveryId) ∧
      db' = { db with outbox := db.outbox ++ [delivery] } := by
  simp only [enqueueHostDelivery, bind_eq_ok] at h
  obtain ⟨_, -, _, -, marker, -, epoch, hepoch, sequence, hsequence, _, hnew, h⟩ := h
  cases h
  have hsame := (requireHostOutboxEpoch_eq_ok hepoch).1
  rw [Option.all_some, decide_eq_true_eq] at hsame
  rw [← hsame] at hepoch
  refine ⟨hepoch, ⟨sequence, marker, hsequence, rfl⟩, fun other hother heq => ?_, rfl⟩
  rw [require_eq_ok, Bool.not_eq_true', any_eq_false] at hnew
  exact hnew other hother (decide_eq_true heq)

/-- The pending deliveries are in the epoch of the lease already, or are moved there. -/
lemma prepareHostOutbox_eq_ok {runId : String}
    (h : prepareHostOutbox db sessionId runId nowMs = .ok (db', outbox)) :
    outbox.sessionId = sessionId ∧
      requireHostOutboxEpoch db sessionId runId none nowMs = .ok outbox.runEpoch ∧
      (((∀ delivery ∈ db.outbox, isPendingFor sessionId delivery = true →
          delivery.runEpoch = outbox.runEpoch) ∧ db' = db) ∨
        ∃ first adopted,
          nextSequence (db.outbox.filter (!isPendingFor sessionId ·)) sessionId outbox.runEpoch =
            .ok first ∧
          adopt sessionId outbox.runEpoch first (queryPendingDeliveries db sessionId none) =
            .ok adopted ∧
          db' = { db with
            outbox := db.outbox.filter (!isPendingFor sessionId ·) ++ adopted }) := by
  simp only [prepareHostOutbox, bind_eq_ok] at h
  obtain ⟨_, -, _, -, epoch, hepoch, next, hnext, h⟩ := h
  cases h
  refine ⟨rfl, hepoch, ?_⟩
  unfold adoptPendingDeliveries at hnext
  dsimp only at hnext
  split at hnext
  · next hall =>
    cases hnext
    refine .inl ⟨fun delivery hdelivery hpending => ?_, rfl⟩
    rw [all_eq_true] at hall
    exact of_decide_eq_true
      (hall delivery (mem_queryPendingDeliveries.2 ⟨hdelivery, hpending, rfl⟩))
  · obtain ⟨first, hfirst, hnext⟩ := bind_eq_ok.1 hnext
    obtain ⟨adopted, hadopted, hnext⟩ := bind_eq_ok.1 hnext
    cases hnext
    exact .inr ⟨first, adopted, hfirst, hadopted, rfl⟩

lemma acknowledgeHostDelivery_eq_ok {runEpoch : ℤ} {deliveryId digest : String} {now : Bool}
    (h : acknowledgeHostDelivery db outbox runEpoch deliveryId digest nowMs = .ok (db', now)) :
    requireHostOutboxEpoch db outbox.sessionId outbox.runId (some outbox.runEpoch) nowMs =
        .ok outbox.runEpoch ∧
      ∃ delivery ∈ db.outbox, delivery.deliveryId = deliveryId ∧
        delivery.sessionId = outbox.sessionId ∧
        (delivery.acknowledgedAtMs.isSome = true ∧ db' = db ∨
          delivery.acknowledgedAtMs = none ∧
            db' = { db with outbox := db.outbox.map (acknowledge deliveryId nowMs) }) := by
  simp only [acknowledgeHostDelivery, bind_eq_ok] at h
  obtain ⟨_, -, _, hsame, _, -, _, -, epoch, hepoch, delivery, hfound, _, -, h⟩ := h
  rw [require_eq_ok, decide_eq_true_eq] at hsame
  rw [hsame] at hepoch
  have hcurrent := (requireHostOutboxEpoch_eq_ok hepoch).1
  rw [Option.all_some, decide_eq_true_eq] at hcurrent
  rw [← hcurrent] at hepoch
  rw [orElseThrow_eq_ok] at hfound
  have hmatches := List.find?_some hfound
  simp only [Bool.and_eq_true, decide_eq_true_eq] at hmatches
  refine ⟨hepoch, delivery, mem_of_find?_eq_some hfound, hmatches.1.1, hmatches.1.2, ?_⟩
  split at h
  · next hacknowledged =>
    cases h
    exact .inl ⟨hacknowledged, rfl⟩
  · next hpending =>
    cases h
    exact .inr ⟨Option.not_isSome_iff_eq_none.1 hpending, rfl⟩

/-- The call is one of the host outbox. -/
def StoreCall.delivers : StoreCall → Bool
  | .prepareHostOutbox .. | .enqueueHostDelivery .. | .acknowledgeHostDelivery .. => true
  | _ => false

/-- An outbox call changes the outbox alone. -/
lemma outbox_only {call : StoreCall} {answer : StoreAnswer}
    (hcall : call.delivers = true) (h : db.call call = .ok (db', answer)) :
    ∃ outbox, db' = { db with outbox } := by
  cases call with
  | prepareHostOutbox sessionId runId nowMs =>
    obtain ⟨_, h, -⟩ := answering_eq_ok h
    obtain ⟨-, -, ⟨-, rfl⟩ | ⟨_, _, -, -, rfl⟩⟩ := prepareHostOutbox_eq_ok h
    · exact ⟨db'.outbox, rfl⟩
    · exact ⟨_, rfl⟩
  | enqueueHostDelivery outbox deliveryId msgId digest payload nowMs =>
    obtain ⟨_, h, -⟩ := answering_eq_ok h
    obtain ⟨-, -, -, rfl⟩ := enqueueHostDelivery_eq_ok h
    exact ⟨_, rfl⟩
  | acknowledgeHostDelivery outbox runEpoch deliveryId digest nowMs =>
    obtain ⟨_, h, -⟩ := answering_eq_ok h
    obtain ⟨-, _, -, -, -, ⟨-, rfl⟩ | ⟨-, rfl⟩⟩ := acknowledgeHostDelivery_eq_ok h
    · exact ⟨db'.outbox, rfl⟩
    · exact ⟨_, rfl⟩
  | _ => cases hcall

end

end SolarisMesh.Store
