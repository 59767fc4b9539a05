import SolarisMesh.Store.Calls

/-!
# Rows of sessions and leases

What a committed call does to the session, its lease, its tombstone and the runs it refers to.
Every path that writes one of them is a case here, with the guards it passed.
-/

namespace SolarisMesh.Store

open Function Lib

/-- The tables of sessions. -/
structure Rows where
  sessions : String → Option SessionRow
  leases : String → Option LeaseRow
  tombstones : String → Bool
  references : List (String × String)

def Database.rows (db : Database) : Rows :=
  ⟨db.sessions, db.leases, db.tombstones, db.references⟩

/-- The lease and the session of a call that writes the session. -/
def StoreCall.written : StoreCall → Option (SessionLease × Session)
  | .save lease session _ | .checkpointTaskUser lease session _ _ => some (lease, session)
  | _ => none

/-- The session and the owner of a call that takes a lease. -/
def StoreCall.acquires : StoreCall → Option (String × String)
  | .createActive session ownerId _ => some (session.id, ownerId)
  | .loadActive sessionId ownerId _ => some (sessionId, ownerId)
  | _ => none

/-- What a committed call does to the tables of sessions. -/
inductive RowWrite (db : Database) (call : StoreCall) : Database → Prop
  | kept {db' : Database} (hacquires : call.acquires = none) (hwritten : call.written = none)
      (hrows : db'.rows = db.rows) : RowWrite db call db'
  | created {db' : Database} {session : Session} {ownerId runId : String} {nowMs : ℤ}
      (hcall : call = .createActive session ownerId nowMs)
      (hrun : session.runId = some runId) (halive : db.tombstones session.id = false)
      (hnew : db.sessions session.id = none)
      (hrows : db'.rows = ((syncSessionRunReference
        (db.setSession session.id ⟨session, 0, some runId⟩) session.id (some runId)).setLease
          session.id ⟨some ownerId, 1, some (leaseExpiry nowMs)⟩).rows) :
      RowWrite db call db'
  | acquired {db' : Database} {sessionId ownerId : String} {nowMs epoch : ℤ} {row : SessionRow}
      (hcall : call = .loadActive sessionId ownerId nowMs)
      (halive : db.tombstones sessionId = false) (hstored : db.sessions sessionId = some row)
      (hepoch : acquiredEpoch (db.leases sessionId) sessionId ownerId nowMs = .ok epoch)
      (hrows : db'.rows = ((syncSessionRunReference db sessionId row.session.runId).setLease
        sessionId ⟨some ownerId, epoch, some (leaseExpiry nowMs)⟩).rows) :
      RowWrite db call db'
  | written {db' : Database} {lease : SessionLease} {session : Session} {nowMs : ℤ}
      {row : SessionRow}
      (hcall : call = .save lease session nowMs ∧
          (∀ snapshot, row.session.memorySnapshot = some snapshot →
            session.memorySnapshot = some snapshot) ∨
        ∃ taskKey, call = .checkpointTaskUser lease session taskKey nowMs)
      (hwritten : Written db lease session nowMs row)
      (hrows : db'.rows =
        (db.writeSession lease session session.runId (lease.revision + 1) nowMs).rows) :
      RowWrite db call db'
  | renewed {db' : Database} {lease : SessionLease} {nowMs : ℤ} {ownerId : Option String}
      {expiresAtMs : Option ℤ}
      (hcall : call = .heartbeat lease nowMs ∧ ownerId = some lease.ownerId ∨
        call = .release lease nowMs ∧ ownerId = none)
      (hholds : Holds db lease nowMs)
      (hrows : db'.rows =
        (db.setLease lease.sessionId ⟨ownerId, lease.epoch, expiresAtMs⟩).rows) :
      RowWrite db call db'
  | imported {db' : Database} {sourceDigest : String} {session : Session}
      (hcall : call = .importSource sourceDigest session)
      (halive : db.tombstones session.id = false) (hnew : db.sessions session.id = none)
      (hrows : db'.rows = (syncSessionRunReference
        (db.setSession session.id ⟨session, 0, session.runId⟩) session.id
        (session.runId.filter fun runId => !isBlank runId)).rows) :
      RowWrite db call db'
  | buried {db' : Database} {sessionId jobId : String} {nowMs : ℤ}
      (hcall : call = .planRetentionGc sessionId jobId nowMs)
      (hcandidate : isRetentionCandidate db sessionId nowMs = true)
      (hrows : db'.rows =
        { db.rows with tombstones := Function.update db.tombstones sessionId true }) :
      RowWrite db call db'

variable {db db' : Database}

/-! ## The rows of one session -/

lemma writeSession_of_holds {lease : SessionLease} {nowMs : ℤ} (h : Holds db lease nowMs)
    (session : Session) (runId : Option String) (revision : ℤ) :
    db.writeSession lease session runId revision nowMs = syncSessionRunReference
      ((db.setSession lease.sessionId ⟨session, revision, session.runId⟩).setLease lease.sessionId
        ⟨some lease.ownerId, lease.epoch, some (leaseExpiry nowMs)⟩) lease.sessionId runId := by
  have hholds : Holds (db.setSession lease.sessionId ⟨session, revision, session.runId⟩) lease
      nowMs := ⟨h.alive, h.current⟩
  unfold Database.writeSession
  dsimp only
  rw [refreshLease_of_holds hholds]

/-- A session row stays, is new at revision 0, or is written by its lease holder. -/
lemma RowWrite.session_cases {call : StoreCall} (h : RowWrite db call db') (sessionId : String) :
    db'.sessions sessionId = db.sessions sessionId ∨
    (db.sessions sessionId = none ∧ db.tombstones sessionId = false ∧
      ∃ session, db'.sessions sessionId = some ⟨session, 0, session.runId⟩) ∨
    ∃ lease session row nowMs, call.written = some (lease, session) ∧
      lease.sessionId = sessionId ∧ Written db lease session nowMs row ∧
      ((∃ taskKey, call = .checkpointTaskUser lease session taskKey nowMs) ∨
        ∀ snapshot, row.session.memorySnapshot = some snapshot →
          session.memorySnapshot = some snapshot) ∧
      db'.sessions sessionId = some ⟨session, row.revision + 1, session.runId⟩ := by
  cases h with
  | kept _ _ hrows | acquired _ _ _ _ hrows | renewed _ _ hrows | buried _ _ hrows =>
    exact .inl (congrFun (congrArg Rows.sessions hrows) sessionId)
  | @created session ownerId runId nowMs _ hrun halive hnew hrows =>
    have hsessions := congrFun (congrArg Rows.sessions hrows) sessionId
    rcases eq_or_ne sessionId session.id with rfl | htarget
    · refine .inr (.inl ⟨hnew, halive, session, hsessions.trans ?_⟩)
      rw [hrun]
      exact update_self ..
    · exact .inl (hsessions.trans (update_of_ne htarget ..))
  | @written lease session nowMs row hcall hwritten hrows =>
    rw [writeSession_of_holds hwritten.holds] at hrows
    have hsessions := congrFun (congrArg Rows.sessions hrows) sessionId
    rcases eq_or_ne sessionId lease.sessionId with rfl | htarget
    · refine .inr (.inr ⟨lease, session, row, nowMs, ?_, rfl, hwritten, ?_, ?_⟩)
      · obtain ⟨rfl, -⟩ | ⟨_, rfl⟩ := hcall <;> rfl
      · exact hcall.symm.imp id And.right
      · rw [hwritten.revision]
        exact hsessions.trans (update_self ..)
    · exact .inl (hsessions.trans (update_of_ne htarget ..))
  | @imported _ session _ halive hnew hrows =>
    have hsessions := congrFun (congrArg Rows.sessions hrows) sessionId
    rcases eq_or_ne sessionId session.id with rfl | htarget
    · exact .inr (.inl ⟨hnew, halive, session, hsessions.trans (update_self ..)⟩)
    · exact .inl (hsessions.trans (update_of_ne htarget ..))

/-- A lease row stays, is taken over under a new epoch, or is kept by its holder. -/
lemma RowWrite.lease_cases {call : StoreCall} (h : RowWrite db call db') (sessionId : String) :
    (db'.leases sessionId = db.leases sessionId ∧
      ∀ ownerId, call.acquires ≠ some (sessionId, ownerId)) ∨
    (∃ ownerId epoch expiresAtMs, call.acquires = some (sessionId, ownerId) ∧
      db.tombstones sessionId = false ∧ db'.sessions sessionId ≠ none ∧
      (db.sessions sessionId = none ∧ epoch = 1 ∨
        db.leases sessionId = none ∧ epoch = 1 ∨
        ∃ row, db.leases sessionId = some row ∧ epoch = row.epoch + 1) ∧
      db'.leases sessionId = some ⟨some ownerId, epoch, expiresAtMs⟩) ∨
    ∃ lease nowMs ownerId expiresAtMs, Holds db lease nowMs ∧ lease.sessionId = sessionId ∧
      call.acquires = none ∧ (ownerId = some lease.ownerId ∨ ownerId = none) ∧
      db'.leases sessionId = some ⟨ownerId, lease.epoch, expiresAtMs⟩ := by
  cases h with
  | kept hacquires _ hrows =>
    refine .inl ⟨congrFun (congrArg Rows.leases hrows) sessionId, fun ownerId => ?_⟩
    rw [hacquires]
    exact nofun
  | @created session ownerId runId nowMs hcall _ halive hnew hrows =>
    have hleases := congrFun (congrArg Rows.leases hrows) sessionId
    subst hcall
    rcases eq_or_ne sessionId session.id with rfl | htarget
    · have hsessions := congrFun (congrArg Rows.sessions hrows) session.id
      refine .inr (.inl ⟨ownerId, 1, _, rfl, halive, ?_, .inl ⟨hnew, rfl⟩,
        hleases.trans (update_self ..)⟩)
      exact ne_of_eq_of_ne (hsessions.trans (update_self ..)) (Option.some_ne_none _)
    · refine .inl ⟨hleases.trans (update_of_ne htarget ..), fun owner hacquires => ?_⟩
      cases hacquires
      exact htarget rfl
  | @acquired target ownerId nowMs epoch row hcall halive hstored hepoch hrows =>
    have hleases := congrFun (congrArg Rows.leases hrows) sessionId
    subst hcall
    rcases eq_or_ne sessionId target with rfl | htarget
    · have hsessions := congrFun (congrArg Rows.sessions hrows) sessionId
      refine .inr (.inl ⟨ownerId, epoch, _, rfl, halive, ?_, .inr (acquiredEpoch_eq_ok hepoch),
        hleases.trans (update_self ..)⟩)
      exact ne_of_eq_of_ne (hsessions.trans hstored) (Option.some_ne_none _)
    · refine .inl ⟨hleases.trans (update_of_ne htarget ..), fun owner hacquires => ?_⟩
      cases hacquires
      exact htarget rfl
  | @written lease session nowMs row hcall hwritten hrows =>
    rw [writeSession_of_holds hwritten.holds] at hrows
    have hleases := congrFun (congrArg Rows.leases hrows) sessionId
    have hacquires : call.acquires = none := by
      obtain ⟨rfl, -⟩ | ⟨_, rfl⟩ := hcall <;> rfl
    rcases eq_or_ne sessionId lease.sessionId with rfl | htarget
    · exact .inr (.inr ⟨lease, nowMs, _, _, hwritten.holds, rfl, hacquires, .inl rfl,
        hleases.trans (update_self ..)⟩)
    · refine .inl ⟨hleases.trans (update_of_ne htarget ..), fun owner => ?_⟩
      rw [hacquires]
      exact nofun
  | @renewed lease nowMs ownerId expiresAtMs hcall hholds hrows =>
    have hleases := congrFun (congrArg Rows.leases hrows) sessionId
    have hacquires : call.acquires = none := by
      obtain ⟨rfl, -⟩ | ⟨rfl, -⟩ := hcall <;> rfl
    rcases eq_or_ne sessionId lease.sessionId with rfl | htarget
    · exact .inr (.inr ⟨lease, nowMs, ownerId, expiresAtMs, hholds, rfl, hacquires,
        hcall.imp And.right And.right, hleases.trans (update_self ..)⟩)
    · refine .inl ⟨hleases.trans (update_of_ne htarget ..), fun owner => ?_⟩
      rw [hacquires]
      exact nofun
  | imported hcall _ _ hrows | buried hcall _ hrows =>
    subst hcall
    exact .inl ⟨congrFun (congrArg Rows.leases hrows) sessionId, fun _ => nofun⟩

/-- A tombstone is set for a candidate of retention alone, and stays. -/
lemma RowWrite.tombstone_cases {call : StoreCall} (h : RowWrite db call db')
    (sessionId : String) : db'.tombstones sessionId = db.tombstones sessionId ∨
      ∃ nowMs, isRetentionCandidate db sessionId nowMs = true ∧
        db'.tombstones sessionId = true := by
  cases h with
  | @buried target jobId nowMs _ hcandidate hrows =>
    have htombstones := congrFun (congrArg Rows.tombstones hrows) sessionId
    rcases eq_or_ne sessionId target with rfl | htarget
    · exact .inr ⟨nowMs, hcandidate, htombstones.trans (update_self ..)⟩
    · exact .inl (htombstones.trans (update_of_ne htarget ..))
  | written _ hwritten hrows =>
    rw [writeSession_of_holds hwritten.holds] at hrows
    exact .inl (congrFun (congrArg Rows.tombstones hrows) sessionId)
  | kept _ _ hrows | created _ _ _ _ hrows | acquired _ _ _ _ hrows | renewed _ _ hrows
  | imported _ _ _ hrows => exact .inl (congrFun (congrArg Rows.tombstones hrows) sessionId)

end SolarisMesh.Store
