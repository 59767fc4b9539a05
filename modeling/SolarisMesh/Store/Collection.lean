import Mathlib.Data.Prod.Lex
import Mathlib.Data.String.Basic
import SolarisMesh.Store.Database

/-!
# Host deliveries, imports and retention

Host deliveries are queued and legacy documents are imported by transactions of their own. Sessions
that are no longer wanted are tombstoned together with a job that claims their runs.
-/

namespace SolarisMesh.Store

open Lib

/-! ## Host outbox -/

structure StoredHostOutbox where
  sessionId : String
  runId : String
  runEpoch : ℤ
deriving DecidableEq, Repr

def validateId (value : String) : Result Unit :=
  require (value ≠ "" && value.utf8ByteSize ≤ 64 * 1024 &&
    !value.toList.any (fun c => c.toNat < 32 || (127 ≤ c.toNat && c.toNat < 160)))
    .invalidHostOutboxInput

def validateOutbox (outbox : StoredHostOutbox) : Result Unit := do
  validateId outbox.sessionId
  validateId outbox.runId
  require (1 ≤ outbox.runEpoch) .invalidHostOutboxInput

variable (db : Database) (sessionId : String)

def requireHostOutboxEpoch (runId : String) (expectedEpoch : Option ℤ) (nowMs : ℤ) : Result ℤ := do
  requireNotTombstoned db sessionId
  let row ← orElseThrow (.database "query session run ID") (db.sessions sessionId)
  require (row.runId = some runId) (.runIdConflict sessionId)
  let lease ← orElseThrow (.staleLease sessionId) (db.leases sessionId)
  require (lease.ownerId.isSome && lease.expiresAtMs.any (nowMs < ·)) (.staleLease sessionId)
  require (expectedEpoch.all (· = lease.epoch)) .hostOutboxStaleEpoch
  return lease.epoch

def isPendingFor (sessionId : String) (delivery : HostDelivery) : Bool :=
  delivery.sessionId = sessionId && delivery.acknowledgedAtMs.isNone

def hasPendingHostDeliveries : Bool :=
  db.outbox.any (isPendingFor sessionId)

/-- The sequence after the largest one of this epoch. -/
def nextSequence (deliveries : List HostDelivery) (sessionId : String) (runEpoch : ℤ) :
    Result ℤ :=
  match ((deliveries.filter fun delivery =>
      delivery.sessionId = sessionId && delivery.runEpoch = runEpoch).map (·.sequence)).max? with
  | none => .ok 0
  | some last => orElseThrow (.revisionExhausted sessionId) (i64CheckedAdd last 1)

/-- The marker of a payload; `digest` is that of the event it holds, if it can be read as one. -/
def newPayloadDigest (payload : List UInt8) (digest : Option String) : Result String := do
  let maxBytes := 16 * 1024 * 1024
  require (payload.length ≤ maxBytes) (.hostOutboxPayloadTooLarge maxBytes)
  orElseThrow .invalidHostOutboxInput digest

def enqueueHostDelivery (outbox : StoredHostOutbox) (deliveryId msgId : String)
    (digest : Option String) (payload : List UInt8) (nowMs : ℤ) :
    Result (Database × HostDelivery) := do
  validateOutbox outbox
  validateId msgId
  let digest ← newPayloadDigest payload digest
  let _ ← requireHostOutboxEpoch db outbox.sessionId outbox.runId (some outbox.runEpoch) nowMs
  let sequence ← nextSequence db.outbox outbox.sessionId outbox.runEpoch
  let delivery : HostDelivery :=
    ⟨deliveryId, outbox.sessionId, msgId, outbox.runEpoch, sequence, digest, payload, nowMs, none⟩
  require (!db.outbox.any (·.deliveryId = deliveryId)) (.database "insert host outbox delivery")
  return ({ db with outbox := db.outbox ++ [delivery] }, delivery)

/-- The columns pending deliveries are ordered by. -/
def HostDelivery.orderKey (delivery : HostDelivery) : ℤ ×ₗ ℤ ×ₗ ℤ ×ₗ String :=
  toLex (delivery.createdAtMs, toLex (delivery.runEpoch, toLex (delivery.sequence,
    delivery.deliveryId)))

/-- The pending deliveries of a session, of all epochs or of one. -/
def queryPendingDeliveries (runEpoch : Option ℤ) : List HostDelivery :=
  (db.outbox.filter fun delivery =>
    isPendingFor sessionId delivery && runEpoch.all (delivery.runEpoch = ·)).insertionSort
      (·.orderKey ≤ ·.orderKey)

def pendingHostDeliveries (outbox : StoredHostOutbox) (nowMs : ℤ) : Result (List HostDelivery) := do
  validateOutbox outbox
  let _ ← requireHostOutboxEpoch db outbox.sessionId outbox.runId (some outbox.runEpoch) nowMs
  return queryPendingDeliveries db outbox.sessionId (some outbox.runEpoch)

/-- Renumber the pending deliveries into `runEpoch`, starting at `sequence`. -/
def adopt (sessionId : String) (runEpoch : ℤ) : ℤ → List HostDelivery → Result (List HostDelivery)
  | _, [] => .ok []
  | sequence, delivery :: rest => do
    let next ← orElseThrow (.revisionExhausted sessionId) (i64CheckedAdd sequence 1)
    let adopted ← adopt sessionId runEpoch next rest
    return { delivery with runEpoch, sequence } :: adopted

def adoptPendingDeliveries (runEpoch : ℤ) : Result Database := do
  let pending := queryPendingDeliveries db sessionId none
  if pending.all (·.runEpoch = runEpoch) then return db
  else
    let kept := db.outbox.filter (!isPendingFor sessionId ·)
    let first ← nextSequence kept sessionId runEpoch
    let adopted ← adopt sessionId runEpoch first pending
    return { db with outbox := kept ++ adopted }

def prepareHostOutbox (runId : String) (nowMs : ℤ) : Result (Database × StoredHostOutbox) := do
  validateId sessionId
  validateId runId
  let runEpoch ← requireHostOutboxEpoch db sessionId runId none nowMs
  let adopted ← adoptPendingDeliveries db sessionId runEpoch
  return (adopted, ⟨sessionId, runId, runEpoch⟩)

def acknowledge (deliveryId : String) (nowMs : ℤ) (delivery : HostDelivery) : HostDelivery :=
  if delivery.deliveryId = deliveryId then { delivery with acknowledgedAtMs := some nowMs }
  else delivery

/-- Digest and payload of a row were written together, so they still match where they are read. -/
def acknowledgeHostDelivery (outbox : StoredHostOutbox) (runEpoch : ℤ) (deliveryId digest : String)
    (nowMs : ℤ) : Result (Database × Bool) := do
  validateOutbox outbox
  require (runEpoch = outbox.runEpoch) .hostOutboxStaleEpoch
  validateId deliveryId
  validateId digest
  let _ ← requireHostOutboxEpoch db outbox.sessionId outbox.runId (some runEpoch) nowMs
  let delivery ← orElseThrow .hostOutboxDeliveryNotFound (db.outbox.find? fun delivery =>
    delivery.deliveryId = deliveryId && delivery.sessionId = outbox.sessionId &&
      delivery.runEpoch = runEpoch)
  require (delivery.digest = digest) .hostOutboxDigestMismatch
  if delivery.acknowledgedAtMs.isSome then return (db, false)
  else return ({ db with outbox := db.outbox.map (acknowledge deliveryId nowMs) }, true)

/-! ## Legacy documents -/

/-- `import_source`; a session that is tombstoned or known is only noted as seen. -/
def importSource (sourceDigest : String) (session : Session) : Result (Database × Unit) :=
  if db.migrationSources.contains sourceDigest then .ok (db, ())
  else
    let noted := { db with migrationSources := db.migrationSources ++ [sourceDigest] }
    if db.tombstones session.id || (db.sessions session.id).isSome then .ok (noted, ())
    else
      let inserted := noted.setSession session.id ⟨session, 0, session.runId⟩
      .ok (syncSessionRunReference inserted session.id
        (session.runId.filter fun runId => !isBlank runId), ())

/-! ## Retention -/

def sortedUnique (values : List String) : List String :=
  (values.insertionSort (· ≤ ·)).eraseDups

/-- What makes a session a candidate for retention. -/
def isRetentionCandidate (nowMs : ℤ) : Bool :=
  (db.sessions sessionId).isSome && !db.tombstones sessionId &&
    (db.leases sessionId).all (fun lease =>
      lease.ownerId.isNone || lease.expiresAtMs.any (· ≤ nowMs)) &&
    !hasPendingHostDeliveries db sessionId

/-- `plan_retention_gc` on one candidate. -/
def planRetentionGc (jobId : String) (nowMs : ℤ) : Result (Database × Unit) := do
  require (isRetentionCandidate db sessionId nowMs) (.notFound sessionId)
  require (db.jobs jobId).isNone (.database "plan retained session GC")
  let runIds := sortedUnique
    (((db.references.filter (·.1 = sessionId)).map (·.2)).filter (· ≠ ""))
  let job : StoredGcJob :=
    { sessionId
      phase := .planned
      runTree := { schema := "solaris/session-run-tree/v1", sessionId, runIds }
      eligibleAtMs := i64SaturatingAdd nowMs 2592000000 }
  return ({ db with
    tombstones := Function.update db.tombstones sessionId true
    jobs := Function.update db.jobs jobId (some job)
    claims := db.claims ++ runIds.map fun rootRunId => ⟨jobId, sessionId, rootRunId⟩ }, ())

def runTreeSchema : String := "solaris/session-run-tree/v2"

def StoredRunTree.roots (tree : StoredRunTree) : List String :=
  let roots := if tree.referenceRoots.isEmpty then tree.runIds else tree.referenceRoots
  sortedUnique (roots.filter (· ≠ ""))

end SolarisMesh.Store
