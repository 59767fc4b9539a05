import SolarisMesh.Ledger.Alike

/-!
# Logical appends

A logical append binds an identity to one record. The in-memory ledger looks for the identity
among the records of the run; SQLite also keeps a table of bindings, in which a record and an
identity occur once. While every record of a type is looked up under one set of fields and read
back as it was written, the table says the same as the records.
-/

namespace SolarisMesh.Ledger

open LedgerState List Lib SolarisMesh.Types RuntimeLedger
open LedgerRecord (untimed)
open LedgerPayload (same digest reread)

variable {V : Type}

section Records

variable {state state' : LedgerState V} {runId : RunId}

lemma StoredRecords.ordered {written : List (LedgerRecord V)}
    (h : StoredRecords runId state state' written) (hroom : state.nextSequence < u64Max)
    (hordered : state.Ordered) : state'.Ordered where
  sorted := by
    rw [h.records]
    refine pairwise_append.2 ⟨hordered.sorted, h.sorted hroom, fun r hr r' hr' => ?_⟩
    exact Nat.lt_of_le_of_lt (hordered.bounded r hr) (h.sequences hroom r' hr').1
  bounded r hr := by
    rw [h.records] at hr
    rcases mem_append.1 hr with hr | hr
    · exact (hordered.bounded r hr).trans (h.counter hroom)
    · exact (h.sequences hroom r hr).2

lemma LedgerState.mem_recordsForRun {r : LedgerRecord V} :
    r ∈ state.recordsForRun runId ↔ r ∈ state.records ∧ r.runId = runId := by
  simp [LedgerState.recordsForRun]

/-- No two records have one sequence. -/
lemma LedgerState.Ordered.eq_of_seq (h : state.Ordered) {r r' : LedgerRecord V}
    (hr : r ∈ state.records) (hr' : r' ∈ state.records) (hseq : r.seq = r'.seq) : r = r' := by
  have hnodup : (state.records.map (·.seq)).Nodup :=
    pairwise_map.2 (h.sorted.imp fun hlt => Nat.ne_of_lt hlt)
  exact inj_on_of_nodup_map hnodup hr hr' hseq

end Records

/-! ## Identities -/

variable {payload : V}

section Identity

variable {members : String → Option V} {fields : List String} {identity : LogicalIdentity V}

lemma identityMember_eq_ok {field : String} {pair : String × V} :
    identityMember members field = .ok pair ↔ ∃ v, members field = some v ∧ pair = (field, v) := by
  unfold identityMember
  cases members field with
  | none => simp
  | some v => simp [eq_comm]

section

variable (h : fields.mapM (identityMember members) = .ok identity)
include h

lemma identity_names : identity.map (·.1) = fields := by
  have hall := mapM_eq_ok.1 h
  clear h
  induction hall with
  | nil => rfl
  | cons hfirst _ ih =>
    obtain ⟨v, -, rfl⟩ := identityMember_eq_ok.1 hfirst
    rw [map_cons, ih]

lemma identityMember_of_mem_identity {pair : String × V} (hpair : pair ∈ identity) :
    members pair.1 = some pair.2 := by
  have hall := mapM_eq_ok.1 h
  clear h
  induction hall with
  | nil => cases hpair
  | cons hfirst _ ih =>
    rcases mem_cons.1 hpair with rfl | hpair
    · obtain ⟨v, hv, hsame⟩ := identityMember_eq_ok.1 hfirst
      cases hsame
      exact hv
    · exact ih hpair

end

variable [LedgerPayload V]

lemma canonicalIdentity_eq_ok : canonicalIdentity payload fields = .ok identity ↔
      fields ≠ [] ∧ fields.Nodup ∧ ∃ members, LedgerPayload.members payload = some members ∧
        (fields.mergeSort (· ≤ ·)).mapM (identityMember members) = .ok identity := by
  simp only [canonicalIdentity, require_eq_ok, bind_eq_ok, orElseThrow_eq_ok, exists_const,
    Bool.not_eq_true', isEmpty_eq_false_iff, decide_eq_true_eq]

/-- An identity names its fields: a payload that has it under some fields has it under these. -/
lemma canonicalIdentity_of_eq {other : V} {fields' : List String}
    (h : canonicalIdentity payload fields = .ok identity)
    (h' : canonicalIdentity other fields' = .ok identity) :
    canonicalIdentity other fields = .ok identity := by
  obtain ⟨hne, hnodup, members, -, hmapped⟩ := canonicalIdentity_eq_ok.1 h
  obtain ⟨-, -, members', hmembers', hmapped'⟩ := canonicalIdentity_eq_ok.1 h'
  have hfields : fields.mergeSort (· ≤ ·) = fields'.mergeSort (· ≤ ·) :=
    (identity_names hmapped).symm.trans (identity_names hmapped')
  exact canonicalIdentity_eq_ok.2 ⟨hne, hnodup, members', hmembers', hfields ▸ hmapped'⟩

end Identity

variable [DecidableEq V] [LedgerPayload V]

section Matching

variable {fields : List String} {identity : LogicalIdentity V}

def hasIdentity (fields : List String) (identity : LogicalIdentity V) (payload : V) : Bool :=
  match canonicalIdentity payload fields with
  | .ok found => found = identity
  | .error _ => false

lemma hasIdentity_iff : hasIdentity fields identity payload = true ↔
      canonicalIdentity payload fields = .ok identity := by
  unfold hasIdentity
  cases canonicalIdentity payload fields <;> simp

/-- The records of a run that have a type and an identity. -/
def LedgerState.matching (state : LedgerState V) (runId : RunId) (recordType : String)
    (fields : List String) (identity : LogicalIdentity V) : List (LedgerRecord V) :=
  (state.recordsForRun runId).filter fun r =>
    r.recordType = recordType && hasIdentity fields identity r.payload

lemma matchingRecords_eq (identity : LogicalIdentity V) {recordType : String}
    {records : List (LedgerRecord V)} (h : ∀ r ∈ records, r.recordType = recordType →
      ∃ found, canonicalIdentity r.payload fields = .ok found) :
    matchingRecords fields identity recordType records = .ok (records.filter fun r =>
      r.recordType = recordType && hasIdentity fields identity r.payload) := by
  induction records with
  | nil => rfl
  | cons r records ih =>
    have hrest := ih fun r' hr' => h r' (mem_cons_of_mem _ hr')
    by_cases htype : r.recordType = recordType
    · obtain ⟨found, hfound⟩ := h r mem_cons_self htype
      rw [matchingRecords, if_neg (not_not.2 htype), hfound, hrest]
      by_cases hsame : found = identity
      · simp [htype, hasIdentity, hfound, hsame, bind, Except.bind, pure, Except.pure]
      · simp [htype, hasIdentity, hfound, hsame, bind, Except.bind, pure, Except.pure]
    · rw [matchingRecords, if_pos htype, hrest]
      simp [htype]

end Matching

/-! ## The table of bindings -/

/-- Every binding stands for a record of its run and type that has its identity and its digest. -/
def LedgerState.Bound (state : LedgerState V) : Prop :=
  ∀ row ∈ state.logicalRecords, ∃ r ∈ state.recordsForRun row.runId,
    r.seq = row.sequence ∧ r.recordType = row.recordType ∧
      digest r.payload = row.payloadDigest ∧
      ∃ fields, canonicalIdentity r.payload fields = .ok row.identity

section Bound

variable {state state' : LedgerState V} {runId : RunId} {recordType : String}
  {fields : List String} {identity : LogicalIdentity V}

omit [DecidableEq V] in
/-- Bindings stay when records are added. -/
lemma LedgerState.Bound.append (h : state.Bound) {written : List (LedgerRecord V)}
    (hrecords : state'.records = state.records ++ written)
    (hrows : state'.logicalRecords = state.logicalRecords) : state'.Bound := by
  intro row hrow
  obtain ⟨r, hr, hrest⟩ := h row (hrows ▸ hrow)
  refine ⟨r, ?_, hrest⟩
  rw [LedgerState.recordsForRun, hrecords, filter_append]
  exact mem_append_left _ hr

/-- The mapping of an identity gives its one record. -/
lemma mappedRecord_eq (hordered : state.Ordered) (hbound : state.Bound)
    (hread : ∀ r ∈ state.recordsForRun runId, r.recordType = recordType →
      reread r.payload = some r.payload)
    (hidentity : canonicalIdentity payload fields = .ok identity) :
    (mappedRecord state runId recordType identity = .ok none ∧
        ∀ row ∈ state.logicalRecords, ¬(row.runId = runId ∧ row.recordType = recordType ∧
          row.identity = identity)) ∨
      ∃ r ∈ state.matching runId recordType fields identity,
        mappedRecord state runId recordType identity = .ok (some r) := by
  unfold mappedRecord
  cases hfind : state.logicalRecords.find? (fun row => row.runId = runId &&
      row.recordType = recordType && row.identity = identity) with
  | none =>
    refine .inl ⟨rfl, fun row hrow hkey => ?_⟩
    have := List.find?_eq_none.1 hfind row hrow
    simp [hkey] at this
  | some row =>
    right
    have hkey := List.find?_some hfind
    simp only [Bool.and_eq_true, decide_eq_true_eq] at hkey
    obtain ⟨⟨hrun, htype⟩, hident⟩ := hkey
    obtain ⟨r, hr, hseq, hrtype, hdigest, fields', hfields'⟩ :=
      hbound row (mem_of_find?_eq_some hfind)
    rw [hrun] at hr
    rw [htype] at hrtype
    rw [hident] at hfields'
    have hmem := mem_recordsForRun.1 hr
    have hrecord : state.records.find? (fun r => decide (r.seq = row.sequence)) = some r :=
      find?_eq_some_of_unique hmem.1 (decide_eq_true hseq) fun r' hr' hseq' =>
        hordered.eq_of_seq hr' hmem.1 ((of_decide_eq_true hseq').trans hseq.symm)
    refine ⟨r, mem_filter.2 ⟨hr, ?_⟩, ?_⟩
    · rw [Bool.and_eq_true, decide_eq_true_eq, hasIdentity_iff]
      exact ⟨hrtype, canonicalIdentity_of_eq hidentity hfields'⟩
    · simp only [bind, Option.bind, hrecord, pure]
      rw [decodeSqliteRecord, hread r hr hrtype]
      simp [orElseThrow, bind, Except.bind, require, hdigest, pure, Except.pure]

end Bound

/-! ## One logical append -/

/-- What a logical append needs to find: all records of its run and type have the identity fields
and are read back, at most one has the identity, that one is bound under no other identity and
written as the new payload is, and there is room for one record more. -/
@[mk_iff]
structure LedgerState.Findable (state : LedgerState V) (runId : RunId) (recordType : String)
    (fields : List String) (identity : LogicalIdentity V) (payload : V) : Prop where
  fieldsPresent : ∀ r ∈ state.recordsForRun runId, r.recordType = recordType →
    ∃ found, canonicalIdentity r.payload fields = .ok found
  readBack : ∀ r ∈ state.recordsForRun runId, r.recordType = recordType →
    reread r.payload = some r.payload
  single : (state.matching runId recordType fields identity).length ≤ 1
  oneIdentity : ∀ row ∈ state.logicalRecords,
    ∀ r ∈ state.matching runId recordType fields identity,
      row.sequence = r.seq → row.identity = identity
  sameText : ∀ r ∈ state.matching runId recordType fields identity,
    (∀ row ∈ state.logicalRecords, row.sequence ≠ r.seq) →
      same r.payload payload = true →
        digest payload = digest r.payload
  room : state.nextSequence + 1 ≤ i64Max.toNat

variable {identity : LogicalIdentity V}


section Append

variable {left right : LedgerState V} {runId : RunId} {durability : DurabilityClass}
  {recordType : String} {fields : List String}

lemma Alike.matching (h : Alike left right) :
    (left.matching runId recordType fields identity).map untimed =
      (right.matching runId recordType fields identity).map untimed :=
  filter_untimed (h.recordsForRun runId) _ fun _ => rfl

/-- What is stored and returned where the identity occurs in `found`. -/
def logicalAppend (state : LedgerState V) (runId : RunId) (durability : DurabilityClass)
    (recordType : String) (payload : V) (clockUnixMs : ℤ) (found : List (LedgerRecord V)) :
    IoResult (LedgerState V × LedgerRecord V) :=
  match found with
  | [] => .ok (state.insertRecord (state.nextSequence + 1) runId clockUnixMs durability recordType
      payload)
  | r :: _ => (requireSamePayload recordType r payload).map fun r => (state, r)

lemma compareAndAppendInMemory_eq (hdurable : durability ≠ .ephemeral)
    (hidentity : canonicalIdentity payload fields = .ok identity)
    (hfields : ∀ r ∈ left.recordsForRun runId, r.recordType = recordType →
      ∃ found, canonicalIdentity r.payload fields = .ok found)
    (hsingle : (left.matching runId recordType fields identity).length ≤ 1)
    (hroom : left.nextSequence + 1 ≤ i64Max.toNat) (clock : ℤ) :
    compareAndAppendInMemoryLocked left runId durability recordType fields payload clock =
      logicalAppend left runId durability recordType payload clock
        (left.matching runId recordType fields identity) := by
  have hnext : nextSequenceInMemory left.nextSequence = .ok (left.nextSequence + 1) := by
    rw [nextSequenceInMemory, u64CheckedAdd_of_le hroom]
    rfl
  have hmatching : matchingRecords fields identity recordType (left.recordsForRun runId) =
      .ok (left.matching runId recordType fields identity) := matchingRecords_eq identity hfields
  have hrequire : requireDurable durability = .ok () := by simp [requireDurable, hdurable]
  unfold compareAndAppendInMemoryLocked
  simp only [hrequire, hidentity, hmatching, bind, Except.bind]
  cases hfound : left.matching runId recordType fields identity with
  | nil => simp only [hnext, pure, Except.pure, logicalAppend]
  | cons r rest =>
    rw [hfound, length_cons] at hsingle
    obtain rfl : rest = [] := eq_nil_of_length_eq_zero (by omega)
    simp only [logicalAppend]
    cases requireSamePayload recordType r payload <;> rfl

omit [DecidableEq V] in
lemma requireSamePayload_eq (recordType : String) (record : LedgerRecord V) (payload : V) :
    requireSamePayload recordType record payload =
      if same record.payload payload then .ok record
      else .error ⟨.alreadyExists, s!"{recordType} identity is bound to different content"⟩ := by
  unfold requireSamePayload require
  cases same record.payload payload <;> rfl

lemma LedgerState.Findable.matching_eq
    (hfind : right.Findable runId recordType fields identity payload) {r : LedgerRecord V}
    (hr : r ∈ right.matching runId recordType fields identity) :
    right.matching runId recordType fields identity = [r] := by
  obtain ⟨r', hsingle⟩ := length_eq_one_iff.1 (le_antisymm hfind.single (length_pos_of_mem hr))
  rw [hsingle, mem_singleton] at hr
  rw [hsingle, hr]

/-- SQLite finds the same records when it fills its table. -/
lemma legacyRecords_eq (hfind : right.Findable runId recordType fields identity payload) :
    (do let legacy ← querySqliteRecords
          ((right.recordsForRun runId).filter (·.recordType = recordType))
        matchingRecords fields identity recordType legacy) =
      .ok (right.matching runId recordType fields identity) := by
  have hlegacy : querySqliteRecords
      ((right.recordsForRun runId).filter (·.recordType = recordType)) =
        .ok ((right.recordsForRun runId).filter (·.recordType = recordType)) := by
    refine mapM_eq_ok.2 (forall₂_same.2 fun r hr => ?_)
    obtain ⟨hr, htype⟩ := mem_filter.1 hr
    rw [decodeSqliteRecord, hfind.readBack r hr (of_decide_eq_true htype)]
    rfl
  rw [hlegacy]
  show matchingRecords fields identity recordType _ = _
  rw [matchingRecords_eq identity fun r hr => hfind.fieldsPresent r (mem_of_mem_filter hr),
    filter_filter]
  refine congrArg _ (filter_congr fun r _ => ?_)
  by_cases htype : r.recordType = recordType <;> simp [htype]

omit [LedgerPayload V] in
lemma insertMapping_ok (state : LedgerState V) (row : LogicalRow V)
    (hsequence : ∀ bound ∈ state.logicalRecords, bound.sequence ≠ row.sequence)
    (hkey : ∀ bound ∈ state.logicalRecords, ¬(bound.runId = row.runId ∧
      bound.recordType = row.recordType ∧ bound.identity = row.identity)) :
    insertMapping state row =
      .ok { state with logicalRecords := state.logicalRecords ++ [row] } := by
  have hnone : (state.logicalRecords.any fun bound => bound.sequence = row.sequence ||
      (bound.runId = row.runId && bound.recordType = row.recordType &&
        bound.identity = row.identity)) = false := by
    refine any_eq_false.2 fun bound hbound => ?_
    simp only [Bool.or_eq_true, Bool.and_eq_true, decide_eq_true_eq, not_or, and_assoc]
    exact ⟨hsequence bound hbound, hkey bound hbound⟩
  simp [insertMapping, hnone, require, bind, Except.bind, pure, Except.pure]

omit [DecidableEq V] in
lemma LedgerState.Bound.bind {state : LedgerState V} (h : state.Bound) {row : LogicalRow V}
    {r : LedgerRecord V} (hr : r ∈ state.recordsForRun row.runId) (hseq : r.seq = row.sequence)
    (htype : r.recordType = row.recordType)
    (hdigest : digest r.payload = row.payloadDigest)
    (hidentity : canonicalIdentity r.payload fields = .ok row.identity) :
    LedgerState.Bound { state with logicalRecords := state.logicalRecords ++ [row] } := by
  intro row' hrow'
  rcases mem_append.1 hrow' with hold | hnew
  · exact h row' hold
  · obtain rfl := mem_singleton.1 hnew
    exact ⟨r, hr, hseq, htype, hdigest, fields, hidentity⟩

/-- What was stored and returned, with other bindings in the table. -/
def rebound (rows : List (LogicalRow V)) (done : LedgerState V × LedgerRecord V) :
    LedgerState V × LedgerRecord V :=
  ({ done.1 with logicalRecords := rows }, done.2)

/-- SQLite returns the same, and binds the identity to the record. -/
lemma compareAndAppendSqlite_eq (hordered : right.Ordered) (hbound : right.Bound)
    (hdurable : durability ≠ .ephemeral)
    (hidentity : canonicalIdentity payload fields = .ok identity)
    (hfind : right.Findable runId recordType fields identity payload) (clock : ℤ) :
    ∃ rows, compareAndAppendSqliteTransaction right runId durability recordType fields payload
        clock = (logicalAppend right runId durability recordType payload clock
          (right.matching runId recordType fields identity)).map (rebound rows) ∧
      ∀ done, logicalAppend right runId durability recordType payload clock
        (right.matching runId recordType fields identity) = .ok done →
          (rebound rows done).1.Bound := by
  have hrequire : requireDurable durability = .ok () := by simp [requireDurable, hdurable]
  have hlegacy := legacyRecords_eq hfind
  simp only [bind, Except.bind] at hlegacy
  unfold compareAndAppendSqliteTransaction
  simp only [hrequire, hidentity, bind, Except.bind]
  rcases mappedRecord_eq hordered hbound hfind.readBack hidentity with
    ⟨hnone, hunbound⟩ | ⟨r, hr, hmapped⟩
  · -- no row has the identity: look at the records, then bind
    simp only [hnone]
    unfold backfillOrInsert
    cases hquery : querySqliteRecords
        ((right.recordsForRun runId).filter (·.recordType = recordType)) with
    | error e => simp [hquery] at hlegacy
    | ok legacy =>
      simp only [hquery] at hlegacy
      simp only [hlegacy, bind, Except.bind]
      cases hfound : right.matching runId recordType fields identity with
      | nil =>
        have hbounded : ∀ bound ∈ right.logicalRecords,
            bound.sequence ≠ right.nextSequence + 1 := by
          intro bound hrow heq
          obtain ⟨r, hr, hseq, -⟩ := hbound bound hrow
          have := hordered.bounded r (mem_recordsForRun.1 hr).1
          omega
        have hinsert := insertMapping_ok
          (right.insertRecord (right.nextSequence + 1) runId clock durability recordType payload).1
          ⟨runId, recordType, identity, right.nextSequence + 1, digest payload⟩
          hbounded hunbound
        simp only [allocateSqliteSequence, if_pos hfind.room, pure, Except.pure, hinsert]
        refine ⟨_, rfl, ?_⟩
        rintro _ ⟨⟩
        have hkept : LedgerState.Bound (right.insertRecord (right.nextSequence + 1) runId clock
            durability recordType payload).1 := hbound.append rfl rfl
        refine hkept.bind (r := (right.insertRecord (right.nextSequence + 1) runId clock durability
          recordType payload).2) ?_ rfl rfl rfl hidentity
        exact mem_recordsForRun.2 ⟨mem_append_right _ mem_cons_self, rfl⟩
      | cons r rest =>
        have hmem : r ∈ right.matching runId recordType fields identity := by simp [hfound]
        rw [← hfound, hfind.matching_eq hmem]
        obtain ⟨hr, hmatches⟩ := mem_filter.1 hmem
        rw [Bool.and_eq_true, decide_eq_true_eq, hasIdentity_iff] at hmatches
        simp only [logicalAppend, requireSamePayload_eq]
        by_cases hsame : same r.payload payload = true
        · -- a row of the record would have the identity, and none has
          have hfree : ∀ bound ∈ right.logicalRecords, bound.sequence ≠ r.seq := by
            intro bound hrow heq
            obtain ⟨r', hr', hseq, htype, -⟩ := hbound bound hrow
            have hr' := mem_recordsForRun.1 hr'
            have hr := mem_recordsForRun.1 hr
            obtain rfl := hordered.eq_of_seq hr'.1 hr.1 (hseq.trans heq)
            exact hunbound bound hrow ⟨hr'.2.symm.trans hr.2, htype.symm.trans hmatches.1,
              hfind.oneIdentity bound hrow _ hmem heq⟩
          have hinsert := insertMapping_ok right
            ⟨runId, recordType, identity, r.seq, digest payload⟩ hfree hunbound
          simp only [hsame, if_true, pure, Except.pure, hinsert]
          refine ⟨_, rfl, ?_⟩
          rintro _ ⟨⟩
          exact hbound.bind hr rfl hmatches.1 (hfind.sameText r hmem hfree hsame).symm hmatches.2
        · simp only [hsame]
          exact ⟨[], rfl, fun _ habsurd => by cases habsurd⟩
  · -- the identity is bound to its one record
    simp only [hmapped, hfind.matching_eq hr, logicalAppend, requireSamePayload_eq]
    refine ⟨right.logicalRecords, ?_⟩
    cases same r.payload payload with
    | false => exact ⟨rfl, fun _ habsurd => by cases habsurd⟩
    | true =>
      refine ⟨rfl, ?_⟩
      rintro _ ⟨⟩
      exact hbound

end Append

/-! ## What a logical append promises -/

section Promise

def memberOf (payload : V) (field : String) : Option V :=
  (LedgerPayload.members payload).bind (· field)

/-- The identity fields of two payloads have equal values. -/
def sameIdentity (fields : List String) (a b : V) : Bool :=
  fields.all fun field =>
    match memberOf a field, memberOf b field with
    | some v, some w => same v w
    | _, _ => false

/-- The records of a run and type with the identity of a payload. -/
def LedgerState.bearers (state : LedgerState V) (runId : RunId) (recordType : String)
    (fields : List String) (payload : V) : List (LedgerRecord V) :=
  (state.recordsForRun runId).filter fun r =>
    r.recordType = recordType && sameIdentity fields r.payload payload

/-- A logical append writes no second record of an identity; if there is one record, it returns it
for an equal payload and refuses any other. -/
structure AppendsOnce (before : LedgerState V) (runId : RunId) (recordType : String)
    (fields : List String) (payload : V) (answer : LedgerAnswer V) (after : LedgerState V) :
    Prop where
  once : after.records ≠ before.records → before.bearers runId recordType fields payload = []
  returned : ∀ r, before.bearers runId recordType fields payload = [r] →
    same r.payload payload = true →
      answer = .ok (.record r) ∧ after.records = before.records
  refused : ∀ r, before.bearers runId recordType fields payload = [r] →
    same r.payload payload = false →
      (∃ e, answer = .error e ∧ e.kind = .alreadyExists) ∧ after = before

variable {state : LedgerState V} {runId : RunId} {durability : DurabilityClass}
  {recordType : String} {fields : List String}

omit [DecidableEq V] in
/-- Payloads with one identity have equal identity fields. -/
lemma sameIdentity_of_canonicalIdentity {a b : V}
    (ha : canonicalIdentity a fields = .ok identity)
    (hb : canonicalIdentity b fields = .ok identity) : sameIdentity fields a b = true := by
  obtain ⟨-, -, members, hmembers, hmapped⟩ := canonicalIdentity_eq_ok.1 ha
  obtain ⟨-, -, members', hmembers', hmapped'⟩ := canonicalIdentity_eq_ok.1 hb
  refine all_eq_true.2 fun field hfield => ?_
  obtain ⟨_, hpair, hmember⟩ := exists_mem_of_mapM_eq_ok hmapped (mem_mergeSort.2 hfield)
  obtain ⟨v, hv, rfl⟩ := identityMember_eq_ok.1 hmember
  have hw : members' field = some v := identityMember_of_mem_identity hmapped' hpair
  simp [memberOf, hmembers, hmembers', hv, hw, LedgerPayload.same_refl]

/-- Where equal identities are written alike, they are found by their text. -/
lemma bearers_eq_matching
    (htext : ∀ r ∈ state.recordsForRun runId, r.recordType = recordType →
      sameIdentity fields r.payload payload = true →
        canonicalIdentity r.payload fields = canonicalIdentity payload fields)
    (hidentity : canonicalIdentity payload fields = .ok identity) :
    state.bearers runId recordType fields payload =
      state.matching runId recordType fields identity := by
  refine filter_congr fun r hr => ?_
  by_cases htype : r.recordType = recordType
  · have hiff : sameIdentity fields r.payload payload = true ↔
        hasIdentity fields identity r.payload = true := by
      rw [hasIdentity_iff]
      exact ⟨fun hsame => (htext r hr htype hsame).trans hidentity,
        fun hsame => sameIdentity_of_canonicalIdentity hsame hidentity⟩
    rw [Bool.eq_iff_iff.2 hiff]
  · simp [htype]

/-- What `logicalAppend` says is what a logical append promises. -/
lemma appendsOnce_of_logicalAppend (durability : DurabilityClass) (clock : ℤ)
    (hbearers : state.bearers runId recordType fields payload =
      state.matching runId recordType fields identity)
    (rows : List (LogicalRow V)) {result : IoResult (LedgerState V × LedgerRecord V)}
    (h : result = (logicalAppend state runId durability recordType payload clock
      (state.matching runId recordType fields identity)).map (rebound rows)) :
    let done := answered LeaseAnswer.record (committed state result)
    AppendsOnce state runId recordType fields payload done.2 done.1 := by
  rw [h, ← hbearers]
  constructor
  · intro hchanged
    by_contra hsome
    obtain ⟨r, rest, hfound⟩ := exists_cons_of_ne_nil hsome
    refine hchanged ?_
    rw [hfound, logicalAppend, requireSamePayload_eq]
    split <;> rfl
  · intro r hfound hsame
    rw [hfound, logicalAppend, requireSamePayload_eq, if_pos hsame]
    exact ⟨rfl, rfl⟩
  · intro r hfound hsame
    rw [hfound, logicalAppend, requireSamePayload_eq, hsame]
    exact ⟨⟨_, rfl, rfl⟩, rfl⟩

end Promise

/-! ## Histories on both backends -/

/-- The ledgers are alike, and the table of the second says what its records say. -/
structure InStep (left right : LedgerState V) : Prop extends Alike left right where
  ordered : right.Ordered
  bound : right.Bound

/-- A call of a history of appends, logical appends and deletions that meets what it needs. -/
inductive LedgerCall.Regular (state : LedgerState V) : LedgerCall V → Prop
  | append {runId durability recordType payload clock}
      (hroom : state.nextSequence + 1 ≤ i64Max.toNat) :
      Regular state (.append runId durability recordType payload clock)
  | compareAndAppend {runId durability recordType fields payload clock}
      (hdurable : durability ≠ .ephemeral)
      (hfind : ∀ identity, canonicalIdentity payload fields = .ok identity →
        state.Findable runId recordType fields identity payload)
      (htext : ∀ r ∈ state.recordsForRun runId, r.recordType = recordType →
        sameIdentity fields r.payload payload = true →
          canonicalIdentity r.payload fields = canonicalIdentity payload fields) :
      Regular state (.compareAndAppend runId durability recordType fields payload clock)
  | deleteRun {runId} : Regular state (.leased (.deleteRun runId))

/-- Both calls fail with one error, or both succeed with one record and stay in step. -/
def ResultsInStep (result result' : IoResult (LedgerState V × LedgerRecord V)) : Prop :=
  (∃ e, result = .error e ∧ result' = .error e) ∨
    ∃ left right record record', result = .ok (left, record) ∧ result' = .ok (right, record') ∧
      record.untimed = record'.untimed ∧ InStep left right

section Histories

variable {left right : LedgerState V} {runId : RunId} {durability : DurabilityClass}
  {recordType : String} {fields : List String}

lemma lt_u64Max_of_room {n : ℕ} (h : n + 1 ≤ i64Max.toNat) : n < u64Max := by
  have : i64Max.toNat ≤ u64Max := by decide
  omega

omit [DecidableEq V] in
/-- A plain append stores the same record in both ledgers. -/
lemma append_inStep (h : InStep left right) (hroom : right.nextSequence + 1 ≤ i64Max.toNat)
    (clock : ℤ) :
    ResultsInStep (append .inMemory left runId durability recordType payload clock)
      (append .sqlite right runId durability recordType payload clock) := by
  right
  have hseq : u64SaturatingAdd left.nextSequence 1 = right.nextSequence + 1 := by
    rw [h.counter]
    exact Nat.min_eq_right (lt_u64Max_of_room hroom)
  have hnext : u64CheckedAdd right.nextSequence 1 = some (right.nextSequence + 1) :=
    u64CheckedAdd_of_le hroom
  have hinserted := h.insertRecord (right.nextSequence + 1) runId clock clock durability
    recordType payload
  unfold append appendInMemory appendSqlite
  by_cases hephemeral : durability = .ephemeral
  · simp only [hephemeral, hseq, hnext, ne_eq, not_true_eq_false, if_false, if_true, orElseThrow,
      bind, Except.bind, pure, Except.pure]
    exact ⟨_, _, _, _, rfl, rfl, rfl, h⟩
  · simp only [hephemeral, hseq, ne_eq, not_false_eq_true, if_true, if_false,
      allocateSqliteSequence, if_pos hroom, bind, Except.bind, pure, Except.pure]
    refine ⟨_, _, _, _, rfl, rfl, hinserted.2, hinserted.1, ?_, h.bound.append rfl rfl⟩
    exact (storedRecords_insert rfl hephemeral rfl rfl).ordered (lt_u64Max_of_room hroom) h.ordered

omit [DecidableEq V] in
lemma logicalAppend_alike (h : Alike left right) {found found' : List (LedgerRecord V)}
    (hfound : found.map untimed = found'.map untimed) (clock : ℤ) :
    (∃ e, logicalAppend left runId durability recordType payload clock found = .error e ∧
        logicalAppend right runId durability recordType payload clock found' = .error e) ∨
      ∃ left' right' record record',
        logicalAppend left runId durability recordType payload clock found = .ok (left', record) ∧
        logicalAppend right runId durability recordType payload clock found' =
          .ok (right', record') ∧ record.untimed = record'.untimed ∧ Alike left' right' := by
  cases found with
  | nil =>
    obtain rfl : found' = [] := map_eq_nil_iff.1 hfound.symm
    obtain ⟨hinserted, hrecord⟩ := h.insertRecord (left.nextSequence + 1) runId clock clock
      durability recordType payload
    have hright : logicalAppend right runId durability recordType payload clock [] =
        .ok (right.insertRecord (left.nextSequence + 1) runId clock durability recordType
          payload) := by
      rw [logicalAppend, h.counter]
    exact .inr ⟨_, _, _, _, rfl, hright, hrecord, hinserted⟩
  | cons r rest =>
    cases found' with
    | nil => cases hfound
    | cons r' rest' =>
      obtain ⟨hsame, -⟩ := List.cons.inj hfound
      have hpayload : r.payload = r'.payload := (congrArg LedgerRecord.payload hsame :)
      simp only [logicalAppend, requireSamePayload_eq, hpayload]
      by_cases hequal : same r'.payload payload = true
      · simp only [hequal, if_true]
        exact .inr ⟨_, _, _, _, rfl, rfl, hsame, h⟩
      · simp only [hequal]
        exact .inl ⟨_, rfl, rfl⟩

/-- What SQLite can find, the in-memory ledger can find. -/
lemma compareAndAppendInMemory_inStep (h : InStep left right) (hdurable : durability ≠ .ephemeral)
    (hidentity : canonicalIdentity payload fields = .ok identity)
    (hfind : right.Findable runId recordType fields identity payload) (clock : ℤ) :
    compareAndAppendInMemoryLocked left runId durability recordType fields payload clock =
      logicalAppend left runId durability recordType payload clock
        (left.matching runId recordType fields identity) := by
  have hfields : ∀ r ∈ left.recordsForRun runId, r.recordType = recordType →
      ∃ found, canonicalIdentity r.payload fields = .ok found :=
    h.forall_run (P := fun type stored => type = recordType →
      ∃ found, canonicalIdentity stored fields = .ok found) hfind.fieldsPresent
  have hsingle : (left.matching runId recordType fields identity).length ≤ 1 := by
    have hmatching : (left.matching runId recordType fields identity).map untimed =
        (right.matching runId recordType fields identity).map untimed :=
      h.matching
    have hlength := congrArg List.length hmatching
    rw [length_map, length_map] at hlength
    exact hlength ▸ hfind.single
  exact compareAndAppendInMemory_eq hdurable hidentity hfields hsingle (h.counter ▸ hfind.room)
    clock

/-- A logical append answers the same in both ledgers. -/
lemma compareAndAppend_results (h : InStep left right) (hdurable : durability ≠ .ephemeral)
    (hfind : ∀ identity, canonicalIdentity payload fields = .ok identity →
      right.Findable runId recordType fields identity payload) (clock : ℤ) :
    ResultsInStep
      (compareAndAppendInMemoryLocked left runId durability recordType fields payload clock)
      (compareAndAppendSqliteTransaction right runId durability recordType fields payload
        clock) := by
  cases hidentity : canonicalIdentity payload fields with
  | error e =>
    refine .inl ⟨e, ?_, ?_⟩
    · simp [compareAndAppendInMemoryLocked, requireDurable, hdurable, require, hidentity, bind,
        Except.bind]
    · simp [compareAndAppendSqliteTransaction, requireDurable, hdurable, require, hidentity, bind,
        Except.bind]
  | ok identity =>
    have hfind := hfind identity hidentity
    have hmatching : (left.matching runId recordType fields identity).map untimed =
        (right.matching runId recordType fields identity).map untimed :=
      h.matching
    have hleft := compareAndAppendInMemory_inStep h hdurable hidentity hfind clock
    obtain ⟨rows, hright, hbound⟩ :=
      compareAndAppendSqlite_eq h.ordered h.bound hdurable hidentity hfind clock
    rcases logicalAppend_alike h.toAlike hmatching clock with
      ⟨e, hl, hr⟩ | ⟨left', right', record, record', hl, hr, hrecord, halike⟩
    · rw [hleft, hl, hright, hr]
      exact .inl ⟨e, rfl, rfl⟩
    · rw [hr] at hright
      have hcall : compareAndAppend .sqlite right runId durability recordType
        fields payload clock = .ok (_, _) := hright
      obtain ⟨-, written, hstored, -⟩ := compareAndAppend_stored hcall
      exact .inr ⟨left', _, record, _, hleft.trans hl, hright, hrecord,
        ⟨halike.records, halike.counter⟩,
        hstored.ordered (lt_u64Max_of_room hfind.room) h.ordered, hbound _ hr⟩

/-- A logical append keeps its promise in each ledger. -/
lemma compareAndAppend_promise (h : InStep left right) {clock : ℤ}
    (hregular : LedgerCall.Regular right
      (.compareAndAppend runId durability recordType fields payload clock))
    (hidentity : canonicalIdentity payload fields = .ok identity) :
    let result := answered LeaseAnswer.record (committed left
      (compareAndAppendInMemoryLocked left runId durability recordType fields payload clock))
    let result' := answered LeaseAnswer.record (committed right
      (compareAndAppendSqliteTransaction right runId durability recordType fields payload clock))
    AppendsOnce left runId recordType fields payload result.2 result.1 ∧
      AppendsOnce right runId recordType fields payload result'.2 result'.1 := by
  cases hregular with
  | compareAndAppend hdurable hfind htext =>
    have hfind := hfind identity hidentity
    have htextLeft : ∀ r ∈ left.recordsForRun runId, r.recordType = recordType →
        sameIdentity fields r.payload payload = true →
          canonicalIdentity r.payload fields = canonicalIdentity payload fields :=
      h.forall_run (P := fun type stored => type = recordType →
        sameIdentity fields stored payload = true →
          canonicalIdentity stored fields = canonicalIdentity payload fields) htext
    obtain ⟨rows, hright, -⟩ :=
      compareAndAppendSqlite_eq h.ordered h.bound hdurable hidentity hfind clock
    constructor
    · refine appendsOnce_of_logicalAppend durability clock
        (bearers_eq_matching htextLeft hidentity) left.logicalRecords ?_
      rw [compareAndAppendInMemory_inStep h hdurable hidentity hfind clock]
      cases left.matching runId recordType fields identity with
      | nil => rfl
      | cons r rest =>
        rw [logicalAppend, requireSamePayload_eq]
        split <;> rfl
    · exact appendsOnce_of_logicalAppend durability clock (bearers_eq_matching htext hidentity)
        rows hright

omit [DecidableEq V] in
lemma ResultsInStep.answered {result result' : IoResult (LedgerState V × LedgerRecord V)}
    (h : ResultsInStep result result') (hstep : InStep left right) :
    let done := answered LeaseAnswer.record (committed left result)
    let done' := answered LeaseAnswer.record (committed right result')
    InStep done.1 done'.1 ∧
      done.2.map LeaseAnswer.untimed = done'.2.map LeaseAnswer.untimed := by
  rcases h with ⟨e, rfl, rfl⟩ | ⟨left', right', record, record', rfl, rfl, hrecord, hstep'⟩
  · exact ⟨hstep, rfl⟩
  · exact ⟨hstep', congrArg (fun r => Except.ok (LeaseAnswer.record r)) hrecord⟩

omit [DecidableEq V] in
/-- A deleted run takes its bindings with it. -/
lemma deleteRun_inStep (h : InStep left right) :
    InStep (deleteRunExactInMemory left runId) (deleteRunExactSqlite right runId) where
  records := filter_untimed h.records _ fun _ => rfl
  counter := h.counter
  ordered := ⟨h.ordered.sorted.filter _, fun r hr => h.ordered.bounded r (mem_of_mem_filter hr)⟩
  bound := by
    intro row hrow
    obtain ⟨hrow, hkept⟩ := mem_filter.1 hrow
    obtain ⟨kept, hmem, hseq⟩ := any_eq_true.1 hkept
    obtain ⟨r, hr, hrseq, hrest⟩ := h.bound row hrow
    -- the record of a kept binding is the kept record of its sequence
    obtain rfl : kept = r := h.ordered.eq_of_seq (mem_of_mem_filter hmem)
      (mem_recordsForRun.1 hr).1 ((of_decide_eq_true hseq).trans hrseq.symm)
    exact ⟨kept, mem_recordsForRun.2 ⟨hmem, (mem_recordsForRun.1 hr).2⟩,
      hrseq, hrest⟩

/-- Regular calls are answered the same by both backends, and logical appends keep their promise
in each. -/
lemma regular_inStep (h : InStep left right) {call : LedgerCall V}
    (hregular : call.Regular right) :
    InStep ((ledgerMachine V .inMemory).next left call)
        ((ledgerMachine V .sqlite).next right call) ∧
      ((ledgerMachine V .inMemory).answer left call).map LeaseAnswer.untimed =
        ((ledgerMachine V .sqlite).answer right call).map LeaseAnswer.untimed ∧
      ∀ runId durability recordType fields payload clock,
        call = .compareAndAppend runId durability recordType fields payload clock →
        ∀ identity, canonicalIdentity payload fields = .ok identity →
          AppendsOnce left runId recordType fields payload
              ((ledgerMachine V .inMemory).answer left call)
              ((ledgerMachine V .inMemory).next left call) ∧
            AppendsOnce right runId recordType fields payload
              ((ledgerMachine V .sqlite).answer right call)
              ((ledgerMachine V .sqlite).next right call) := by
  simp only [Machine.answer, Machine.next, ledgerMachine]
  cases hcall : hregular with
  | append hroom =>
    obtain ⟨hstep, hanswer⟩ := (append_inStep h hroom _).answered h
    exact ⟨hstep, hanswer, fun _ _ _ _ _ _ habsurd => by cases habsurd⟩
  | compareAndAppend hdurable hfind _ =>
    obtain ⟨hstep, hanswer⟩ := (compareAndAppend_results h hdurable hfind _).answered h
    refine ⟨hstep, hanswer, ?_⟩
    rintro _ _ _ _ _ _ heq identity hidentity
    cases heq
    exact compareAndAppend_promise h hregular hidentity
  | @deleteRun runId =>
    have hcount : (left.recordsForRun runId).length = (right.recordsForRun runId).length := by
      have := congrArg List.length (h.recordsForRun runId)
      rwa [length_map, length_map] at this
    refine ⟨deleteRun_inStep h, ?_, fun _ _ _ _ _ _ habsurd => by cases habsurd⟩
    exact congrArg (fun n => Except.ok (LeaseAnswer.deleted n)) hcount

/-- Along every history of regular appends, logical appends and deletions from empty ledgers, both
backends give the same answers, and a logical append writes no second record of its identity,
returns the one there is for an equal payload and refuses every other. -/
theorem regular_histories_agree (calls : List (LedgerCall V))
    (hregular : ∀ y ∈ (ledgerMachine V .sqlite).trace (.empty V) calls,
      y.event.Regular y.before) :
    List.Forall₂ (fun x y =>
        x.answer.map LeaseAnswer.untimed = y.answer.map LeaseAnswer.untimed ∧
        ∀ runId durability recordType fields payload clock,
          y.event = .compareAndAppend runId durability recordType fields payload clock →
          ∀ identity, canonicalIdentity payload fields = .ok identity →
            AppendsOnce x.before runId recordType fields payload x.answer x.after ∧
              AppendsOnce y.before runId recordType fields payload y.answer y.after)
      ((ledgerMachine V .inMemory).trace (.empty V) calls)
      ((ledgerMachine V .sqlite).trace (.empty V) calls) := by
  have hstart : InStep (LedgerState.empty V) (.empty V) :=
    ⟨⟨rfl, rfl⟩, .empty, forall_mem_nil _⟩
  refine Machine.trace_forall₂ (R := InStep) (C := fun state call => call.Regular state) ?_ hstart
    hregular
  intro left right call hstep hcall
  obtain ⟨hnext, hanswer, hpromise⟩ := regular_inStep hstep hcall
  exact ⟨hnext, hanswer, hpromise⟩

end Histories

/-! ## Two histories of logical appends -/

/-- An event with an id and a key. -/
def sampleEvent : Json := .object [("id", .ofNat 1), ("key", .ofNat 2)]

def bindEvent (fields : List String) : LedgerCall Json :=
  .compareAndAppend "r" .syncCritical "event" fields sampleEvent 0

instance (state : LedgerState Json) (runId : RunId) (recordType : String) (fields : List String)
    (identity : LogicalIdentity Json) (payload : Json) :
    Decidable (state.Findable runId recordType fields identity payload) :=
  have : ∀ r : LedgerRecord Json,
      Decidable (∃ found, canonicalIdentity r.payload fields = .ok found) := fun r =>
    match canonicalIdentity r.payload fields with
    | .ok found => .isTrue ⟨found, rfl⟩
    | .error _ => .isFalse (by simp)
  decidable_of_iff' _ (LedgerState.findable_iff ..)

/-- What the event is found under by its id. -/
def sampleIdentity : LogicalIdentity Json := [("id", .ofNat 1)]

lemma findable_sampleEvent {state : LedgerState Json}
    (hfind : state.Findable "r" "event" ["id"] sampleIdentity sampleEvent)
    {identity : LogicalIdentity Json} (h : canonicalIdentity sampleEvent ["id"] = .ok identity) :
    state.Findable "r" "event" ["id"] identity sampleEvent := by
  have hidentity : canonicalIdentity sampleEvent ["id"] = .ok sampleIdentity := by decide +kernel
  rw [hidentity] at h
  exact Except.ok.inj h ▸ hfind

/-- A record of another run, an event of the run, the same event again and, after the run was
deleted, once more. -/
def repeatedEvent : List (LedgerCall Json) :=
  [.append "s" .syncCritical "event" .null 0, bindEvent ["id"], bindEvent ["id"],
    .leased (.deleteRun "r"), bindEvent ["id"]]

/-- The repeated event finds the record that is bound to it. -/
theorem repeated_event_agrees :
    ((ledgerMachine Json .sqlite).trace (.empty Json) repeatedEvent).map (fun y =>
        (y.answer.isOk, y.after.records.length)) =
      [(true, 1), (true, 2), (true, 2), (true, 1), (true, 2)] ∧
      List.Forall₂ (fun x y => x.answer.map LeaseAnswer.untimed = y.answer.map LeaseAnswer.untimed)
        ((ledgerMachine Json .inMemory).trace (.empty Json) repeatedEvent)
        ((ledgerMachine Json .sqlite).trace (.empty Json) repeatedEvent) := by
  have hregular : ∀ y ∈ (ledgerMachine Json .sqlite).trace (.empty Json) repeatedEvent,
      y.event.Regular y.before := by
    intro y hy
    simp only [repeatedEvent, Machine.trace_cons, Machine.trace_nil, mem_cons, not_mem_nil,
      or_false] at hy
    rcases hy with rfl | rfl | rfl | rfl | rfl
    · exact .append (by decide)
    · exact .compareAndAppend (by decide) (fun _ => findable_sampleEvent (by decide +kernel))
        (by decide +kernel)
    · exact .compareAndAppend (by decide) (fun _ => findable_sampleEvent (by decide +kernel))
        (by decide +kernel)
    · exact .deleteRun
    · exact .compareAndAppend (by decide) (fun _ => findable_sampleEvent (by decide +kernel))
        (by decide +kernel)
  exact ⟨by decide +kernel, (regular_histories_agree repeatedEvent hregular).imp fun _ _ h => h.1⟩

/-- One event is bound under its id, then looked up under its key. -/
def twoFieldSets : List (LedgerCall Json) := [bindEvent ["id"], bindEvent ["key"]]

/-- SQLite binds a record once: the second lookup fails where the in-memory ledger returns the
record. -/
theorem second_field_set_is_refused :
    ¬ ∀ calls : List (LedgerCall Json),
      List.Forall₂ (fun x y => x.answer.isOk = y.answer.isOk)
        ((ledgerMachine Json .inMemory).trace (.empty Json) calls)
        ((ledgerMachine Json .sqlite).trace (.empty Json) calls) := by
  intro h
  have hsame := h twoFieldSets
  revert hsame
  decide +kernel

-- of two records that differ in the order of their members, the binding keeps the wrong digest:
-- a record appended plainly is found once, and never again
example : ((ledgerMachine Json .sqlite).trace (.empty Json)
    [.append "r" .syncCritical "event" (.object [("key", .ofNat 2), ("id", .ofNat 1)]) 0,
      bindEvent ["id"], bindEvent ["id"]]).map (fun x => x.answer.isOk) = [true, true, false] := by
  decide +kernel

end SolarisMesh.Ledger
