import SolarisMesh.Ledger.Crash
import SolarisMesh.Ledger.Growing
import SolarisMesh.Ledger.Stored

/-!
# Sequences increase

Whatever stores records, on any run, in any backend and across reopenings: every stored record has
a larger sequence than all records stored before it, also than those that were deleted since, and
ephemeral records leave no trace.
-/

namespace SolarisMesh.Ledger

open List Lib SolarisMesh.Types
open JsonlStore (opened wrote file)

variable {V : Type}

/-! ## What a step may do to the records -/

/-- Durable records are appended, with sequences past the counter. -/
structure Extends (state state' : LedgerState V) (written : List (LedgerRecord V)) : Prop where
  records : state'.records = state.records ++ written
  durable : ∀ r ∈ written, r.durability ≠ .ephemeral
  counter : state.nextSequence ≤ state'.nextSequence
  sequences : ∀ r ∈ written, state.nextSequence < r.seq ∧ r.seq ≤ state'.nextSequence
  sorted : written.Pairwise (·.seq < ·.seq)

/-- Records are appended, or some are removed and the counter stays. -/
inductive Writes (state state' : LedgerState V) : Prop
  | extended {written : List (LedgerRecord V)} (h : Extends state state' written)
  | shrunk (hrecords : state'.records.Sublist state.records)
      (hcounter : state.nextSequence ≤ state'.nextSequence)

/-- The records a step adds. -/
def storedBy (state state' : LedgerState V) : List (LedgerRecord V) :=
  state'.records.drop state.records.length

variable {state : LedgerState V}

lemma Extends.refl (state : LedgerState V) : Extends state state [] :=
  ⟨(append_nil _).symm, forall_mem_nil _, le_rfl,
    forall_mem_nil _, .nil⟩

lemma Extends.trans {middle last : LedgerState V} {first second : List (LedgerRecord V)}
    (h : Extends state middle first) (h' : Extends middle last second) :
    Extends state last (first ++ second) where
  records := by rw [h'.records, h.records, append_assoc]
  durable := forall_mem_append.2 ⟨h.durable, h'.durable⟩
  counter := h.counter.trans h'.counter
  sequences := forall_mem_append.2
    ⟨fun r hr => ⟨(h.sequences r hr).1, (h.sequences r hr).2.trans h'.counter⟩,
      fun r hr => ⟨h.counter.trans_lt (h'.sequences r hr).1, (h'.sequences r hr).2⟩⟩
  sorted := pairwise_append.2 ⟨h.sorted, h'.sorted, fun r hr r' hr' =>
    (h.sequences r hr).2.trans_lt (h'.sequences r' hr').1⟩

variable {state' : LedgerState V}

/-- New sequences lie between the counters, in order. -/
lemma Writes.stored (h : Writes state state') :
    state.nextSequence ≤ state'.nextSequence ∧
      (∀ r ∈ storedBy state state', state.nextSequence < r.seq ∧ r.seq ≤ state'.nextSequence) ∧
      (storedBy state state').Pairwise (·.seq < ·.seq) := by
  cases h with
  | @extended written h =>
    have hstored : storedBy state state' = written := by
      rw [storedBy, h.records, drop_left]
    rw [hstored]
    exact ⟨h.counter, h.sequences, h.sorted⟩
  | shrunk hrecords hcounter =>
    have hstored : storedBy state state' = [] := drop_eq_nil_of_le hrecords.length_le
    rw [hstored]
    exact ⟨hcounter, forall_mem_nil _, .nil⟩

lemma Writes.durable (h : Writes state state')
    (hdurable : ∀ r ∈ state.records, r.durability ≠ .ephemeral) :
    ∀ r ∈ state'.records, r.durability ≠ .ephemeral := by
  cases h with
  | extended h =>
    rw [h.records]
    exact forall_mem_append.2 ⟨hdurable, h.durable⟩
  | shrunk hrecords _ => exact fun r hr => hdurable r (hrecords.subset hr)

/-! ## Histories -/

section Histories

variable {σ ε ω : Type} {m : Machine σ ε ω} {view : σ → LedgerState V} {C : σ → ε → Prop}

/-- All records that the steps add, in order. -/
def allStored (view : σ → LedgerState V) (steps : List (Machine.Step σ ε ω)) :
    List (LedgerRecord V) :=
  steps.flatMap fun x => storedBy (view x.before) (view x.after)

lemma allStored_increasing (hstep : ∀ s e, C s e → Writes (view s) (view (m.next s e))) {s : σ}
    {es : List ε} (hc : ∀ x ∈ m.trace s es, C x.before x.event) :
    (allStored view (m.trace s es)).Pairwise (·.seq < ·.seq) ∧
      ∀ r ∈ allStored view (m.trace s es), (view s).nextSequence < r.seq := by
  induction es generalizing s with
  | nil => exact ⟨.nil, forall_mem_nil _⟩
  | cons e es ih =>
    obtain ⟨hhead, hrest⟩ := forall_mem_cons.1 hc
    obtain ⟨hcounter, hsequences, hsorted⟩ := (hstep s e hhead).stored
    obtain ⟨hlater, hgreater⟩ := ih hrest
    rw [Machine.trace_cons, allStored, flatMap_cons]
    refine ⟨pairwise_append.2 ⟨hsorted, hlater, fun r hr r' hr' => ?_⟩,
      forall_mem_append.2 ⟨fun r hr => (hsequences r hr).1, fun r hr => ?_⟩⟩
    · exact (hsequences r hr).2.trans_lt (hgreater r' hr')
    · exact hcounter.trans_lt (hgreater r hr)

lemma run_durable (hstep : ∀ s e, C s e → Writes (view s) (view (m.next s e))) {s : σ}
    {es : List ε} (hc : ∀ x ∈ m.trace s es, C x.before x.event)
    (hs : ∀ r ∈ (view s).records, r.durability ≠ .ephemeral) :
    ∀ r ∈ (view (m.run s es)).records, r.durability ≠ .ephemeral :=
  m.run_of_trace (P := fun s => ∀ r ∈ (view s).records, r.durability ≠ .ephemeral)
    (fun s e hs he => (hstep s e he).durable hs) hs hc

end Histories

/-! ## In memory and SQLite -/

lemma StoredRecords.writes {runId : RunId} {written : List (LedgerRecord V)}
    (h : StoredRecords runId state state' written) (hroom : state.nextSequence < u64Max) :
    Writes state state' :=
  .extended ⟨h.records, h.durable, h.counter hroom, h.sequences hroom, h.sorted hroom⟩

section Sqlite

variable [DecidableEq V] {decode : Bytes → Option (LedgerRecord V)}

/-- Imported records take new sequences; ephemeral ones are skipped. -/
lemma Imports.extends {sourceDigest : Bytes} {state last : ImportLedger V} {keys : List LineKey}
    {n : ℕ} (h : Imports decode sourceDigest state keys last n) :
    ∃ written, Extends state.ledger last.ledger written := by
  induction h with
  | nil state => exact ⟨[], .refl _⟩
  | cons hline hrest ih =>
    obtain ⟨later, hlater⟩ := ih
    obtain ⟨record, -, ⟨-, rfl, -⟩ | ⟨hdurable, -, sequence, ⟨-, rfl, -⟩ | ⟨hnext, rfl, -⟩⟩⟩ :=
      ImportLedger.importCompleteJsonlLine_eq_ok hline
    · exact ⟨later, hlater⟩
    · exact ⟨later, hlater⟩
    · have hsequence := allocateSqliteSequence_eq_ok hnext
      refine ⟨[{ record with seq := sequence }] ++ later, .trans ⟨rfl, ?_, ?_, ?_, ?_⟩ hlater⟩
      · exact forall_mem_singleton.2 hdurable
      · exact hsequence ▸ Nat.le_succ _
      · exact forall_mem_singleton.2 ⟨hsequence ▸ Nat.lt_succ_self _, le_rfl⟩
      · exact pairwise_singleton _ _

namespace ImportLedger

lemma importJsonlReader_extends {state state' : ImportLedger V} {sourceDigest : Bytes}
    {call : ImportCall} {skip : Bool} {count : ℕ}
    (h : state.importJsonlReader decode sourceDigest call skip = .ok (state', count)) :
    ∃ written, Extends state.ledger state'.ledger written := by
  by_cases hskip : skip = true ∧ (state.sources sourceDigest).isSome = true
  · rw [importJsonlReader, if_pos (Bool.and_eq_true_iff.2 hskip)] at h
    obtain ⟨rfl, -⟩ := Prod.mk.inj (Except.ok.inj h)
    exact ⟨[], .refl _⟩
  · have hread : state.importJsonlReader decode sourceDigest call false = .ok (state', count) := by
      rw [importJsonlReader, if_neg fun hand => hskip (Bool.and_eq_true_iff.1 hand)] at h
      exact h
    obtain ⟨-, last, himports, rfl⟩ := importJsonlReader_ok hread
    exact himports.extends

end ImportLedger

end Sqlite

/-- Calls on a SQLite ledger. An import is asked for, or comes with opening the ledger and is then
skipped for a completed source. -/
inductive SqliteCall (V : Type) where
  | ledger (call : LedgerCall V)
  | importJsonl (sourceDigest : Bytes) (call : ImportCall) (skipCompletedSource : Bool)
  | reopen

inductive SqliteAnswer (V : Type) where
  | ledger (answer : LedgerAnswer V)
  | imported (answer : IoResult ℕ)
  | reopened

namespace ImportLedger

/-- Opening the ledger repairs its counter. -/
def reopen (state : ImportLedger V) : ImportLedger V :=
  { state with
    ledger := { state.ledger with
      nextSequence := max state.ledger.nextSequence
        ((state.ledger.records.map (·.seq)).foldr max 0) } }

def execute [DecidableEq V] [LedgerPayload V] (decode : Bytes → Option (LedgerRecord V))
    (state : ImportLedger V) : SqliteCall V → ImportLedger V × SqliteAnswer V
  | .ledger call =>
    ({ state with ledger := (RuntimeLedger.execute .sqlite state.ledger call).1 },
      .ledger (RuntimeLedger.execute .sqlite state.ledger call).2)
  | .importJsonl sourceDigest call skipCompletedSource =>
    match state.importJsonlReader decode sourceDigest call skipCompletedSource with
    | .ok (imported, count) => (imported, .imported (.ok count))
    | .error error => (state, .imported (.error error))
  | .reopen => (state.reopen, .reopened)

end ImportLedger

/-- Calls, imports and reopenings of one database, one after the other. -/
def sqliteMachine [DecidableEq V] [LedgerPayload V] (decode : Bytes → Option (LedgerRecord V)) :
    Machine (ImportLedger V) (SqliteCall V) (SqliteAnswer V) where
  step := ImportLedger.execute decode

section Calls

variable [DecidableEq V] [LedgerPayload V]

lemma execute_writes (backend : Backend) (call : LedgerCall V)
    (hroom : state.nextSequence < u64Max) :
    Writes state (RuntimeLedger.execute backend state call).1 := by
  have hstores := execute_stores backend state call
  generalize (RuntimeLedger.execute backend state call).1 = state' at hstores
  cases hstores with
  | kept h | appended _ h _ | admitted _ _ h _ => exact h.writes hroom
  | deleted hrecords hcounter =>
    exact .shrunk (hrecords ▸ filter_sublist) hcounter.ge

lemma sqlite_writes (decode : Bytes → Option (LedgerRecord V)) {state : ImportLedger V}
    (call : SqliteCall V) (hroom : state.ledger.nextSequence < u64Max) :
    Writes state.ledger ((sqliteMachine decode).next state call).ledger := by
  cases call with
  | ledger call => exact execute_writes .sqlite call hroom
  | importJsonl sourceDigest call skip =>
    simp only [Machine.next, sqliteMachine, ImportLedger.execute]
    cases hread : state.importJsonlReader decode sourceDigest call skip with
    | error error => exact .extended (.refl _)
    | ok result =>
      obtain ⟨written, hwritten⟩ := ImportLedger.importJsonlReader_extends hread
      exact .extended hwritten
  | reopen => exact .shrunk (List.Sublist.refl _) (le_max_left _ _)

end Calls

/-! ## Ephemeral records -/

/-- The class of the record that a call writes; admissions apart. -/
def LedgerCall.durability : LedgerCall V → Option DurabilityClass
  | .append _ durability _ _ _ => some durability
  | .compareAndAppend _ durability _ _ _ _ => some durability
  | .leased (.append _ _ durability _ _) => some durability
  | .leased (.compareAndAppend _ _ durability _ _ _ _) => some durability
  | _ => none

section Ephemeral

variable [DecidableEq V] [LedgerPayload V]

/-- A call that succeeds wrote a durable record, or left the ledger as it was. -/
lemma execute_ephemeral (backend : Backend) (state : LedgerState V) {call : LedgerCall V}
    (hcall : call.durability = some .ephemeral) :
    (RuntimeLedger.execute backend state call).1 = state := by
  cases call with
  | append runId durability recordType payload clock =>
    rw [RuntimeLedger.execute, answered]
    refine committed_elim (· = state) rfl fun happend => ?_
    obtain ⟨-, ⟨-, hsame⟩ | ⟨hdurable, -⟩⟩ := append_stored happend
    · exact hsame
    · exact absurd (Option.some.inj hcall) hdurable
  | compareAndAppend runId durability recordType fields payload clock =>
    rw [RuntimeLedger.execute, answered]
    refine committed_elim (· = state) rfl fun happend => ?_
    exact absurd (Option.some.inj hcall) (compareAndAppend_stored happend).1
  | admission => cases hcall
  | leased call =>
    cases call with
    | append lease now durability recordType payload =>
      refine committed_elim (· = state) rfl fun hresult => ?_
      obtain ⟨record, happend, -⟩ := answering_eq_ok hresult
      exact absurd (Option.some.inj hcall) (append_fenced happend).1
    | compareAndAppend lease now durability recordType fields payload clock =>
      refine committed_elim (· = state) rfl fun hresult => ?_
      obtain ⟨record, happend, -⟩ := answering_eq_ok hresult
      exact absurd (Option.some.inj hcall) (compareAndAppend_fenced happend).1
    | acquire | renew | commitRestore | release | admission | deleteRun => cases hcall

end Ephemeral

/-! ## JSONL -/

/-- The counter of an open ledger is not at its end. -/
def JsonlStore.HasRoom (store : JsonlStore) : Prop :=
  ∀ ledger, store = .opened ledger → ledger.nextSequence < u64Max

/-- What an append does to the file: nothing, a whole line, or the beginning of one. -/
lemma append_file (ledger : JsonlRuntimeLedger) (call : JsonlAppend) :
    (ledger.append call).1.file = ledger.file ∧
        (opened ledger).wrote (.append call) = none ∨
      ledger.poisoned = false ∧ call.durability ≠ .ephemeral ∧
        ((ledger.append call).1.file =
            ledger.file ++ ((ledger.nextRecord call).encode ++ [newline]) ∧
          (opened ledger).wrote (.append call) = some (ledger.nextRecord call) ∨
        ∃ bytes, (ledger.append call).1.file =
            ledger.file ++ (ledger.nextRecord call).encode.take bytes ∧
          (opened ledger).wrote (.append call) = none) := by
  unfold JsonlRuntimeLedger.append wrote
  by_cases hpoisoned : ledger.poisoned = true
  · exact .inl (by simp [hpoisoned])
  · have hopen : ledger.poisoned = false := Bool.eq_false_iff.2 hpoisoned
    by_cases hdurable : call.durability = .ephemeral
    · exact .inl (by simp [hpoisoned, hdurable])
    · refine .inr ⟨hopen, hdurable, ?_⟩
      simp only [hopen, Bool.false_eq_true, if_false, hdurable, decide_false, Bool.or_self]
      cases call.outcome with
      | complete | unsynced error => exact .inl ⟨rfl, rfl⟩
      | torn bytes error =>
        by_cases hwhole : (ledger.nextRecord call).encode.length + 1 ≤ bytes
        · exact .inl ⟨congrArg (ledger.file ++ ·) (take_of_length_le (by simpa using hwhole)),
            if_pos hwhole⟩
        · exact .inr ⟨bytes, congrArg (ledger.file ++ ·)
            (take_append_of_le_length (by omega)), if_neg hwhole⟩

/-- The unfinished tail of a file is the beginning of a durable record's line. -/
def TornTail (tail : Bytes) : Prop :=
  ∃ (record : LedgerRecord Json) (more : Bytes), record.payload.wf = true ∧
    record.durability ≠ .ephemeral ∧ record.encode = tail ++ more

lemma tornTail_nil : TornTail [] :=
  ⟨⟨0, 0, "", 0, .syncCritical, "", .null⟩, _, rfl, by decide, rfl⟩

/-- What holds of the file along a history, besides its lines. -/
structure JsonlHistory (store : JsonlStore) (records : List (LedgerRecord Json)) : Prop where
  durable : ∀ record ∈ records, record.durability ≠ .ephemeral
  torn : ∃ tail, TornTail tail ∧
    store.file = Lines.join newline (records.map LedgerRecord.encode) ++ tail
  increasing : records.Pairwise (·.seq < ·.seq)

variable {records : List (LedgerRecord Json)}

lemma JsonlHistory.append {ledger : JsonlRuntimeLedger}
    (h : JsonlHistory (.opened ledger) records) (hholds : (opened ledger).Holds records)
    (hroom : ledger.nextSequence < u64Max) (call : JsonlAppend) :
    JsonlHistory (.opened (ledger.append call).1)
      (records ++ ((opened ledger).wrote (.append call)).toList) := by
  obtain ⟨hfile, hwrote⟩ | ⟨hopen, hdurable, hline⟩ := append_file ledger call
  · rw [hwrote, Option.toList_none, append_nil]
    exact ⟨h.durable, by simpa only [file, hfile] using h.torn, h.increasing⟩
  · -- the file of a ledger that still writes ends with a line
    have hlines : ledger.file = Lines.join newline (records.map LedgerRecord.encode) := by
      obtain ⟨tail, -, hlines, htail⟩ := hholds.lines
      obtain rfl := htail ledger rfl hopen
      rwa [append_nil] at hlines
    obtain ⟨hfile, hwrote⟩ | ⟨bytes, hfile, hwrote⟩ := hline
    · rw [hwrote, Option.toList_some]
      refine ⟨forall_mem_append.2 ⟨h.durable, forall_mem_singleton.2 hdurable⟩,
        ⟨[], tornTail_nil, ?_⟩, pairwise_append.2 ⟨h.increasing, pairwise_singleton _ _, ?_⟩⟩
      · rw [append_nil, map_append, Lines.join_append, map_singleton, Lines.join_cons,
          Lines.join_nil, ← hlines]
        exact hfile
      · intro old hold new hnew
        obtain rfl := mem_singleton.1 hnew
        have hle := hholds.counter ledger rfl old hold
        exact lt_saturatingAdd hle (hle.trans_lt hroom)
    · rw [hwrote, Option.toList_none, append_nil]
      refine ⟨h.durable, ⟨(ledger.nextRecord call).encode.take bytes, ⟨ledger.nextRecord call,
        (ledger.nextRecord call).encode.drop bytes, call.payload.2, hdurable,
        (take_append_drop _ _).symm⟩, ?_⟩, h.increasing⟩
      rw [← hlines]
      exact hfile

/-- Opening cuts the tail off or fails. -/
lemma JsonlHistory.reopen [NumberReader] {store : JsonlStore} (h : JsonlHistory store records)
    (hholds : store.Holds records) : JsonlHistory (jsonlMachine.next store .reopen) records := by
  refine ⟨h.durable, ?_, h.increasing⟩
  obtain ⟨tail, htail, hlines, -⟩ := hholds.lines
  have hopen := JsonlRuntimeLedger.openFile_written hholds.wf htail
  rw [← hlines] at hopen
  rw [next_reopen, hopen]
  by_cases hreadable : ∀ record ∈ records, record.Readable
  · rw [if_pos hreadable]
    exact ⟨[], tornTail_nil, (append_nil _).symm⟩
  · rw [if_neg hreadable]
    exact h.torn

lemma jsonlHistory_written [NumberReader] {calls : List JsonlCall}
    (hroom : ∀ x ∈ jsonlMachine.trace .new calls, x.before.HasRoom) :
    JsonlHistory (jsonlMachine.run .new calls) (written (jsonlMachine.trace .new calls)) := by
  induction calls using List.reverseRecOn with
  | nil => exact ⟨forall_mem_nil _, ⟨[], tornTail_nil, rfl⟩, .nil⟩
  | append_singleton calls call ih =>
    have htrace : jsonlMachine.trace .new (calls ++ [call]) = jsonlMachine.trace .new calls ++
        [jsonlMachine.stepAt (jsonlMachine.run .new calls) call] := Machine.trace_append ..
    rw [htrace, forall_mem_append] at hroom
    have hhistory := ih hroom.1
    have hholds := holds_written calls
    have hlast : (jsonlMachine.run .new calls).HasRoom := hroom.2 _ (mem_singleton_self _)
    rw [Machine.run_append, htrace, written_concat]
    generalize jsonlMachine.run .new calls = store at hhistory hholds hlast ⊢
    generalize written (jsonlMachine.trace .new calls) = records at hhistory hholds ⊢
    cases call with
    | append call =>
      cases store with
      | opened ledger => exact hhistory.append hholds (hlast ledger rfl) call
      | closed content => exact (append_nil records).symm ▸ hhistory
    | unsupported call => cases store <;> exact (append_nil records).symm ▸ hhistory
    | reopen =>
      rw [store.wrote_reopen, Option.toList_none, append_nil]
      exact hhistory.reopen hholds

/-! ## All backends -/

/-- Every stored record has a larger sequence than all records stored before it, in memory and over
imports and reopenings of a database or a file. Ephemeral records take no sequence and are never
read. -/
theorem stored_sequences_increase [DecidableEq V] [LedgerPayload V] [NumberReader]
    (decode : Bytes → Option (LedgerRecord V)) :
    (∀ calls : List (LedgerCall V),
      (∀ x ∈ (ledgerMachine V .inMemory).trace (.empty V) calls, x.before.nextSequence < u64Max) →
      (allStored id ((ledgerMachine V .inMemory).trace (.empty V) calls)).Pairwise (·.seq < ·.seq) ∧
      ∀ r ∈ ((ledgerMachine V .inMemory).run (.empty V) calls).records,
        r.durability ≠ .ephemeral) ∧
    (∀ calls : List (SqliteCall V),
      (∀ x ∈ (sqliteMachine decode).trace (.empty V) calls,
        x.before.ledger.nextSequence < u64Max) →
      (allStored ImportLedger.ledger ((sqliteMachine decode).trace (.empty V) calls)).Pairwise
        (·.seq < ·.seq) ∧
      ∀ r ∈ ((sqliteMachine decode).run (.empty V) calls).ledger.records,
        r.durability ≠ .ephemeral) ∧
    (∀ calls : List JsonlCall, (∀ x ∈ jsonlMachine.trace .new calls, x.before.HasRoom) →
      (written (jsonlMachine.trace .new calls)).Pairwise (·.seq < ·.seq) ∧
      ∀ ledger runId read, jsonlMachine.run .new calls = .opened ledger →
        ledger.recordsForRun runId = .ok read → ∀ r ∈ read, r.durability ≠ .ephemeral) ∧
    (∀ (backend : Backend) (state : LedgerState V) (call : LedgerCall V),
      call.durability = some .ephemeral → (RuntimeLedger.execute backend state call).1 = state) ∧
    (∀ (backend : Backend) (state state' : LedgerState V) (batch : TaskAdmission V)
      (lease : Option (WorkflowMutationLease × ℤ)) (clock : ℤ) (records : List (LedgerRecord V)),
      RuntimeLedger.admitTasksAndAppend backend state batch lease clock = (state', .ok records) →
      state'.nextSequence = state.nextSequence + records.length ∧
        ∀ r ∈ records, r.durability ≠ .ephemeral) ∧
    ∀ (ledger : JsonlRuntimeLedger) (call : JsonlAppend), call.durability = .ephemeral →
      (ledger.append call).1 = ledger := by
  refine ⟨fun calls hroom => ?_, fun calls hroom => ?_, fun calls hroom => ?_,
    fun backend state call => execute_ephemeral backend state, ?_, ?_⟩
  · have hstep : ∀ (state : LedgerState V) (call : LedgerCall V), state.nextSequence < u64Max →
        Writes (id state) (id ((ledgerMachine V .inMemory).next state call)) :=
      fun state call => execute_writes .inMemory call
    exact ⟨(allStored_increasing hstep hroom).1,
      run_durable hstep hroom (forall_mem_nil _)⟩
  · have hstep : ∀ (state : ImportLedger V) (call : SqliteCall V),
        state.ledger.nextSequence < u64Max →
        Writes state.ledger ((sqliteMachine decode).next state call).ledger :=
      fun state call => sqlite_writes decode call
    exact ⟨(allStored_increasing hstep hroom).1,
      run_durable hstep hroom (forall_mem_nil _)⟩
  · have hhistory := jsonlHistory_written hroom
    refine ⟨hhistory.increasing, fun ledger runId read hledger hread => ?_⟩
    rw [hledger] at hhistory
    -- only durable records are read, also while the file ends with a torn line
    obtain ⟨tail, ⟨torn, more, htorn, hdurable, htail⟩, hfile⟩ := hhistory.torn
    intro record hrecord
    obtain hmem | rfl := JsonlRuntimeLedger.mem_of_recordsForRun (holds_written calls).wf htorn
      htail hfile hread record hrecord
    · obtain ⟨written, hwritten, rfl⟩ := mem_map.1 hmem
      exact hhistory.durable written hwritten
    · exact hdurable
  · intro backend state state' batch lease clock records h
    exact ⟨(admitTasksAndAppend_stored h).counter, (admitTasksAndAppend_stored h).stored.durable⟩
  · intro ledger call hcall
    unfold JsonlRuntimeLedger.append
    split_ifs <;> rfl

/-- A record is stored and deleted, the database reopened and another record stored. -/
def deletedAndReopened : List (SqliteCall Json) :=
  [.ledger (.append "r" .syncCritical "event" .null 0), .ledger (.leased (.deleteRun "r")), .reopen,
    .ledger (.append "r" .ephemeral "event" .null 0),
    .ledger (.append "r" .syncCritical "event" .null 0)]

attribute [local instance] NumberReader.exact

theorem deleted_sequence_not_reused :
    (allStored ImportLedger.ledger
      ((sqliteMachine LedgerRecord.decode).trace (.empty Json) deletedAndReopened)).map (·.seq) =
        [1, 2] ∧
    (allStored ImportLedger.ledger ((sqliteMachine LedgerRecord.decode).trace (.empty Json)
      deletedAndReopened)).Pairwise (·.seq < ·.seq) :=
  ⟨by decide +kernel, ((stored_sequences_increase LedgerRecord.decode).2.1 deletedAndReopened
    (by decide +kernel)).1⟩

end SolarisMesh.Ledger
