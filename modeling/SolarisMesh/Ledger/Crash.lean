import SolarisMesh.Ledger.Jsonl
import SolarisMesh.Lib.Machine

/-!
# Crashes of the JSONL ledger

Appends, torn writes and reopenings of one file. Whatever happened, the file is the lines of the
records that were written whole and an unfinished tail; a crash cuts it anywhere.
-/

namespace SolarisMesh.Ledger

open List Lib SolarisMesh.Types JsonlRuntimeLedger LedgerRecord Lines

/-! ## A file and its ledger -/

/-- A file whose ledger is open, or cannot be opened. -/
inductive JsonlStore where
  | opened (ledger : JsonlRuntimeLedger)
  | closed (content : Bytes)

/-- Operations of the other ledgers that a JSONL ledger refuses. -/
inductive UnsupportedCall where
  | lease | compareAndAppend | admission | metadataAdmission | leasedAdmission | deleteRun
deriving DecidableEq, Repr

def UnsupportedCall.message : UnsupportedCall → String
  | .lease => "runtime ledger does not support durable Workflow mutation leases"
  | .compareAndAppend => "JSONL runtime ledger does not support atomic logical record append"
  | .admission =>
    "JSONL runtime ledger does not support atomic Run task admission; migrate to SQLite"
  | .metadataAdmission => "runtime ledger does not support atomic task and metadata admission"
  | .leasedAdmission => "runtime ledger does not support fenced atomic task and metadata admission"
  | .deleteRun => "JSONL runtime ledger does not support Run deletion"

inductive JsonlCall where
  | append (call : JsonlAppend)
  | unsupported (call : UnsupportedCall)
  | reopen

inductive JsonlAnswer where
  | appended (answer : IoResult (LedgerRecord Json))
  | refused (error : IoError)
  | reopened (answer : IoResult Unit)
  | notOpen

namespace JsonlStore

def file : JsonlStore → Bytes
  | .opened ledger => ledger.file
  | .closed content => content

/-- The ledger of a new file. -/
def new : JsonlStore := .opened ⟨[], fun _ => none, 0, false⟩

def execute [NumberReader] : JsonlStore → JsonlCall → JsonlStore × JsonlAnswer
  | .opened ledger, .append call =>
    (.opened (ledger.append call).1, .appended (ledger.append call).2)
  | .opened ledger, .unsupported call => (.opened ledger, .refused ⟨.unsupported, call.message⟩)
  | .closed content, .append _ | .closed content, .unsupported _ => (.closed content, .notOpen)
  | store, .reopen =>
    match openFile store.file with
    | .ok ledger => (.opened ledger, .reopened (.ok ()))
    | .error error => (.closed store.file, .reopened (.error error))

/-- The record whose line a call writes whole. -/
def wrote : JsonlStore → JsonlCall → Option (LedgerRecord Json)
  | .opened ledger, .append call =>
    let record := ledger.nextRecord call
    if ledger.poisoned || call.durability = .ephemeral then none
    else
      match call.outcome with
      | .torn bytes _ => if record.encode.length + 1 ≤ bytes then some record else none
      | _ => some record
  | _, _ => none

end JsonlStore

def jsonlMachine [NumberReader] : Machine JsonlStore JsonlCall JsonlAnswer where
  step := JsonlStore.execute

/-- The records that are written whole, in order. -/
def written (steps : List (Machine.Step JsonlStore JsonlCall JsonlAnswer)) :
    List (LedgerRecord Json) :=
  steps.filterMap fun x => x.before.wrote x.event

/-! ## The lines of the file -/

/-- The file holds the lines of the records and an unfinished tail, which only a torn write leaves.
The counter is not behind the records. -/
structure JsonlStore.Holds (store : JsonlStore) (records : List (LedgerRecord Json)) : Prop where
  wf : ∀ record ∈ records, record.payload.wf = true
  bounded : ∀ record ∈ records, record.seq ≤ u64Max
  lines : ∃ tail, newline ∉ tail ∧
    store.file = join newline (records.map encode) ++ tail ∧
    ∀ ledger, store = .opened ledger → ledger.poisoned = false → tail = []
  counter : ∀ ledger, store = .opened ledger → ∀ record ∈ records, record.seq ≤ ledger.nextSequence

lemma JsonlStore.holds_new : JsonlStore.new.Holds [] where
  wf := forall_mem_nil _
  bounded := forall_mem_nil _
  lines := ⟨[], not_mem_nil, rfl, fun _ _ _ => rfl⟩
  counter := fun _ _ _ h => absurd h not_mem_nil

open JsonlStore (execute holds_new new opened wrote)

variable {records : List (LedgerRecord Json)} {ledger : JsonlRuntimeLedger}

lemma le_foldl_observe {loaded : (RunId → Option ℕ) × ℕ} :
    loaded.2 ≤ (records.foldl observe loaded).2 ∧
      ∀ record ∈ records, record.seq ≤ (records.foldl observe loaded).2 := by
  induction records generalizing loaded with
  | nil => exact ⟨le_rfl, forall_mem_nil _⟩
  | cons record records ih =>
    obtain ⟨hloaded, hrecords⟩ := @ih (observe loaded record)
    refine ⟨(le_max_left _ _).trans hloaded, forall_mem_cons.2 ⟨?_, hrecords⟩⟩
    exact (le_max_right _ _).trans hloaded

lemma lt_saturatingAdd {seq next : ℕ} (hle : seq ≤ next) (hlt : seq < u64Max) :
    seq < u64SaturatingAdd next 1 := lt_min hlt (Nat.lt_succ_of_le hle)

/-- A whole line is added to the file of a ledger that is not poisoned. -/
lemma JsonlStore.Holds.add {ledger' : JsonlRuntimeLedger}
    (h : (opened ledger).Holds records) (hopen : ledger.poisoned = false)
    (call : JsonlAppend)
    (hfile : ledger'.file = ledger.file ++ ((ledger.nextRecord call).encode ++ [newline]))
    (hnext : ledger'.nextSequence = (ledger.nextRecord call).seq) :
    (opened ledger').Holds (records ++ [ledger.nextRecord call]) := by
  obtain ⟨tail, -, hlines, htail⟩ := h.lines
  obtain rfl := htail ledger rfl hopen
  have hcounter := h.counter ledger rfl
  refine ⟨?_, ?_, ⟨[], not_mem_nil, ?_, fun _ _ _ => rfl⟩, ?_⟩
  · exact forall_mem_append.2 ⟨h.wf, forall_mem_singleton.2 call.payload.2⟩
  · exact forall_mem_append.2 ⟨h.bounded, forall_mem_singleton.2 (min_le_left _ _)⟩
  · rw [append_nil] at hlines
    rw [map_append, join_append, map_singleton, join_cons, join_nil,
      append_nil, ← hlines]
    exact hfile
  · rintro _ ⟨⟩
    rw [hnext]
    refine forall_mem_append.2 ⟨fun record hrecord => ?_, forall_mem_singleton.2 le_rfl⟩
    exact le_min (h.bounded record hrecord) (Nat.le_succ_of_le (hcounter record hrecord))

lemma JsonlStore.Holds.append (h : (opened ledger).Holds records)
    (call : JsonlAppend) :
    (opened (ledger.append call).1).Holds
      (records ++ (wrote (.opened ledger) (.append call)).toList) := by
  unfold JsonlRuntimeLedger.append wrote
  by_cases hpoisoned : ledger.poisoned = true
  · simpa [hpoisoned] using h
  · have hopen : ledger.poisoned = false := Bool.eq_false_iff.2 hpoisoned
    by_cases hdurable : call.durability = .ephemeral
    · simpa [hpoisoned, hdurable] using h
    · simp only [hopen, Bool.false_eq_true, if_false, hdurable, decide_false, Bool.or_self]
      cases houtcome : call.outcome with
      | complete | unsynced error => exact h.add hopen call rfl rfl
      | torn bytes error =>
        by_cases hwhole : (ledger.nextRecord call).encode.length + 1 ≤ bytes
        · simp only [if_pos hwhole]
          refine h.add hopen call ?_ rfl
          rw [take_of_length_le (by simpa using hwhole)]
        · simp only [if_neg hwhole, Option.toList_none, append_nil]
          rw [take_append_of_le_length (by omega)]
          obtain ⟨tail, -, hlines, htail⟩ := h.lines
          obtain rfl := htail ledger rfl hopen
          rw [append_nil] at hlines
          refine ⟨h.wf, h.bounded, ⟨_, fun hmem => ?_, congrArg (· ++ _) hlines, ?_⟩, ?_⟩
          · exact newline_not_mem_encode call.payload.2 (mem_of_mem_take hmem)
          · rintro _ ⟨⟩ hpoisoned
            cases hpoisoned
          · rintro _ ⟨⟩ record hrecord
            exact le_min (h.bounded record hrecord)
              (Nat.le_succ_of_le (h.counter ledger rfl record hrecord))

lemma JsonlStore.wrote_reopen (store : JsonlStore) : store.wrote .reopen = none := by
  cases store <;> rfl

/-- The ledger that is opened from written lines. -/
def reopenedLedger (records : List (LedgerRecord Json)) : JsonlRuntimeLedger :=
  ⟨join newline (records.map encode),
    (records.foldl observe (fun _ => none, 0)).1, (records.foldl observe (fun _ => none, 0)).2,
      false⟩

/-- A line with its newline. -/
def lineSize (record : LedgerRecord Json) : ℕ := record.encode.length + 1

section Reader

variable [NumberReader]

lemma next_reopen (store : JsonlStore) :
    jsonlMachine.next store .reopen = match openFile store.file with
      | .ok ledger => .opened ledger
      | .error _ => .closed store.file := by
  cases store <;> simp only [Machine.next, jsonlMachine, execute] <;> split <;> rfl

/-- Opening the file drops the tail, or fails and changes nothing. -/
lemma JsonlStore.Holds.reopen {store : JsonlStore} (h : store.Holds records) :
    (jsonlMachine.next store .reopen).Holds records := by
  obtain ⟨tail, htail, hlines, -⟩ := h.lines
  have hopen := openFile_written h.wf htail
  rw [← hlines] at hopen
  rw [next_reopen, hopen]
  by_cases hreadable : ∀ record ∈ records, record.Readable
  · simp only [if_pos hreadable]
    refine ⟨h.wf, h.bounded, ⟨[], not_mem_nil, (append_nil _).symm, fun _ _ _ => rfl⟩, ?_⟩
    rintro _ ⟨⟩
    exact le_foldl_observe.2
  · simp only [if_neg hreadable]
    exact ⟨h.wf, h.bounded, ⟨tail, htail, hlines, fun _ heq => (nomatch heq)⟩,
      fun _ heq => (nomatch heq)⟩

lemma written_concat (steps : List (Machine.Step JsonlStore JsonlCall JsonlAnswer))
    (store : JsonlStore) (call : JsonlCall) :
    written (steps ++ [jsonlMachine.stepAt store call]) =
      written steps ++ (store.wrote call).toList := by
  rw [written, filterMap_append]
  cases hwrote : store.wrote call <;> simp [written, Machine.stepAt, hwrote]

/-- Along every history the file holds the lines that were written whole. -/
lemma holds_written (calls : List JsonlCall) :
    (jsonlMachine.run .new calls).Holds (written (jsonlMachine.trace .new calls)) := by
  refine Machine.history_invariant (P := fun store steps => JsonlStore.Holds store (written steps))
    ?_ holds_new calls
  intro store steps call h
  rw [written_concat]
  cases call with
  | append call =>
    cases store with
    | opened ledger => exact h.append call
    | closed content => exact (append_nil (written steps)).symm ▸ h
  | unsupported call =>
    cases store <;> exact (append_nil (written steps)).symm ▸ h
  | reopen =>
    rw [store.wrote_reopen, Option.toList_none, append_nil]
    exact h.reopen

/-! ## After a crash -/

/-- The file loads as exactly these records and is cut to their lines, and the next append follows
them in sequence and in the file. -/
def Recovers (content : Bytes) (kept : List (LedgerRecord Json)) (next : JsonlAppend) : Prop :=
  ∃ ledger, openFile content = .ok ledger ∧
    ledger.file = join newline (kept.map encode) ∧
    (∀ runId, ledger.recordsForRun runId = .ok (kept.filter (·.runId = runId))) ∧
    ∃ record, (ledger.append next).2 = .ok record ∧ (∀ old ∈ kept, old.seq < record.seq) ∧
      ∃ reopened, openFile (ledger.append next).1.file = .ok reopened ∧
        reopened.file = (ledger.append next).1.file ∧
        ∀ runId, reopened.recordsForRun runId =
          .ok ((kept ++ [record]).filter (·.runId = runId))

omit [NumberReader] in
lemma append_complete {next : JsonlAppend} (hopen : ledger.poisoned = false)
    (hdurable : next.durability ≠ .ephemeral) (hcomplete : next.outcome = .complete) :
    ledger.append next = (ledger.stored (ledger.nextRecord next),
      .ok (ledger.nextRecord next)) := by
  rw [JsonlRuntimeLedger.append, hopen, if_neg Bool.false_ne_true]
  simp only [if_neg hdurable, hcomplete]

lemma openFile_eq_ok (hwf : ∀ record ∈ records, record.payload.wf = true) {tail : Bytes}
    (htail : newline ∉ tail) :
    openFile (join newline (records.map encode) ++ tail) = .ok ledger ↔
      (∀ record ∈ records, record.Readable) ∧ ledger = reopenedLedger records := by
  rw [openFile_written hwf htail]
  by_cases hreadable : ∀ record ∈ records, record.Readable
  · rw [if_pos hreadable, Except.ok.injEq, eq_comm]
    exact (and_iff_right hreadable).symm
  · rw [if_neg hreadable]
    exact ⟨fun h => (nomatch h), fun h => absurd h.1 hreadable⟩

/-- The records of every run are read back exactly if their numbers are. -/
lemma recordsForRun_eq_iff (hwf : ∀ record ∈ records, record.payload.wf = true)
    (hfile : ledger.file = join newline (records.map encode))
    (hreadable : ∀ record ∈ records, record.Readable) :
    (∀ runId, ledger.recordsForRun runId = .ok (records.filter (·.runId = runId))) ↔
      ∀ record ∈ records, record.payload.reread = record.payload := by
  have hread : ∀ runId, ledger.recordsForRun runId =
      .ok ((records.filter (·.runId = runId)).map reread) := fun runId => by
    rw [recordsForRun_written hwf hfile hreadable, filter_map]
    rfl
  have hfixed : ∀ found : List (LedgerRecord Json), found.map reread = found ↔
      ∀ record ∈ found, record.payload.reread = record.payload := fun found => by
    conv_lhs => rw [← map_id found, map_map, map_inj_left]
    refine forall₂_congr fun record _ => ⟨congrArg LedgerRecord.payload, fun h => ?_⟩
    rw [Function.comp_apply, id, reread, h]
  simp only [hread, Except.ok.injEq, hfixed, mem_filter, decide_eq_true_eq]
  exact ⟨fun h record hrecord => h record.runId record ⟨hrecord, rfl⟩,
    fun h _ record hrecord => h record hrecord.1⟩

lemma recovers_written_iff {kept : List (LedgerRecord Json)}
    (hwf : ∀ record ∈ kept, record.payload.wf = true)
    {tail : Bytes} (htail : newline ∉ tail) {next : JsonlAppend}
    (hdurable : next.durability ≠ .ephemeral)
    (hcomplete : next.outcome = .complete) :
    Recovers (join newline (kept.map encode) ++ tail) kept next ↔
      (∀ record ∈ kept,
        record.Readable ∧ record.payload.reread = record.payload ∧ record.seq < u64Max) ∧
        next.payload.1.depth + 1 ≤ maxNesting ∧ next.payload.1.reread = next.payload := by
  have hrecords : ∀ record ∈ kept ++ [(reopenedLedger kept).nextRecord next],
      record.payload.wf = true :=
    forall_mem_append.2 ⟨hwf, forall_mem_singleton.2 next.payload.2⟩
  have hfile : ((reopenedLedger kept).stored ((reopenedLedger kept).nextRecord next)).file =
      join newline
        ((kept ++ [(reopenedLedger kept).nextRecord next]).map encode) ++ [] := by
    rw [append_nil, map_append, join_append, map_singleton, join_cons,
      join_nil]
    rfl
  constructor
  · rintro ⟨ledger, hopen, -, -, record, hrecord, hgreater, reopened, hreopen, -, hread⟩
    obtain ⟨hreadable, rfl⟩ := (openFile_eq_ok hwf htail).1 hopen
    rw [append_complete rfl hdurable hcomplete] at hrecord hreopen
    cases hrecord
    rw [hfile, openFile_eq_ok hrecords not_mem_nil] at hreopen
    obtain ⟨hall, rfl⟩ := hreopen
    have hexact := (recordsForRun_eq_iff hrecords rfl hall).1 hread
    have hlast := mem_append_right kept (mem_singleton_self ((reopenedLedger kept).nextRecord next))
    refine ⟨fun old hold => ⟨hreadable old hold, hexact old (mem_append_left _ hold),
      (hgreater old hold).trans_le (min_le_left _ _)⟩, hall _ hlast, hexact _ hlast⟩
  · rintro ⟨hkept, hnext, hnumbers⟩
    have hreadable : ∀ record ∈ kept, record.Readable := fun record hrecord =>
      (hkept record hrecord).1
    have hexact : ∀ record ∈ kept, record.payload.reread = record.payload := fun record hrecord =>
      (hkept record hrecord).2.1
    have hall : ∀ record ∈ kept ++ [(reopenedLedger kept).nextRecord next], record.Readable :=
      forall_mem_append.2 ⟨hreadable, forall_mem_singleton.2 hnext⟩
    refine ⟨reopenedLedger kept, (openFile_eq_ok hwf htail).2 ⟨hreadable, rfl⟩, rfl,
      (recordsForRun_eq_iff hwf rfl hreadable).2 hexact, (reopenedLedger kept).nextRecord next, ?_,
        ?_,
      reopenedLedger (kept ++ [(reopenedLedger kept).nextRecord next]), ?_, ?_, ?_⟩
    · rw [append_complete rfl hdurable hcomplete]
    · intro old hold
      exact lt_saturatingAdd (le_foldl_observe.2 old hold) (hkept old hold).2.2
    · rw [append_complete rfl hdurable hcomplete, hfile]
      exact (openFile_eq_ok hrecords not_mem_nil).2 ⟨hall, rfl⟩
    · rw [append_complete rfl hdurable hcomplete, hfile, append_nil]
      rfl
    · exact (recordsForRun_eq_iff hrecords rfl hall).2
        (forall_mem_append.2 ⟨hexact, forall_mem_singleton.2 hnumbers⟩)

/-- After any appends and reopenings and a cut anywhere, the file recovers the records whose line is
whole before the cut exactly when each of them and the next one can be read back, with the numbers
that were written, and the counter is not at its end. -/
theorem recovers_cut_iff (calls : List JsonlCall) (cut : ℕ) {next : JsonlAppend}
    (hdurable : next.durability ≠ .ephemeral) (hcomplete : next.outcome = .complete) :
    Recovers ((jsonlMachine.run .new calls).file.take cut)
        (whole lineSize cut (written (jsonlMachine.trace .new calls))) next ↔
      (∀ record ∈ whole lineSize cut (written (jsonlMachine.trace .new calls)),
        record.Readable ∧ record.payload.reread = record.payload ∧ record.seq < u64Max) ∧
      next.payload.1.depth + 1 ≤ maxNesting ∧ next.payload.1.reread = next.payload := by
  have h := holds_written calls
  obtain ⟨tail, htail, hlines, -⟩ := h.lines
  have hnewline : ∀ record ∈ written (jsonlMachine.trace .new calls),
      newline ∉ encode record := fun record hrecord =>
    newline_not_mem_encode (h.wf record hrecord)
  obtain ⟨torn, htorn, hcut⟩ := take_join_append hnewline htail cut
  rw [hlines, hcut]
  exact recovers_written_iff
    (fun record hrecord => h.wf record (whole_isInitial.subset hrecord)) htorn hdurable hcomplete

end Reader

/-- A durable append to one run. -/
def plainAppend (payload : JsonValue) : JsonlAppend :=
  ⟨"r", .syncCritical, "event", payload, 0, .complete⟩

/-- 127 arrays: the record around them is one level too many. -/
def deepPayload : JsonValue := ⟨nested 126, by decide +kernel⟩

attribute [local instance] NumberReader.rounded

def roundedPayload : JsonValue :=
  ⟨.object [("x", .number "51.248178375505404")], by decide +kernel⟩

/-- The append succeeds and its whole line is in the file, which can never be opened again; or the
record is read with another number. -/
theorem deep_payload_locks_file :
    ((jsonlMachine.trace .new [.append (plainAppend deepPayload)]).map fun x =>
        match x.answer with
        | .appended answer => answer.isOk
        | _ => false) = [true] ∧
      (openFile (jsonlMachine.run .new [.append (plainAppend deepPayload)]).file).isOk = false ∧
      ((openFile (jsonlMachine.run .new [.append (plainAppend roundedPayload)]).file).bind
        fun ledger => (ledger.recordsForRun "r").map fun records => records.map (·.payload)) =
          .ok [.object [("x", .number "51.24817837550541")]] := by
  decide +kernel

/-- Two records, cut inside the second line. -/
theorem cut_inside_second_line : ∃ kept, kept.length = 1 ∧
    Recovers ((jsonlMachine.run .new [.append (plainAppend ⟨.null, rfl⟩),
      .append (plainAppend ⟨.string "ü\n", rfl⟩)]).file.take 200) kept
      (plainAppend ⟨.bool true, rfl⟩) :=
  ⟨_, by decide +kernel, (recovers_cut_iff _ 200 (by decide) rfl).2
    ⟨by decide +kernel, by decide +kernel, by decide +kernel⟩⟩

end SolarisMesh.Ledger
