import SolarisMesh.Ledger.Payload
import SolarisMesh.Lib.JsonCut
import SolarisMesh.Lib.Lines
import SolarisMesh.Lib.Utf8

/-!
# The JSONL ledger

One file, a line of JSON for each record. A write can tear off anywhere; opening the file drops an
unfinished last line and reads all others.
-/

namespace SolarisMesh.Types

def DurabilityClass.asStr : DurabilityClass → String
  | .syncCritical => "sync_critical"
  | .asyncDurable => "async_durable"
  | .ephemeral => "ephemeral"

def DurabilityClass.all : List DurabilityClass := [.syncCritical, .asyncDurable, .ephemeral]

end SolarisMesh.Types

namespace SolarisMesh.Ledger

open Lib SolarisMesh.Types

def newline : UInt8 := 10

/-! ## Records as lines -/

namespace LedgerRecord

variable (record : LedgerRecord Json)

def toJson : Json :=
  .object [("schema_version", .ofNat record.schemaVersion), ("seq", .ofNat record.seq),
    ("run_id", .string record.runId), ("timestamp_unix_ms", .ofInt record.timestampUnixMs),
    ("durability", .string record.durability.asStr), ("record_type", .string record.recordType),
    ("payload", record.payload)]

def fields : List String :=
  ["schema_version", "seq", "run_id", "timestamp_unix_ms", "durability", "record_type", "payload"]

def ofFields (get : String → Option Json) : Option (LedgerRecord Json) := do
  let schemaVersion ← required Json.asU64 (get "schema_version")
  let seq ← required Json.asU64 (get "seq")
  let runId ← required Json.asStr (get "run_id")
  let timestampUnixMs ← required Json.asI64 (get "timestamp_unix_ms")
  let durability ← required (variant DurabilityClass.all DurabilityClass.asStr) (get "durability")
  let recordType ← required Json.asStr (get "record_type")
  let payload ← get "payload"
  return { schemaVersion, seq, runId, timestampUnixMs, durability, recordType, payload }

def ofJson (value : Json) : Option (LedgerRecord Json) := (asFields fields value).bind ofFields

def line : List Char := record.toJson.text

/-- The record with the numbers of its payload read again. -/
def reread [NumberReader] (record : LedgerRecord Json) : LedgerRecord Json :=
  { record with payload := record.payload.reread }

def ofLine [NumberReader] (line : List Char) : Option (LedgerRecord Json) :=
  ((Json.read maxNesting line).bind ofJson).map reread

def encode (record : LedgerRecord Json) : Bytes := Utf8.encode record.line

def decode [NumberReader] (line : Bytes) : Option (LedgerRecord Json) :=
    (Utf8.decode line).bind ofLine

/-- The record is an object around its payload. -/
def Readable (record : LedgerRecord Json) : Prop := record.payload.depth + 1 ≤ maxNesting

instance : DecidablePred Readable := fun _ => inferInstanceAs (Decidable (_ ≤ maxNesting))

@[simp] lemma ofJson_toJson : ofJson record.toJson = some record := by
  have hdurability : variant DurabilityClass.all DurabilityClass.asStr
      (.string record.durability.asStr) = some record.durability := by
    cases record.durability <;> decide
  rw [ofJson, toJson, asFields, Option.bind_some, ofFields]
  simp [List.lookup_cons, required, Json.asStr, hdurability]

variable {record : LedgerRecord Json}

lemma wf_toJson (hwf : record.payload.wf = true) : record.toJson.wf = true := by
  rw [toJson, Json.wf, Json.wfMembers_eq]
  simp [hwf, Json.wf]

lemma depth_toJson : record.toJson.depth = record.payload.depth + 1 := by
  have hint : ∀ i, Json.depth (.ofInt i) = 0 := by rintro (n | n) <;> rfl
  simp [toJson, Json.depth, Json.depthMembers, Json.depthMember, hint, Json.ofNat]

lemma ofLine_line [NumberReader] (hwf : record.payload.wf = true) :
    ofLine record.line = if record.Readable then some record.reread else none := by
  rw [ofLine, line, Json.read_text (wf_toJson hwf), depth_toJson]
  by_cases h : record.Readable
  · rw [if_pos h, if_pos (show record.payload.depth + 1 ≤ maxNesting from h)]
    exact congrArg (Option.map reread) (ofJson_toJson record)
  · rw [if_neg h, if_neg (show ¬record.payload.depth + 1 ≤ maxNesting from h)]
    rfl

lemma decode_encode [NumberReader] (hwf : record.payload.wf = true) :
    decode (encode record) = if record.Readable then some record.reread else none := by
  rw [decode, encode, Utf8.decode_encode, Option.bind_some, ofLine_line hwf]

lemma brace_mem_line : '\x7b' ∈ record.line := List.mem_cons_self

/-- A record is written without a newline. -/
lemma newline_not_mem_line (hwf : record.payload.wf = true) : '\n' ∉ record.line := fun hmem =>
  absurd (Json.printable_text (wf_toJson hwf) hmem) (by decide)

lemma newline_not_mem_encode (hwf : record.payload.wf = true) :
    newline ∉ record.encode := fun hmem => by
  obtain ⟨c, hc, hmem⟩ := List.mem_flatMap.1 hmem
  obtain rfl := Utf8.mem_encodeChar (by decide) hmem
  exact newline_not_mem_line hwf hc

end LedgerRecord

open LedgerRecord (encode reread)

/-! ## The ledger and its file -/

/-- A JSON value as the program holds it. -/
abbrev JsonValue := { value : Json // value.wf = true }

/-- How the write of a line ends: whole, torn off after some bytes, or whole without being
synced. -/
inductive WriteOutcome where
  | complete
  | torn (bytes : ℕ) (error : IoError)
  | unsynced (error : IoError)
deriving DecidableEq, Repr

structure JsonlAppend where
  runId : RunId
  durability : DurabilityClass
  recordType : String
  payload : JsonValue
  now : ℤ
  outcome : WriteOutcome

/-- An open ledger. -/
structure JsonlRuntimeLedger where
  file : Bytes
  sequences : RunId → Option ℕ
  nextSequence : ℕ
  poisoned : Bool

/-- The reader's message is left out. -/
def serdeError : IoError := otherError "serde_json"

def isAsciiWhitespace (b : UInt8) : Bool := b == 32 || b == 9 || b == 10 || b == 12 || b == 13

namespace JsonlRuntimeLedger

/-- The sequences that are known after another record. -/
def observe (loaded : (RunId → Option ℕ) × ℕ) (record : LedgerRecord Json) :
    (RunId → Option ℕ) × ℕ :=
  let sequence := ((loaded.1 record.runId).map (max · record.seq)).getD record.seq
  (Function.update loaded.1 record.runId (some sequence), max loaded.2 record.seq)

def loadLine [NumberReader] (loaded : (RunId → Option ℕ) × ℕ) (line : Bytes) :
    IoResult ((RunId → Option ℕ) × ℕ) :=
  if line.all isAsciiWhitespace then .ok loaded
  else do
    let record ← orElseThrow serdeError (LedgerRecord.decode line)
    return observe loaded record

/-- What follows the last newline is cut off the file. -/
def openFile [NumberReader] (content : Bytes) : IoResult JsonlRuntimeLedger := do
  let lines := (Lines.split newline content).1
  let (sequences, nextSequence) ← lines.foldlM loadLine (fun _ => none, 0)
  return { file := Lines.join newline lines, sequences, nextSequence, poisoned := false }

variable (ledger : JsonlRuntimeLedger)

def nextRecord (call : JsonlAppend) : LedgerRecord Json :=
  { schemaVersion := ledgerSchemaVersion
    seq := u64SaturatingAdd ledger.nextSequence 1
    runId := call.runId
    timestampUnixMs := call.now
    durability := call.durability
    recordType := call.recordType
    payload := call.payload }

/-- The line is in the file. -/
def stored (record : LedgerRecord Json) : JsonlRuntimeLedger :=
  { ledger with
    file := ledger.file ++ (record.encode ++ [newline])
    sequences := Function.update ledger.sequences record.runId (some record.seq)
    nextSequence := record.seq }

def append (call : JsonlAppend) : JsonlRuntimeLedger × IoResult (LedgerRecord Json) :=
  if ledger.poisoned then
    (ledger, .error (otherError "runtime ledger writer is unavailable after a partial write"))
  else
    let record := ledger.nextRecord call
    if call.durability = .ephemeral then (ledger, .ok record)
    else
      match call.outcome with
      | .complete => (ledger.stored record, .ok record)
      | .torn bytes error =>
        ({ ledger with
           file := ledger.file ++ (record.encode ++ [newline]).take bytes
           nextSequence := record.seq
           poisoned := true }, .error error)
      | .unsynced error =>
        (ledger.stored record,
          if call.durability = .syncCritical then .error error else .ok record)

/-- `str::lines`: a carriage return before the newline belongs to it. -/
def textLines (text : List Char) : List (List Char) :=
  let (lines, tail) := Lines.split '\n' text
  lines.map (fun line => if line.getLast? = some '\r' then line.dropLast else line) ++
    if tail = [] then [] else [tail]

def recordsForRun [NumberReader] (runId : RunId) : IoResult (List (LedgerRecord Json)) := do
  let text ← orElseThrow ⟨.invalidData, "stream did not contain valid UTF-8"⟩
    (Utf8.decode ledger.file)
  let records ← ((textLines text).filter fun line => !line.all isWhitespace).mapM fun line =>
    orElseThrow serdeError (LedgerRecord.ofLine line)
  return records.filter (·.runId = runId)

def lastSequence (runId : RunId) : ℕ :=
  (ledger.sequences runId).getD 0

/-! ## What is read of written lines -/

lemma loadLine_encode [NumberReader] {record : LedgerRecord Json} (hwf : record.payload.wf = true)
    (loaded : (RunId → Option ℕ) × ℕ) :
    loadLine loaded record.encode =
      if record.Readable then .ok (observe loaded record) else .error serdeError := by
  have hbrace : (123 : UInt8) ∈ record.encode :=
    List.mem_flatMap.2 ⟨'\x7b', record.brace_mem_line, by decide⟩
  have hblank : ¬record.encode.all isAsciiWhitespace = true := fun h =>
    absurd (List.all_eq_true.1 h _ hbrace) (by decide)
  rw [loadLine, if_neg hblank, LedgerRecord.decode_encode hwf]
  split_ifs <;> rfl

/-- The lines as one text. -/
lemma join_encode (records : List (LedgerRecord Json)) :
    Lines.join newline (records.map encode) =
      Utf8.encode (Lines.join '\n' (records.map LedgerRecord.line)) := by
  induction records with
  | nil => rfl
  | cons record records ih =>
    rw [List.map_cons, List.map_cons, Lines.join_cons, Lines.join_cons, ih, Utf8.encode_append]
    rfl

section Written

variable {records : List (LedgerRecord Json)} (hwf : ∀ record ∈ records, record.payload.wf = true)
include hwf

/-- The written lines load exactly when all of them can be read. -/
lemma foldlM_loadLine [NumberReader] (loaded : (RunId → Option ℕ) × ℕ) :
    (records.map encode).foldlM loadLine loaded =
      if ∀ record ∈ records, record.Readable then .ok (records.foldl observe loaded)
      else .error serdeError := by
  induction records generalizing loaded with
  | nil => simp [pure, Except.pure]
  | cons record records ih =>
    obtain ⟨hrecord, hrecords⟩ := List.forall_mem_cons.1 hwf
    rw [List.map_cons, List.foldlM_cons, loadLine_encode hrecord]
    by_cases h : record.Readable
    · rw [if_pos h]
      show (records.map encode).foldlM loadLine (observe loaded record) = _
      rw [ih hrecords]
      simp [h]
    · rw [if_neg h]
      simp [h, bind, Except.bind]

lemma openFile_written [NumberReader] {tail : Bytes} (htail : newline ∉ tail) :
    openFile (Lines.join newline (records.map encode) ++ tail) =
      if ∀ record ∈ records, record.Readable then
        .ok ⟨Lines.join newline (records.map encode),
          (records.foldl observe (fun _ => none, 0)).1,
            (records.foldl observe (fun _ => none, 0)).2,
          false⟩
      else .error serdeError := by
  have hlines : ∀ line ∈ records.map encode, newline ∉ line := fun line hline => by
    obtain ⟨record, hrecord, rfl⟩ := List.mem_map.1 hline
    exact LedgerRecord.newline_not_mem_encode (hwf record hrecord)
  rw [openFile, Lines.split_join hlines htail, foldlM_loadLine hwf]
  split_ifs <;> rfl

lemma textLines_written {tail : List Char} (htail : '\n' ∉ tail) :
    textLines (Lines.join '\n' (records.map LedgerRecord.line) ++ tail) =
      records.map LedgerRecord.line ++ if tail = [] then [] else [tail] := by
  have hlines : ∀ line ∈ records.map LedgerRecord.line, '\n' ∉ line := fun line hline => by
    obtain ⟨record, hrecord, rfl⟩ := List.mem_map.1 hline
    exact LedgerRecord.newline_not_mem_line (hwf record hrecord)
  rw [textLines, Lines.split_join hlines htail]
  simp only [List.map_map]
  refine congrArg (· ++ _) (List.map_congr_left fun record hrecord => if_neg fun hlast => ?_)
  exact absurd (Json.printable_text (LedgerRecord.wf_toJson (hwf record hrecord))
    (List.mem_of_getLast? hlast)) (by decide)

/-- All records of a run are read from a file of written lines. -/
lemma recordsForRun_written [NumberReader] {ledger : JsonlRuntimeLedger}
    (hfile : ledger.file = Lines.join newline (records.map encode))
    (hreadable : ∀ record ∈ records, record.Readable) (runId : RunId) :
    ledger.recordsForRun runId = .ok ((records.map reread).filter (·.runId = runId)) := by
  have hfilter : (records.map LedgerRecord.line).filter (fun line => !line.all isWhitespace) =
      records.map LedgerRecord.line := List.filter_eq_self.2 fun line hline => by
    obtain ⟨record, -, rfl⟩ := List.mem_map.1 hline
    rw [Bool.not_eq_true', Bool.eq_false_iff]
    exact fun h => absurd (List.all_eq_true.1 h _ record.brace_mem_line) (by decide)
  have hread : (records.map LedgerRecord.line).mapM
      (fun line => orElseThrow serdeError (LedgerRecord.ofLine line)) =
        .ok (records.map reread) := by
    rw [mapM_eq_ok, List.forall₂_map_left_iff, List.forall₂_map_right_iff, List.forall₂_same]
    intro record hrecord
    rw [LedgerRecord.ofLine_line (hwf record hrecord), if_pos (hreadable record hrecord)]
    rfl
  have htext := textLines_written hwf (List.not_mem_nil (a := '\n'))
  rw [if_pos rfl, List.append_nil, List.append_nil] at htext
  rw [recordsForRun, hfile, join_encode, Utf8.decode_encode, orElseThrow]
  simp only [bind, Except.bind, htext, hfilter, hread, pure, Except.pure]

/-- Behind written lines a torn line is read as its own record, if only its newline is missing, or
the file is not read at all. -/
lemma mem_of_recordsForRun [NumberReader] {ledger : JsonlRuntimeLedger} {torn : LedgerRecord Json}
    (htorn : torn.payload.wf = true) {tail more : Bytes} (htail : torn.encode = tail ++ more)
    (hfile : ledger.file = Lines.join newline (records.map encode) ++ tail)
    {runId : RunId} {read : List (LedgerRecord Json)}
      (hread : ledger.recordsForRun runId = .ok read) :
    ∀ record ∈ read, record ∈ records.map reread ∨ record = torn.reread := by
  simp only [recordsForRun, bind_eq_ok, orElseThrow_eq_ok, pure_eq_ok, hfile, join_encode,
    Utf8.decode_encode_append, Option.map_eq_some_iff] at hread
  obtain ⟨_, ⟨rest, hrest, rfl⟩, found, hfound, rfl⟩ := hread
  obtain ⟨cut, hline, -⟩ := Utf8.decode_initial htail hrest
  have hnewline : '\n' ∉ rest := fun hmem =>
    LedgerRecord.newline_not_mem_line htorn (hline ▸ List.mem_append_left _ hmem)
  rw [textLines_written hwf hnewline, mapM_orElseThrow] at hfound
  generalize hlast : (if rest = [] then [] else [rest]) = last at hfound
  split_ifs at hfound
  cases hfound
  intro record hrecord
  obtain ⟨line, hmem, hdecode⟩ := List.mem_filterMap.1 (List.mem_filter.1 hrecord).1
  rcases List.mem_append.1 (List.mem_filter.1 hmem).1 with hmem | hmem
  · obtain ⟨written, hwritten, rfl⟩ := List.mem_map.1 hmem
    rw [LedgerRecord.ofLine_line (hwf written hwritten)] at hdecode
    split_ifs at hdecode
    exact .inl (Option.some.inj hdecode ▸ List.mem_map_of_mem hwritten)
  · rw [← hlast] at hmem
    split_ifs at hmem with hempty
    · cases hmem
    · obtain rfl := List.mem_singleton.1 hmem
      obtain ⟨raw, hraw, -⟩ := Option.map_eq_some_iff.1 hdecode
      obtain ⟨value, hvalue, -⟩ := Option.bind_eq_some_iff.1 hraw
      obtain rfl := Json.eq_of_read_initial (LedgerRecord.wf_toJson htorn) hline hvalue
      rw [List.append_nil] at hline
      rw [← hline, LedgerRecord.ofLine_line htorn] at hdecode
      split_ifs at hdecode
      exact .inr (Option.some.inj hdecode).symm

end Written

end JsonlRuntimeLedger

end SolarisMesh.Ledger
