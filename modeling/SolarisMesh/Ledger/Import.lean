import SolarisMesh.Ledger.Calls
import SolarisMesh.Ledger.Jsonl

/-!
# Importing a JSONL ledger into SQLite

An import reads a source file buffer by buffer inside one transaction and remembers every stored
line by its place and bytes, so that it can be repeated while the file grows. Digests stand for
what they are computed from.
-/

namespace SolarisMesh.Ledger

open Lib

/-- `JSONL_RECORD_MAX_BYTES`. -/
def jsonlRecordMaxBytes : ℕ := 8 * 1024 * 1024

/-- The key of a row of `runtime_ledger_imports`: the current kind and two older ones. -/
inductive Fingerprint (V : Type) where
  | rawLineOffset (sourceDigest : Bytes) (offset : ℕ) (rawLine : Bytes)
  | legacyRawLine (rawLine : Bytes)
  | legacyRecord (record : LedgerRecord V)
deriving DecidableEq

/-- The SQLite ledger with its import tables. -/
structure ImportLedger (V : Type) where
  ledger : LedgerState V
  imports : List (Fingerprint V × ℕ)
  /-- Content digest and length of a completed source. -/
  sources : Bytes → Option (Bytes × ℕ)

namespace ImportLedger

variable {V : Type} [DecidableEq V] (decode : Bytes → Option (LedgerRecord V))

def empty (V : Type) : ImportLedger V := ⟨.empty V, [], fun _ => none⟩

variable (state : ImportLedger V) (fingerprint : Fingerprint V)

/-- The record under a new sequence. -/
def insertImported (record : LedgerRecord V) (sequence : ℕ) : ImportLedger V :=
  { state with
    ledger := { state.ledger with
      records := state.ledger.records ++ [{ record with seq := sequence }]
      nextSequence := sequence } }

def importedSequence : Option ℕ :=
  (state.imports.find? (·.1 = fingerprint)).map (·.2)

def recordImportFingerprint (sequence : ℕ) : ImportLedger V :=
  { state with imports := state.imports ++ [(fingerprint, sequence)] }

/-- Whether a record was stored. -/
def importCompleteJsonlLine (sourceDigest : Bytes) (lineOffset lineNumber : ℕ) (rawLine : Bytes) :
    IoResult (ImportLedger V × Bool) := do
  let record ← orElseThrow ⟨.invalidData,
    s!"legacy runtime ledger has an invalid complete record at line {lineNumber}"⟩ (decode rawLine)
  if record.durability = .ephemeral then return (state, false)
  let rawFingerprint := Fingerprint.rawLineOffset sourceDigest lineOffset rawLine
  if (state.importedSequence rawFingerprint).isSome then return (state, false)
  match state.importedSequence (.legacyRawLine rawLine) with
  | some sequence => return (state.recordImportFingerprint rawFingerprint sequence, false)
  | none =>
    match state.importedSequence (.legacyRecord record) with
    | some sequence => return (state.recordImportFingerprint rawFingerprint sequence, false)
    | none =>
      let sequence ← allocateSqliteSequence state.ledger.nextSequence
      return ((state.insertImported record sequence).recordImportFingerprint rawFingerprint
        sequence, true)

end ImportLedger

/-- The variables of the loop over the buffers. -/
structure ImportScan (V : Type) where
  state : ImportLedger V
  contentLength : ℕ
  lineNumber : ℕ
  lineOffset : ℕ
  line : Bytes
  discardOversizedLine : Bool
  imported : ℕ

namespace ImportScan

variable {V : Type} [DecidableEq V] (decode : Bytes → Option (LedgerRecord V))

def start (state : ImportLedger V) : ImportScan V := ⟨state, 0, 0, 0, [], false, 0⟩

variable (scan : ImportScan V) (sourceDigest : Bytes)

/-- More bytes of the current line, of which so many are consumed. -/
def extend (bytes : Bytes) (consumed : ℕ) : ImportScan V :=
  let scan := { scan with contentLength := scan.contentLength + consumed }
  if scan.discardOversizedLine then scan
  else if scan.line.length + bytes.length > jsonlRecordMaxBytes then
    { scan with discardOversizedLine := true, line := [] }
  else { scan with line := scan.line ++ bytes }

/-- The line may be imported: it is a record. -/
def importLine : IoResult (ImportScan V) := do
  let (state, stored) ← scan.state.importCompleteJsonlLine decode sourceDigest scan.lineOffset
    scan.lineNumber scan.line
  return { scan with state, imported := if stored then scan.imported + 1 else scan.imported }

/-- The newline of the current line. -/
def finishLine : IoResult (ImportScan V) := do
  let scan := { scan with lineNumber := scan.lineNumber + 1 }
  require (!scan.discardOversizedLine)
    ⟨.invalidData, "legacy runtime ledger complete record exceeds the size limit"⟩
  let scan ←
    if scan.line.all isAsciiWhitespace then pure scan else scan.importLine decode sourceDigest
  return { scan with line := [], lineOffset := scan.contentLength }

/-- The rest of a line with its newline. -/
def readLine (sourceDigest : Bytes) (scan : ImportScan V) (line : Bytes) :
    IoResult (ImportScan V) :=
  (scan.extend line (line.length + 1)).finishLine decode sourceDigest

/-- The rest of a buffer without a newline. -/
def readTail (tail : Bytes) : ImportScan V :=
  if tail = [] then scan else scan.extend tail tail.length

/-- One buffer: the loop takes the bytes up to the next newline, or all that are left. -/
def readBuffer (sourceDigest : Bytes) (scan : ImportScan V) (buffer : Bytes) :
    IoResult (ImportScan V) := do
  let (lines, tail) := Lines.split newline buffer
  let scan ← lines.foldlM (readLine decode sourceDigest) scan
  return scan.readTail tail

/-- A last line without a newline is imported if it is a record. -/
def finishTail : IoResult (ImportScan V) :=
  if scan.discardOversizedLine || scan.line.all isAsciiWhitespace || (decode scan.line).isNone then
    .ok scan
  else ({ scan with lineNumber := scan.lineNumber + 1 } : ImportScan V).importLine decode
    sourceDigest

end ImportScan

/-- An import: the buffers the source is read in, and whether it is still the same file at the
end. -/
structure ImportCall where
  buffers : List Bytes
  unchanged : Bool

/-- What is read. -/
def ImportCall.content (call : ImportCall) : Bytes := call.buffers.flatten

namespace ImportLedger

variable {V : Type} [DecidableEq V] (decode : Bytes → Option (LedgerRecord V))

variable (state : ImportLedger V) (sourceDigest : Bytes)

/-- The row of a completed source. -/
def recordSource (contentDigest : Bytes) (contentLength : ℕ) : ImportLedger V :=
  { state with
    sources := Function.update state.sources sourceDigest (some (contentDigest, contentLength)) }

def importJsonlReader (call : ImportCall) (skipCompletedSource : Bool) :
    IoResult (ImportLedger V × ℕ) := do
  if skipCompletedSource && (state.sources sourceDigest).isSome then return (state, 0)
  let scan ← call.buffers.foldlM (ImportScan.readBuffer decode sourceDigest) (.start state)
  let scan ← scan.finishTail decode sourceDigest
  require call.unchanged (otherError "legacy runtime ledger source changed during import")
  require (scan.contentLength ≤ i64Max)
    ⟨.invalidData, "legacy runtime ledger source is too large"⟩
  return (scan.state.recordSource sourceDigest call.content scan.contentLength, scan.imported)

/-- An error rolls the transaction back. -/
def importJsonl (call : ImportCall) : ImportLedger V × IoResult ℕ :=
  match importJsonlReader decode state sourceDigest call false with
  | .ok (imported, count) => (imported, .ok count)
  | .error error => (state, .error error)

end ImportLedger

/-- Imports of one source, one after the other. -/
def importMachine {V : Type} [DecidableEq V] (decode : Bytes → Option (LedgerRecord V))
    (sourceDigest : Bytes) : Machine (ImportLedger V) ImportCall (IoResult ℕ) where
  step state call := state.importJsonl decode sourceDigest call

end SolarisMesh.Ledger
