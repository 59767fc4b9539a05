import SolarisMesh.Ledger.Import

/-!
# Repeated imports of a growing source

What is imported does not depend on the buffers. Every record line of a source is stored once under
its place and bytes, so a line is stored again exactly if it was imported before its newline was
written and then went on.
-/

namespace SolarisMesh.Ledger

open List Lib Lines

variable {V : Type} [DecidableEq V] {decode : Bytes → Option (LedgerRecord V)}
  {sourceDigest : Bytes}

/-! ## Buffers -/

namespace ImportScan

variable (scan : ImportScan V) (tail : Bytes)

omit [DecidableEq V] in
lemma extend_extend (left right : Bytes) (n m : ℕ) :
    (scan.extend left n).extend right m = scan.extend (left ++ right) (n + m) := by
  unfold extend
  by_cases hdiscard : scan.discardOversizedLine = true
  · simp [hdiscard, Nat.add_assoc]
  · by_cases hleft : scan.line.length + left.length > jsonlRecordMaxBytes
    · have hboth : jsonlRecordMaxBytes < scan.line.length + (left.length + right.length) := by omega
      simp [hdiscard, hleft, hboth, Nat.add_assoc]
    · simp [hdiscard, hleft, Nat.add_assoc]

omit [DecidableEq V] in
lemma readTail_extend (more : Bytes) (n : ℕ) :
    (scan.readTail tail).extend more n = scan.extend (tail ++ more) (tail.length + n) := by
  unfold readTail
  split_ifs with htail
  · rw [htail, nil_append, length_nil, Nat.zero_add]
  · rw [extend_extend]

omit [DecidableEq V] in
lemma readTail_readTail (more : Bytes) :
    (scan.readTail tail).readTail more = scan.readTail (tail ++ more) := by
  by_cases hmore : more = []
  · rw [hmore, append_nil]
    rfl
  · rw [readTail, if_neg hmore, readTail_extend, readTail, if_neg (by simp [hmore]),
      length_append]

/-- Two buffers are read as one. -/
lemma readBuffer_append (left right : Bytes) :
    readBuffer decode sourceDigest scan (left ++ right) =
      (readBuffer decode sourceDigest scan left).bind fun scan =>
        readBuffer decode sourceDigest scan right := by
  unfold readBuffer
  rcases not_mem_or_eq_append newline right with hright | ⟨line, rest, hline, rfl⟩
  · rw [split_append_tail left hright, split_of_not_mem hright]
    simp only [bind, foldlM_nil]
    cases (split newline left).1.foldlM (readLine decode sourceDigest) scan with
    | error error => rfl
    | ok scan => exact congrArg Except.ok (readTail_readTail scan _ right).symm
  · rw [split_append_line left rest hline, split_cons_line hline]
    simp only [bind, foldlM_append, foldlM_cons]
    cases (split newline left).1.foldlM (readLine decode sourceDigest) scan with
    | error error => rfl
    | ok scan =>
      simp only [Except.bind, pure, Except.pure, readLine, readTail_extend, length_append,
        Nat.add_assoc]

lemma foldlM_readBuffer (buffers : List Bytes) :
    buffers.foldlM (readBuffer decode sourceDigest) scan =
      readBuffer decode sourceDigest scan buffers.flatten := by
  induction buffers generalizing scan with
  | nil => rfl
  | cons buffer buffers ih =>
    rw [foldlM_cons, flatten_cons, readBuffer_append]
    exact congrArg (Except.bind _) (funext ih)

/-! ## Lines -/

/-- Between two lines. -/
structure AtLineStart (scan : ImportScan V) : Prop where
  line : scan.line = []
  discard : scan.discardOversizedLine = false
  offset : scan.lineOffset = scan.contentLength

omit [DecidableEq V] in
lemma AtLineStart.exists_eq {scan : ImportScan V} (h : scan.AtLineStart) :
    ∃ state offset number imported, scan = ⟨state, offset, number, offset, [], false,
      imported⟩ := by
  cases scan with
  | mk state contentLength number offset line discard imported =>
    cases h with
    | mk hline hdiscard hoffset =>
      cases hline
      cases hdiscard
      cases hoffset
      exact ⟨state, contentLength, number, imported, rfl⟩

/-- The scan after a line. -/
def advance (line : Bytes) (state : ImportLedger V) (imported : ℕ) : ImportScan V :=
  ⟨state, scan.contentLength + (line.length + 1), scan.lineNumber + 1,
    scan.contentLength + (line.length + 1), [], false, imported⟩

omit [DecidableEq V] in
lemma atLineStart_advance (line : Bytes) (state : ImportLedger V) (imported : ℕ) :
    (scan.advance line state imported).AtLineStart := ⟨rfl, rfl, rfl⟩

omit [DecidableEq V] in
lemma extend_start (state : ImportLedger V) (contentLength lineNumber lineOffset imported : ℕ)
    (line : Bytes) (n : ℕ) :
    extend ⟨state, contentLength, lineNumber, lineOffset, [], false, imported⟩ line n =
      if line.length ≤ jsonlRecordMaxBytes then
        ⟨state, contentLength + n, lineNumber, lineOffset, line, false, imported⟩
      else ⟨state, contentLength + n, lineNumber, lineOffset, [], true, imported⟩ := by
  by_cases hlength : line.length ≤ jsonlRecordMaxBytes
  · rw [if_pos hlength]
    simp [extend, Nat.not_lt.2 hlength]
  · rw [if_neg hlength]
    simp [extend, Nat.lt_of_not_le hlength]

end ImportScan

/-! ## One record line -/

variable {state : ImportLedger V}

namespace ImportLedger

lemma importedSequence_isSome {fingerprint : Fingerprint V} :
    (state.importedSequence fingerprint).isSome = true ↔
      fingerprint ∈ state.imports.map (·.1) := by
  rw [importedSequence, Option.isSome_map, List.find?_isSome, mem_map]
  simp only [decide_eq_true_eq]

variable {state' : ImportLedger V} {offset number : ℕ} {line : Bytes} {stored : Bool}

/-- What an accepted line does: nothing for an ephemeral record or a known line; otherwise the
line is remembered, and its record stored unless an older import has it. -/
lemma importCompleteJsonlLine_eq_ok
    (h : state.importCompleteJsonlLine decode sourceDigest offset number line =
      .ok (state', stored)) :
    ∃ record, decode line = some record ∧
      (((record.durability = .ephemeral ∨
          .rawLineOffset sourceDigest offset line ∈ state.imports.map (·.1)) ∧
        state' = state ∧ stored = false) ∨
      (record.durability ≠ .ephemeral ∧
        .rawLineOffset sourceDigest offset line ∉ state.imports.map (·.1) ∧ ∃ sequence,
        ((.legacyRawLine line ∈ state.imports.map (·.1) ∨
            .legacyRecord record ∈ state.imports.map (·.1)) ∧
          state' = state.recordImportFingerprint (.rawLineOffset sourceDigest offset line)
            sequence ∧ stored = false ∨
          allocateSqliteSequence state.ledger.nextSequence = .ok sequence ∧
          state' = (state.insertImported record sequence).recordImportFingerprint
            (.rawLineOffset sourceDigest offset line) sequence ∧ stored = true))) := by
  simp only [importCompleteJsonlLine, bind_eq_ok, orElseThrow_eq_ok] at h
  obtain ⟨record, hrecord, h⟩ := h
  refine ⟨record, hrecord, ?_⟩
  by_cases hephemeral : record.durability = .ephemeral
  · rw [if_pos hephemeral] at h
    cases h
    exact .inl ⟨.inl hephemeral, rfl, rfl⟩
  rw [if_neg hephemeral] at h
  by_cases hknown : .rawLineOffset sourceDigest offset line ∈ state.imports.map (·.1)
  · rw [if_pos (importedSequence_isSome.2 hknown)] at h
    cases h
    exact .inl ⟨.inr hknown, rfl, rfl⟩
  rw [if_neg fun hsome => hknown (importedSequence_isSome.1 hsome)] at h
  refine .inr ⟨hephemeral, hknown, ?_⟩
  have hmem : ∀ {fingerprint : Fingerprint V} {sequence : ℕ},
      state.importedSequence fingerprint = some sequence →
        fingerprint ∈ state.imports.map (·.1) := fun hsome =>
    importedSequence_isSome.1 (Option.isSome_iff_exists.2 ⟨_, hsome⟩)
  split at h
  · next sequence hlegacy =>
    cases h
    exact ⟨sequence, .inl ⟨.inl (hmem hlegacy), rfl, rfl⟩⟩
  · split at h
    · next sequence hlegacy =>
      cases h
      exact ⟨sequence, .inl ⟨.inr (hmem hlegacy), rfl, rfl⟩⟩
    · simp only [bind_eq_ok] at h
      obtain ⟨sequence, hsequence, h⟩ := h
      cases h
      exact ⟨sequence, .inr ⟨hsequence, rfl, rfl⟩⟩

/-- A line that has nothing to add. -/
lemma importCompleteJsonlLine_known (number : ℕ) {record : LedgerRecord V}
    (hrecord : decode line = some record)
    (h : record.durability = .ephemeral ∨
      .rawLineOffset sourceDigest offset line ∈ state.imports.map (·.1)) :
    state.importCompleteJsonlLine decode sourceDigest offset number line = .ok (state, false) := by
  unfold importCompleteJsonlLine
  rw [hrecord, orElseThrow]
  simp only [bind, Except.bind]
  by_cases hephemeral : record.durability = .ephemeral
  · rw [if_pos hephemeral]
    rfl
  · rw [if_neg hephemeral, if_pos (importedSequence_isSome.2 (h.resolve_left hephemeral))]
    rfl

end ImportLedger

/-! ## The record lines of a source -/

/-- Where a line starts, and its bytes. -/
abbrev LineKey := ℕ × Bytes

def isBlankLine (line : Bytes) : Bool := line.all isAsciiWhitespace

/-- Lines one after the other, each with its newline. -/
def located (offset : ℕ) : List Bytes → List LineKey
  | [] => []
  | line :: lines => (offset, line) :: located (offset + (line.length + 1)) lines

/-- The lines with a newline that are not blank. -/
def completeKeys (content : Bytes) : List LineKey :=
  (located 0 (split newline content).1).filter (!isBlankLine ·.2)

section

variable (decode : Bytes → Option (LedgerRecord V)) (content : Bytes)

/-- The last line, if it has no newline yet and is a record. -/
def tailKey : List LineKey :=
  if (split newline content).2.length ≤ jsonlRecordMaxBytes ∧
      isBlankLine (split newline content).2 = false ∧
      (decode (split newline content).2).isSome = true then
    [((join newline (split newline content).1).length, (split newline content).2)]
  else []

def lineKeys : List LineKey :=
  completeKeys content ++ tailKey decode content

/-- All complete lines can be imported. -/
def ValidLines : Prop :=
  ∀ line ∈ (split newline content).1, line.length ≤ jsonlRecordMaxBytes ∧
    (isBlankLine line = false → (decode line).isSome = true)

end

/-- The lines are imported one after the other, and so many records are stored. -/
inductive Imports (decode : Bytes → Option (LedgerRecord V)) (sourceDigest : Bytes) :
    ImportLedger V → List LineKey → ImportLedger V → ℕ → Prop
  | nil (state : ImportLedger V) : Imports decode sourceDigest state [] state 0
  | cons {state middle last : ImportLedger V} {key : LineKey} {keys : List LineKey}
      {number n : ℕ} {stored : Bool}
      (hline : state.importCompleteJsonlLine decode sourceDigest key.1 number key.2 =
        .ok (middle, stored))
      (hrest : Imports decode sourceDigest middle keys last n) :
      Imports decode sourceDigest state (key :: keys) last ((if stored then 1 else 0) + n)

variable {last : ImportLedger V} {call : ImportCall}

lemma imports_append {left right : List LineKey} {n : ℕ} :
    Imports decode sourceDigest state (left ++ right) last n ↔ ∃ middle m k,
      Imports decode sourceDigest state left middle m ∧
        Imports decode sourceDigest middle right last k ∧ n = m + k := by
  constructor
  · intro h
    induction left generalizing state n with
    | nil => exact ⟨state, 0, n, .nil _, h, (Nat.zero_add n).symm⟩
    | cons key left ih =>
      cases h with
      | cons hline hrest =>
        obtain ⟨middle, m, k, hleft, hright, rfl⟩ := ih hrest
        exact ⟨middle, _, k, .cons hline hleft, hright, (Nat.add_assoc ..).symm⟩
  · rintro ⟨middle, m, k, hleft, hright, rfl⟩
    induction hleft with
    | nil state => rwa [Nat.zero_add]
    | cons hline hrest ih =>
      rw [Nat.add_assoc]
      exact .cons hline (ih hright)

/-- The key of a line that is not blank. -/
def recordKeys (offset : ℕ) (line : Bytes) : List LineKey :=
  if isBlankLine line then [] else [(offset, line)]

lemma map_located (offset : ℕ) (lines : List Bytes) : (located offset lines).map (·.2) = lines := by
  induction lines generalizing offset with
  | nil => rfl
  | cons line lines ih => rw [located, map_cons, ih]

lemma located_cons_filter (offset : ℕ) (line : Bytes) (lines : List Bytes) :
    (located offset (line :: lines)).filter (!isBlankLine ·.2) = recordKeys offset line ++
      (located (offset + (line.length + 1)) lines).filter (!isBlankLine ·.2) := by
  rw [located, filter_cons, recordKeys]
  cases isBlankLine line <;> rfl

namespace ImportScan

variable {scan scan' : ImportScan V}

lemma importLine_eq_ok : scan.importLine decode sourceDigest = .ok scan' ↔ ∃ state n,
    Imports decode sourceDigest scan.state [(scan.lineOffset, scan.line)] state n ∧
      scan' = { scan with state, imported := scan.imported + n } := by
  simp only [importLine, bind_eq_ok, pure_eq_ok, Prod.exists]
  constructor
  · rintro ⟨state, stored, hline, rfl⟩
    exact ⟨state, _, .cons hline (.nil _), by cases stored <;> rfl⟩
  · rintro ⟨state, _, _ | @⟨_, _, _, _, _, number, _, stored, hline, ⟨⟩⟩, rfl⟩
    refine ⟨state, stored, ?_, by cases stored <;> rfl⟩
    -- the number of a line is for its error only
    simp only [ImportLedger.importCompleteJsonlLine, bind_eq_ok, orElseThrow_eq_ok] at hline ⊢
    exact hline

lemma readLine_eq_ok {line : Bytes} (h : scan.AtLineStart) :
    readLine decode sourceDigest scan line = .ok scan' ↔ line.length ≤ jsonlRecordMaxBytes ∧
      ∃ state n, Imports decode sourceDigest scan.state (recordKeys scan.contentLength line) state
        n ∧ scan' = scan.advance line state (scan.imported + n) := by
  obtain ⟨state, lineOffset, lineNumber, imported, rfl⟩ := h.exists_eq
  rw [readLine, extend_start, recordKeys, isBlankLine]
  by_cases hlength : line.length ≤ jsonlRecordMaxBytes
  · rw [if_pos hlength, finishLine]
    simp only [Bool.not_false, require, if_true, hlength, true_and]
    by_cases hblank : line.all isAsciiWhitespace = true
    · rw [if_pos hblank, if_pos hblank]
      constructor
      · rintro ⟨⟩
        exact ⟨state, 0, .nil _, rfl⟩
      · rintro ⟨_, _, ⟨⟩, rfl⟩
        rfl
    · rw [if_neg hblank, if_neg hblank]
      simp only [bind_eq_ok, pure_eq_ok, importLine_eq_ok]
      constructor
      · rintro ⟨_, _, _, ⟨state', n, himports, rfl⟩, rfl⟩
        exact ⟨state', n, himports, rfl⟩
      · rintro ⟨state', n, himports, rfl⟩
        exact ⟨(), trivial, _, ⟨state', n, himports, rfl⟩, rfl⟩
  · rw [if_neg hlength]
    exact iff_of_false (by rintro ⟨⟩) fun h => hlength h.1

/-- Lines are read exactly if each fits and those that are not blank can be imported. -/
lemma foldlM_readLine_eq_ok {lines : List Bytes} (h : scan.AtLineStart) :
    lines.foldlM (readLine decode sourceDigest) scan = .ok scan' ↔
      (∀ line ∈ lines, line.length ≤ jsonlRecordMaxBytes) ∧
      ∃ state n, Imports decode sourceDigest scan.state
          ((located scan.contentLength lines).filter (!isBlankLine ·.2)) state n ∧
        scan' = ⟨state, scan.contentLength + (join newline lines).length,
          scan.lineNumber + lines.length, scan.contentLength + (join newline lines).length, [],
          false, scan.imported + n⟩ := by
  induction lines generalizing scan with
  | nil =>
    obtain ⟨state, lineOffset, lineNumber, imported, rfl⟩ := h.exists_eq
    constructor
    · rintro ⟨⟩
      exact ⟨forall_mem_nil _, state, 0, .nil _, rfl⟩
    · rintro ⟨-, _, _, ⟨⟩, rfl⟩
      rfl
  | cons line lines ih =>
    have hjoin : (join newline (line :: lines)).length =
        line.length + 1 + (join newline lines).length := by
      rw [join_cons, length_append, length_cons]
      omega
    simp only [foldlM_cons, bind_eq_ok, readLine_eq_ok h, forall_mem_cons, located_cons_filter,
      imports_append, hjoin, length_cons]
    constructor
    · rintro ⟨_, ⟨hlength, state, n, himports, rfl⟩, hrest⟩
      obtain ⟨hlengths, state', k, himports', rfl⟩ := (ih (atLineStart_advance ..)).1 hrest
      refine ⟨⟨hlength, hlengths⟩, state', n + k, ⟨state, n, k, himports, himports', rfl⟩, ?_⟩
      simp [advance, Nat.add_assoc, Nat.add_comm, Nat.add_left_comm]
    · rintro ⟨⟨hlength, hlengths⟩, state', _, ⟨state, n, k, himports, himports', rfl⟩, rfl⟩
      refine ⟨_, ⟨hlength, state, n, himports, rfl⟩, (ih (atLineStart_advance ..)).2
        ⟨hlengths, state', k, himports', ?_⟩⟩
      simp [advance, Nat.add_assoc, Nat.add_comm, Nat.add_left_comm]

omit [DecidableEq V] in
lemma readTail_start (state : ImportLedger V) (contentLength lineNumber lineOffset imported : ℕ)
    (tail : Bytes) :
    readTail ⟨state, contentLength, lineNumber, lineOffset, [], false, imported⟩ tail =
      if tail.length ≤ jsonlRecordMaxBytes then
        ⟨state, contentLength + tail.length, lineNumber, lineOffset, tail, false, imported⟩
      else ⟨state, contentLength + tail.length, lineNumber, lineOffset, [], true, imported⟩ := by
  unfold readTail
  split_ifs with htail hlength hlength
  · rw [htail]
    rfl
  · rw [htail] at hlength
    exact absurd (Nat.zero_le _) hlength
  · rw [extend_start, if_pos hlength]
  · rw [extend_start, if_neg hlength]

/-- The last line is imported as a record or left alone. -/
lemma finishTail_readTail_eq_ok {tail : Bytes} (h : scan.AtLineStart) {last : ImportLedger V}
    {count length : ℕ} :
    (∃ scan', (scan.readTail tail).finishTail decode sourceDigest = .ok scan' ∧
        scan'.state = last ∧ scan'.imported = count ∧ scan'.contentLength = length) ↔
      length = scan.contentLength + tail.length ∧ ∃ n, Imports decode sourceDigest scan.state
          (if tail.length ≤ jsonlRecordMaxBytes ∧ isBlankLine tail = false ∧
              (decode tail).isSome = true then [(scan.contentLength, tail)] else []) last n ∧
        count = scan.imported + n := by
  obtain ⟨state, lineOffset, lineNumber, imported, rfl⟩ := h.exists_eq
  have hkept : ∀ scan : ImportScan V, scan.state = state → scan.imported = imported →
      scan.contentLength = lineOffset + tail.length →
      ((∃ scan', (.ok scan : IoResult (ImportScan V)) = .ok scan' ∧ scan'.state = last ∧
        scan'.imported = count ∧ scan'.contentLength = length) ↔
      length = lineOffset + tail.length ∧ ∃ n, Imports decode sourceDigest state [] last n ∧
        count = imported + n) := by
    rintro scan rfl rfl hlength
    constructor
    · rintro ⟨_, ⟨⟩, rfl, rfl, rfl⟩
      exact ⟨hlength, 0, .nil _, rfl⟩
    · rintro ⟨rfl, _, ⟨⟩, rfl⟩
      exact ⟨scan, rfl, rfl, rfl, hlength⟩
  rw [readTail_start]
  by_cases hlength : tail.length ≤ jsonlRecordMaxBytes
  · rw [if_pos hlength, finishTail]
    by_cases hrecord : isBlankLine tail = false ∧ (decode tail).isSome = true
    · have hskip : ¬(false || tail.all isAsciiWhitespace || (decode tail).isNone) = true := by
        rw [← isBlankLine, hrecord.1, ← Option.not_isSome, hrecord.2]
        decide
      rw [if_neg hskip, if_pos ⟨hlength, hrecord⟩]
      simp only [importLine_eq_ok]
      constructor
      · rintro ⟨_, ⟨_, n, himports, rfl⟩, rfl, rfl, rfl⟩
        exact ⟨rfl, n, himports, rfl⟩
      · rintro ⟨rfl, n, himports, rfl⟩
        exact ⟨_, ⟨_, n, himports, rfl⟩, rfl, rfl, rfl⟩
    · have hskip : (false || tail.all isAsciiWhitespace || (decode tail).isNone) = true := by
        rw [← isBlankLine, ← Option.not_isSome]
        by_contra hne
        simp only [Bool.false_or, Bool.or_eq_true, not_or, Bool.not_eq_true,
          Bool.not_eq_false'] at hne
        exact hrecord hne
      rw [if_pos hskip, if_neg fun h => hrecord h.2]
      exact hkept _ rfl rfl rfl
  · rw [if_neg hlength, if_neg fun h => hlength h.1]
    exact hkept _ rfl rfl rfl

end ImportScan

namespace ImportLedger

/-- An import is accepted exactly if its lines fit and all record lines of the content are taken
in. -/
lemma importJsonlReader_eq_ok {state' : ImportLedger V} {count : ℕ} :
    state.importJsonlReader decode sourceDigest call false = .ok (state', count) ↔
      (∀ line ∈ (split newline call.content).1, line.length ≤ jsonlRecordMaxBytes) ∧
      call.unchanged = true ∧ (call.content.length : ℤ) ≤ i64Max ∧
      ∃ last, Imports decode sourceDigest state (lineKeys decode call.content) last count ∧
        state' = last.recordSource sourceDigest call.content call.content.length := by
  have hjoin : (join newline (split newline call.content).1).length +
      (split newline call.content).2.length = call.content.length := by
    rw [← length_append, join_split]
  rw [importJsonlReader, Bool.false_and, if_neg Bool.false_ne_true, ImportScan.foldlM_readBuffer,
    ← ImportCall.content]
  simp only [bind_eq_ok, ImportScan.readBuffer, pure_eq_ok, require_eq_ok, Prod.mk.injEq,
    decide_eq_true_eq]
  constructor
  · rintro ⟨_, ⟨middle, hlines, rfl⟩, scan', htail, _, hunchanged, _, hlength, rfl, rfl⟩
    obtain ⟨hfits, middle, n, himports, rfl⟩ :=
      (ImportScan.foldlM_readLine_eq_ok ⟨rfl, rfl, rfl⟩).1 hlines
    obtain ⟨htotal, m, himports', hcount⟩ :=
      (ImportScan.finishTail_readTail_eq_ok ⟨rfl, rfl, rfl⟩).1 ⟨scan', htail, rfl, rfl, rfl⟩
    simp only [ImportScan.start, Nat.zero_add] at htotal hcount himports himports'
    rw [htotal, hjoin] at hlength ⊢
    exact ⟨hfits, hunchanged, hlength, _, imports_append.2 ⟨middle, n, m, himports, himports',
      hcount⟩, rfl⟩
  · rintro ⟨hfits, hunchanged, hlength, last, himports, rfl⟩
    obtain ⟨middle, n, m, hlines, htail, rfl⟩ := imports_append.1 himports
    have hstart : (ImportScan.start state).AtLineStart := ⟨rfl, rfl, rfl⟩
    have hread := (ImportScan.foldlM_readLine_eq_ok hstart).2 ⟨hfits, middle, n, hlines, rfl⟩
    simp only [ImportScan.start, Nat.zero_add] at hread
    have hmiddle : (⟨middle, (join newline (split newline call.content).1).length,
        (split newline call.content).1.length, (join newline (split newline call.content).1).length,
        [], false, n⟩ : ImportScan V).AtLineStart := ⟨rfl, rfl, rfl⟩
    obtain ⟨scan', hfinish, rfl, himported, htotal⟩ :=
      (ImportScan.finishTail_readTail_eq_ok hmiddle).2 ⟨hjoin.symm, m, htail, rfl⟩
    exact ⟨_, ⟨_, hread, rfl⟩, scan', hfinish, (), hunchanged, (), htotal ▸ hlength,
      by rw [htotal], himported⟩

/-- A line that has nothing to add: its record is ephemeral or known under its place. -/
def Settled (decode : Bytes → Option (LedgerRecord V)) (sourceDigest : Bytes)
    (state : ImportLedger V) (key : LineKey) : Prop :=
  ∃ record, decode key.2 = some record ∧ (record.durability = .ephemeral ∨
    .rawLineOffset sourceDigest key.1 key.2 ∈ state.imports.map (·.1))

end ImportLedger

lemma Imports.subset {keys : List LineKey} {n : ℕ}
    (h : Imports decode sourceDigest state keys last n) : state.imports ⊆ last.imports := by
  induction h with
  | nil state => exact List.Subset.refl _
  | cons hline hrest ih =>
    refine List.Subset.trans ?_ ih
    obtain ⟨record, -, ⟨-, rfl, -⟩ | ⟨-, -, sequence, ⟨-, rfl, -⟩ | ⟨-, rfl, -⟩⟩⟩ :=
      ImportLedger.importCompleteJsonlLine_eq_ok hline
    · exact List.Subset.refl _
    · exact subset_append_left _ _
    · exact subset_append_left _ _

/-- Every line is settled once it was imported. -/
lemma Imports.settled {keys : List LineKey} {n : ℕ}
    (h : Imports decode sourceDigest state keys last n) :
    ∀ key ∈ keys, last.Settled decode sourceDigest key := by
  induction h with
  | nil state => exact forall_mem_nil _
  | cons hline hrest ih =>
    refine forall_mem_cons.2 ⟨?_, ih⟩
    have hmono := map_subset (·.1) hrest.subset
    obtain ⟨record, hrecord, ⟨hknown, rfl, -⟩ | ⟨-, -, sequence, ⟨-, rfl, -⟩ | ⟨-, rfl, -⟩⟩⟩ :=
      ImportLedger.importCompleteJsonlLine_eq_ok hline
    · exact ⟨record, hrecord, hknown.imp_right fun hmem => hmono hmem⟩
    · refine ⟨record, hrecord, .inr (hmono ?_)⟩
      exact mem_map_of_mem (mem_append_right _ (mem_singleton_self _))
    · refine ⟨record, hrecord, .inr (hmono ?_)⟩
      exact mem_map_of_mem (mem_append_right _ (mem_singleton_self _))

/-- Settled lines are imported without any effect. -/
lemma imports_settled {keys : List LineKey}
    (h : ∀ key ∈ keys, state.Settled decode sourceDigest key) :
    Imports decode sourceDigest state keys state 0 := by
  induction keys with
  | nil => exact .nil _
  | cons key keys ih =>
    obtain ⟨⟨record, hrecord, hknown⟩, hkeys⟩ := forall_mem_cons.1 h
    exact .cons (ImportLedger.importCompleteJsonlLine_known 0 hrecord hknown) (ih hkeys)

/-- An accepted import has taken in all record lines of the content, which are valid. -/
lemma ImportLedger.importJsonlReader_ok {state' : ImportLedger V} {count : ℕ}
    (h : state.importJsonlReader decode sourceDigest call false = .ok (state', count)) :
    ValidLines decode call.content ∧
      ∃ last, Imports decode sourceDigest state (lineKeys decode call.content) last count ∧
        state' = last.recordSource sourceDigest call.content call.content.length := by
  obtain ⟨hfits, -, -, last, himports, hlast⟩ := importJsonlReader_eq_ok.1 h
  refine ⟨fun line hline => ⟨hfits line hline, fun hblank => ?_⟩, last, himports, hlast⟩
  rw [← map_located 0 (split newline call.content).1] at hline
  obtain ⟨key, hkey, rfl⟩ := mem_map.1 hline
  obtain ⟨record, hrecord, -⟩ := himports.settled key
    (mem_append_left _ (mem_filter.2 ⟨hkey, by rw [hblank]; rfl⟩))
  rw [hrecord]
  rfl

namespace ImportLedger

/-- An accepted import leaves what the reader did. -/
lemma importJsonlReader_of_isOk (h : (state.importJsonl decode sourceDigest call).2.isOk = true) :
    ∃ count, state.importJsonlReader decode sourceDigest call false =
      .ok ((state.importJsonl decode sourceDigest call).1, count) := by
  unfold importJsonl at h ⊢
  cases hread : state.importJsonlReader decode sourceDigest call false with
  | error error =>
    rw [hread] at h
    cases h
  | ok result => exact ⟨result.2, rfl⟩

/-- What an accepted import leaves behind is imported again without any effect, in whatever
buffers it is read. -/
lemma importJsonl_again {again : ImportCall}
    (h : (state.importJsonl decode sourceDigest call).2.isOk = true)
    (hcontent : again.content = call.content) (hunchanged : again.unchanged = true) :
    (state.importJsonl decode sourceDigest call).1.importJsonl decode sourceDigest again =
      ((state.importJsonl decode sourceDigest call).1, .ok 0) := by
  obtain ⟨count, hread⟩ := importJsonlReader_of_isOk h
  obtain ⟨hfits, -, hlength, last, himports, hlast⟩ := importJsonlReader_eq_ok.1 hread
  have hagain := importJsonlReader_eq_ok.2 ⟨hcontent ▸ hfits, hunchanged, hcontent ▸ hlength,
    last.recordSource sourceDigest call.content call.content.length,
    imports_settled (hcontent ▸ himports.settled), rfl⟩
  rw [hlast, importJsonl, hagain, hcontent]
  simp [recordSource]

end ImportLedger

end SolarisMesh.Ledger
