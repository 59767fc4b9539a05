import SolarisMesh.Proxy.Http

/-!
# What the header scan reads

The scan of the header lines collects the values of three fields, each at most once, and writes
out the lines it keeps. Its result is described by the list of all values of a field, so that
nothing later has to go through the scan again.
-/

namespace SolarisMesh.Proxy

open List Lib
open Lib.Bytes

/-- The value of a header line of the given name, as it stands in the line. -/
def fieldValue (header : String) (line : Bytes) : Option Bytes :=
  match parseHeaderLine line with
  | .ok (name, value) => if named name header then some value else none
  | .error _ => none

/-- The line is passed on. -/
def keeps (line : Bytes) : Bool :=
  match parseHeaderLine line with
  | .ok (name, _) => !dropped name
  | .error _ => false

def fieldValues (header : String) (lines : List Bytes) : List Bytes :=
  lines.filterMap (fieldValue header)

/-- What an accepted header line looks like. -/
structure HeaderLine (line name value : Bytes) : Prop where
  eq : line = name ++ 58 :: value
  nameBytes : ∀ b ∈ name, isNameByte b = true
  valueBytes : ∀ b ∈ value, isValueByte b = true

lemma headerLine_of_ok {line name value : Bytes} (h : parseHeaderLine line = .ok (name, value)) :
    HeaderLine line name value := by
  simp only [parseHeaderLine, bind_eq_ok, pure_eq_ok, Prod.mk.injEq] at h
  obtain ⟨_, -, ⟨name', value'⟩, hsplit, _, hbytes, rfl, rfl⟩ := h
  rw [orElseThrow_eq_ok, splitOnce_eq_some] at hsplit
  simp only [require_eq_ok, Bool.and_eq_true, decide_eq_true_eq, all_eq_true] at hbytes
  exact ⟨hsplit.1, hbytes.1.2, hbytes.2⟩

namespace HeaderLine

variable {line name value : Bytes}

section

variable (h : HeaderLine line name value)
include h

lemma not_mem {b : UInt8} (hname : isNameByte b = false) (hvalue : isValueByte b = false)
    (hcolon : b ≠ 58) : b ∉ line := by
  rw [h.eq]
  intro hmem
  obtain hmem | hmem := mem_append.1 hmem
  · exact Bool.eq_false_iff.1 hname (h.nameBytes b hmem)
  · obtain rfl | hmem := mem_cons.1 hmem
    · exact hcolon rfl
    · exact Bool.eq_false_iff.1 hvalue (h.valueBytes b hmem)

lemma not_mem_cr : 13 ∉ line :=
  h.not_mem (by decide) (by decide) (by decide)

lemma not_mem_lf : 10 ∉ line :=
  h.not_mem (by decide) (by decide) (by decide)

lemma ne_nil : line ≠ [] := by
  rw [h.eq]
  simp

lemma splitOnce_eq : splitOnce 58 line = some (name, value) :=
  splitOnce_eq_some.2 ⟨h.eq, fun hmem => absurd (h.nameBytes 58 hmem) (by decide)⟩

end

end HeaderLine

variable {name line value : Bytes}

variable {header : String}

lemma dropped_eq (h : named name header = true) :
    dropped name = dropped (ascii header) := by
  unfold named eqIgnoreCase at h
  simp only [dropped, named, eqIgnoreCase, eq_of_beq h]

/-! ## One line -/

lemma fieldValue_of_ok (h : parseHeaderLine line = .ok (name, value)) (header : String) :
    fieldValue header line = if named name header then some value else none := by
  rw [fieldValue, h]

lemma keeps_of_ok (h : parseHeaderLine line = .ok (name, value)) :
    keeps line = !dropped name := by
  rw [keeps, h]

lemma scanContentLength_ok {found after : Option ℕ}
    (h : scanContentLength found name value = .ok after) :
    let values := if named name "content-length" then [value] else []
    after.toList = found.toList ++ values.map (decimalValue ∘ trim) ∧
      ∀ value ∈ values, trim value ≠ [] ∧ (trim value).all isDigit = true := by
  unfold scanContentLength at h
  split at h
  · next hnamed =>
    obtain ⟨hvalue, hnext⟩ := check_bind_eq_ok.1 h
    simp only [require_eq_ok, Bool.and_eq_true, Option.isNone_iff_eq_none, bne_iff_ne] at hvalue
    obtain ⟨⟨rfl, hnonempty⟩, hdigits⟩ := hvalue
    simp only [bind_eq_ok, orElseThrow_eq_ok, pure_eq_ok, Option.filter_eq_some_iff] at hnext
    obtain ⟨length, ⟨hparse, -⟩, rfl⟩ := hnext
    rw [parseUnsigned_of_digits hdigits hparse, if_pos hnamed]
    exact ⟨rfl, forall_mem_singleton.2 ⟨hnonempty, hdigits⟩⟩
  · next hnamed =>
    rw [← pure_eq_ok.1 h, if_neg hnamed]
    exact ⟨(append_nil _).symm, forall_mem_nil _⟩

lemma scanTransferEncoding_ok {found after : Option Bytes}
    (h : scanTransferEncoding found name value = .ok after) :
    let values := if named name "transfer-encoding" then [value] else []
    after.toList = found.toList ++ values.map trim ∧
      ∀ value ∈ values, eqIgnoreCase (trim value) (ascii "chunked") = true := by
  unfold scanTransferEncoding at h
  split at h
  · next hnamed =>
    obtain ⟨hvalue, hnext⟩ := check_bind_eq_ok.1 h
    simp only [require_eq_ok, Bool.and_eq_true, Option.isNone_iff_eq_none] at hvalue
    obtain ⟨rfl, hchunked⟩ := hvalue
    rw [← pure_eq_ok.1 hnext, if_pos hnamed]
    exact ⟨rfl, forall_mem_singleton.2 hchunked⟩
  · next hnamed =>
    rw [← pure_eq_ok.1 h, if_neg hnamed]
    exact ⟨(append_nil _).symm, forall_mem_nil _⟩

/-- What scanning lines adds to what was written and read before. -/
structure Scanned (lines : List Bytes) (before after : HeaderScan) : Prop where
  parsed : ∀ line ∈ lines, ∃ name value, parseHeaderLine line = .ok (name, value)
  output : after.output = before.output ++ (lines.filter keeps).flatMap (· ++ crlf)
  host : after.hostHeader.toList = before.hostHeader.toList ++ (fieldValues "host" lines).map trim
  contentLength : after.contentLength.toList =
    before.contentLength.toList ++ (fieldValues "content-length" lines).map (decimalValue ∘ trim)
  lengthDigits : ∀ value ∈ fieldValues "content-length" lines,
    trim value ≠ [] ∧ (trim value).all isDigit = true
  transferEncoding : after.transferEncoding.toList =
    before.transferEncoding.toList ++ (fieldValues "transfer-encoding" lines).map trim
  chunked : ∀ value ∈ fieldValues "transfer-encoding" lines,
    eqIgnoreCase (trim value) (ascii "chunked") = true

lemma fieldValues_singleton (h : parseHeaderLine line = .ok (name, value)) (header : String) :
    fieldValues header [line] = if named name header then [value] else [] := by
  unfold fieldValues
  rw [filterMap_cons, fieldValue_of_ok h]
  split <;> simp_all

variable {after : HeaderScan}

lemma scanLine_scanned {scan : HeaderScan} (h : scanLine scan line = .ok after) :
    Scanned [line] scan after := by
  unfold scanLine at h
  obtain ⟨-, h⟩ := check_bind_eq_ok.1 h
  obtain ⟨⟨name, value⟩, hline, h⟩ := bind_eq_ok.1 h
  have hparsed : parseHeaderLine line = .ok (name, value) := mapError_eq_ok.1 hline
  obtain ⟨hhost, h⟩ := check_bind_eq_ok.1 h
  have hparsedAll : ∀ other ∈ [line], ∃ name value, parseHeaderLine other = .ok (name, value) := by
    intro other hother
    rw [mem_singleton.1 hother]
    exact ⟨name, value, hparsed⟩
  dsimp only at h
  split at h
  · next hdropped =>
    have hnone : ∀ header : String, dropped (ascii header) = false →
        fieldValues header [line] = [] := by
      intro header hheader
      rw [fieldValues_singleton hparsed, if_neg]
      intro hnamed
      rw [dropped_eq hnamed, hheader] at hdropped
      cases hdropped
    have hnotHost : named name "host" = false := by
      refine Bool.eq_false_iff.2 fun hnamed => ?_
      rw [dropped_eq hnamed] at hdropped
      exact absurd hdropped (by decide)
    rw [pure_eq_ok, hnotHost] at h
    subst h
    refine ⟨hparsedAll, ?_, ?_, ?_, ?_, ?_, ?_⟩
    · simp [keeps_of_ok hparsed, hdropped]
    · simp [hnone "host" (by decide)]
    · simp [hnone "content-length" (by decide)]
    · simp [hnone "content-length" (by decide)]
    · simp [hnone "transfer-encoding" (by decide)]
    · simp [hnone "transfer-encoding" (by decide)]
  · next hdropped =>
    simp only [bind_eq_ok] at h
    obtain ⟨_, -, contentLength, hlength, transferEncoding, hencoding, h⟩ := h
    rw [pure_eq_ok] at h
    subst h
    have hlength := scanContentLength_ok hlength
    have hencoding := scanTransferEncoding_ok hencoding
    rw [← fieldValues_singleton hparsed] at hlength hencoding
    refine ⟨hparsedAll, ?_, ?_, hlength.1, hlength.2, hencoding.1, hencoding.2⟩
    · simp [keeps_of_ok hparsed, hdropped]
    · rw [fieldValues_singleton hparsed]
      cases hnamed : named name "host" with
      | false => simp
      | true =>
        have hfirst : scan.hostHeader = none := by simpa [hnamed] using hhost
        simp [hfirst]

/-! ## All lines -/

lemma Scanned.append {first second : List Bytes} {before middle : HeaderScan}
    (h : Scanned first before middle) (h' : Scanned second middle after) :
    Scanned (first ++ second) before after := by
  have hvalues : ∀ header, fieldValues header (first ++ second) =
      fieldValues header first ++ fieldValues header second := fun _ => filterMap_append
  have hmem : ∀ {P : Bytes → Prop} {header}, (∀ value ∈ fieldValues header first, P value) →
      (∀ value ∈ fieldValues header second, P value) →
      ∀ value ∈ fieldValues header (first ++ second), P value := by
    intro P header hfirst hsecond value hvalue
    rw [hvalues] at hvalue
    exact (mem_append.1 hvalue).elim (hfirst value) (hsecond value)
  refine ⟨fun line hline => (mem_append.1 hline).elim (h.parsed line) (h'.parsed line), ?_, ?_,
    ?_, hmem h.lengthDigits h'.lengthDigits, ?_, hmem h.chunked h'.chunked⟩
  · rw [h'.output, h.output, filter_append, flatMap_append, append_assoc]
  · rw [h'.host, h.host, hvalues, map_append, append_assoc]
  · rw [h'.contentLength, h.contentLength, hvalues, map_append, append_assoc]
  · rw [h'.transferEncoding, h.transferEncoding, hvalues, map_append, append_assoc]

lemma scanned_of_foldlM {lines : List Bytes} {before : HeaderScan}
    (h : lines.foldlM scanLine before = .ok after) : Scanned lines before after := by
  induction lines generalizing before with
  | nil =>
    rw [foldlM_nil, pure_eq_ok] at h
    subst h
    refine ⟨?_, ?_, ?_, ?_, ?_, ?_, ?_⟩ <;> simp [fieldValues]
  | cons line lines ih =>
    rw [foldlM_cons, bind_eq_ok] at h
    obtain ⟨middle, hmiddle, h⟩ := h
    exact (scanLine_scanned hmiddle).append (ih h)

/-- The request reader finds the same `Host` header. -/
lemma scanHost_ok {found after : Option Bytes} {lines : List Bytes}
    (h : ProxyRequest.scanHost found lines = .ok after) :
    after.toList = found.toList ++ (fieldValues "host" lines).map trim := by
  induction lines generalizing found with
  | nil =>
    cases h
    simp [fieldValues]
  | cons line lines ih =>
    have hvalues : fieldValues "host" (line :: lines) =
        fieldValues "host" [line] ++ fieldValues "host" lines :=
      filterMap_append (l := [line])
    unfold ProxyRequest.scanHost at h
    obtain ⟨⟨name, value⟩, hline, h⟩ := bind_eq_ok.1 h
    rw [hvalues, fieldValues_singleton (mapError_eq_ok.1 hline)]
    dsimp only at h
    split at h
    · next hnamed =>
      obtain ⟨hfirst, h⟩ := check_bind_eq_ok.1 h
      have hfound : found = none := by simpa using hfirst
      have hnamed' : named name "host" = true := hnamed
      rw [ih h, hfound, if_pos hnamed']
      rfl
    · next hnamed =>
      have hnamed' : ¬ named name "host" = true := hnamed
      rw [ih h, if_neg hnamed']
      rfl

end SolarisMesh.Proxy
