import SolarisMesh.Proxy.Scan

/-!
# What the upstream reads

The forwarded header as a server reads it that knows nothing of the proxy: lines between CRLF,
values between blanks, one `Host` and at most one way to frame the body. The proxy reads the
same header with a more lenient eye, and the two readings agree only on clean requests.
-/

namespace SolarisMesh.Proxy

open List Lib ProxyRequest
open Lib.Bytes

/-! ## The reading of a server -/

def upstreamField (header : String) (line : Bytes) : Option Bytes :=
  match splitOnce 58 line with
  | some (name, value) => if named name header then some (trimBlanks value) else none
  | none => none

def upstreamFields (header : String) (lines : List Bytes) : List Bytes :=
  lines.filterMap (upstreamField header)

/-- The body that the headers declare, if they declare one without contradiction. -/
def declaredBody (lines : List Bytes) : Option RequestBody :=
  match upstreamFields "content-length" lines, upstreamFields "transfer-encoding" lines with
  | [], [] => some .none
  | [length], [] =>
    if length ≠ [] ∧ length.all isDigit then some (.contentLength (decimalValue length)) else none
  | [], [coding] => if eqIgnoreCase coding (ascii "chunked") then some .chunked else none
  | _, _ => none

/-- Two spellings of one host: letter case and the dot of the root aside. -/
def SameHost (name host : Bytes) : Prop := toLower ((stripSuffix [46] name).getD name) = host

/-- A value names an authority: the host alone if the port is the scheme's, or with the port in
digits. -/
inductive NamesAuthority (schemePort : ℕ) (host : Bytes) (port : ℕ) (value : Bytes) : Prop
  | bare : SameHost value host → port = schemePort → NamesAuthority schemePort host port value
  | withPort (name digits : Bytes) : value = name ++ 58 :: digits → SameHost name host →
    digits ≠ [] → digits.all isDigit = true → decimalValue digits = port →
    NamesAuthority schemePort host port value

/-- A server reads exactly one header, for the permitted authority, that frames the body as the
proxy does. -/
def WellForwarded (schemePort : ℕ) (request : ProxyRequest) (prepared : PreparedRequest) : Prop :=
  ∃ requestLine headers, splitLines prepared.header = requestLine :: headers ++ [[], []] ∧
    (∀ line ∈ requestLine :: headers, line ≠ [] ∧ 13 ∉ line ∧ 10 ∉ line) ∧
    (∃ value, upstreamFields "host" headers = [value] ∧
      NamesAuthority schemePort request.host request.port value) ∧
    declaredBody headers = some prepared.body

/-- A request that the proxy accepts and forwards: in the clear, or inside a tunnel to the
authority of an accepted CONNECT request. -/
inductive Forwards (policy : NetworkProxyPolicy) :
    ℕ → ProxyRequest → Bytes → PreparedRequest → Prop
  | plain {bytes : Bytes} {request : ProxyRequest} {prepared : PreparedRequest} :
    parse policy bytes = .ok request → request.connect = false →
    isPlainHttpHeader (bytes.take request.headerBytes) = true →
    preparePlainRequest (bytes.take request.headerBytes) = .ok prepared →
    Forwards policy 80 request (bytes.take request.headerBytes) prepared
  | tunnelled {bytes header : Bytes} {request : ProxyRequest} {prepared : PreparedRequest} :
    parse policy bytes = .ok request → request.connect = true →
    validateConnectHeader (bytes.take request.headerBytes) = .ok () →
    prepareTlsRequest request.host request.port header = .ok prepared →
    Forwards policy 443 request header prepared

/-- The header reads the same to the proxy and to a server: the target breaks no line, the `Host`
header is there, states a port that is not the scheme's and has no sign, and no other white
space than blanks surrounds the values that matter. -/
structure Clean (schemePort : ℕ) (request : ProxyRequest) (header : Bytes) : Prop where
  target : ∀ first headers line, headerLines header = first :: headers →
    parseRequestLine first = some line → 13 ∉ line.target ∧ 10 ∉ line.target
  host : ∃ value ∈ fieldValues "host" (headerLines header).tail, trim value = trimBlanks value ∧
    43 ∉ value ∧ (58 ∈ value ∨ request.port = schemePort)
  framing : ∀ name ∈ ["content-length", "transfer-encoding"],
    ∀ value ∈ fieldValues name (headerLines header).tail, trim value = trimBlanks value

/-! ## The forwarded lines -/

/-- The request line, its words and the rest of the header. -/
structure Prepares (kind : RequestTarget) (header : Bytes) (prepared : PreparedRequest)
    (first : Bytes) (headers : List Bytes) (line : RequestLine) (target : Bytes)
    (scan : HeaderScan) : Prop where
  lines : headerLines header = first :: headers
  requestLine : parseRequestLine first = some line
  rewritten : outputTarget kind line = .ok target
  scanned : Scanned headers { output := requestLineText line target ++ crlf } scan
  oneFraming : scan.contentLength = none ∨ scan.transferEncoding = none
  host : checkTlsHost kind scan.hostHeader = .ok ()
  output : prepared.header = scan.output ++ ascii "Connection: close" ++ crlf ++ crlf
  body : prepared.body = bodyOf scan

lemma prepares_of_ok {kind : RequestTarget} {header : Bytes} {prepared : PreparedRequest}
    (h : prepareRequest kind header = .ok prepared) :
    ∃ first headers line target scan,
      Prepares kind header prepared first headers line target scan := by
  unfold prepareRequest at h
  obtain ⟨-, h⟩ := check_bind_eq_ok.1 h
  split at h
  · cases h
  · next first headers hlines =>
    simp only [bind_eq_ok] at h
    obtain ⟨line, hline, target, htarget, scan, hscan, _, hframing, _, hhost, h⟩ := h
    rw [pure_eq_ok] at h
    subst h
    exact ⟨first, headers, line, target, scan, hlines, orElseThrow_eq_ok.1 hline, htarget,
      scanned_of_foldlM hscan, by simpa using hframing, hhost, rfl, rfl⟩

variable {line : RequestLine}

/-- An accepted request line is its three words. -/
lemma parseRequestLine_eq {first : Bytes} (h : parseRequestLine first = some line) :
    first = requestLineText line line.target ∧ (∀ b ∈ line.method, isUpper b = true) ∧
      (line.version = http10 ∨ line.version = http11) := by
  unfold parseRequestLine at h
  split at h
  · next method target version hwords =>
    split at h
    · next hline =>
      cases h
      have hjoin : [32].intercalate (first.splitOn 32) = first := intercalate_splitOn 32
      rw [hwords] at hjoin
      refine ⟨?_, all_eq_true.1 hline.2.1, hline.2.2⟩
      rw [← hjoin]
      simp [requestLineText, List.intercalate]
    · cases h
  · cases h

/-- The forwarded target is the end of the one that came, or the root path. -/
lemma outputTarget_eq {kind : RequestTarget} {target : Bytes}
    (h : outputTarget kind line = .ok target) :
    target = ascii "/" ∨ ∃ before, line.target = before ++ target := by
  unfold outputTarget at h
  split at h
  · unfold originTarget at h
    simp only [bind_eq_ok] at h
    obtain ⟨rest, hrest, _, -, h⟩ := h
    rw [orElseThrow_eq_ok, List.isPrefixOf?_eq_some_iff_append_eq] at hrest
    split at h
    · rw [pure_eq_ok] at h
      exact .inl h.symm
    · split at h
      · cases h
      · rw [pure_eq_ok] at h
        right
        refine ⟨ascii "http://" ++ rest.takeWhile (!endsAuthority ·), ?_⟩
        rw [← h, append_assoc, takeWhile_append_dropWhile, hrest]
  · obtain ⟨-, h⟩ := check_bind_eq_ok.1 h
    rw [pure_eq_ok] at h
    exact .inr ⟨[], h⟩

/-! ## Fields -/

variable {value : Bytes}

lemma upstreamField_of_ok {line name : Bytes} (h : parseHeaderLine line = .ok (name, value))
    (header : String) :
    upstreamField header line = (fieldValue header line).map trimBlanks := by
  rw [fieldValue_of_ok h, upstreamField, (headerLine_of_ok h).splitOnce_eq]
  dsimp only
  split <;> rfl

/-- A server finds the values that the proxy found, cut at blanks. -/
lemma upstreamFields_forwarded (header : String) {lines : List Bytes}
    (hparsed : ∀ line ∈ lines, ∃ name value, parseHeaderLine line = .ok (name, value))
    (hkept : dropped (ascii header) = false) :
    upstreamFields header (lines.filter keeps ++ [ascii "Connection: close"]) =
      (fieldValues header lines).map trimBlanks := by
  have hlast : upstreamField header (ascii "Connection: close") = none := by
    have hsplit : splitOnce 58 (ascii "Connection: close") =
        some (ascii "Connection", ascii " close") := by decide
    rw [upstreamField, hsplit]
    refine if_neg fun hnamed => ?_
    have hlower : toLower (ascii "Connection") = toLower (ascii header) := eq_of_beq hnamed
    have hconnection : named (ascii header) "connection" = true := by
      unfold named eqIgnoreCase
      rw [← hlower]
      decide
    rw [dropped, hconnection] at hkept
    cases hkept
  unfold upstreamFields fieldValues
  rw [filterMap_append, filterMap_cons, hlast, filterMap_nil, append_nil]
  induction lines with
  | nil => rfl
  | cons line lines ih =>
    have hrest := ih fun other hother => hparsed other (mem_cons_of_mem _ hother)
    obtain ⟨name, value, hline⟩ := hparsed line mem_cons_self
    have hfield := upstreamField_of_ok hline header
    rw [filterMap_cons, filter_cons, keeps_of_ok hline]
    cases hdropped : dropped name with
    | true =>
      have hnone : fieldValue header line = none := by
        rw [fieldValue_of_ok hline, if_neg]
        intro hnamed
        rw [dropped_eq hnamed, hkept] at hdropped
        cases hdropped
      rw [hnone]
      exact hrest
    | false =>
      simp only [Bool.not_false, if_true, filterMap_cons, hfield]
      cases fieldValue header line with
      | none => exact hrest
      | some value => simp [hrest]

/-! ## The host -/

lemma mem_trimBlanks_iff {bs : Bytes} {b : UInt8} (hblank : ¬ (b = 9 ∨ b = 32)) :
    b ∈ trimBlanks bs ↔ b ∈ bs := by
  obtain ⟨before, after, hbs, hbefore, hafter⟩ := exists_trimBlanks bs
  have hnotBefore : b ∉ before := fun hmem => hblank (hbefore b hmem)
  have hnotAfter : b ∉ after := fun hmem => hblank (hafter b hmem)
  conv_rhs => rw [hbs]
  simp [hnotBefore, hnotAfter]

variable {schemePort port : ℕ} {host : Bytes}

/-- All bytes of a value that names an authority are visible, and none is a sign. -/
lemma NamesAuthority.graphic (h : NamesAuthority schemePort host port value)
    (hhost : host ≠ [] ∧ ∀ b ∈ host, isHostByte b = true) :
    value ≠ [] ∧ (∀ b ∈ value, isGraphic b = true) ∧ 43 ∉ value := by
  have hname : ∀ name, SameHost name host → ∀ b ∈ name, isHostByte b = true :=
    fun name hsame b hb => hostByte_of_eq_toLower hsame.symm hhost.2 hb
  have hbyte : value ≠ [] ∧ ∀ b ∈ value, isHostByte b = true ∨ b = 58 ∨ isDigit b = true := by
    cases h with
    | bare hsame _ =>
      refine ⟨?_, fun b hb => .inl (hname value hsame b hb)⟩
      rintro rfl
      exact hhost.1 hsame.symm
    | withPort name digits hvalue hsame _ hdigits _ =>
      subst hvalue
      refine ⟨by simp, fun b hb => ?_⟩
      exact (mem_append.1 hb).imp (hname name hsame b) fun hb =>
        (mem_cons.1 hb).imp_right (all_eq_true.1 hdigits b)
  refine ⟨hbyte.1, fun b hb => ?_, fun hmem => absurd (hbyte.2 43 hmem) (by decide)⟩
  obtain hb | rfl | hb := hbyte.2 b hb
  · exact isGraphic_of_isHostByte hb
  · decide
  · exact isGraphic_of_isDigit hb

/-- An authority that the proxy accepts is one to a server if it is cut at blanks alone, its port
has no sign, and a port that is not the scheme's is stated. -/
lemma namesAuthority_iff {defaultPort : Option ℕ}
    (h : Authority (trim value) defaultPort host port) :
    NamesAuthority schemePort host port (trimBlanks value) ↔
      trim value = trimBlanks value ∧ 43 ∉ value ∧ (58 ∈ value ∨ port = schemePort) := by
  obtain ⟨name, hnormalizes⟩ := h.normalizes
  constructor
  · intro hnames
    obtain ⟨hne, hgraphic, hplus⟩ :=
      hnames.graphic ⟨hnormalizes.nonempty, fun _ => hnormalizes.hostByte⟩
    rw [mem_trimBlanks_iff (by decide)] at hplus
    refine ⟨trim_eq_trimBlanks (tight_of_all hne hgraphic), hplus, ?_⟩
    cases hnames with
    | bare _ hport => exact .inr hport
    | withPort name digits hvalue _ _ _ _ =>
      left
      rw [← mem_trimBlanks_iff (by decide), hvalue]
      simp
  · rintro ⟨htrim, hplus, hport⟩
    rw [htrim] at h
    rw [← mem_trimBlanks_iff (by decide)] at hplus
    cases h with
    | written name digits hvalue hparse hhost =>
      obtain ⟨read, hread, hne, hdigits, hport', -⟩ := parseUnsigned_eq_some hparse
      rw [hvalue] at hplus
      obtain rfl | rfl := hread
      · exact .withPort name digits hvalue (normalizes_of_ok hhost).eq.symm hne
          hdigits hport'.symm
      · exact absurd (by simp) hplus
    | default hcolon _ hhost =>
      refine .bare (normalizes_of_ok hhost).eq.symm ?_
      rw [mem_trimBlanks_iff (by decide)] at hcolon
      exact hport.resolve_left hcolon

/-! ## The framing -/

lemma trim_of_chunked (h : eqIgnoreCase (trimBlanks value) (ascii "chunked") = true) :
    trim value = trimBlanks value := by
  have hlower : toLower (trimBlanks value) = toLower (ascii "chunked") := eq_of_beq h
  have hne : trimBlanks value ≠ [] := by
    intro hnil
    rw [hnil] at hlower
    exact absurd hlower (by decide)
  refine trim_eq_trimBlanks (tight_of_all hne fun b hb => ?_)
  have hletters : (toLower (ascii "chunked")).all isGraphic = true := by decide
  have hgraphic : isGraphic (lower b) = true := by
    refine all_eq_true.1 hletters _ ?_
    rw [← hlower]
    exact mem_map_of_mem hb
  exact byte_implies (p := fun b => isGraphic (lower b)) (by decide +kernel) hgraphic

/-- The values of one field, if a list of at most one is made from them. -/
lemma values_of_toList {α : Type} {found : Option α} {values : List Bytes} {f : Bytes → α}
    (h : found.toList = values.map f) :
    found = none ∧ values = [] ∨ ∃ value, values = [value] ∧ found = some (f value) := by
  cases found with
  | none => exact .inl ⟨rfl, map_eq_nil_iff.1 h.symm⟩
  | some a =>
    obtain ⟨value, rest, rfl, hvalue, hrest⟩ := map_eq_cons_iff.1 h.symm
    obtain rfl := map_eq_nil_iff.1 hrest
    exact .inr ⟨value, rfl, by rw [hvalue]⟩

/-! ## The two readings -/

namespace Prepares

variable {kind : RequestTarget} {header : Bytes} {prepared : PreparedRequest} {first : Bytes}
  {headers : List Bytes} {target : Bytes} {scan : HeaderScan}

section

variable (h : Prepares kind header prepared first headers line target scan)
include h

lemma hasBreak_requestLine : hasBreak (requestLineText line target) = false := by
  obtain ⟨hfirst, -⟩ := parseRequestLine_eq h.requestLine
  have hmem : first ∈ headerLines header := by
    rw [h.lines]
    exact mem_cons_self
  have hbreak := hasBreak_of_mem_splitLines hmem
  rw [hfirst, requestLineText, hasBreak_append_blank, hasBreak_append_blank,
    Bool.or_eq_false_iff, Bool.or_eq_false_iff] at hbreak
  obtain ⟨⟨hmethod, htarget⟩, hversion⟩ := hbreak
  have houtput : hasBreak target = false := by
    obtain rfl | ⟨before, hbefore⟩ := outputTarget_eq h.rewritten
    · decide
    · rw [hbefore] at htarget
      exact hasBreak_append_right htarget
  rw [requestLineText, hasBreak_append_blank, hasBreak_append_blank, hmethod, houtput, hversion]
  rfl

lemma getLast_requestLine : (requestLineText line target).getLast? ≠ some 13 := by
  obtain ⟨-, -, hversion⟩ := parseRequestLine_eq h.requestLine
  have hlast : (requestLineText line target).getLast? = line.version.getLast? := by
    have hne : line.version ≠ [] := by
      obtain hversion | hversion := hversion <;> rw [hversion] <;> decide
    rw [requestLineText, List.getLast?_append_of_ne_nil _ (cons_ne_nil _ _)]
    exact List.getLast?_cons_of_ne_nil hne
  rw [hlast]
  obtain hversion | hversion := hversion <;> rw [hversion] <;> decide

/-- The lines between the line breaks of the forwarded header. -/
lemma splitLines_eq :
    splitLines prepared.header = requestLineText line target ::
      (headers.filter keeps ++ [ascii "Connection: close"]) ++ [[], []] := by
  have hheader : prepared.header = (requestLineText line target ::
      (headers.filter keeps ++ [ascii "Connection: close"])).flatMap (· ++ crlf) ++ crlf := by
    rw [h.output, h.scanned.output]
    simp
  rw [hheader, splitLines_flatMap]
  · rfl
  · intro other hother
    obtain rfl | hother := mem_cons.1 hother
    · exact ⟨h.hasBreak_requestLine, h.getLast_requestLine⟩
    · obtain hother | hother := mem_append.1 hother
      · obtain ⟨name, value, hparsed⟩ := h.scanned.parsed other (mem_of_mem_filter hother)
        have hcr := (headerLine_of_ok hparsed).not_mem_cr
        exact ⟨hasBreak_of_not_mem hcr, fun hlast => hcr (mem_of_getLast? hlast)⟩
      · rw [mem_singleton.1 hother]
        decide

lemma declaredBody_iff :
    declaredBody (headers.filter keeps ++ [ascii "Connection: close"]) = some prepared.body ↔
      ∀ name ∈ ["content-length", "transfer-encoding"], ∀ value ∈ fieldValues name headers,
        trim value = trimBlanks value := by
  have hlength : scan.contentLength.toList =
      (fieldValues "content-length" headers).map (decimalValue ∘ trim) := h.scanned.contentLength
  have hcoding : scan.transferEncoding.toList =
      (fieldValues "transfer-encoding" headers).map trim := h.scanned.transferEncoding
  unfold declaredBody
  rw [upstreamFields_forwarded _ h.scanned.parsed (by decide),
    upstreamFields_forwarded _ h.scanned.parsed (by decide), h.body, bodyOf]
  obtain ⟨hnone, hlengths⟩ | ⟨length, hlengths, hsome⟩ := values_of_toList hlength
  · obtain ⟨hnone', hcodings⟩ | ⟨coding, hcodings, hsome'⟩ := values_of_toList hcoding
    · -- no framing header
      simp [hlengths, hcodings, hnone, hnone']
    · -- chunked
      have hchunked := h.scanned.chunked coding (by rw [hcodings]; exact mem_cons_self)
      simp only [hlengths, hcodings, hsome', map_nil, map_cons, Option.isSome_some,
        if_true, mem_cons, not_mem_nil, or_false, forall_eq_or_imp, forall_eq,
        false_implies, implies_true, true_and]
      constructor
      · intro hdeclared
        split at hdeclared
        · next heq => exact trim_of_chunked heq
        · cases hdeclared
      · intro htrim
        rw [← htrim, if_pos hchunked]
  · -- a length
    have hnone' : scan.transferEncoding = none := by
      refine h.oneFraming.resolve_left ?_
      rw [hsome]
      exact Option.some_ne_none _
    have hcodings : fieldValues "transfer-encoding" headers = [] := by
      rw [hnone'] at hcoding
      exact map_eq_nil_iff.1 hcoding.symm
    obtain ⟨hne, hdigits⟩ := h.scanned.lengthDigits length (by rw [hlengths]; exact mem_cons_self)
    simp only [hlengths, hcodings, hsome, hnone', map_nil, map_cons, Option.isSome_none,
      mem_cons, not_mem_nil, or_false, forall_eq_or_imp, forall_eq,
      false_implies, implies_true, and_true]
    constructor
    · intro hdeclared
      split at hdeclared
      · next hread =>
        exact trim_eq_trimBlanks (tight_of_all hread.1 fun _ hb =>
          isGraphic_of_isDigit (all_eq_true.1 hread.2 _ hb))
      · cases hdeclared
    · intro htrim
      rw [← htrim, if_pos ⟨hne, hdigits⟩]
      rfl

/-- The request line breaks no line exactly if its target does not. -/
lemma requestLine_clean {b : UInt8} (hupper : isUpper b = false) (hblank : b ≠ 32)
    (hhttp10 : b ∉ http10) (hhttp11 : b ∉ http11) :
    b ∉ requestLineText line target ↔ b ∉ target := by
  obtain ⟨-, hmethod, hversion⟩ := parseRequestLine_eq h.requestLine
  have hmethod' : b ∉ line.method := fun hmem => Bool.eq_false_iff.1 hupper (hmethod b hmem)
  have hversion' : b ∉ line.version := by
    obtain hversion | hversion := hversion <;> rw [hversion] <;> assumption
  simp [requestLineText, hmethod', hversion', hblank]

/-- The two readings compared, for a target that is passed on with its line breaks and a `Host`
header that was accepted. -/
lemma wellForwarded_iff {request : ProxyRequest}
    (htarget : ∀ b, b = 13 ∨ b = 10 → (b ∈ target ↔ b ∈ line.target))
    (hhost : ∀ value ∈ fieldValues "host" headers,
      ∃ defaultPort, Authority (trim value) defaultPort request.host request.port) :
    WellForwarded schemePort request prepared ↔ Clean schemePort request header := by
  have hcr : 13 ∉ requestLineText line target ↔ 13 ∉ line.target :=
    (h.requestLine_clean (by decide) (by decide) (by decide) (by decide)).trans
      (not_congr (htarget 13 (.inl rfl)))
  have hlf : 10 ∉ requestLineText line target ↔ 10 ∉ line.target :=
    (h.requestLine_clean (by decide) (by decide) (by decide) (by decide)).trans
      (not_congr (htarget 10 (.inr rfl)))
  have hfields := upstreamFields_forwarded "host" h.scanned.parsed (by decide)
  have htail : (headerLines header).tail = headers := by rw [h.lines, tail_cons]
  constructor
  · rintro ⟨requestLine, lines, hsplit, hlines, ⟨value, hvalues, hnames⟩, hbody⟩
    rw [h.splitLines_eq] at hsplit
    obtain ⟨rfl, rfl⟩ := List.cons.inj (append_cancel_right hsplit)
    obtain ⟨-, hnocr, hnolf⟩ := hlines _ mem_cons_self
    refine ⟨fun first' headers' line' hlines' hline' => ?_, ?_, ?_⟩
    · obtain ⟨rfl, -⟩ := List.cons.inj (h.lines.symm.trans hlines')
      obtain rfl : line = line' := Option.some.inj (h.requestLine.symm.trans hline')
      exact ⟨hcr.1 hnocr, hlf.1 hnolf⟩
    · rw [htail]
      rw [hfields] at hvalues
      obtain ⟨raw, rest, hraw, rfl, -⟩ := map_eq_cons_iff.1 hvalues
      have hmem : raw ∈ fieldValues "host" headers := by
        rw [hraw]
        exact mem_cons_self
      obtain ⟨defaultPort, hauthority⟩ := hhost raw hmem
      exact ⟨raw, hmem, (namesAuthority_iff hauthority).1 hnames⟩
    · rw [htail]
      exact h.declaredBody_iff.1 hbody
  · rintro ⟨hclean, ⟨value, hvalue, hcut⟩, hframing⟩
    rw [htail] at hvalue hframing
    obtain ⟨hnocr, hnolf⟩ := hclean first headers line h.lines h.requestLine
    refine ⟨_, _, h.splitLines_eq, fun other hother => ?_, ?_, h.declaredBody_iff.2 hframing⟩
    · obtain rfl | hother := mem_cons.1 hother
      · exact ⟨by simp [requestLineText], hcr.2 hnocr, hlf.2 hnolf⟩
      · obtain hother | hother := mem_append.1 hother
        · obtain ⟨name, value, hparsed⟩ := h.scanned.parsed other (mem_of_mem_filter hother)
          have hline := headerLine_of_ok hparsed
          exact ⟨hline.ne_nil, hline.not_mem_cr, hline.not_mem_lf⟩
        · rw [mem_singleton.1 hother]
          decide
    · -- the one value that the scan found
      have hvalues : scan.hostHeader.toList = (fieldValues "host" headers).map trim :=
        h.scanned.host
      obtain ⟨-, hnone⟩ | ⟨found, hfound, -⟩ := values_of_toList hvalues
      · rw [hnone] at hvalue
        cases hvalue
      · rw [hfound] at hvalue
        obtain rfl := mem_singleton.1 hvalue
        obtain ⟨defaultPort, hauthority⟩ := hhost value (by rw [hfound]; exact mem_cons_self)
        refine ⟨trimBlanks value, ?_, (namesAuthority_iff hauthority).2 hcut⟩
        rw [hfields, hfound]
        rfl

end

end Prepares

/-! ## Accepted requests -/

/-- An accepted authority holds nothing but the bytes of hosts and ports. -/
lemma Authority.not_mem {defaultPort : Option ℕ} (h : Authority value defaultPort host port)
    {b : UInt8} (hhost : isHostByte b = false) (hdigit : isDigit b = false) (hcolon : b ≠ 58)
    (hplus : b ≠ 43) : b ∉ value := by
  cases h with
  | written name digits hvalue hport hname =>
    rw [hvalue]
    intro hmem
    obtain hmem | hmem := mem_append.1 hmem
    · exact Bool.eq_false_iff.1 hhost ((normalizes_of_ok hname).valueByte hmem)
    · obtain heq | hmem := mem_cons.1 hmem
      · exact hcolon heq
      · obtain ⟨read, rfl | rfl, -, hread, -, -⟩ := parseUnsigned_eq_some hport
        · exact Bool.eq_false_iff.1 hdigit (all_eq_true.1 hread b hmem)
        · obtain heq | hmem := mem_cons.1 hmem
          · exact hplus heq
          · exact Bool.eq_false_iff.1 hdigit (all_eq_true.1 hread b hmem)
  | default _ _ hname =>
    exact fun hmem => Bool.eq_false_iff.1 hhost ((normalizes_of_ok hname).valueByte hmem)

/-- Of an accepted plain target everything that could break a line is passed on. -/
lemma mem_originTarget_iff {target rewritten : Bytes} {b : UInt8}
    (horigin : originTarget target = .ok rewritten)
    (hparse : parseTarget false target = .ok (host, port)) (hb : b = 13 ∨ b = 10) :
    b ∈ rewritten ↔ b ∈ target := by
  unfold originTarget at horigin
  obtain ⟨rest, hrest, horigin⟩ := bind_eq_ok.1 horigin
  rw [orElseThrow_eq_ok] at hrest
  unfold parseTarget at hparse
  rw [hrest] at hparse
  obtain ⟨-, hparse⟩ := check_bind_eq_ok.1 hparse
  have hauthority : b ∉ rest.takeWhile (!endsAuthority ·) := by
    have haccepted := authority_of_ok hparse
    obtain rfl | rfl := hb <;>
      exact haccepted.not_mem (by decide) (by decide) (by decide) (by decide)
  have hscheme : b ∉ ascii "http://" := by
    obtain rfl | rfl := hb <;> decide
  have htarget : target = ascii "http://" ++ (rest.takeWhile (!endsAuthority ·) ++
      rest.dropWhile (!endsAuthority ·)) := by
    rw [takeWhile_append_dropWhile]
    exact (List.isPrefixOf?_eq_some_iff_append_eq.1 hrest).symm
  have hmem : b ∈ target ↔ b ∈ rest.dropWhile (!endsAuthority ·) := by
    rw [htarget, mem_append, mem_append, or_iff_right hscheme, or_iff_right hauthority]
  rw [hmem]
  obtain ⟨-, horigin⟩ := check_bind_eq_ok.1 horigin
  split at horigin
  · next hempty =>
    rw [pure_eq_ok] at horigin
    rw [← horigin, hempty]
    obtain rfl | rfl := hb <;> decide
  · split at horigin
    · cases horigin
    · rw [pure_eq_ok] at horigin
      rw [horigin]

variable {headers : List Bytes}

lemma hostHeader_of_mem {hostHeader : Option Bytes}
    (hvalues : hostHeader.toList = (fieldValues "host" headers).map trim)
    (hvalue : value ∈ fieldValues "host" headers) : hostHeader = some (trim value) := by
  have hmem : trim value ∈ (fieldValues "host" headers).map trim := mem_map_of_mem hvalue
  rwa [← hvalues, Option.mem_toList] at hmem

/-- The `Host` header of an accepted request, as the request reader took it. -/
lemma authority_of_checkHost {hostHeader : Option Bytes}
    (hscan : scanHost none headers = .ok hostHeader)
    (hcheck : checkHost line hostHeader host port = .ok ())
    (hvalue : value ∈ fieldValues "host" headers) :
    ∃ defaultPort, Authority (trim value) defaultPort host port := by
  rw [hostHeader_of_mem (scanHost_ok hscan) hvalue] at hcheck
  obtain ⟨named, hparse, hsame⟩ := bind_eq_ok.1 hcheck
  obtain rfl : named = (host, port) := by simpa using hsame
  exact ⟨_, authority_of_ok hparse⟩

lemma authority_of_checkTlsHost {hostHeader : Option Bytes}
    (hvalues : hostHeader.toList = (fieldValues "host" headers).map trim)
    (hcheck : checkTlsHost (.tlsOrigin host port) hostHeader = .ok ())
    (hvalue : value ∈ fieldValues "host" headers) :
    ∃ defaultPort, Authority (trim value) defaultPort host port := by
  rw [hostHeader_of_mem hvalues hvalue] at hcheck
  unfold checkTlsHost at hcheck
  obtain ⟨authority, hauthority, hcheck⟩ := bind_eq_ok.1 hcheck
  obtain rfl : trim value = authority := by simpa using hauthority
  obtain ⟨named, hparse, hsame⟩ := bind_eq_ok.1 hcheck
  obtain rfl : named = (host, port) := by simpa using hsame
  exact ⟨_, authority_of_ok (mapError_eq_ok.1 hparse)⟩

/-- A server reads every accepted request as the proxy meant it exactly if the request is clean. -/
theorem forwarded_header_iff_clean (policy : NetworkProxyPolicy) (schemePort : ℕ)
    (request : ProxyRequest) (header : Bytes) (prepared : PreparedRequest)
    (h : Forwards policy schemePort request header prepared) :
    WellForwarded schemePort request prepared ↔ Clean schemePort request header := by
  cases h with
  | @plain bytes _ _ hparse hconnect _ hprepare =>
    obtain ⟨found, hheader⟩ := parse_ok hparse
    obtain ⟨first, headers, line, hostHeader, haccepts⟩ := accepts_of_ok hheader
    obtain ⟨first', headers', line', target, scan, hprepares⟩ := prepares_of_ok hprepare
    have hsame : bytes.take request.headerBytes = bytes.take (found + 4) := by
      rw [haccepts.headerBytes, length_take]
      exact (take_eq_take_min ..).symm
    obtain ⟨rfl, rfl⟩ := List.cons.inj (hprepares.lines.symm.trans (hsame ▸ haccepts.lines))
    obtain rfl : line' = line :=
      Option.some.inj (hprepares.requestLine.symm.trans haccepts.requestLine)
    refine hprepares.wellForwarded_iff (fun b hb => ?_) fun value hvalue =>
      authority_of_checkHost haccepts.scanned haccepts.host hvalue
    have htarget := haccepts.target
    rw [hconnect] at htarget
    exact mem_originTarget_iff hprepares.rewritten htarget hb
  | tunnelled _ _ _ hprepare =>
    obtain ⟨first, headers, line, target, scan, hprepares⟩ := prepares_of_ok hprepare
    refine hprepares.wellForwarded_iff (fun b _ => ?_) fun value hvalue =>
      authority_of_checkTlsHost hprepares.scanned.host hprepares.host hvalue
    have hrewritten := hprepares.rewritten
    unfold outputTarget at hrewritten
    obtain ⟨-, hrewritten⟩ := check_bind_eq_ok.1 hrewritten
    rw [pure_eq_ok] at hrewritten
    rw [hrewritten]

/-! ## Requests that read well, and others -/

/-- One permitted endpoint. -/
def mirrorPolicy : NetworkProxyPolicy := ⟨[⟨ascii "mirror.test", 80⟩]⟩

def mirrorRequest (headerBytes : ℕ) : ProxyRequest := ⟨false, ascii "mirror.test", 80, headerBytes⟩

def cleanHeader : Bytes :=
  ascii "POST http://mirror.test/a HTTP/1.1\r\nHost: Mirror.test\r\nContent-Length: 4\r\n\r\n"

def cleanPrepared : PreparedRequest :=
  ⟨ascii "POST /a HTTP/1.1\r\nHost: Mirror.test\r\nContent-Length: 4\r\nConnection: close\r\n\r\n",
    .contentLength 4⟩

theorem forwarded_header_clean :
    Forwards mirrorPolicy 80 (mirrorRequest 76) cleanHeader cleanPrepared ∧
      WellForwarded 80 (mirrorRequest 76) cleanPrepared := by
  have hforwards : Forwards mirrorPolicy 80 (mirrorRequest 76) (cleanHeader.take 76)
    cleanPrepared :=
    .plain (by decide +kernel) rfl (by decide +kernel) (by decide +kernel)
  have hwhole : cleanHeader.take 76 = cleanHeader := by decide +kernel
  rw [hwhole] at hforwards
  have hlines : headerLines cleanHeader = [ascii "POST http://mirror.test/a HTTP/1.1",
      ascii "Host: Mirror.test", ascii "Content-Length: 4"] := by decide +kernel
  have hline : parseRequestLine (ascii "POST http://mirror.test/a HTTP/1.1") =
      some ⟨ascii "POST", ascii "http://mirror.test/a", http11⟩ := by decide +kernel
  refine ⟨hforwards, (forwarded_header_iff_clean _ _ _ _ _ hforwards).2 ⟨?_, ?_, ?_⟩⟩
  · intro first headers line hlines' hline'
    obtain ⟨rfl, rfl⟩ := List.cons.inj (hlines.symm.trans hlines')
    obtain rfl := Option.some.inj (hline.symm.trans hline')
    decide
  · rw [hlines]
    exact ⟨ascii " Mirror.test", by decide +kernel, by decide +kernel, by decide, .inr rfl⟩
  · rw [hlines]
    decide +kernel

lemma not_wellForwarded {request : ProxyRequest} {prepared : PreparedRequest}
    {requestLine : Bytes} (hsplit : splitLines prepared.header = requestLine :: headers ++ [[], []])
    (hbad : 10 ∈ requestLine ∨ upstreamFields "host" headers = [] ∨
      declaredBody headers ≠ some prepared.body) : ¬ WellForwarded schemePort request prepared := by
  rintro ⟨requestLine', headers', hsplit', hlines, ⟨value, hvalues, -⟩, hbody⟩
  obtain ⟨rfl, rfl⟩ := List.cons.inj (append_cancel_right (hsplit.symm.trans hsplit'))
  obtain hlf | hnone | hframing := hbad
  · exact (hlines _ mem_cons_self).2.2 hlf
  · rw [hnone] at hvalues
    cases hvalues
  · exact hframing hbody

/-- A header line hidden in the target behind a bare line feed. -/
def hiddenLine : Bytes :=
  ascii "GET http://mirror.test/\nHost:evil.test HTTP/1.1\r\nHost: mirror.test\r\n\r\n"

/-- A transfer coding behind a no-break space. -/
def hiddenCoding : Bytes :=
  ascii "POST http://mirror.test/ HTTP/1.1\r\nHost: mirror.test\r\nTransfer-Encoding:" ++
    [0xC2, 0xA0] ++ ascii "chunked\r\n\r\n"

/-- A request of the old version without a `Host` header. -/
def noHost : Bytes := ascii "GET http://mirror.test/ HTTP/1.0\r\n\r\n"

def forwardedLine : PreparedRequest :=
  ⟨ascii "GET /\nHost:evil.test HTTP/1.1\r\nHost: mirror.test\r\nConnection: close\r\n\r\n", .none⟩

def forwardedCoding : PreparedRequest :=
  ⟨ascii "POST / HTTP/1.1\r\nHost: mirror.test\r\nTransfer-Encoding:" ++ [0xC2, 0xA0] ++
    ascii "chunked\r\nConnection: close\r\n\r\n", .chunked⟩

def forwardedNoHost : PreparedRequest :=
  ⟨ascii "GET / HTTP/1.0\r\nConnection: close\r\n\r\n", .none⟩

/-- The proxy accepts all three and forwards what a server reads differently. -/
theorem forwarded_header_misread :
    (Forwards mirrorPolicy 80 (mirrorRequest 70) (hiddenLine.take 70) forwardedLine ∧
      ¬ WellForwarded 80 (mirrorRequest 70) forwardedLine) ∧
    (Forwards mirrorPolicy 80 (mirrorRequest 85) (hiddenCoding.take 85) forwardedCoding ∧
      ¬ WellForwarded 80 (mirrorRequest 85) forwardedCoding) ∧
    Forwards mirrorPolicy 80 (mirrorRequest 36) (noHost.take 36) forwardedNoHost ∧
      ¬ WellForwarded 80 (mirrorRequest 36) forwardedNoHost := by
  have hline : splitLines forwardedLine.header = ascii "GET /\nHost:evil.test HTTP/1.1" ::
      [ascii "Host: mirror.test", ascii "Connection: close"] ++ [[], []] := by decide +kernel
  have hcoding : splitLines forwardedCoding.header = ascii "POST / HTTP/1.1" ::
      [ascii "Host: mirror.test", ascii "Transfer-Encoding:" ++ [0xC2, 0xA0] ++ ascii "chunked",
        ascii "Connection: close"] ++ [[], []] := by decide +kernel
  have hnoHost : splitLines forwardedNoHost.header = ascii "GET / HTTP/1.0" ::
      [ascii "Connection: close"] ++ [[], []] := by decide +kernel
  refine ⟨⟨.plain ?_ rfl ?_ ?_, not_wellForwarded hline (.inl (by decide))⟩,
    ⟨.plain ?_ rfl ?_ ?_, not_wellForwarded hcoding (.inr (.inr (by decide +kernel)))⟩,
    .plain ?_ rfl ?_ ?_, not_wellForwarded hnoHost (.inr (.inl (by decide +kernel)))⟩ <;>
    decide +kernel

end SolarisMesh.Proxy
