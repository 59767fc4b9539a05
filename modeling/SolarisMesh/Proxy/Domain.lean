import SolarisMesh.Lib.Bytes
import SolarisMesh.Lib.Checked

/-!
# Network permissions

How a permission for a network domain is read: as one exact endpoint, a host and a port. Two
readers decide about such endpoints, the policy of the network proxy and the check that one
permission covers another.
-/

namespace SolarisMesh.Proxy

open List Lib
open Lib.Bytes

inductive NetworkProxyPolicyError where
  | invalidDomain
  | ipLiteral
  | wildcard
  | userInfo
  | metadataService
  | tooManyEndpoints
deriving DecidableEq, Repr

structure ApprovedNetworkEndpoint where
  host : Bytes
  port : ℕ
deriving DecidableEq, Repr

def maxPermissionValueBytes : ℕ := 2048

def maxNetworkProxyEndpoints : ℕ := 32

/-- The largest port, of 16 bits. -/
def maxPort : ℕ := 65535

/-- The part of a dotted address: up to three digits without a leading zero. -/
def isOctet (part : Bytes) : Bool :=
  part ≠ [] && part.length ≤ 3 && part.all isDigit && (part.length = 1 || part.head? ≠ some 48) &&
    decimalValue part ≤ 255

/-- An address of version 4. One of version 6 has a colon, which no label of a host has. -/
def isIpAddress (host : Bytes) : Bool :=
  (host.splitOn 46).length = 4 && (host.splitOn 46).all isOctet

def localHost : Bytes := ascii "localhost"

def metadataHosts : List Bytes :=
  [ascii "metadata", ascii "instance-data", ascii "metadata.google.internal",
    ascii "metadata.azure.internal", ascii "instance-data.ec2.internal",
    ascii "metadata.aws.internal"]

def isLabelByte (b : UInt8) : Bool := isAlphanumeric b || b == 45

def isLabel (label : Bytes) : Bool :=
  label ≠ [] && label.length ≤ 63 && label.head?.any isAlphanumeric &&
    label.getLast?.any isAlphanumeric && label.all isLabelByte

def normalizeHost (value : Bytes) : Except NetworkProxyPolicyError Bytes := do
  let host := toLower ((stripSuffix [46] value).getD value)
  require (!isIpAddress host) .ipLiteral
  require (!(host == localHost || (ascii ".localhost").isSuffixOf host ||
    metadataHosts.contains host)) .metadataService
  require (host ≠ [] && host.length ≤ 253 && host.all (· < 128)) .invalidDomain
  require ((host.splitOn 46).all isLabel) .invalidDomain
  return host

/-- A character with the property `Cc`: the ASCII ones, and U+0080 to U+009F in two bytes. -/
def hasControl : Bytes → Bool
  | [] => false
  | [b] => isControl b
  | a :: b :: rest => isControl a || (a == 0xC2 && 0x80 ≤ b && b ≤ 0x9F) || hasControl (b :: rest)

/-- Where the authority of an address ends. -/
def endsAuthority (b : UInt8) : Bool := b == 47 || b == 63 || b == 35

def authority (value : Bytes) : Except NetworkProxyPolicyError Bytes :=
  let authority := value.takeWhile (!endsAuthority ·)
  if authority = [] then .error .invalidDomain else .ok authority

/-- The authority that a permission names, and its port if it states none. -/
def domainAuthority (value : Bytes) : Except NetworkProxyPolicyError (Bytes × ℕ) :=
  match (ascii "https://").isPrefixOf? value, (ascii "http://").isPrefixOf? value with
  | some rest, _ => (authority rest).map (·, 443)
  | none, some rest => (authority rest).map (·, 80)
  | none, none =>
    if containsText (ascii "://") value || value.any endsAuthority then .error .invalidDomain
    else .ok (value, 443)

def parsePermissionDomain (value : Bytes) :
    Except NetworkProxyPolicyError (List ApprovedNetworkEndpoint) := do
  require (value ≠ [] && value.length ≤ maxPermissionValueBytes && trim value == value &&
    !hasControl value) .invalidDomain
  require (!value.contains 42) .wildcard
  let (authority, defaultPort) ← domainAuthority value
  require (!authority.contains 64) .userInfo
  require (!(authority.head? = some 91 || authority.getLast? = some 93)) .ipLiteral
  match rsplitOnce 58 authority with
  | some (host, port) =>
    require (!host.contains 58) .ipLiteral
    let port ← orElseThrow .invalidDomain ((parseUnsigned maxPort port).filter (· ≠ 0))
    let host ← normalizeHost host
    return [⟨host, port⟩]
  | none =>
    let host ← normalizeHost authority
    return [⟨host, defaultPort⟩]

/-- The permitted endpoints. The source keeps them sorted and searches by bisection. -/
structure NetworkProxyPolicy where
  endpoints : List ApprovedNetworkEndpoint := []
deriving DecidableEq, Repr

namespace NetworkProxyPolicy

def insertEndpoint (endpoints : List ApprovedNetworkEndpoint) (endpoint : ApprovedNetworkEndpoint) :
    Except NetworkProxyPolicyError (List ApprovedNetworkEndpoint) := do
  let endpoints := endpoints.insert endpoint
  require (endpoints.length ≤ maxNetworkProxyEndpoints) .tooManyEndpoints
  return endpoints

def insertDomain (endpoints : List ApprovedNetworkEndpoint) (domain : Bytes) :
    Except NetworkProxyPolicyError (List ApprovedNetworkEndpoint) := do
  let parsed ← parsePermissionDomain domain
  parsed.foldlM insertEndpoint endpoints

def fromPermissionDomains (domains : List Bytes) :
    Except NetworkProxyPolicyError NetworkProxyPolicy := do
  let endpoints ← domains.foldlM insertDomain []
  return ⟨endpoints⟩

def permits (policy : NetworkProxyPolicy) (host : Bytes) (port : ℕ) : Bool :=
  match normalizeHost host with
  | .ok host => policy.endpoints.contains ⟨host, port⟩
  | .error _ => false

end NetworkProxyPolicy

def permissionDomainIsCovered (requested allowed : Bytes) : Except NetworkProxyPolicyError
    Bool := do
  let requested ← parsePermissionDomain requested
  let allowed ← parsePermissionDomain allowed
  return requested.all allowed.contains

/-! ## Hosts -/

/-- A byte of a host as it is written: of a label, or a dot. -/
def isHostByte (b : UInt8) : Bool := isLabelByte b || b == 46

variable {b : UInt8}

lemma isGraphic_of_isHostByte (h : isHostByte b = true) : isGraphic b = true :=
  byte_implies (by decide +kernel) h

lemma isHostByte_of_lower (h : isHostByte (lower b) = true) : isHostByte b = true :=
  byte_implies (p := fun b => isHostByte (lower b)) (by decide +kernel) h

variable {value host : Bytes}

/-- A text that comes to a host has the bytes of one. -/
lemma hostByte_of_eq_toLower (heq : host = toLower ((stripSuffix [46] value).getD value))
    (hhost : ∀ b ∈ host, isHostByte b = true) (hb : b ∈ value) :
    isHostByte b = true := by
  have hlower : ∀ c ∈ (stripSuffix [46] value).getD value, isHostByte c = true := by
    intro c hc
    refine isHostByte_of_lower (hhost _ ?_)
    rw [heq]
    exact mem_map_of_mem hc
  unfold stripSuffix at hlower
  split at hlower
  · next hsuffix =>
    -- the value is what is left and its last dot
    obtain ⟨init, rfl⟩ := isSuffixOf_iff_suffix.1 hsuffix
    obtain hb | hb := mem_append.1 hb
    · exact hlower b (by simpa using hb)
    · rw [mem_singleton.1 hb]
      decide
  · exact hlower b hb

/-- What the host reader accepts. -/
structure Normalizes (value host : Bytes) : Prop where
  eq : host = toLower ((stripSuffix [46] value).getD value)
  nonempty : host ≠ []
  short : host.length ≤ 253
  labels : ∀ label ∈ host.splitOn 46, isLabel label = true

lemma normalizes_of_ok (h : normalizeHost value = .ok host) :
    Normalizes value host := by
  unfold normalizeHost at h
  dsimp only at h
  simp only [bind_eq_ok] at h
  obtain ⟨_, -, _, -, _, hshape, _, hlabels, h⟩ := h
  rw [pure_eq_ok] at h
  subst h
  simp only [require_eq_ok, Bool.and_eq_true, decide_eq_true_eq, all_eq_true] at hshape hlabels
  exact ⟨rfl, hshape.1.1, hshape.1.2, hlabels⟩

namespace Normalizes

lemma hostByte (h : Normalizes value host) (hb : b ∈ host) : isHostByte b = true := by
  obtain rfl | ⟨label, hlabel, hb⟩ := mem_part_of_mem 46 hb
  · decide
  · have hall := h.labels label hlabel
    simp only [isLabel, Bool.and_eq_true, all_eq_true] at hall
    rw [isHostByte, hall.2 b hb, Bool.true_or]

lemma valueByte (h : Normalizes value host) (hb : b ∈ value) :
    isHostByte b = true :=
  hostByte_of_eq_toLower h.eq (fun _ => h.hostByte) hb

lemma value_length_le (h : Normalizes value host) : value.length ≤ 254 := by
  have hlength := h.short
  rw [h.eq, toLower, length_map] at hlength
  unfold stripSuffix at hlength
  split at hlength
  · simp at hlength
    omega
  · simp at hlength
    omega

end Normalizes

/-! ## One endpoint, written out and read back -/

/-- A host and a port as they stand in a permission. -/
def endpointText (host : Bytes) (port : ℕ) : Bytes := host ++ 58 :: decimal port

/-- The host holds nothing that would end or structure an authority. -/
def PlainHost (host : Bytes) : Prop :=
  ∀ b ∈ host, b ≠ 47 ∧ b ≠ 63 ∧ b ≠ 35 ∧ b ≠ 64 ∧ b ≠ 58

lemma plainHost_of_hostByte (h : ∀ b ∈ host, isHostByte b = true) :
    PlainHost host := by
  intro b hb
  have hbyte := h b hb
  refine ⟨?_, ?_, ?_, ?_, ?_⟩ <;> rintro rfl <;> exact absurd hbyte (by decide)

lemma isGraphic_of_isDigit (h : isDigit b = true) : isGraphic b = true :=
  byte_implies (by decide +kernel) h

lemma not_endsAuthority_of_isDigit (h : isDigit b = true) : endsAuthority b = false := by
  simpa using byte_implies (q := (!endsAuthority ·)) (by decide +kernel) h

lemma mem_endpointText {port : ℕ} (h : b ∈ endpointText host port) :
    b ∈ host ∨ b = 58 ∨ isDigit b = true :=
  (mem_append.1 h).imp_right fun hb => (mem_cons.1 hb).imp_right mem_decimal

lemma not_endsAuthority_endpointText (hhost : PlainHost host) (port : ℕ) :
    ∀ b ∈ endpointText host port, endsAuthority b = false := by
  intro b hb
  obtain hb | rfl | hb := mem_endpointText hb
  · obtain ⟨hslash, hquery, hfragment, -, -⟩ := hhost b hb
    simp [endsAuthority, hslash, hquery, hfragment]
  · decide
  · exact not_endsAuthority_of_isDigit hb

/-- A text without a slash, a query or a fragment is its own authority. -/
lemma domainAuthority_of_plain (h : ∀ b ∈ value, endsAuthority b = false) :
    domainAuthority value = .ok (value, 443) := by
  have hslash : (47 : UInt8) ∉ value := fun hmem => absurd (h 47 hmem) (by decide)
  have hscheme : ∀ scheme : Bytes, 47 ∈ scheme → scheme.isPrefixOf? value = none := by
    intro scheme hmem
    cases hfound : scheme.isPrefixOf? value with
    | none => rfl
    | some rest =>
      rw [List.isPrefixOf?_eq_some_iff_append_eq] at hfound
      exact absurd (hfound ▸ mem_append_left rest hmem) hslash
  have hcontains : containsText (ascii "://") value = false := by
    refine Bool.eq_false_iff.2 fun hfound => hslash ?_
    exact (infix_of_containsText hfound).subset (by decide)
  have hany : value.any endsAuthority = false := any_eq_false.2 fun b hb => by simp [h b hb]
  unfold domainAuthority
  rw [hscheme _ (by decide), hscheme _ (by decide), hcontains, hany]
  rfl

lemma hasControl_of_graphic (h : ∀ b ∈ value, isGraphic b = true) :
    hasControl value = false := by
  have hbyte : ∀ b : UInt8, isGraphic b = true → isControl b = false ∧ (b == 0xC2) = false := by
    intro b hb
    simpa using byte_implies (q := fun b => !isControl b && !(b == 0xC2)) (by decide +kernel) hb
  fun_induction hasControl value with
  | case1 => rfl
  | case2 b => exact (hbyte b (h b mem_cons_self)).1
  | case3 a b rest ih =>
    obtain ⟨hcontrol, hlead⟩ := hbyte a (h a mem_cons_self)
    rw [hcontrol, hlead, ih fun c hc => h c (mem_cons_of_mem _ hc)]
    rfl

variable {port : ℕ}

/-- The first checks on a permission, passed by a host that can be normalized. -/
lemma endpointText_shape {normal : Bytes} (h : Normalizes host normal) (hport : port ≤ maxPort) :
    (endpointText host port ≠ [] &&
      (endpointText host port).length ≤ maxPermissionValueBytes &&
      trim (endpointText host port) == endpointText host port &&
      !hasControl (endpointText host port)) = true := by
  have hgraphic : ∀ b ∈ endpointText host port, isGraphic b = true := by
    intro b hb
    obtain hb | rfl | hb := mem_endpointText hb
    · exact isGraphic_of_isHostByte (h.valueByte hb)
    · decide
    · exact isGraphic_of_isDigit hb
  have hne : endpointText host port ≠ [] := by simp [endpointText]
  have hlength : (endpointText host port).length ≤ maxPermissionValueBytes := by
    have hdigits : (decimal port).length ≤ 5 :=
      length_decimal_le (by norm_num) (Nat.lt_of_le_of_lt hport (by decide))
    have hhost := h.value_length_le
    simp only [endpointText, length_append, length_cons, maxPermissionValueBytes]
    omega
  have htrim : trim (endpointText host port) = endpointText host port :=
    trim_eq_self (tight_of_all hne hgraphic)
  rw [htrim, hasControl_of_graphic hgraphic]
  simp [hne, hlength]

variable {endpoints : List ApprovedNetworkEndpoint}

/-- Reading an endpoint as a permission is reading its host. -/
lemma parsePermissionDomain_endpointText (hhost : PlainHost host) (hport : port ≤ maxPort) :
    parsePermissionDomain (endpointText host port) = .ok endpoints ↔
      port ≠ 0 ∧ ∃ normal, normalizeHost host = .ok normal ∧ endpoints = [⟨normal, port⟩] := by
  have hauthority := domainAuthority_of_plain (not_endsAuthority_endpointText hhost port)
  have hcolon : (58 : UInt8) ∉ decimal port := fun hmem => absurd (mem_decimal hmem) (by decide)
  have hsplit : rsplitOnce 58 (endpointText host port) = some (host, decimal port) :=
    rsplitOnce_eq_some.2 ⟨rfl, hcolon⟩
  have hnocolon : host.contains 58 = false := by
    simpa using fun hmem => (hhost 58 hmem).2.2.2.2 rfl
  have hparse := parseUnsigned_decimal hport
  constructor
  · intro h
    simp only [parsePermissionDomain, hauthority, bind_eq_ok] at h
    obtain ⟨_, _, _, _, _, ⟨⟩, _, _, _, _, h⟩ := h
    simp only [hsplit, bind_eq_ok, orElseThrow_eq_ok, pure_eq_ok, hparse,
      Option.filter_eq_some_iff, Option.some.injEq] at h
    obtain ⟨_, _, _, ⟨rfl, hzero⟩, normal, hnormal, rfl⟩ := h
    exact ⟨by simpa using hzero, normal, hnormal, rfl⟩
  · rintro ⟨hzero, normal, hnormal, rfl⟩
    have hnormalizes := normalizes_of_ok hnormal
    have hnot {b : UInt8} (hb : ¬ (isHostByte b = true ∨ b = 58 ∨ isDigit b = true)) :
        b ∉ endpointText host port :=
      fun hmem => hb ((mem_endpointText hmem).imp_left hnormalizes.valueByte)
    have hstar := @hnot 42 (by decide)
    have hat := @hnot 64 (by decide)
    have hopen : (endpointText host port).head? ≠ some 91 := fun hhead =>
      hnot (by decide) (mem_of_head? hhead)
    have hclose : (endpointText host port).getLast? ≠ some 93 := fun hlast =>
      hnot (by decide) (mem_of_getLast? hlast)
    unfold parsePermissionDomain
    refine check_bind_eq_ok.2 ⟨require_eq_ok.2 (endpointText_shape hnormalizes hport), ?_⟩
    refine check_bind_eq_ok.2 ⟨require_eq_ok.2 (by simpa using hstar), ?_⟩
    rw [hauthority]
    refine check_bind_eq_ok.2 ⟨require_eq_ok.2 (by simpa using hat), ?_⟩
    refine check_bind_eq_ok.2 ⟨require_eq_ok.2 (by simp [hopen, hclose]), ?_⟩
    rw [hsplit]
    refine check_bind_eq_ok.2 ⟨require_eq_ok.2 (by rw [hnocolon]; rfl), ?_⟩
    refine bind_eq_ok.2 ⟨port, orElseThrow_eq_ok.2 ?_, bind_eq_ok.2 ⟨normal, hnormal, rfl⟩⟩
    rw [hparse, Option.filter_some, if_pos (by simpa using hzero)]

lemma defaultPort_ne_zero {authority : Bytes} (h : domainAuthority value = .ok (authority, port)) :
    port ≠ 0 := by
  have hmap : ∀ {read : Except NetworkProxyPolicyError Bytes} {default : ℕ},
      read.map (·, default) = .ok (authority, port) → port = default := by
    intro read default hread
    obtain ⟨text, -, heq⟩ := map_eq_ok.1 hread
    exact (Prod.mk.inj heq).2.symm
  unfold domainAuthority at h
  split at h
  · rw [hmap h]
    decide
  · rw [hmap h]
    decide
  · split at h
    · cases h
    · cases h
      decide

/-- No permission names port 0. -/
lemma port_ne_zero (h : parsePermissionDomain value = .ok endpoints) :
    ∀ endpoint ∈ endpoints, endpoint.port ≠ 0 := by
  simp only [parsePermissionDomain, bind_eq_ok] at h
  obtain ⟨_, -, _, -, ⟨authority, defaultPort⟩, hauthority, _, -, _, -, h⟩ := h
  split at h
  · obtain ⟨-, h⟩ := check_bind_eq_ok.1 h
    simp only [bind_eq_ok, orElseThrow_eq_ok, pure_eq_ok, Option.filter_eq_some_iff] at h
    obtain ⟨port, ⟨-, hzero⟩, normal, -, rfl⟩ := h
    intro endpoint hmem
    rw [mem_singleton.1 hmem]
    simpa using hzero
  · simp only [bind_eq_ok, pure_eq_ok] at h
    obtain ⟨normal, -, rfl⟩ := h
    intro endpoint hmem
    rw [mem_singleton.1 hmem]
    exact defaultPort_ne_zero hauthority

/-! ## Two readers of one permission -/

namespace NetworkProxyPolicy

variable {after : List ApprovedNetworkEndpoint} {policy : NetworkProxyPolicy}

lemma mem_of_foldlM_insertEndpoint {parsed : List ApprovedNetworkEndpoint}
    (h : parsed.foldlM insertEndpoint endpoints = .ok after) (other : ApprovedNetworkEndpoint) :
    other ∈ after ↔ other ∈ endpoints ∨ other ∈ parsed := by
  induction parsed generalizing endpoints with
  | nil =>
    rw [foldlM_nil, pure_eq_ok] at h
    simp [h]
  | cons endpoint parsed ih =>
    rw [foldlM_cons, bind_eq_ok] at h
    obtain ⟨next, hnext, h⟩ := h
    obtain ⟨-, hnext⟩ := check_bind_eq_ok.1 hnext
    rw [pure_eq_ok] at hnext
    rw [ih h, ← hnext, mem_insert_iff, mem_cons]
    tauto

variable {domains : List Bytes}

/-- The policy holds the endpoints of its permissions, all of which could be read. -/
lemma mem_of_foldlM_insertDomain (h : domains.foldlM insertDomain endpoints = .ok after)
    (other : ApprovedNetworkEndpoint) :
    other ∈ after ↔ other ∈ endpoints ∨
      ∃ domain ∈ domains, ∃ parsed, parsePermissionDomain domain = .ok parsed ∧ other ∈ parsed := by
  induction domains generalizing endpoints with
  | nil =>
    rw [foldlM_nil, pure_eq_ok] at h
    simp [h]
  | cons domain domains ih =>
    rw [foldlM_cons, bind_eq_ok] at h
    obtain ⟨next, hnext, h⟩ := h
    unfold insertDomain at hnext
    obtain ⟨parsed, hparsed, hnext⟩ := bind_eq_ok.1 hnext
    rw [ih h, mem_of_foldlM_insertEndpoint hnext]
    simp only [mem_cons, exists_eq_or_imp, hparsed, Except.ok.injEq, exists_eq_left']
    tauto

lemma mem_endpoints (h : fromPermissionDomains domains = .ok policy)
    (endpoint : ApprovedNetworkEndpoint) :
    endpoint ∈ policy.endpoints ↔ ∃ domain ∈ domains, ∃ parsed,
      parsePermissionDomain domain = .ok parsed ∧ endpoint ∈ parsed := by
  unfold fromPermissionDomains at h
  obtain ⟨endpoints, hfold, h⟩ := bind_eq_ok.1 h
  rw [pure_eq_ok] at h
  rw [← h, mem_of_foldlM_insertDomain hfold]
  simp

lemma permits_iff : policy.permits host port = true ↔
      ∃ normal, normalizeHost host = .ok normal ∧ ⟨normal, port⟩ ∈ policy.endpoints := by
  unfold permits
  split
  · next normal hnormal => simp [hnormal]
  · next error herror => simp [herror]

/-- The proxy permits an endpoint exactly if one of its permissions covers it. -/
lemma permits_iff_covered (h : fromPermissionDomains domains = .ok policy)
    (hhost : PlainHost host) (hport : port ≤ maxPort) :
    policy.permits host port = true ↔
      ∃ domain ∈ domains, permissionDomainIsCovered (endpointText host port) domain = .ok true := by
  rw [permits_iff]
  constructor
  · rintro ⟨normal, hnormal, hmem⟩
    obtain ⟨domain, hdomain, parsed, hparsed, hmem⟩ := (mem_endpoints h _).1 hmem
    have hzero : port ≠ 0 := port_ne_zero hparsed _ hmem
    have hrequested := (parsePermissionDomain_endpointText hhost hport).2
      ⟨hzero, normal, hnormal, rfl⟩
    refine ⟨domain, hdomain, ?_⟩
    unfold permissionDomainIsCovered
    refine bind_eq_ok.2 ⟨_, hrequested, bind_eq_ok.2 ⟨_, hparsed, ?_⟩⟩
    rw [pure_eq_ok]
    simpa using hmem
  · rintro ⟨domain, hdomain, hcovered⟩
    simp only [permissionDomainIsCovered, bind_eq_ok] at hcovered
    obtain ⟨requested, hrequested, parsed, hparsed, hcovered⟩ := hcovered
    obtain ⟨-, normal, hnormal, rfl⟩ := (parsePermissionDomain_endpointText hhost hport).1
      hrequested
    rw [pure_eq_ok] at hcovered
    exact ⟨normal, hnormal, (mem_endpoints h _).2
      ⟨domain, hdomain, parsed, hparsed, by simpa using hcovered⟩⟩

end NetworkProxyPolicy

end SolarisMesh.Proxy
