import SolarisMesh.Proxy.Domain

/-!
# Requests to the proxy

How the proxy reads the header of a request: the request line, the header lines, and the
authority that the target names, which has to agree with the `Host` header and to be
permitted.
-/

namespace SolarisMesh.Proxy

open Lib
open Lib.Bytes

def maxProxyHeaderBytes : ℕ := 64 * 1024

def maxProxyHeaderCount : ℕ := 128

structure ProxyRequest where
  connect : Bool
  host : Bytes
  port : ℕ
  headerBytes : ℕ
deriving DecidableEq, Repr

inductive ProxyRequestError where
  | incomplete
  | tooLarge
  | invalid
  | denied
deriving DecidableEq, Repr

def parseAuthority (value : Bytes) (defaultPort : Option ℕ) :
    Except ProxyRequestError (Bytes × ℕ) := do
  require (!(value = [] || value.head? = some 91 || value.getLast? = some 93)) .invalid
  match rsplitOnce 58 value with
  | some (host, port) =>
    require (!host.contains 58) .invalid
    let port ← orElseThrow .invalid ((parseUnsigned maxPort port).filter (· ≠ 0))
    let host ← (normalizeHost host).mapError fun _ => .invalid
    return (host, port)
  | none =>
    let port ← orElseThrow .invalid defaultPort
    let host ← (normalizeHost value).mapError fun _ => .invalid
    return (host, port)

/-! ## Lines -/

structure RequestLine where
  method : Bytes
  target : Bytes
  version : Bytes
deriving DecidableEq, Repr

def connectMethod : Bytes := ascii "CONNECT"

def http10 : Bytes := ascii "HTTP/1.0"

def http11 : Bytes := ascii "HTTP/1.1"

def parseRequestLine (line : Bytes) : Option RequestLine :=
  match line.splitOn 32 with
  | [method, target, version] =>
    if method ≠ [] ∧ method.all isUpper ∧ (version = http10 ∨ version = http11) then
      some ⟨method, target, version⟩
    else none
  | _ => none

inductive HeaderLineError where
  | folded
  | invalid
deriving DecidableEq, Repr

def isNameByte (b : UInt8) : Bool := isAlphanumeric b || b == 45 || b == 95

/-- A byte of a value: no control character below the space but the tab. -/
def isValueByte (b : UInt8) : Bool := 32 ≤ b || b == 9

def parseHeaderLine (line : Bytes) : Except HeaderLineError (Bytes × Bytes) := do
  require (!(line.head? = some 32 || line.head? = some 9)) .folded
  let (name, value) ← orElseThrow .invalid (splitOnce 58 line)
  require (name ≠ [] && name.all isNameByte && value.all isValueByte) .invalid
  return (name, value)

def hostName : Bytes := ascii "host"

def headerEnd : Bytes := crlf ++ crlf

/-- The lines of a header before the empty one. -/
def headerLines (header : Bytes) : List Bytes := splitLines (header.take (header.length - 4))

/-! ## The request -/

namespace ProxyRequest

/-- Read all header lines, looking for the one `Host` header. -/
def scanHost : Option Bytes → List Bytes → Except ProxyRequestError (Option Bytes)
  | found, [] => .ok found
  | found, line :: rest => do
    let (name, value) ← (parseHeaderLine line).mapError fun _ => .invalid
    if eqIgnoreCase name hostName then
      require found.isNone .invalid
      scanHost (some (trim value)) rest
    else scanHost found rest

def parseTarget (connect : Bool) (target : Bytes) : Except ProxyRequestError (Bytes × ℕ) :=
  if connect then do
    require (!target.any fun b => endsAuthority b || b == 64) .invalid
    parseAuthority target none
  else do
    let (defaultPort, rest) ← orElseThrow .invalid <|
      match (ascii "http://").isPrefixOf? target, (ascii "https://").isPrefixOf? target with
      | some rest, _ => some (80, rest)
      | none, some rest => some (443, rest)
      | none, none => none
    let authority := rest.takeWhile (!endsAuthority ·)
    require (!authority.contains 64) .invalid
    parseAuthority authority (some defaultPort)

def checkHost (line : RequestLine) (hostHeader : Option Bytes) (host : Bytes) (port : ℕ) :
    Except ProxyRequestError Unit :=
  match hostHeader with
  | some value => do
    let named ← parseAuthority value (some port)
    require (named = (host, port)) .invalid
  | none => require (line.method == connectMethod || line.version != http11) .invalid

variable (policy : NetworkProxyPolicy)

/-- Read a header that is complete, with its empty line. -/
def parseHeader (header : Bytes) : Except ProxyRequestError ProxyRequest := do
  require (validUtf8 header && !header.contains 0) .invalid
  match headerLines header with
  | [] => .error .invalid
  | first :: headers =>
    let line ← orElseThrow .invalid (parseRequestLine first)
    require (headers.length ≤ maxProxyHeaderCount) .tooLarge
    let hostHeader ← scanHost none headers
    let connect := line.method == connectMethod
    let (host, port) ← parseTarget connect line.target
    checkHost line hostHeader host port
    require (policy.permits host port) .denied
    return ⟨connect, host, port, header.length⟩

def parse (bytes : Bytes) : Except ProxyRequestError ProxyRequest := do
  require (bytes.length ≤ maxProxyHeaderBytes) .tooLarge
  let position ← orElseThrow .incomplete (position headerEnd bytes)
  parseHeader policy (bytes.take (position + 4))

end ProxyRequest

/-! ## What the readers accept -/

/-- An authority with its port written out, or without one. -/
inductive Authority (value : Bytes) (defaultPort : Option ℕ) (host : Bytes) (port : ℕ) : Prop
  | written (name digits : Bytes) : value = name ++ 58 :: digits →
    parseUnsigned maxPort digits = some port → normalizeHost name = .ok host →
    Authority value defaultPort host port
  | default : 58 ∉ value → defaultPort = some port → normalizeHost value = .ok host →
    Authority value defaultPort host port

lemma authority_of_ok {value host : Bytes} {defaultPort : Option ℕ} {port : ℕ}
    (h : parseAuthority value defaultPort = .ok (host, port)) :
    Authority value defaultPort host port := by
  unfold parseAuthority at h
  obtain ⟨-, h⟩ := check_bind_eq_ok.1 h
  split at h
  · next name digits hsplit =>
    obtain ⟨-, h⟩ := check_bind_eq_ok.1 h
    simp only [bind_eq_ok, orElseThrow_eq_ok, mapError_eq_ok, pure_eq_ok, Prod.mk.injEq,
      Option.filter_eq_some_iff] at h
    obtain ⟨_, ⟨hport, -⟩, _, hhost, rfl, rfl⟩ := h
    exact .written name digits (rsplitOnce_eq_some.1 hsplit).1 hport hhost
  · next hsplit =>
    simp only [bind_eq_ok, orElseThrow_eq_ok, mapError_eq_ok, pure_eq_ok, Prod.mk.injEq] at h
    obtain ⟨_, hport, _, hhost, rfl, rfl⟩ := h
    exact .default (rsplitOnce_eq_none.1 hsplit) hport hhost

namespace Authority

variable {value host : Bytes} {defaultPort : Option ℕ} {port : ℕ}

lemma normalizes (h : Authority value defaultPort host port) :
    ∃ name, Normalizes name host := by
  cases h with
  | written name digits _ _ hhost => exact ⟨name, normalizes_of_ok hhost⟩
  | default _ _ hhost => exact ⟨value, normalizes_of_ok hhost⟩

end Authority

namespace ProxyRequest

/-- How the header of an accepted request is made up. -/
structure Accepts (policy : NetworkProxyPolicy) (header : Bytes) (request : ProxyRequest)
    (first : Bytes) (headers : List Bytes) (line : RequestLine) (hostHeader : Option Bytes) :
    Prop where
  lines : headerLines header = first :: headers
  requestLine : parseRequestLine first = some line
  scanned : scanHost none headers = .ok hostHeader
  target : parseTarget request.connect line.target = .ok (request.host, request.port)
  host : checkHost line hostHeader request.host request.port = .ok ()
  permitted : policy.permits request.host request.port = true
  headerBytes : request.headerBytes = header.length

lemma accepts_of_ok {policy : NetworkProxyPolicy} {header : Bytes} {request : ProxyRequest}
    (h : parseHeader policy header = .ok request) :
    ∃ first headers line hostHeader,
      Accepts policy header request first headers line hostHeader := by
  unfold parseHeader at h
  obtain ⟨-, h⟩ := check_bind_eq_ok.1 h
  split at h
  · cases h
  · next first headers hlines =>
    simp only [bind_eq_ok] at h
    obtain ⟨line, hline, _, -, hostHeader, hhost, ⟨host, port⟩, htarget, _, hcheck, _, hpermits,
      h⟩ := h
    rw [pure_eq_ok] at h
    subst h
    exact ⟨first, headers, line, hostHeader, hlines, orElseThrow_eq_ok.1 hline, hhost, htarget,
      hcheck, require_eq_ok.1 hpermits, rfl⟩

lemma parse_ok {policy : NetworkProxyPolicy} {bytes : Bytes} {request : ProxyRequest}
    (h : parse policy bytes = .ok request) :
    ∃ found, parseHeader policy (bytes.take (found + 4)) = .ok request := by
  simp only [parse, bind_eq_ok] at h
  obtain ⟨_, -, found, -, h⟩ := h
  exact ⟨found, h⟩

lemma authority_of_parseTarget {connect : Bool} {target host : Bytes} {port : ℕ}
    (h : parseTarget connect target = .ok (host, port)) :
    ∃ value defaultPort, Authority value defaultPort host port ∧
      ∀ port, defaultPort = some port → port ≤ maxPort := by
  unfold parseTarget at h
  split at h
  · obtain ⟨-, h⟩ := check_bind_eq_ok.1 h
    exact ⟨target, none, authority_of_ok h, fun _ hport => nomatch hport⟩
  · obtain ⟨⟨defaultPort, rest⟩, hscheme, h⟩ := bind_eq_ok.1 h
    obtain ⟨-, h⟩ := check_bind_eq_ok.1 h
    refine ⟨_, some defaultPort, authority_of_ok h, fun port hport => ?_⟩
    cases hport
    rw [orElseThrow_eq_ok] at hscheme
    split at hscheme <;> cases hscheme <;> decide

end ProxyRequest

/-- Under a policy made from permissions, an endpoint is permitted exactly if one of them covers
it, and the target of every accepted request is. -/
theorem network_proxy_permits_iff_covered (domains : List Bytes) (policy : NetworkProxyPolicy)
    (h : NetworkProxyPolicy.fromPermissionDomains domains = .ok policy) :
    (∀ host port, PlainHost host → port ≤ maxPort → (policy.permits host port = true ↔
      ∃ domain ∈ domains, permissionDomainIsCovered (endpointText host port) domain = .ok true)) ∧
    ∀ bytes request, ProxyRequest.parse policy bytes = .ok request →
      policy.permits request.host request.port = true ∧
      ∃ domain ∈ domains,
        permissionDomainIsCovered (endpointText request.host request.port) domain = .ok true := by
  refine ⟨fun host port hhost hport => NetworkProxyPolicy.permits_iff_covered h hhost hport, ?_⟩
  intro bytes request hparse
  obtain ⟨_, hheader⟩ := ProxyRequest.parse_ok hparse
  obtain ⟨_, _, _, _, haccepts⟩ := ProxyRequest.accepts_of_ok hheader
  obtain ⟨_, _, hauthority, hdefault⟩ := ProxyRequest.authority_of_parseTarget haccepts.target
  obtain ⟨_, hnormalizes⟩ := hauthority.normalizes
  have hplain : PlainHost request.host := plainHost_of_hostByte fun _ hb => hnormalizes.hostByte hb
  have hport : request.port ≤ maxPort := by
    cases hauthority with
    | written name digits _ hport _ => exact parseUnsigned_le hport
    | default _ hport _ => exact hdefault _ hport
  refine ⟨haccepts.permitted, ?_⟩
  exact (NetworkProxyPolicy.permits_iff_covered h hplain hport).1 haccepts.permitted

/-- Two permissions, and a request to one of them that writes its host in its own way. -/
def somePermissions : List Bytes := [ascii "https://Example.com/", ascii "mirror.test:8080"]

def someRequest : Bytes :=
  ascii "GET http://MIRROR.test.:8080/a HTTP/1.1\r\nHost: Mirror.Test\r\n\r\n"

theorem network_proxy_permits_mirror :
    ∃ policy, NetworkProxyPolicy.fromPermissionDomains somePermissions = .ok policy ∧
      (∃ request, ProxyRequest.parse policy someRequest = .ok request ∧
        policy.permits request.host request.port = true) ∧
      policy.permits (ascii "EXAMPLE.com.") 443 = true := by
  refine ⟨⟨[⟨ascii "mirror.test", 8080⟩, ⟨ascii "example.com", 443⟩]⟩, by decide +kernel, ?_⟩
  obtain ⟨hcovered, hrequests⟩ := network_proxy_permits_iff_covered somePermissions
    ⟨[⟨ascii "mirror.test", 8080⟩, ⟨ascii "example.com", 443⟩]⟩ (by decide +kernel)
  refine ⟨⟨⟨false, ascii "mirror.test", 8080, 62⟩, by decide +kernel,
    (hrequests someRequest _ (by decide +kernel)).1⟩, ?_⟩
  refine (hcovered (ascii "EXAMPLE.com.") 443 (by unfold PlainHost; decide +kernel) (by decide)).2
    ?_
  exact ⟨ascii "https://Example.com/", by decide +kernel, by decide +kernel⟩

end SolarisMesh.Proxy
