import SolarisMesh.Proxy.Request

/-!
# Requests as the proxy forwards them

The proxy rewrites the header of a request before it sends it upstream: the target becomes a
path, connection headers go, the others are passed on line by line, and the headers that frame
the body are read on the way.
-/

namespace SolarisMesh.Proxy

open Lib
open Lib.Bytes

def maxProxyBodyBytes : ℕ := 64 * 1024 * 1024

/-- The largest number of 64 bits. -/
def maxLength : ℕ := 2 ^ 64 - 1

inductive RequestBody where
  | none
  | contentLength (length : ℕ)
  | chunked
deriving DecidableEq, Repr

structure PreparedRequest where
  header : Bytes
  body : RequestBody
deriving DecidableEq, Repr

inductive RequestTarget where
  | absoluteHttp
  | tlsOrigin (host : Bytes) (port : ℕ)
deriving DecidableEq, Repr

/-- The errors of a connection, by their kind. -/
inductive HttpError where
  | invalidData (message : String)
  | permissionDenied (message : String)
  | unexpectedEof (message : String)
deriving DecidableEq, Repr

def headerText (header : Bytes) : Except HttpError Unit := do
  require (header.length ≤ maxProxyHeaderBytes && headerEnd.isSuffixOf header)
    (.invalidData "proxy HTTP header is invalid")
  require (validUtf8 header) (.invalidData "proxy HTTP header is not UTF-8")
  require (!header.contains 0) (.invalidData "proxy HTTP header contains a null byte")

def httpHeaderLine (line : Bytes) : Except HttpError (Bytes × Bytes) :=
  (parseHeaderLine line).mapError fun
    | .folded => .invalidData "proxy folded HTTP header is unsupported"
    | .invalid => .invalidData "proxy HTTP header is invalid"

def named (name : Bytes) (header : String) : Bool := eqIgnoreCase name (ascii header)

/-! ## The CONNECT request -/

def scanConnectLine (seen : Bool × Bool) (line : Bytes) : Except HttpError (Bool × Bool) := do
  let (hostHeader, contentLength) := seen
  let (name, value) ← httpHeaderLine line
  require (!(named name "host" && hostHeader))
    (.invalidData "proxy CONNECT Host header is duplicated")
  let hostHeader := hostHeader || named name "host"
  if named name "content-length" then
    require (!contentLength && trim value == ascii "0")
      (.invalidData "proxy CONNECT request body is unsupported")
    return (hostHeader, true)
  else
    require (!(named name "transfer-encoding" || named name "expect" || named name "upgrade"))
      (.invalidData "proxy CONNECT request framing is unsupported")
    return (hostHeader, contentLength)

def validateConnectHeader (header : Bytes) : Except HttpError Unit := do
  headerText header
  match headerLines header with
  | [] => .error (.invalidData "proxy CONNECT request line is missing")
  | first :: headers =>
    require ((ascii " HTTP/1.1").isSuffixOf first) (.invalidData "proxy CONNECT requires HTTP/1.1")
    let (hostHeader, _) ← headers.foldlM scanConnectLine (false, false)
    require hostHeader (.invalidData "proxy CONNECT Host header is missing")

/-! ## Targets -/

def validOriginTarget (target : Bytes) : Bool :=
  (target == ascii "*" || (target.head? = some 47 && !(ascii "//").isPrefixOf target)) &&
    !target.contains 35 && !target.any fun b => isControl b || b == 32

def originTarget (target : Bytes) : Except HttpError Bytes := do
  let rest ← orElseThrow (.invalidData "proxy request is not plaintext HTTP")
    ((ascii "http://").isPrefixOf? target)
  let target := rest.dropWhile (!endsAuthority ·)
  require (!target.contains 35) (.invalidData "proxy request target contains a fragment")
  if target = [] then return ascii "/"
  else if target.head? = some 63 then
    .error (.invalidData "proxy request target without a path is unsupported")
  else return target

def outputTarget (kind : RequestTarget) (line : RequestLine) : Except HttpError Bytes :=
  match kind with
  | .absoluteHttp => originTarget line.target
  | .tlsOrigin _ _ => do
    require (line.version == http11 && line.method != connectMethod && validOriginTarget
      line.target) (.invalidData "proxy TLS request target is invalid")
    return line.target

/-! ## Header lines -/

/-- What has been written and read of a header so far. -/
structure HeaderScan where
  output : Bytes
  contentLength : Option ℕ := none
  transferEncoding : Option Bytes := none
  hostHeader : Option Bytes := none
  count : ℕ := 0

/-- The headers that concern the connection to the proxy only. -/
def dropped (name : Bytes) : Bool :=
  named name "connection" || named name "proxy-connection" || named name "proxy-authorization"

def scanContentLength (found : Option ℕ) (name value : Bytes) : Except HttpError (Option ℕ) :=
  if named name "content-length" then do
    require (found.isNone && trim value != [] && (trim value).all isDigit)
      (.invalidData "proxy Content-Length is invalid")
    let length ← orElseThrow (.invalidData "proxy Content-Length exceeds the limit")
      ((parseUnsigned maxLength (trim value)).filter (· ≤ maxProxyBodyBytes))
    return some length
  else return found

def scanTransferEncoding (found : Option Bytes) (name value : Bytes) :
    Except HttpError (Option Bytes) :=
  if named name "transfer-encoding" then do
    require (found.isNone && eqIgnoreCase (trim value) (ascii "chunked"))
      (.invalidData "proxy Transfer-Encoding is unsupported")
    return some (trim value)
  else return found

def scanLine (scan : HeaderScan) (line : Bytes) : Except HttpError HeaderScan := do
  require (scan.count < maxProxyHeaderCount) (.invalidData "proxy HTTP header count is too large")
  let (name, value) ← httpHeaderLine line
  require (!(named name "host" && scan.hostHeader.isSome))
    (.invalidData "proxy Host header is duplicated")
  let hostHeader := if named name "host" then some (trim value) else scan.hostHeader
  if dropped name then
    return { scan with hostHeader := hostHeader, count := scan.count + 1 }
  else
    require (!(named name "expect" || named name "upgrade"))
      (.invalidData "proxy HTTP protocol switch is unsupported")
    let contentLength ← scanContentLength scan.contentLength name value
    let transferEncoding ← scanTransferEncoding scan.transferEncoding name value
    return ⟨scan.output ++ line ++ crlf, contentLength, transferEncoding, hostHeader,
      scan.count + 1⟩

def checkTlsHost (kind : RequestTarget) (hostHeader : Option Bytes) : Except HttpError Unit :=
  match kind with
  | .absoluteHttp => .ok ()
  | .tlsOrigin host port => do
    let authority ← orElseThrow (.invalidData "proxy TLS Host header is missing") hostHeader
    let named ← (parseAuthority authority (some 443)).mapError fun _ =>
      .invalidData "proxy TLS Host header is invalid"
    require (named = (host, port))
      (.permissionDenied "proxy TLS Host differs from CONNECT authority")

def bodyOf (scan : HeaderScan) : RequestBody :=
  if scan.transferEncoding.isSome then .chunked
  else
    match scan.contentLength with
    | some length => .contentLength length
    | none => .none

def requestLineText (line : RequestLine) (target : Bytes) : Bytes :=
  line.method ++ 32 :: target ++ 32 :: line.version

def prepareRequest (kind : RequestTarget) (header : Bytes) : Except HttpError PreparedRequest := do
  headerText header
  match headerLines header with
  | [] => .error (.invalidData "proxy HTTP request line is missing")
  | first :: headers =>
    let line ← orElseThrow (.invalidData "proxy HTTP request line is invalid")
      (parseRequestLine first)
    let target ← outputTarget kind line
    let scan ← headers.foldlM scanLine { output := requestLineText line target ++ crlf }
    require (!(scan.contentLength.isSome && scan.transferEncoding.isSome))
      (.invalidData "proxy request has conflicting body framing")
    checkTlsHost kind scan.hostHeader
    return ⟨scan.output ++ ascii "Connection: close" ++ crlf ++ crlf, bodyOf scan⟩

def preparePlainRequest (header : Bytes) : Except HttpError PreparedRequest :=
  prepareRequest .absoluteHttp header

def prepareTlsRequest (host : Bytes) (port : ℕ) (header : Bytes) :
    Except HttpError PreparedRequest :=
  prepareRequest (.tlsOrigin host port) header

def isPlainHttpHeader (header : Bytes) : Bool :=
  match position crlf header with
  | none => false
  | some found =>
    validUtf8 (header.take found) &&
      (((header.take found).splitOn 32).drop 1).head?.any ((ascii "http://").isPrefixOf ·)

end SolarisMesh.Proxy
