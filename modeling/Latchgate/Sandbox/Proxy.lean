import Latchgate.Core.Egress
import Latchgate.Core.Ip
import Latchgate.Core.Text
import Latchgate.Crypto.VerifyingKeys
import Latchgate.Encoding.Delimited
import Latchgate.Http.Message

namespace Latchgate
open Encoding (utf8)

namespace Sandbox

/-! Routes. -/

structure CredentialRouteConfig where
  upstream : String
  header : String
  format : String := "\x7b\x7d"
  keySource : String
  deriving DecidableEq

def holdsPlaceholder : List Char → Bool
  | '{' :: '}' :: _ => true
  | _ :: rest => holdsPlaceholder rest
  | [] => false

def replacePlaceholder (value : List Char) : List Char → List Char
  | '{' :: '}' :: rest => value ++ replacePlaceholder value rest
  | c :: rest => c :: replacePlaceholder value rest
  | [] => []

namespace CredentialRouteConfig
variable (config : CredentialRouteConfig)

/-- The problems of a route; none for one that is accepted. -/
def validate (name : String) : List String :=
  (if config.upstream = "" then ["credentials." ++ name ++ ".upstream is empty"]
    else if (stripText "https://" config.upstream).isNone then
      ["credentials." ++ name ++ ".upstream = \"" ++ config.upstream ++ "\" must use https:// scheme"]
    else []) ++
  (if config.header = "" then ["credentials." ++ name ++ ".header is empty"] else []) ++
  (if holdsPlaceholder config.format.toList then []
    else ["credentials." ++ name ++ ".format = \"" ++ config.format ++ "\" must contain \x7b\x7d placeholder"]) ++
  (if config.keySource = "" then ["credentials." ++ name ++ ".key_source is empty"]
    else match stripText "env:" config.keySource with
      | none =>
        ["credentials." ++ name ++ ".key_source = \"" ++ config.keySource ++ "\" must start with \"env:\""]
      | some var =>
        if var = "" then
          ["credentials." ++ name ++ ".key_source = \"env:\" is missing the variable name"]
        else [])

end CredentialRouteConfig

structure ResolvedCredentialRoute where
  name : List Char
  host : List Char
  port : Nat
  basePath : List Char
  injectHeader : List Char
  injectValue : List Char
  deriving DecidableEq

/-- The text before the last separator, and the text after it. -/
def rsplitOnce (sep : Char) (text : List Char) : Option (List Char × List Char) :=
  (splitOnce sep text.reverse).map fun split => (split.2.reverse, split.1.reverse)

/-- One route of `resolve_credentials`, with the value of its variable. -/
def CredentialRouteConfig.resolve (config : CredentialRouteConfig) (name value : String) :
    Except String ResolvedCredentialRoute :=
  let upstream := String.ofList (config.upstream.toList.rdropWhile (· = '/'))
  match stripText "https://" upstream with
  | none => .error ("route \"" ++ name ++ "\": upstream must use https:// scheme")
  | some withoutScheme =>
    let hostPort := withoutScheme.toList.takeWhile (· ≠ '/')
    let basePath := withoutScheme.toList.dropWhile (· ≠ '/')
    let route (host : List Char) (port : Nat) : ResolvedCredentialRoute :=
      { name := name.toList
        host := host
        port := port
        basePath := basePath
        injectHeader := config.header.toList
        injectValue := replacePlaceholder value.toList config.format.toList }
    match rsplitOnce ':' hostPort with
    | none => .ok (route hostPort 443)
    | some (host, digits) => match parseUnsigned 65536 digits with
      | some port => .ok (route host port)
      | none => .error ("route \"" ++ name ++ "\": invalid port in upstream")

/-! Requests of the agent. -/

local instance lawfulText : LawfulBEq (List Char) :=
  inferInstance

def maxHeaderSize : Nat := 8192

def maxHeaderCount : Nat := 128

def strippedAuthHeaders : List (List Char) :=
  ["authorization".toList, "x-api-key".toList]

def sessionTokenHeader : List Char :=
  "x-gate-token".toList

structure ParsedRequest where
  method : List Char
  target : List Char
  headers : List (List Char × List Char)
  deriving DecidableEq

namespace ParsedRequest

def findHeader (request : ParsedRequest) (name : List Char) : Option (List Char) :=
  (request.headers.find? fun header => header.1 = name).map Prod.snd

def contentLength (request : ParsedRequest) : Option Nat :=
  (request.findHeader "content-length".toList).bind fun value => parseUnsigned (2 ^ 64) (trim value)

end ParsedRequest

/-- The first place of the blank line that ends the head. -/
def findHeaderEnd : List UInt8 → Option Nat
  | 13 :: 10 :: 13 :: 10 :: _ => some 0
  | _ :: rest => (findHeaderEnd rest).map (· + 1)
  | [] => none

/-- The loop over the header lines. A line without a colon is dropped. -/
def collectHeaders (headers : List (List Char × List Char)) :
    List (List Char) → Except String (List (List Char × List Char))
  | [] => .ok headers
  | line :: rest =>
    if trimEnd line = [] then .ok headers
    else if maxHeaderCount ≤ headers.length then .error "too many headers"
    else match splitOnce ':' (trimEnd line) with
      | some (name, value) => collectHeaders (headers ++ [(lowerText (trim name), trim value)]) rest
      | none => collectHeaders headers rest

def parseRequestHeaders (raw : List Char) : Except String ParsedRequest :=
  match lines raw with
  | [] => .error "empty request"
  | first :: rest => match splitWhitespace first with
    | method :: target :: _ => do
      let headers ← collectHeaders [] rest
      .ok { method, target, headers }
    | _ => .error ("malformed request line: " ++ String.ofList first)

/-- The request at the front of the stream, and what the agent sends after its
head, however the stream is cut into reads. -/
def readHttpRequest (stream : List UInt8) : Except String (ParsedRequest × List UInt8) :=
  match findHeaderEnd stream with
  | none =>
    if maxHeaderSize ≤ stream.length then .error "headers exceed 8 KiB"
    else .error "connection closed before headers complete"
  | some pos =>
    if maxHeaderSize < pos + 4 then .error "headers exceed 8 KiB"
    else do
      let request ← parseRequestHeaders (fromUtf8Lossy (stream.take (pos + 4)))
      .ok (request, stream.drop (pos + 4))

/-- `/<route_name>/<rest>`, with a slash for a missing rest. -/
def parseRoutePath : List Char → Option (List Char × List Char)
  | '/' :: path =>
    if path = [] then none
    else if path.dropWhile (· ≠ '/') = [] then some (path, ['/'])
    else if path.takeWhile (· ≠ '/') = [] then none
    else some (path.takeWhile (· ≠ '/'), path.dropWhile (· ≠ '/'))
  | _ => none

/-! The proxy. -/

/-- The proxy serves routes that were accepted by the configuration. -/
structure ProxyState where
  allowHosts : List (List Char)
  sessionToken : Option (List UInt8)
  credentialRoutes : List ResolvedCredentialRoute
  accepted : ∀ route ∈ credentialRoutes, ∃ (config : CredentialRouteConfig) (name value : String),
    config.validate name = [] ∧ config.resolve name value = .ok route

/-- What the proxy meets outside: case folding, name resolution, which
addresses answer, which names TLS accepts, and whether the handshake ends
well. -/
structure ProxyEnv where
  toLowercase : List Char → List Char
  lookupHost : List Char → Nat → Option (List IpAddr)
  reachable : IpAddr → Bool
  serverName : List Char → Bool
  handshake : IpAddr → Bool

def isGloballyRoutable (ip : IpAddr) : Bool :=
  !isPrivateIp ip

def resolveAndValidate (env : ProxyEnv) (host : List Char) (port : Nat) : Option (List IpAddr) := do
  let addrs ← env.lookupHost host port
  let safeAddrs := addrs.filter isGloballyRoutable
  if safeAddrs = [] then none else some safeAddrs

/-- A request that the proxy forwards: the route it takes, the path it asks
for, and where it goes. -/
structure Forwarded where
  request : ParsedRequest
  rest : List UInt8
  route : ResolvedCredentialRoute
  restPath : List Char
  address : IpAddr
  deriving DecidableEq

namespace Forwarded
variable (f : Forwarded)

def upstreamPath : List Char :=
  f.route.basePath ++ f.restPath

def isForwardedHeader (name : List Char) : Bool :=
  !(name = "host".toList || name = "connection".toList || name = sessionTokenHeader || name ∈ strippedAuthHeaders)

/-- The agent's headers that are passed on. -/
def kept : List (List Char × List Char) :=
  f.request.headers.filter fun header => isForwardedHeader header.1

def headerLine (header : List Char × List Char) : List Char :=
  header.1 ++ ": ".toList ++ header.2 ++ "\r\n".toList

/-- The request line and the headers, as they are written one after another. -/
def head : List Char :=
  f.request.method ++ " ".toList ++ f.upstreamPath ++ " HTTP/1.1\r\n".toList ++
    ("Host: ".toList ++ f.route.host ++ "\r\n".toList) ++
    headerLine (f.route.injectHeader, f.route.injectValue) ++
    "Connection: close\r\n".toList ++
    f.kept.flatMap headerLine ++
    "\r\n".toList

/-- As much of the declared body as the agent sends. -/
def relayedBody : List UInt8 :=
  match f.request.contentLength with
  | some n => f.rest.take n
  | none => []

/-- Everything that is written upstream. -/
def bytes : List UInt8 :=
  utf8 f.head ++ f.relayedBody

end Forwarded

namespace ProxyState
variable (st : ProxyState) (env : ProxyEnv)

/-- The token that opens the proxy, as the request carries it. -/
def carriesToken (request : ParsedRequest) : Bool :=
  match st.sessionToken, (request.findHeader sessionTokenHeader).bind hexPairs with
  | some token, some received => received.length = 32 && received = token
  | _, _ => false

def handleReverseProxy (request : ParsedRequest) (rest : List UInt8) : Option Forwarded := do
  if st.carriesToken request = false then none
  else
    let (routeName, restPath) ← parseRoutePath request.target
    let route ← st.credentialRoutes.find? fun route => route.name = routeName
    if env.toLowercase route.host ∉ st.allowHosts then none
    else
      let safeAddrs ← resolveAndValidate env route.host route.port
      let address ← safeAddrs.find? env.reachable
      if env.serverName route.host && env.handshake address then some { request, rest, route, restPath, address }
      else none

/-- A `CONNECT` request opens a tunnel and takes no route. -/
def handleConnection (stream : List UInt8) : Option Forwarded :=
  match readHttpRequest stream with
  | .error _ => none
  | .ok (request, rest) =>
    if request.method = "CONNECT".toList then none else st.handleReverseProxy env request rest

end ProxyState

end Sandbox
end Latchgate
