import Latchgate.Core.Text
import Latchgate.Encoding.Delimited
import Latchgate.Json.Compact
import Latchgate.Machine.Run
import Latchgate.Manifest.Load

namespace Latchgate

structure DPoPClaims where
  jti : String
  htm : String
  htu : String
  iat : Int
  ath : String
  deriving DecidableEq

inductive DpopRejectKind where
  | malformed
  | badHeader
  | badKey
  | badSig
  | badHtm
  | badHtu
  | badIat
  | badAth
  deriving DecidableEq

inductive DPoPVerifyError where
  | invalidProof (kind : DpopRejectKind) (reason : String)
  deriving DecidableEq

/-- What verification takes from elsewhere: base64url, the JSON reader, the
check of a point of the curve, SHA-256 in base64url, the ES256 verifier, and
how errors are printed and cleaned. -/
structure DpopEnv where
  decodeBase64 : String → Option (List UInt8)
  parseJson : List UInt8 → Option Json
  parseClaims : List UInt8 → Except String DPoPClaims
  onCurve : List UInt8 → Bool
  digest : String → String
  verify : List UInt8 → List UInt8 → List UInt8 → Bool
  debug : Option String → String
  sanitize : String → String

/-! Addresses of requests. -/

def splitOnceText (sep : List Char) : List Char → Option (List Char × List Char)
  | [] => if sep = [] then some ([], []) else none
  | c :: rest =>
    if sep.isPrefixOf (c :: rest) then some ([], (c :: rest).drop sep.length)
    else (splitOnceText sep rest).map fun split => (c :: split.1, split.2)

def stripDefaultPort (authority scheme : List Char) : List Char :=
  match splitOnce ':' authority.reverse with
  | some (port, host) =>
    if (scheme, port.reverse) ∈ [("http".toList, "80".toList), ("https".toList, "443".toList)] then host.reverse
    else authority
  | none => authority

def normalizeHtu (htu : String) : Except String String :=
  let noFrag := htu.toList.takeWhile (· ≠ '#')
  let noQuery := noFrag.takeWhile (· ≠ '?')
  match splitOnceText "://".toList noQuery with
  | none => .error ("invalid URI: missing '://' in '" ++ htu ++ "'")
  | some (scheme, afterScheme) =>
    let scheme := lowerText scheme
    let (authority, path) := match splitOnce '/' afterScheme with
      | some (auth, rest) => (lowerText auth, '/' :: rest)
      | none => (lowerText afterScheme, ['/'])
    .ok (String.ofList (scheme ++ "://".toList ++ stripDefaultPort authority scheme ++ path))

/-! The key cache. -/

/-- The most recently used key comes first. -/
structure DPoPKeyCache where
  capacity : Nat
  entries : List (String × List UInt8) := []

namespace DPoPKeyCache

def withCapacity (capacity : Nat) : DPoPKeyCache where
  capacity := max capacity 1

def get (thumbprint : String) (cache : DPoPKeyCache) : Option (List UInt8) × DPoPKeyCache :=
  match cache.entries.lookup thumbprint with
  | some key =>
    (some key, { cache with entries := (thumbprint, key) :: cache.entries.filter fun entry => entry.1 ≠ thumbprint })
  | none => (none, cache)

def insert (thumbprint : String) (key : List UInt8) (cache : DPoPKeyCache) : DPoPKeyCache :=
  { cache with
    entries := ((thumbprint, key) :: cache.entries.filter fun entry => entry.1 ≠ thumbprint).take cache.capacity }

end DPoPKeyCache

/-! Verification. -/

namespace DpopEnv
variable (env : DpopEnv)

def invalidProof (kind : DpopRejectKind) (reason : String) : DPoPVerifyError :=
  .invalidProof kind (env.sanitize reason)

def require (ok : Bool) (kind : DpopRejectKind) (reason : String) : Except DPoPVerifyError Unit :=
  if ok then .ok () else .error (env.invalidProof kind reason)

def get {α : Type} (found : Option α) (kind : DpopRejectKind) (reason : String) : Except DPoPVerifyError α :=
  match found with
  | some a => .ok a
  | none => .error (env.invalidProof kind reason)

def b64urlDecode (text label : String) (kind : DpopRejectKind) : Except DPoPVerifyError (List UInt8) :=
  env.get (env.decodeBase64 text) kind ("invalid base64url encoding in JWT " ++ label)

def computeJwkThumbprint (x y : String) : String :=
  env.digest (Json.object [("crv", .string "P-256"), ("kty", .string "EC"), ("x", .string x), ("y", .string y)]).toCompactString

def computeAth (leaseJwt : String) : String :=
  env.digest leaseJwt

/-- `0x04 || x || y`. -/
def buildSec1Uncompressed (x y : List UInt8) : Except DPoPVerifyError (List UInt8) := do
  env.require (x.length = 32 ∧ y.length = 32) .badKey "P-256 coordinates must be exactly 32 bytes each"
  .ok (4 :: x ++ y)

def field (key : String) (json : Json) : Option String :=
  (json.get? key).bind Json.asStr?

/-- The key of a header, if it is the one whose thumbprint is given. -/
def extractBoundKey (headerB64 cnfJkt : String) : Except DPoPVerifyError (List UInt8) := do
  let headerBytes ← env.b64urlDecode headerB64 "header" .malformed
  let header ← env.get (env.parseJson headerBytes) .malformed "JWT header is not valid JSON"
  env.require (field "typ" header = some "dpop+jwt") .badHeader
    ("typ must be 'dpop+jwt', got " ++ env.debug (field "typ" header))
  env.require (field "alg" header = some "ES256") .badHeader ("alg must be 'ES256', got " ++ env.debug (field "alg" header))
  let jwk ← env.get (header.get? "jwk") .badHeader "'jwk' header claim is required in DPoP proofs"
  env.require (field "kty" jwk = some "EC") .badHeader ("jwk.kty must be 'EC', got " ++ env.debug (field "kty" jwk))
  env.require (field "crv" jwk = some "P-256") .badHeader ("jwk.crv must be 'P-256', got " ++ env.debug (field "crv" jwk))
  let x ← env.get (field "x" jwk) .badHeader "jwk.x is required"
  let y ← env.get (field "y" jwk) .badHeader "jwk.y is required"
  let xBytes ← env.get (env.decodeBase64 x) .badHeader "invalid base64url in jwk.x"
  let yBytes ← env.get (env.decodeBase64 y) .badHeader "invalid base64url in jwk.y"
  let sec1PublicKey ← env.buildSec1Uncompressed xBytes yBytes
  env.require (env.onCurve sec1PublicKey) .badKey "invalid P-256 public key (point not on curve)"
  env.require (env.computeJwkThumbprint x y = cnfJkt) .badKey
    "DPoP key thumbprint does not match lease cnf.jkt (key binding failure)"
  .ok sec1PublicKey

def verifySig (sec1PublicKey : List UInt8) (headerB64 payloadB64 : List Char) (sigBytes : List UInt8) :
    Except DPoPVerifyError Unit := do
  env.require (sigBytes.length = 64) .badSig "signature is not a valid ES256 (P-256) signature (expected 64 bytes)"
  env.require (env.verify sec1PublicKey (Encoding.utf8 (headerB64 ++ '.' :: payloadB64)) sigBytes) .badSig
    "signature verification failed"

def iatMaxAgeSecs : Int := 60

def iatClockSkewSecs : Int := 5

def validateIatWindow (iat now : Int) : Except DPoPVerifyError Unit := do
  env.require (¬iat < now - iatMaxAgeSecs) .badIat
    ("iat too old: " ++ toString iat ++ " (now=" ++ toString now ++ ", max_age=" ++ toString iatMaxAgeSecs ++ "s)")
  env.require (¬iat > now + iatClockSkewSecs) .badIat
    ("iat too far in future: " ++ toString iat ++ " (now=" ++ toString now ++ ", allowed_skew=" ++
      toString iatClockSkewSecs ++ "s)")

/-- What both paths check of the payload. -/
def checkPayload (now : Int) (payloadB64 : String) (expectedHtm expectedHtu leaseJwt : String) :
    Except DPoPVerifyError DPoPClaims := do
  let payloadBytes ← env.b64urlDecode payloadB64 "payload" .malformed
  let payload ← (env.parseClaims payloadBytes).mapError fun e =>
    env.invalidProof .malformed ("payload claims invalid or missing required fields: " ++ e)
  env.require (payload.htm = toAsciiUppercase expectedHtm) .badHtm
    ("htm mismatch: expected '" ++ toAsciiUppercase expectedHtm ++ "', got '" ++ payload.htm ++ "'")
  let expectedHtuNorm ← (normalizeHtu expectedHtu).mapError fun e =>
    env.invalidProof .badHtu ("expected_htu normalisation failed: " ++ e)
  let proofHtuNorm ← (normalizeHtu payload.htu).mapError fun e =>
    env.invalidProof .badHtu ("proof htu normalisation failed: " ++ e)
  env.require (proofHtuNorm = expectedHtuNorm) .badHtu
    ("htu mismatch: expected '" ++ expectedHtuNorm ++ "', got '" ++ proofHtuNorm ++ "'")
  env.validateIatWindow payload.iat now
  env.require (payload.ath = env.computeAth leaseJwt) .badAth "ath does not match SHA-256 of the presented access token"
  .ok payload

/-- The three segments of a proof. Only the first two dots separate. -/
def segments (proof : String) : Option (List Char × List Char × List Char) := do
  let (header, rest) ← splitOnce '.' proof.toList
  let (payload, sig) ← splitOnce '.' rest
  some (header, payload, sig)

/-- The signature of a proof under a key. -/
def checkSignature (key : List UInt8) (header payload sig : List Char) : Except DPoPVerifyError Unit := do
  let sigBytes ← env.b64urlDecode (String.ofList sig) "signature" .badSig
  env.verifySig key header payload sigBytes

/-- A proof is verified for a request and a lease. The key that the lease is
bound to comes from the cache or else from the header, and is cached when the
signature is good. -/
def verifyDpopProof (now : Int) (proof expectedHtm expectedHtu leaseJwt cnfJkt : String) (cache : DPoPKeyCache) :
    Except DPoPVerifyError DPoPClaims × DPoPKeyCache :=
  match segments proof with
  | none => (.error (env.invalidProof .malformed "malformed JWT: expected exactly 3 dot-separated segments"), cache)
  | some (header, payload, sig) =>
    let (cached, cache) := cache.get cnfJkt
    let resolved : Except DPoPVerifyError (List UInt8) := match cached with
      | some key => .ok key
      | none => env.extractBoundKey (String.ofList header) cnfJkt
    match resolved with
    | .error e => (.error e, cache)
    | .ok key => match env.checkSignature key header payload sig with
      | .error e => (.error e, cache)
      | .ok () =>
        let cache := if cached.isNone then cache.insert cnfJkt key else cache
        (env.checkPayload now (String.ofList payload) expectedHtm expectedHtu leaseJwt, cache)

end DpopEnv
end Latchgate
