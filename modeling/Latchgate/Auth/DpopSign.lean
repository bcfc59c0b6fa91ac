import Latchgate.Auth.Htu
import Latchgate.Auth.KeyCache
import Latchgate.Encoding.Base64Url

namespace Latchgate

/-- The coordinates are in base64url. -/
structure DPoPSigningKey where
  inner : List UInt8
  x : String
  y : String

/-- What signing takes from elsewhere: base64url, and the ES256 signature of a
text under a private key. -/
structure DpopSigner where
  encodeBase64 : List UInt8 → String
  sign : List UInt8 → List UInt8 → List UInt8

/-- The fields in the order of a sorted map. -/
def dpopHeader (x y : String) : Json :=
  .object [("alg", .string "ES256"), ("jwk", .object [("crv", .string "P-256"), ("kty", .string "EC"), ("x", .string x),
    ("y", .string y)]), ("typ", .string "dpop+jwt")]

def DPoPClaims.toJson (claims : DPoPClaims) : Json :=
  .object [("jti", .string claims.jti), ("htm", .string claims.htm), ("htu", .string claims.htu),
    ("iat", .number (.int claims.iat)), ("ath", .string claims.ath)]

namespace DpopSigner
variable (signer : DpopSigner)

def encodeJson (v : Json) : String :=
  signer.encodeBase64 (Encoding.utf8 v.toCompactString.toList)

def signJwtEs256 (key : DPoPSigningKey) (header : Json) (payload : DPoPClaims) : String :=
  let headerB64 := signer.encodeJson header
  let payloadB64 := signer.encodeJson payload.toJson
  let signingInput := headerB64 ++ "." ++ payloadB64
  let sigB64 := signer.encodeBase64 (signer.sign key.inner (Encoding.utf8 signingInput.toList))
  signingInput ++ "." ++ sigB64

def signDpopProof (now : Int64) (key : DPoPSigningKey) (htm htu ath jti : String) : Except String String := do
  let htu ← normalizeHtu htu
  .ok (signer.signJwtEs256 key (dpopHeader key.x key.y) ⟨jti, toAsciiUppercase htm, htu, now.toInt, ath⟩)

end DpopSigner

/-- The verifier reads what the signer writes, and the signatures of the key
are good under its public key, which no other key shares its thumbprint with. -/
structure Es256 (env : DpopEnv) (signer : DpopSigner) (key : DPoPSigningKey) (sec1 : List UInt8) : Prop where
  decodes : ∀ bytes, env.decodeBase64 (signer.encodeBase64 bytes) = some bytes
  dotless : ∀ bytes, '.' ∉ (signer.encodeBase64 bytes).toList
  header : env.parseJson (Encoding.utf8 (dpopHeader key.x key.y).toCompactString.toList) = some (dpopHeader key.x key.y)
  claims : ∀ (jti htm htu ath : String) (iat : Int64),
    env.parseClaims (Encoding.utf8 (DPoPClaims.mk jti htm htu iat.toInt ath).toJson.toCompactString.toList) =
      .ok ⟨jti, htm, htu, iat.toInt, ath⟩
  coordinates : ∃ x y, env.decodeBase64 key.x = some x ∧ env.decodeBase64 key.y = some y ∧
    x.length = 32 ∧ y.length = 32 ∧ sec1 = 4 :: x ++ y
  curve : env.onCurve sec1 = true
  length : ∀ text, (signer.sign key.inner text).length = 64
  verifies : ∀ text, env.verify sec1 text (signer.sign key.inner text) = true
  unique : ∀ other, env.HasThumbprint other (env.computeJwkThumbprint key.x key.y) → other = sec1

namespace Es256
variable {env : DpopEnv} {signer : DpopSigner} {key : DPoPSigningKey} {sec1 : List UInt8}

theorem decodeJson (es256 : Es256 env signer key sec1) (v : Json) :
    env.decodeBase64 (signer.encodeJson v) = some (Encoding.utf8 v.toCompactString.toList) :=
  es256.decodes _

theorem dotless_json (es256 : Es256 env signer key sec1) (v : Json) : '.' ∉ (signer.encodeJson v).toList :=
  es256.dotless _

theorem segments_proof (es256 : Es256 env signer key sec1) (header : Json) (claims : DPoPClaims) :
    DpopEnv.segments (signer.signJwtEs256 key header claims) =
      some ((signer.encodeJson header).toList, (signer.encodeJson claims.toJson).toList,
        (signer.encodeBase64 (signer.sign key.inner (Encoding.utf8
          (signer.encodeJson header ++ "." ++ signer.encodeJson claims.toJson).toList))).toList) := by
  have dot : ".".toList = ['.'] := rfl
  rw [DpopEnv.segments, DpopSigner.signJwtEs256]
  simp only [String.toList_append, dot, List.append_assoc, List.cons_append, List.nil_append]
  rw [splitOnce_append (es256.dotless_json header)]
  simp only [Option.bind_eq_bind, Option.bind_some]
  rw [splitOnce_append (es256.dotless_json claims.toJson)]
  rfl

theorem extractBoundKey_header (es256 : Es256 env signer key sec1) :
    env.extractBoundKey (signer.encodeJson (dpopHeader key.x key.y)) (env.computeJwkThumbprint key.x key.y) = .ok sec1 := by
  obtain ⟨x, y, decodedX, decodedY, lengthX, lengthY, rfl⟩ := es256.coordinates
  simp only [DpopEnv.extractBoundKey, Except.bind_eq_ok, DpopEnv.require_eq_ok, DpopEnv.get_eq_ok, decide_eq_true_eq,
    DpopEnv.b64urlDecode, DpopEnv.buildSec1Uncompressed]
  exact ⟨_, es256.decodeJson _, _, es256.header, (), rfl, (), rfl, _, rfl, (), rfl, (), rfl, _, rfl, _, rfl, _, decodedX, _,
    decodedY, _, ⟨(), ⟨lengthX, lengthY⟩, rfl⟩, (), es256.curve, (), rfl, rfl⟩

theorem checkSignature_proof (es256 : Es256 env signer key sec1) (header payload : String) :
    env.checkSignature sec1 header.toList payload.toList
      (signer.encodeBase64 (signer.sign key.inner (Encoding.utf8 (header ++ "." ++ payload).toList))).toList = .ok () := by
  have dot : ".".toList = ['.'] := rfl
  simp only [DpopEnv.checkSignature, DpopEnv.verifySig, Except.bind_eq_ok, DpopEnv.require_eq_ok, decide_eq_true_eq,
    DpopEnv.b64urlDecode, DpopEnv.get_eq_ok, String.ofList_toList]
  refine ⟨_, es256.decodes _, (), es256.length _, ?_⟩
  simp only [String.toList_append, dot, List.append_assoc, List.singleton_append]
  exact es256.verifies _

/-- The payload of a signed proof passes for the same method in any case, the
same URI and the same lease when its `htu` is normal. -/
theorem checkPayload_proof (es256 : Es256 env signer key sec1) {signedAt : Int64} {now : Int}
    {htm expectedHtm htu norm leaseJwt jti : String} (accepted : normalizeHtu htu = .ok norm)
    (method : toAsciiUppercase expectedHtm = toAsciiUppercase htm) (old : now - DpopEnv.iatMaxAgeSecs ≤ signedAt.toInt)
    (new : signedAt.toInt ≤ now + DpopEnv.iatClockSkewSecs) {claims : DPoPClaims} :
    env.checkPayload now (signer.encodeJson (DPoPClaims.mk jti (toAsciiUppercase htm) norm signedAt.toInt
        (env.computeAth leaseJwt)).toJson) expectedHtm htu leaseJwt = .ok claims ↔
      normalizeHtu norm = .ok norm ∧ claims = ⟨jti, toAsciiUppercase htm, norm, signedAt.toInt, env.computeAth leaseJwt⟩ := by
  simp only [DpopEnv.checkPayload, Except.bind_eq_ok, DpopEnv.require_eq_ok, DpopEnv.get_eq_ok, decide_eq_true_eq,
    DpopEnv.b64urlDecode, Except.mapError_eq_ok, DpopEnv.validateIatWindow, accepted]
  constructor
  · rintro ⟨bytes, decoded, payload, parsed, _, -, _, ⟨⟩, again, normal, _, same, _, -, _, -, ⟨⟩⟩
    cases (es256.decodeJson _).symm.trans decoded
    cases (es256.claims ..).symm.trans parsed
    rw [same] at normal
    exact ⟨normal, rfl⟩
  · rintro ⟨normal, rfl⟩
    exact ⟨_, es256.decodeJson _, _, es256.claims .., (), method.symm, _, rfl, _, normal, (), rfl, (), ⟨(), not_lt.mpr old,
      not_lt.mpr new⟩, (), rfl, rfl⟩

/-- A signed proof is accepted behind any others exactly when its `htu` is
normal. -/
theorem accepted_proof (es256 : Es256 env signer key sec1) {signedAt : Int64} {now : Int}
    {htm expectedHtm htu norm leaseJwt jti proof : String} (accepted : normalizeHtu htu = .ok norm)
    (signed : signer.signDpopProof signedAt key htm htu (env.computeAth leaseJwt) jti = .ok proof)
    (method : toAsciiUppercase expectedHtm = toAsciiUppercase htm) (old : now - DpopEnv.iatMaxAgeSecs ≤ signedAt.toInt)
    (new : signedAt.toInt ≤ now + DpopEnv.iatClockSkewSecs) {cache : DPoPKeyCache} (bound : cache.Bound env) :
    (∃ claims, (env.verifyDpopProof now proof expectedHtm htu leaseJwt (env.computeJwkThumbprint key.x key.y) cache).1 =
      .ok claims) ↔ normalizeHtu norm = .ok norm := by
  rw [DpopSigner.signDpopProof, accepted] at signed
  cases signed
  let claims : DPoPClaims := ⟨jti, toAsciiUppercase htm, norm, signedAt.toInt, env.computeAth leaseJwt⟩
  let call : DpopCall := ⟨now, signer.signJwtEs256 key (dpopHeader key.x key.y) claims, expectedHtm, htu, leaseJwt,
    env.computeJwkThumbprint key.x key.y⟩
  have parts := es256.segments_proof (dpopHeader key.x key.y) claims
  have signedWith (found : DPoPClaims) : call.SignedWith env sec1 found ↔ normalizeHtu norm = .ok norm ∧ found = claims := by
    rw [← es256.checkPayload_proof accepted method old new]
    constructor
    · rintro ⟨header, payload, sig, split, -, checked⟩
      cases parts.symm.trans split
      rw [String.ofList_toList] at checked
      exact checked
    · intro checked
      refine ⟨_, _, _, parts, es256.checkSignature_proof _ _, ?_⟩
      rw [String.ofList_toList]
      exact checked
  have header (other : List UInt8) : call.HeaderKey env other ↔ other = sec1 := by
    constructor
    · exact fun accepted => es256.unique other accepted.thumbprint
    · rintro rfl
      refine ⟨_, _, _, parts, ?_⟩
      rw [String.ofList_toList]
      exact es256.extractBoundKey_header
  have verdict (found : DPoPClaims) : call.accepted env cache = some found ↔ normalizeHtu norm = .ok norm ∧ found = claims := by
    cases hit : cache.entries.lookup call.cnfJkt with
    | none =>
      rw [DpopCall.accepted_of_uncached hit]
      simp only [header, exists_eq_left, signedWith]
    | some cached =>
      obtain rfl : cached = sec1 := es256.unique cached (bound.lookup hit)
      rw [DpopCall.accepted_of_cached hit, signedWith]
  have same : (∃ found, (call.verify env cache).1 = .ok found) ↔ ∃ found, call.accepted env cache = some found :=
    exists_congr fun found => Except.toOption_eq_some_iff.symm
  refine same.trans ?_
  simp only [verdict, exists_and_left, exists_eq, and_true]

end Es256

/-- What the signer and the verifier make of a URI goes together. The URI has
one normal form, the signer's own proofs for it are accepted, and only a URI
with the same parts has the same normal form. -/
structure HtuAgreed (env : DpopEnv) (signer : DpopSigner) (key : DPoPSigningKey) (htu : String) : Prop where
  idempotent : ∀ norm, normalizeHtu htu = .ok norm → normalizeHtu norm = .ok norm
  accepted : ∀ (signedAt : Int64) (now : Int) (htm expectedHtm leaseJwt jti proof : String) (capacity : Nat)
    (past : List DpopCall),
    signer.signDpopProof signedAt key htm htu (env.computeAth leaseJwt) jti = .ok proof →
    toAsciiUppercase expectedHtm = toAsciiUppercase htm →
    now - DpopEnv.iatMaxAgeSecs ≤ signedAt.toInt → signedAt.toInt ≤ now + DpopEnv.iatClockSkewSecs →
    ∃ claims, (env.verifyDpopProof now proof expectedHtm htu leaseJwt (env.computeJwkThumbprint key.x key.y)
      ((dpopVerifier env).run (.withCapacity capacity) past)).1 = .ok claims
  faithful : ∀ (other : String) (uri uri' : RequestUri), normalizeHtu other = normalizeHtu htu → uri.Of htu → uri'.Of other →
    lowerText uri.scheme = lowerText uri'.scheme ∧
      SameAuthority (lowerText uri.scheme) (lowerText uri.authority) (lowerText uri'.authority) ∧
      uri.fullPath = uri'.fullPath

/-- They do exactly when the authority of the URI does not end in the default
port twice. -/
theorem htuAgreed_iff {env : DpopEnv} {signer : DpopSigner} {key : DPoPSigningKey} {sec1 : List UInt8}
    (es256 : Es256 env signer key sec1) {htu norm : String} (known : normalizeHtu htu = .ok norm) :
    HtuAgreed env signer key htu ↔ ∀ uri : RequestUri, uri.Of htu → ¬uri.PortTwice := by
  constructor
  · intro agreed uri reads
    rw [← reads.normalized_twice_iff]
    exact agreed.idempotent _ reads.normalizeHtu
  · intro once
    obtain ⟨uri, reads, rfl⟩ := RequestUri.exists_of_normalizeHtu known
    have stable := reads.normalized_twice_iff.mpr (once uri reads)
    refine ⟨?_, ?_, ?_⟩
    · intro norm normal
      cases reads.normalizeHtu.symm.trans normal
      exact stable
    · intro signedAt now htm expectedHtm leaseJwt jti proof capacity past signed method old new
      have bound : ((dpopVerifier env).run (.withCapacity capacity) past).Bound env :=
        Machine.run_invariant (fun cache call bound => bound.verify call) (DPoPKeyCache.bound_withCapacity env capacity) past
      exact (es256.accepted_proof known signed method old new bound).mpr stable
    · intro other uri uri' same reads reads'
      rw [reads.normalizeHtu, reads'.normalizeHtu, Except.ok.injEq] at same
      exact reads.agree reads' same.symm

/-! A signer and a verifier over base64url. -/

def toySigner : DpopSigner where
  encodeBase64 bytes := String.ofList (Encoding.base64Url bytes)
  sign _ text := (text ++ List.replicate 64 0).take 64

def toyKey : DPoPSigningKey where
  inner := [7]
  x := toySigner.encodeBase64 (List.replicate 32 1)
  y := toySigner.encodeBase64 (List.replicate 32 2)

open Classical in
/-- Claims are read back from the text they are written as. -/
noncomputable def toyEnv : DpopEnv where
  decodeBase64 text := Encoding.unBase64Url text.toList
  parseJson bytes :=
    if bytes = Encoding.utf8 (dpopHeader toyKey.x toyKey.y).toCompactString.toList then some (dpopHeader toyKey.x toyKey.y)
    else none
  parseClaims bytes :=
    if read : ∃ claims : DPoPClaims, Encoding.utf8 claims.toJson.toCompactString.toList = bytes then .ok read.choose
    else .error "not the claims of a proof"
  onCurve _ := true
  digest := id
  verify _ text sig := sig = (text ++ List.replicate 64 0).take 64
  debug text := text.getD "None"
  sanitize := id

theorem toyEnv_parseClaims (claims : DPoPClaims) :
    toyEnv.parseClaims (Encoding.utf8 claims.toJson.toCompactString.toList) = .ok claims := by
  have read : ∃ other : DPoPClaims, Encoding.utf8 other.toJson.toCompactString.toList =
      Encoding.utf8 claims.toJson.toCompactString.toList := ⟨claims, rfl⟩
  have same := Json.toCompactString_injective (String.toList_inj.mp (Encoding.utf8_injective read.choose_spec))
  simp only [toyEnv]
  rw [dif_pos read]
  obtain ⟨jti, htm, htu, iat, ath⟩ := claims
  rcases chosen : read.choose with ⟨jti', htm', htu', iat', ath'⟩
  rw [chosen] at same
  simp only [DPoPClaims.toJson, Json.object.injEq, List.cons.injEq, Prod.mk.injEq, Json.string.injEq, Json.number.injEq,
    JsonNumber.int.injEq, true_and, and_true] at same
  obtain ⟨rfl, rfl, rfl, rfl, rfl⟩ := same
  rfl

theorem toy_decodes (bytes : List UInt8) : toyEnv.decodeBase64 (toySigner.encodeBase64 bytes) = some bytes := by
  change Encoding.unBase64Url (String.ofList (Encoding.base64Url bytes)).toList = _
  rw [String.toList_ofList, Encoding.unBase64Url_base64Url]

theorem toy_es256 : Es256 toyEnv toySigner toyKey (4 :: List.replicate 32 1 ++ List.replicate 32 2) where
  decodes := toy_decodes
  dotless bytes := by
    change '.' ∉ (String.ofList (Encoding.base64Url bytes)).toList
    rw [String.toList_ofList]
    exact Encoding.dot_notMem_base64Url bytes
  header := by
    simp only [toyEnv, if_true]
  claims jti htm htu ath iat := toyEnv_parseClaims _
  coordinates := ⟨_, _, toy_decodes _, toy_decodes _, List.length_replicate, List.length_replicate, rfl⟩
  curve := rfl
  length text := by simp [toySigner]
  verifies text := by
    change decide (_ = _) = true
    exact decide_eq_true rfl
  unique other has :=
    has.unique Function.injective_id ⟨_, _, _, _, toy_decodes _, toy_decodes _, rfl, rfl, rfl⟩

/-- With the port of the scheme once, at `HTTPS://Gate.example:443/v1?x#y`. -/
theorem htuAgreed_gate : HtuAgreed toyEnv toySigner toyKey "HTTPS://Gate.example:443/v1?x#y" := by
  have reads : RequestUri.Of "HTTPS://Gate.example:443/v1?x#y"
      ⟨"HTTPS".toList, "Gate.example:443".toList, "/v1".toList⟩ :=
    ⟨by decide, by decide, by decide, .inr ⟨"v1".toList, rfl⟩⟩
  refine (htuAgreed_iff toy_es256 reads.normalizeHtu).mpr ?_
  rintro uri known ⟨host, port, scheme, twice⟩
  obtain rfl := known.unique reads
  cases scheme.symm.trans (by decide : defaultPort (lowerText "HTTPS".toList) = some "443".toList)
  have colons := congrArg (List.count ':') twice
  rw [List.count_append, List.count_append] at colons
  have one : List.count ':' (lowerText "Gate.example:443".toList) = 1 := by decide
  have each : List.count ':' (':' :: "443".toList) = 1 := by decide
  dsimp only at colons
  omega

/-- With the port of the scheme twice the signer's own proof is refused. -/
theorem double_port_refused :
    normalizeHtu "http://h:80:80/x" = .ok "http://h:80/x" ∧ normalizeHtu "http://h:80/x" = .ok "http://h/x" ∧
      ∃ proof, toySigner.signDpopProof 0 toyKey "GET" "http://h:80:80/x" (toyEnv.computeAth "lease") "jti" = .ok proof ∧
        ¬∃ claims, (toyEnv.verifyDpopProof 0 proof "GET" "http://h:80:80/x" "lease"
          (toyEnv.computeJwkThumbprint toyKey.x toyKey.y) (.withCapacity 256)).1 = .ok claims := by
  have first : normalizeHtu "http://h:80:80/x" = .ok "http://h:80/x" := by decide
  have second : normalizeHtu "http://h:80/x" = .ok "http://h/x" := by decide
  refine ⟨first, second, _, by rw [DpopSigner.signDpopProof, first]; rfl, ?_⟩
  rw [toy_es256.accepted_proof first (by rw [DpopSigner.signDpopProof, first]; rfl) rfl (by decide) (by decide)
    (DPoPKeyCache.bound_withCapacity toyEnv 256), second]
  decide

end Latchgate
