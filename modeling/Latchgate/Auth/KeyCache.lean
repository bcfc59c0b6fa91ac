import Latchgate.Auth.Dpop

namespace Latchgate

namespace DpopEnv
variable {env : DpopEnv}

@[simp] theorem require_eq_ok {ok : Bool} {kind : DpopRejectKind} {reason : String} {u : Unit} :
    env.require ok kind reason = .ok u ↔ ok = true := by
  cases ok <;> simp [require]

@[simp] theorem get_eq_ok {α : Type} {found : Option α} {kind : DpopRejectKind} {reason : String} {a : α} :
    env.get found kind reason = .ok a ↔ found = some a := by
  cases found <;> simp [get]

/-- A key that stands in a JWK with this thumbprint. -/
def HasThumbprint (env : DpopEnv) (key : List UInt8) (thumbprint : String) : Prop :=
  ∃ x y xBytes yBytes, env.decodeBase64 x = some xBytes ∧ env.decodeBase64 y = some yBytes ∧
    key = 4 :: xBytes ++ yBytes ∧ env.onCurve key = true ∧ env.computeJwkThumbprint x y = thumbprint

/-- With an ideal digest a thumbprint is that of one key. -/
theorem HasThumbprint.unique (ideal : Function.Injective env.digest) {key other : List UInt8} {thumbprint : String}
    (first : env.HasThumbprint key thumbprint) (second : env.HasThumbprint other thumbprint) : key = other := by
  obtain ⟨x, y, xBytes, yBytes, decodedX, decodedY, rfl, -, rfl⟩ := first
  obtain ⟨x', y', xBytes', yBytes', decodedX', decodedY', rfl, -, same⟩ := second
  have documents := Json.toCompactString_injective (ideal same)
  simp only [Json.object.injEq, List.cons.injEq, Prod.mk.injEq, Json.string.injEq, true_and, and_true] at documents
  obtain ⟨rfl, rfl⟩ := documents
  rw [decodedX, Option.some.injEq] at decodedX'
  rw [decodedY, Option.some.injEq] at decodedY'
  rw [decodedX', decodedY']

theorem extractBoundKey_thumbprint {headerB64 cnfJkt : String} {key : List UInt8}
    (extracted : env.extractBoundKey headerB64 cnfJkt = .ok key) : env.HasThumbprint key cnfJkt := by
  simp only [extractBoundKey, buildSec1Uncompressed, Except.bind_eq_ok, require_eq_ok, get_eq_ok, decide_eq_true_eq]
    at extracted
  obtain ⟨_, -, _, -, _, -, _, -, _, -, _, -, _, -, x, -, y, -, xBytes, decodedX, yBytes, decodedY, sec1, ⟨_, -, made⟩, _,
    curve, _, thumbprint, same⟩ := extracted
  cases made
  cases same
  exact ⟨x, y, xBytes, yBytes, decodedX, decodedY, rfl, curve, thumbprint⟩

end DpopEnv

/-- A call of the verifier. -/
structure DpopCall where
  now : Int
  proof : String
  expectedHtm : String
  expectedHtu : String
  leaseJwt : String
  cnfJkt : String

namespace DpopCall
variable (env : DpopEnv) (call : DpopCall)

def verify (cache : DPoPKeyCache) : Except DPoPVerifyError DPoPClaims × DPoPKeyCache :=
  env.verifyDpopProof call.now call.proof call.expectedHtm call.expectedHtu call.leaseJwt call.cnfJkt cache

/-- The claims of a proof that is accepted. -/
def accepted (cache : DPoPKeyCache) : Option DPoPClaims :=
  (call.verify env cache).1.toOption

/-- The header of the proof passes every check, of its type, its algorithm, its
key and the thumbprint, with this key. -/
def HeaderKey (key : List UInt8) : Prop :=
  ∃ header payload sig, DpopEnv.segments call.proof = some (header, payload, sig) ∧
    env.extractBoundKey (String.ofList header) call.cnfJkt = .ok key

/-- The proof is signed with the key, and its payload passes every check. -/
def SignedWith (key : List UInt8) (claims : DPoPClaims) : Prop :=
  ∃ header payload sig, DpopEnv.segments call.proof = some (header, payload, sig) ∧
    env.checkSignature key header payload sig = .ok () ∧
    env.checkPayload call.now (String.ofList payload) call.expectedHtm call.expectedHtu call.leaseJwt = .ok claims

end DpopCall

/-- A process that verifies one proof after another. -/
def dpopVerifier (env : DpopEnv) : Machine DPoPKeyCache DpopCall (Except DPoPVerifyError DPoPClaims) where
  step cache call := ((call.verify env cache).2, (call.verify env cache).1)

namespace DpopCall
variable {env : DpopEnv} {call : DpopCall} {cache : DPoPKeyCache} {claims : DPoPClaims}

/-- With a cached key the header does not matter. -/
theorem accepted_of_cached {key : List UInt8} (hit : cache.entries.lookup call.cnfJkt = some key) :
    call.accepted env cache = some claims ↔ call.SignedWith env key claims := by
  rw [accepted, Except.toOption_eq_some_iff, verify, DpopEnv.verifyDpopProof, SignedWith]
  cases split : DpopEnv.segments call.proof with
  | none => simp
  | some parts =>
    obtain ⟨header, payload, sig⟩ := parts
    simp only [DPoPKeyCache.get, hit, Option.some.injEq, Prod.mk.injEq]
    cases signature : env.checkSignature key header payload sig with
    | error e =>
      constructor
      · rintro ⟨⟩
      · rintro ⟨_, _, _, ⟨rfl, rfl, rfl⟩, signed, -⟩
        rw [signature] at signed
        cases signed
    | ok u =>
      constructor
      · exact fun payload => ⟨_, _, _, ⟨rfl, rfl, rfl⟩, signature, payload⟩
      · rintro ⟨_, _, _, ⟨rfl, rfl, rfl⟩, -, payload⟩
        exact payload

/-- Without one the key is that of the header. -/
theorem accepted_of_uncached (miss : cache.entries.lookup call.cnfJkt = none) :
    call.accepted env cache = some claims ↔ ∃ key, call.HeaderKey env key ∧ call.SignedWith env key claims := by
  rw [accepted, Except.toOption_eq_some_iff, verify, DpopEnv.verifyDpopProof]
  simp only [HeaderKey, SignedWith]
  cases split : DpopEnv.segments call.proof with
  | none => simp
  | some parts =>
    obtain ⟨header, payload, sig⟩ := parts
    simp only [DPoPKeyCache.get, miss, Option.some.injEq, Prod.mk.injEq]
    cases extracted : env.extractBoundKey (String.ofList header) call.cnfJkt with
    | error e =>
      constructor
      · rintro ⟨⟩
      · rintro ⟨_, ⟨_, _, _, ⟨rfl, rfl, rfl⟩, found⟩, -⟩
        rw [extracted] at found
        cases found
    | ok key =>
      dsimp only
      cases signature : env.checkSignature key header payload sig with
      | error e =>
        constructor
        · rintro ⟨⟩
        · rintro ⟨_, ⟨_, _, _, ⟨rfl, rfl, rfl⟩, found⟩, _, _, _, ⟨rfl, rfl, rfl⟩, signed, -⟩
          rw [extracted] at found
          cases found
          rw [signature] at signed
          cases signed
      | ok u =>
        constructor
        · exact fun checked => ⟨key, ⟨_, _, _, ⟨rfl, rfl, rfl⟩, extracted⟩, _, _, _, ⟨rfl, rfl, rfl⟩, signature, checked⟩
        · rintro ⟨_, -, _, _, _, ⟨rfl, rfl, rfl⟩, -, checked⟩
          exact checked

theorem HeaderKey.thumbprint {key : List UInt8} (accepted : call.HeaderKey env key) :
    env.HasThumbprint key call.cnfJkt := by
  obtain ⟨_, _, _, -, extracted⟩ := accepted
  exact DpopEnv.extractBoundKey_thumbprint extracted

end DpopCall

namespace DPoPKeyCache
variable {env : DpopEnv} {cache : DPoPKeyCache}

/-- Every entry maps a thumbprint to a key that has it. -/
def Bound (env : DpopEnv) (cache : DPoPKeyCache) : Prop :=
  ∀ entry ∈ cache.entries, env.HasThumbprint entry.2 entry.1

theorem Bound.lookup (bound : cache.Bound env) {thumbprint : String} {key : List UInt8}
    (hit : cache.entries.lookup thumbprint = some key) : env.HasThumbprint key thumbprint := by
  obtain ⟨before, after, entries, -⟩ := List.lookup_eq_some_iff.mp hit
  exact bound (thumbprint, key) (by simp [entries])

theorem Bound.get (bound : cache.Bound env) (thumbprint : String) : (cache.get thumbprint).2.Bound env := by
  rw [DPoPKeyCache.get]
  cases hit : cache.entries.lookup thumbprint with
  | none => exact bound
  | some key =>
    intro entry member
    rcases List.mem_cons.mp member with rfl | old
    · exact bound.lookup hit
    · exact bound entry (List.mem_of_mem_filter old)

theorem Bound.insert (bound : cache.Bound env) {thumbprint : String} {key : List UInt8}
    (has : env.HasThumbprint key thumbprint) : (cache.insert thumbprint key).Bound env := by
  intro entry member
  rcases List.mem_cons.mp (List.mem_of_mem_take member) with rfl | old
  · exact has
  · exact bound entry (List.mem_of_mem_filter old)

/-- Only the key of a header that has passed its checks is cached. -/
theorem Bound.verify (bound : cache.Bound env) (call : DpopCall) : (call.verify env cache).2.Bound env := by
  rw [DpopCall.verify, DpopEnv.verifyDpopProof]
  split
  · exact bound
  · rename_i header payload sig _
    have looked := bound.get call.cnfJkt
    rcases found : cache.get call.cnfJkt with ⟨cached, promoted⟩
    rw [found] at looked
    cases cached with
    | some key =>
      dsimp only
      split
      · exact looked
      · exact looked
    | none =>
      dsimp only
      cases extracted : env.extractBoundKey (String.ofList header) call.cnfJkt with
      | error e => exact looked
      | ok key =>
        dsimp only
        split
        · exact looked
        · exact looked.insert (DpopEnv.extractBoundKey_thumbprint extracted)

theorem bound_withCapacity (env : DpopEnv) (capacity : Nat) : (withCapacity capacity).Bound env := by
  intro entry member
  cases member

end DPoPKeyCache

/-- After any proofs, every entry of the cache maps a thumbprint to a key that
has it. A proof whose header passes the checks is accepted with the same claims
as without a cache, or rejected as well. One whose header does not is rejected
without a cache, and otherwise accepted exactly when the key of the lease is
cached, the proof is signed with that key, and its payload passes the checks. -/
theorem cached_verdicts (env : DpopEnv) (ideal : Function.Injective env.digest) (capacity : Nat) (past : List DpopCall)
    (call : DpopCall) :
    let cache := (dpopVerifier env).run (.withCapacity capacity) past
    cache.Bound env ∧
      ((∃ key, call.HeaderKey env key) → call.accepted env cache = call.accepted env (.withCapacity capacity)) ∧
      ((¬∃ key, call.HeaderKey env key) → call.accepted env (.withCapacity capacity) = none ∧
        ∀ claims, call.accepted env cache = some claims ↔
          ∃ key, cache.entries.lookup call.cnfJkt = some key ∧ call.SignedWith env key claims) := by
  intro cache
  have bound : cache.Bound env :=
    Machine.run_invariant (fun cache call bound => bound.verify call) (DPoPKeyCache.bound_withCapacity env capacity) past
  have fresh : (DPoPKeyCache.withCapacity capacity).entries.lookup call.cnfJkt = none := rfl
  refine ⟨bound, ?_, ?_⟩
  · rintro ⟨key, header⟩
    apply Option.ext
    intro claims
    rw [DpopCall.accepted_of_uncached fresh]
    cases hit : cache.entries.lookup call.cnfJkt with
    | none => rw [DpopCall.accepted_of_uncached hit]
    | some cached =>
      rw [DpopCall.accepted_of_cached hit]
      have same : cached = key := (bound.lookup hit).unique ideal header.thumbprint
      subst same
      constructor
      · exact fun signed => ⟨_, header, signed⟩
      · rintro ⟨other, accepted, signed⟩
        have equal : other = cached := accepted.thumbprint.unique ideal header.thumbprint
        exact equal ▸ signed
  · intro refused
    constructor
    · rw [Option.eq_none_iff_forall_ne_some]
      intro claims accepted
      obtain ⟨key, header, -⟩ := (DpopCall.accepted_of_uncached fresh).mp accepted
      exact refused ⟨key, header⟩
    · intro claims
      cases hit : cache.entries.lookup call.cnfJkt with
      | none =>
        rw [DpopCall.accepted_of_uncached hit]
        constructor
        · rintro ⟨key, header, -⟩
          exact absurd ⟨key, header⟩ refused
        · rintro ⟨key, ⟨⟩, -⟩
      | some cached =>
        rw [DpopCall.accepted_of_cached hit]
        simp

/-! A key that is cached, and a proof whose header says nothing. -/

def plainHeader : Json :=
  .object [("alg", .string "ES256"), ("jwk", .object [("crv", .string "P-256"), ("kty", .string "EC"), ("x", .string "x"),
    ("y", .string "y")]), ("typ", .string "dpop+jwt")]

def plainEnv : DpopEnv where
  decodeBase64 text := if text = "s" then some (List.replicate 64 0) else if text = "x" ∨ text = "y" then
    some (List.replicate 32 1) else some (Encoding.utf8 text.toList)
  parseJson bytes := if bytes = Encoding.utf8 "h".toList then some plainHeader else some .null
  parseClaims _ := .ok ⟨"jti", "GET", "http://gate/", 0, "lease"⟩
  onCurve _ := true
  digest := id
  verify _ _ _ := true
  debug text := text.getD "None"
  sanitize := id

def plainCall (proof : String) : DpopCall where
  now := 0
  proof := proof
  expectedHtm := "GET"
  expectedHtu := "http://gate/"
  leaseJwt := "lease"
  cnfJkt := plainEnv.computeJwkThumbprint "x" "y"

theorem cached_verdicts_sample :
    let cache := (dpopVerifier plainEnv).run (.withCapacity 256) [plainCall "h.p.s"]
    cache.Bound plainEnv ∧
      ((∃ key, (plainCall "h.q.s").HeaderKey plainEnv key) →
        (plainCall "h.q.s").accepted plainEnv cache = (plainCall "h.q.s").accepted plainEnv (.withCapacity 256)) := by
  have verdicts := cached_verdicts plainEnv Function.injective_id 256 [plainCall "h.p.s"] (plainCall "h.q.s")
  exact ⟨verdicts.1, verdicts.2.1⟩

/-- The header of the second proof has no type, no algorithm and no key. -/
theorem headless_proof_accepted :
    (plainCall "n.p.s").accepted plainEnv ((dpopVerifier plainEnv).run (.withCapacity 256) [plainCall "h.p.s"]) =
        some ⟨"jti", "GET", "http://gate/", 0, "lease"⟩ ∧
      (plainCall "n.p.s").accepted plainEnv (.withCapacity 256) = none := by
  decide

end Latchgate
