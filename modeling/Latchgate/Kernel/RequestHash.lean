import Latchgate.Kernel.ResponseLimits

namespace Latchgate
open Encoding (utf8 utf8_injective)

/-- How the canonical text writes numbers, as ECMAScript does. A whole number
that a double has room for is written out. -/
structure EcmaScript (es : JsonNumber → String) : Prop where
  spells : ∃ spell, Json.Spells es spell
  whole : ∀ z : Int, z.natAbs ≤ 2 ^ 53 → es (.int z) = z.repr

def Precise (n : JsonNumber) : Prop :=
  ∃ z : Int, n = .int z ∧ z.natAbs ≤ 2 ^ 53

theorem EcmaScript.distinct {es : JsonNumber → String} (ecma : EcmaScript es) {m n : JsonNumber} (first : Precise m)
    (second : Precise n) (same : es m = es n) : m = n := by
  obtain ⟨z, rfl, small⟩ := first
  obtain ⟨w, rfl, other⟩ := second
  rw [ecma.whole z small, ecma.whole w other] at same
  exact congrArg JsonNumber.int (Int.repr_injective same)

namespace CallEnv

/-- What the steps take from the libraries: the JSON parser fills maps, and the
hash of a body is that of its canonical text. -/
structure Libraries (env : CallEnv) (codec : Codec) (es : JsonNumber → String) : Prop where
  canonicalizes : codec.Canonicalizes es
  maps : ∀ body v, env.fromSlice body = .ok v → v.sorted = v
  hashes : ∀ maxBytes v hash, env.gate.canonicalHash maxBytes v = .ok hash →
    codec.canonicalHash v (bodyHashLimits maxBytes) = .ok hash

/-- Two documents whose canonical texts differ and have one digest. -/
def Collide (codec : Codec) (es : JsonNumber → String) (v w : Json) : Prop :=
  utf8 (Json.canonical es v) ≠ utf8 (Json.canonical es w) ∧
    codec.sha256 (utf8 (Json.canonical es v)) = codec.sha256 (utf8 (Json.canonical es w))

variable {codec : Codec} {es : JsonNumber → String}

theorem canonicalHash_digest (canonicalizes : codec.Canonicalizes es) {v : Json} {limits : Limits} {hash : String}
    (hashed : codec.canonicalHash v limits = .ok hash) : hash = codec.sha256Digest (utf8 (Json.canonical es v)) := by
  unfold Codec.canonicalHash Codec.validatedCanonical at hashed
  rw [canonicalizes v] at hashed
  dsimp only at hashed
  split_ifs at hashed with deep large
  · cases hashed
  · cases hashed
  · have same : codec.sha256Digest (utf8 (String.ofList (Json.canonical es v)).toList) = hash := Except.ok.inj hashed
    rw [← same, String.toList_ofList]

theorem parseBody_map {env : CallEnv} (libraries : env.Libraries codec es) {body : List UInt8} {v : Json}
    (parsed : env.parseBody body = .ok v) : v.sorted = v := by
  unfold parseBody at parsed
  split_ifs at parsed with empty
  · cases parsed
    rfl
  · cases read : env.fromSlice body with
    | error e =>
      rw [read] at parsed
      cases parsed
    | ok w =>
      rw [read] at parsed
      cases parsed
      exact libraries.maps body _ read

/-- What the step hands on: the parsed map, with the digest of its canonical text. -/
theorem stepValidateAndHash_ok {env : CallEnv} (libraries : env.Libraries codec es) {version : RegistryVersion}
    {actionId : String} {manifest : ActionSpec} {body : List UInt8} {out : ValidateAndHashOutput}
    (accepted : env.stepValidateAndHash version actionId manifest body = .ok out) :
    out.requestBody.sorted = out.requestBody ∧
      out.requestHash = codec.sha256Digest (utf8 (Json.canonical es out.requestBody)) := by
  unfold stepValidateAndHash at accepted
  obtain ⟨requestBody, parsed, accepted⟩ := Except.bind_eq_ok.1 accepted
  obtain ⟨_, _, accepted⟩ := Except.bind_eq_ok.1 accepted
  obtain ⟨requestHash, hashed, accepted⟩ := Except.bind_eq_ok.1 accepted
  cases accepted
  have digest := libraries.hashes _ _ _ (Except.mapError_eq_ok.1 hashed)
  exact ⟨parseBody_map libraries parsed, canonicalHash_digest libraries.canonicalizes digest⟩

/-- A request hash names the data of one body, up to numbers that are one
double, unless two canonical texts have one digest. Bodies with whole numbers
up to 2^53 alone are the same document. -/
theorem request_hash_binds (ecma : EcmaScript es) {env otherEnv : CallEnv} (libraries : env.Libraries codec es)
    (others : otherEnv.Libraries codec es) {version otherVersion : RegistryVersion} {actionId otherId : String}
    {manifest otherManifest : ActionSpec} {body otherBody : List UInt8} {out other : ValidateAndHashOutput}
    (first : env.stepValidateAndHash version actionId manifest body = .ok out)
    (second : otherEnv.stepValidateAndHash otherVersion otherId otherManifest otherBody = .ok other) :
    (out.requestHash = other.requestHash ↔
      Json.Same es out.requestBody other.requestBody ∨ Collide codec es out.requestBody other.requestBody) ∧
    (out.requestBody.Numbers Precise → other.requestBody.Numbers Precise →
      (out.requestHash = other.requestHash ↔
        out.requestBody = other.requestBody ∨ Collide codec es out.requestBody other.requestBody)) := by
  obtain ⟨map, digest⟩ := stepValidateAndHash_ok libraries first
  obtain ⟨otherMap, otherDigest⟩ := stepValidateAndHash_ok others second
  obtain ⟨spell, spells⟩ := ecma.spells
  have texts := Json.canonical_eq_iff spells map otherMap
  have hashes : out.requestHash = other.requestHash ↔
      codec.sha256 (utf8 (Json.canonical es out.requestBody)) = codec.sha256 (utf8 (Json.canonical es other.requestBody)) := by
    rw [digest, otherDigest, Codec.sha256Digest, Codec.sha256Digest, String.append_right_inj]
  have binds : out.requestHash = other.requestHash ↔
      Json.Same es out.requestBody other.requestBody ∨ Collide codec es out.requestBody other.requestBody := by
    rw [hashes]
    constructor
    · intro same
      by_cases equal : utf8 (Json.canonical es out.requestBody) = utf8 (Json.canonical es other.requestBody)
      · exact .inl (texts.mp (utf8_injective equal))
      · exact .inr ⟨equal, same⟩
    · rintro (same | collide)
      · rw [texts.mpr same]
      · exact collide.2
  refine ⟨binds, fun precise otherPrecise => ?_⟩
  rw [binds]
  have equal : Json.Same es out.requestBody other.requestBody ↔ out.requestBody = other.requestBody := by
    constructor
    · exact Json.Same.eq_of_numbers (fun _ _ => ecma.distinct) precise otherPrecise
    · intro same
      rw [same]
      exact Json.Same.refl _
  rw [equal]

/-- A canonicaliser and a digest that keep the text as it is. -/
def plainCodec : Codec where
  fromStr := fun _ => .error "EOF while parsing a value"
  jcs := fun v => .ok (String.ofList (Json.canonical JsonNumber.text v))
  sha256 := hexEncode

/-- A gate that reads the document `[1]`, whether it is written with a blank
or without. -/
def plainEnv : CallEnv where
  gate :=
    { AppState.fsGate with
      canonicalHash := fun maxBytes v =>
        (plainCodec.canonicalHash v (bodyHashLimits maxBytes)).mapError fun _ => "input exceeds max size" }
  fromSlice := fun _ => .ok (.array [.number (.int 1)])
  violations := fun _ => ""

theorem plain_ecma : EcmaScript JsonNumber.text :=
  ⟨⟨id, fun _ => rfl⟩, fun _ _ => rfl⟩

theorem plainEnv_libraries : plainEnv.Libraries plainCodec JsonNumber.text where
  canonicalizes := fun _ => rfl
  maps := by
    intro body v parsed
    cases parsed
    rfl
  hashes := by
    intro maxBytes v hash hashed
    exact Except.mapError_eq_ok.1 hashed

/-- What a body comes out as that is read as `[1]`. -/
def plainOutput : ValidateAndHashOutput where
  requestBody := .array [.number (.int 1)]
  requestHash := "sha256:5b315d"
  schemaId := none

/-- A blank in the text of a body does not change its hash. -/
theorem request_hash_binds_plain :
    plainEnv.stepValidateAndHash ⟨0, RegistrySwap.sampleOpen⟩ "fs_read" RegistrySwap.sampleSpec [91, 49, 93] =
        .ok plainOutput ∧
      plainEnv.stepValidateAndHash ⟨0, RegistrySwap.sampleOpen⟩ "fs_read" RegistrySwap.sampleSpec [91, 32, 49, 93] =
        .ok plainOutput ∧
      (Json.Same JsonNumber.text plainOutput.requestBody plainOutput.requestBody ∨
        Collide plainCodec JsonNumber.text plainOutput.requestBody plainOutput.requestBody) := by
  have first : plainEnv.stepValidateAndHash ⟨0, RegistrySwap.sampleOpen⟩ "fs_read" RegistrySwap.sampleSpec [91, 49, 93] =
      .ok plainOutput := rfl
  have second : plainEnv.stepValidateAndHash ⟨0, RegistrySwap.sampleOpen⟩ "fs_read" RegistrySwap.sampleSpec
      [91, 32, 49, 93] = .ok plainOutput := rfl
  exact ⟨first, second, (request_hash_binds plain_ecma plainEnv_libraries plainEnv_libraries first second).1.mp rfl⟩

end CallEnv
end Latchgate
