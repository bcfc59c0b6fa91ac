import Latchgate.Core.Receipt
import Latchgate.Crypto.VerifyingKeys
import Latchgate.Manifest.Types

namespace Latchgate

/-- What the host has seen of an execution. -/
inductive HostObservedEffect where
  | httpStatus (status : UInt16) (target : String)
  | fs (operation : FsOperation) (path : String) (beforeHash afterHash : Option (List UInt8))
      (bytesBefore bytesAfter : UInt64)

/-- The parts of the input that a verifier looks at. -/
structure VerificationInput where
  providerOutput : Json
  verificationConfig : Option Json
  hostObserved : List HostObservedEffect

inductive VerifierError where
  | incompleteInput (reason : String)
  | internal (message : String)
  deriving DecidableEq

def decodeU16 (v : Json) : Option UInt16 :=
  (Json.decodeU64 v).bind fun n => if n.toNat < UInt16.size then some n.toUInt16 else none

/-- Both members may be missing. -/
structure HttpVerificationConfig where
  expectedStatus : List UInt16 := []
  requiredFields : List String := []
  deriving DecidableEq

def HttpVerificationConfig.fromValue (v : Json) : Option HttpVerificationConfig := do
  let get ← v.members ["expected_status", "required_fields"]
  let expectedStatus ← Json.decodeOr [] (Json.decodeList decodeU16) (get "expected_status")
  let requiredFields ← Json.decodeOr [] (Json.decodeList Json.asStr?) (get "required_fields")
  some { expectedStatus, requiredFields }

namespace VerificationInput
variable (complaint : Json → String) (input : VerificationInput)

/-- The optional configuration; `complaint` is the JSON library's word against
one that it cannot read. -/
def parseConfig {α : Type} (fromValue : Json → Option α) (verifierName : String) : Except VerifierError (Option α) :=
  match input.verificationConfig with
  | none => .ok none
  | some v => match fromValue v with
    | some config => .ok (some config)
    | none => .error (.incompleteInput ("invalid " ++ verifierName ++ " verification config: " ++ complaint v))

/-- The HTTP statuses that the host has seen, in order. -/
def observedStatuses : List UInt16 :=
  input.hostObserved.filterMap fun
    | .httpStatus status _ => some status
    | .fs _ _ _ _ _ _ => none

def observedFs : List HostObservedEffect :=
  input.hostObserved.filter fun
    | .httpStatus _ _ => false
    | .fs _ _ _ _ _ _ => true

end VerificationInput

namespace HttpStatusVerifier
variable (complaint : Json → String)

/-- The status stands in one of three places. -/
def reportedStatus (output : Json) : Option UInt64 :=
  ((output.get? "status").or ((output.get? "status_code").or ((output.get? "data").bind fun d => d.get? "status_code"))).bind
    Json.decodeU64

def statusOk (config : Option HttpVerificationConfig) (status : UInt16) : Bool :=
  match config with
  | some c => if c.expectedStatus ≠ [] then status ∈ c.expectedStatus else 200 ≤ status && status < 300
  | none => 200 ≤ status && status < 300

def missingField (config : Option HttpVerificationConfig) (output : Json) : Option String :=
  config.bind fun c => c.requiredFields.find? fun field => (((output.get? "body").getD output).get? field).isNone

def evidence (httpStatus : UInt16) (hostCorroborated : Bool) : Json :=
  .ofFields [("http_status", .number (.int httpStatus.toNat)), ("host_corroborated", .bool hostCorroborated)]

/-- The reported number is cut down to 16 bits, and only the first observation
is compared with it. -/
def verify (input : VerificationInput) : Except VerifierError VerificationOutcome :=
  match reportedStatus input.providerOutput with
  | none => .ok (.verificationFailed "provider output missing HTTP status code")
  | some reported =>
    let status := reported.toUInt16
    match input.parseConfig complaint HttpVerificationConfig.fromValue "http_status" with
    | .error e => .error e
    | .ok config =>
      if statusOk config status = false then
        .ok (.verificationFailed ("HTTP status " ++ toString status ++ " is not in the accepted set"))
      else match missingField config input.providerOutput with
        | some field => .ok (.verificationFailed ("required field '" ++ field ++ "' missing from response body"))
        | none => match input.observedStatuses.head? with
          | none => .ok (.verified (evidence status false))
          | some observed =>
            if observed = status then .ok (.verified (evidence status true))
            else .ok (.verificationFailed
              ("provider reported HTTP " ++ toString status ++ " but host observed HTTP " ++ toString observed))

end HttpStatusVerifier

namespace FsHashVerifier

/-- What the evidence of an operation has to be; a reason where it is not. -/
def complaintAgainst (operation : FsOperation) (beforeHash afterHash : Option (List UInt8)) : Option String :=
  match operation with
  | .read => if afterHash.isNone then some "read operation missing after_hash" else none
  | .create =>
    if beforeHash.isSome then some "create operation must not have before_hash"
    else if afterHash.isNone then some "create operation missing after_hash"
    else none
  | .overwrite =>
    if beforeHash.isNone then some "overwrite operation missing before_hash"
    else if afterHash.isNone then some "overwrite operation missing after_hash"
    else none
  | .delete =>
    if beforeHash.isNone then some "delete operation missing before_hash"
    else if afterHash.isSome then some "delete operation must not have after_hash"
    else none

def hashJson : Option (List UInt8) → Json
  | none => .null
  | some hash => .string ("sha256:" ++ hexEncode hash)

def evidence (operation : FsOperation) (path : String) (beforeHash afterHash : Option (List UInt8))
    (bytesBefore bytesAfter : UInt64) : Json :=
  .ofFields
    [("operation", .string operation.asStr), ("path", .string path), ("before_hash", hashJson beforeHash),
      ("after_hash", hashJson afterHash), ("bytes_before", .number (.int bytesBefore.toNat)),
      ("bytes_after", .number (.int bytesAfter.toNat)), ("host_corroborated", .bool true)]

def verify (input : VerificationInput) : Except VerifierError VerificationOutcome :=
  match input.observedFs.head? with
  | some (.fs operation path beforeHash afterHash bytesBefore bytesAfter) =>
    match complaintAgainst operation beforeHash afterHash with
    | some reason => .ok (.verificationFailed reason)
    | none => .ok (.verified (evidence operation path beforeHash afterHash bytesBefore bytesAfter))
  | _ => .ok (.verificationFailed "no host-observed filesystem evidence")

end FsHashVerifier

/-! What a positive verdict is to stand for. -/

/-- The rule for the evidence of an operation. -/
def HostObservedEffect.Evidenced : HostObservedEffect → Prop
  | httpStatus _ _ => True
  | fs .read _ _ afterHash _ _ => afterHash.isSome
  | fs .create _ beforeHash afterHash _ _ => beforeHash.isNone ∧ afterHash.isSome
  | fs .overwrite _ beforeHash afterHash _ _ => beforeHash.isSome ∧ afterHash.isSome
  | fs .delete _ beforeHash afterHash _ _ => beforeHash.isSome ∧ afterHash.isNone

/-- The accepted statuses, as numbers. -/
def HttpVerificationConfig.Accepts (config : Option HttpVerificationConfig) (n : Nat) : Prop :=
  match config with
  | some c => if c.expectedStatus ≠ [] then ∃ status ∈ c.expectedStatus, status.toNat = n else 200 ≤ n ∧ n < 300
  | none => 200 ≤ n ∧ n < 300

namespace HttpStatusVerifier
variable (complaint : Json → String)

/-- `Verified` only for a reported number that is accepted, and that every
status seen by the host is. -/
def Honest (input : VerificationInput) : Prop :=
  ∀ evidence, verify complaint input = .ok (.verified evidence) →
    ∃ reported config, reportedStatus input.providerOutput = some reported ∧
      input.parseConfig complaint HttpVerificationConfig.fromValue "http_status" = .ok config ∧
      HttpVerificationConfig.Accepts config reported.toNat ∧
      ∀ observed ∈ input.observedStatuses, observed.toNat = reported.toNat

/-- Where the low bits of the reported number are accepted, the fields are
there and the first observation agrees, the number has no high bits and the
other observations agree as well. -/
def Uniform (input : VerificationInput) : Prop :=
  ∀ reported config, reportedStatus input.providerOutput = some reported →
    input.parseConfig complaint HttpVerificationConfig.fromValue "http_status" = .ok config →
    statusOk config reported.toUInt16 = true → missingField config input.providerOutput = none →
    (∀ first ∈ input.observedStatuses.head?, first = reported.toUInt16) →
    reported.toNat < UInt16.size ∧ ∀ observed ∈ input.observedStatuses, observed = reported.toUInt16

variable {complaint} {input : VerificationInput}

theorem verify_verified_iff : (∃ evidence, verify complaint input = .ok (.verified evidence)) ↔
    ∃ reported config, reportedStatus input.providerOutput = some reported ∧
      input.parseConfig complaint HttpVerificationConfig.fromValue "http_status" = .ok config ∧
      statusOk config reported.toUInt16 = true ∧ missingField config input.providerOutput = none ∧
      ∀ first ∈ input.observedStatuses.head?, first = reported.toUInt16 := by
  constructor
  · rintro ⟨evidence, verified⟩
    unfold verify at verified
    split at verified
    · cases verified
    · rename_i reported found
      dsimp only at verified
      split at verified
      · cases verified
      · rename_i config parsed
        split_ifs at verified with accepted
        · cases verified
        · split at verified
          · cases verified
          · rename_i complete
            refine ⟨reported, config, found, parsed, by simpa using accepted, complete, ?_⟩
            split at verified
            · rename_i unseen
              simp [unseen]
            · rename_i observed seen
              split_ifs at verified with agrees
              · simpa [seen] using agrees
              · cases verified
  · rintro ⟨reported, config, found, parsed, accepted, complete, agrees⟩
    unfold verify
    simp only [found, parsed, accepted, complete, Bool.true_eq_false, if_false]
    cases seen : input.observedStatuses.head? with
    | none => exact ⟨_, rfl⟩
    | some observed =>
      have same : observed = reported.toUInt16 := agrees observed seen
      exact ⟨_, if_pos same⟩

/-- A number below 2^16 is accepted exactly when its low bits are. -/
theorem accepts_iff {config : Option HttpVerificationConfig} {n : UInt64} (small : n.toNat < UInt16.size) :
    HttpVerificationConfig.Accepts config n.toNat ↔ statusOk config n.toUInt16 = true := by
  have value : n.toUInt16.toNat = n.toNat := by
    rw [UInt64.toNat_toUInt16]
    exact Nat.mod_eq_of_lt small
  have range : (200 ≤ n.toNat ∧ n.toNat < 300) ↔ (200 ≤ n.toUInt16 && n.toUInt16 < 300) = true := by
    simp only [Bool.and_eq_true, decide_eq_true_eq, UInt16.le_iff_toNat_le, UInt16.lt_iff_toNat_lt, value]
    rfl
  cases config with
  | none => exact range
  | some c =>
    by_cases listed : c.expectedStatus ≠ []
    · simp only [HttpVerificationConfig.Accepts, statusOk, if_pos listed, decide_eq_true_eq]
      constructor
      · rintro ⟨status, member, same⟩
        rwa [← UInt16.toNat_inj.mp (same.trans value.symm)]
      · intro member
        exact ⟨_, member, value⟩
    · simp only [HttpVerificationConfig.Accepts, statusOk, if_neg listed]
      exact range

theorem accepts_small {config : Option HttpVerificationConfig} {n : Nat}
    (accepts : HttpVerificationConfig.Accepts config n) : n < UInt16.size := by
  unfold HttpVerificationConfig.Accepts at accepts
  split at accepts
  · split_ifs at accepts
    · obtain ⟨status, -, rfl⟩ := accepts
      exact status.toNat_lt
    · exact lt_trans accepts.2 (by decide)
  · exact lt_trans accepts.2 (by decide)

theorem honest_iff : Honest complaint input ↔ Uniform complaint input := by
  constructor
  · intro honest reported config found parsed accepted complete agrees
    obtain ⟨evidence, verified⟩ := verify_verified_iff.2 ⟨reported, config, found, parsed, accepted, complete, agrees⟩
    obtain ⟨again, same, foundAgain, parsedAgain, accepts, all⟩ := honest evidence verified
    obtain rfl : again = reported := Option.some.inj (foundAgain.symm.trans found)
    obtain rfl : same = config := Except.ok.inj (parsedAgain.symm.trans parsed)
    have small := accepts_small accepts
    refine ⟨small, fun observed member => UInt16.toNat_inj.mp ?_⟩
    rw [all observed member, UInt64.toNat_toUInt16]
    exact (Nat.mod_eq_of_lt small).symm
  · intro uniform evidence verified
    obtain ⟨reported, config, found, parsed, accepted, complete, agrees⟩ := verify_verified_iff.1 ⟨evidence, verified⟩
    obtain ⟨small, all⟩ := uniform reported config found parsed accepted complete agrees
    refine ⟨reported, config, found, parsed, (accepts_iff small).mpr accepted, fun observed member => ?_⟩
    rw [all observed member, UInt64.toNat_toUInt16]
    exact Nat.mod_eq_of_lt small

end HttpStatusVerifier

namespace FsHashVerifier

/-- `Verified` only if every effect on the file system has its evidence. -/
def Honest (input : VerificationInput) : Prop :=
  ∀ evidence, verify input = .ok (.verified evidence) → ∀ effect ∈ input.observedFs, effect.Evidenced

/-- Where the first effect has its evidence, all have. -/
def Uniform (input : VerificationInput) : Prop :=
  (∀ first ∈ input.observedFs.head?, first.Evidenced) → ∀ effect ∈ input.observedFs, effect.Evidenced

theorem complaintAgainst_eq_none {operation : FsOperation} {path : String} {beforeHash afterHash : Option (List UInt8)}
    {bytesBefore bytesAfter : UInt64} : complaintAgainst operation beforeHash afterHash = none ↔
      (HostObservedEffect.fs operation path beforeHash afterHash bytesBefore bytesAfter).Evidenced := by
  cases operation <;> cases beforeHash <;> cases afterHash <;> simp [complaintAgainst, HostObservedEffect.Evidenced]

theorem verify_verified_iff {input : VerificationInput} : (∃ evidence, verify input = .ok (.verified evidence)) ↔
    ∃ first ∈ input.observedFs.head?, first.Evidenced := by
  unfold verify
  cases seen : input.observedFs.head? with
  | none => simp
  | some first =>
    have listed : first ∈ input.observedFs := List.mem_of_mem_head? seen
    cases first with
    | httpStatus status target => exact absurd (List.mem_filter.mp listed).2 (by simp)
    | fs operation path beforeHash afterHash bytesBefore bytesAfter =>
      have judged := @complaintAgainst_eq_none operation path beforeHash afterHash bytesBefore bytesAfter
      cases found : complaintAgainst operation beforeHash afterHash with
      | none => simpa [found] using judged.mp found
      | some reason =>
        have refused : ¬(HostObservedEffect.fs operation path beforeHash afterHash bytesBefore bytesAfter).Evidenced :=
          fun evidenced => by rw [judged.mpr evidenced] at found; cases found
        simpa [found] using refused

theorem honest_iff {input : VerificationInput} : Honest input ↔ Uniform input := by
  constructor
  · intro honest evidenced effect member
    obtain ⟨first, seen⟩ : ∃ first, input.observedFs.head? = some first := by
      cases effects : input.observedFs with
      | nil => rw [effects] at member; cases member
      | cons first rest => exact ⟨first, rfl⟩
    obtain ⟨evidence, verified⟩ := verify_verified_iff.2 ⟨first, seen, evidenced first seen⟩
    exact honest evidence verified effect member
  · intro uniform evidence verified
    obtain ⟨first, seen, evidenced⟩ := verify_verified_iff.1 ⟨evidence, verified⟩
    refine uniform fun other same => ?_
    rwa [Option.some.inj (same.symm.trans seen)]

end FsHashVerifier

/-- Both verifiers stand by what `Verified` says exactly on the inputs in which
what they look at speaks for what they leave out: the bits above the sixteenth
and the observations behind the first. -/
theorem verified_with_evidence (complaint : Json → String) (input : VerificationInput) :
    (HttpStatusVerifier.Honest complaint input ∧ FsHashVerifier.Honest input) ↔
      HttpStatusVerifier.Uniform complaint input ∧ FsHashVerifier.Uniform input :=
  and_congr HttpStatusVerifier.honest_iff FsHashVerifier.honest_iff

/-- A provider that reports 65736, seen once as 200. -/
def wideStatus : VerificationInput where
  providerOutput := .ofFields [("status", .number (.int 65736))]
  verificationConfig := none
  hostObserved := [.httpStatus 200 "https://api.example.com"]

/-- Two requests, of which the second failed. -/
def secondFailed : VerificationInput where
  providerOutput := .ofFields [("status", .number (.int 200))]
  verificationConfig := none
  hostObserved := [.httpStatus 200 "https://api.example.com", .httpStatus 500 "https://api.example.com"]

/-- A read with its hash, and a file that was overwritten without any. -/
def secondUnhashed : VerificationInput where
  providerOutput := .null
  verificationConfig := none
  hostObserved :=
    [.fs .read "a" none (some [0]) 0 1, .fs .overwrite "b" none none 1 1, .httpStatus 200 "https://api.example.com"]

theorem verified_without_evidence :
    ¬HttpStatusVerifier.Honest (fun _ => "") wideStatus ∧ ¬HttpStatusVerifier.Honest (fun _ => "") secondFailed ∧
      ¬FsHashVerifier.Honest secondUnhashed := by
  refine ⟨fun honest => ?_, fun honest => ?_, fun honest => ?_⟩
  · obtain ⟨reported, config, found, -, -, agree⟩ := honest _ rfl
    cases found
    exact absurd (agree 200 (by decide)) (by decide)
  · obtain ⟨reported, config, found, -, -, agree⟩ := honest _ rfl
    cases found
    exact absurd (agree 500 (by decide)) (by decide)
  · have unhashed : (HostObservedEffect.fs .overwrite "b" none none 1 1).Evidenced :=
      honest _ rfl _ (.tail _ (.head _))
    exact absurd unhashed.1 (by decide)

end Latchgate
