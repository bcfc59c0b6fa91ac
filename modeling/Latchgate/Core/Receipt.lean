import Latchgate.Core.Canonical
import Latchgate.Json.Same
import Latchgate.Plan.Types

namespace Json

/-- The members of a record without defaults: by name in an object, by
position in an array that has them all. -/
def record (names : List String) : Json → Option (String → Option Json)
  | object fields => some fun name => fields.lookup name
  | array items => if items.length = names.length then some fun name => items[names.idxOf name]? else none
  | _ => none

/-- The documents that stand directly in a document. -/
def inside : Json → List Json
  | object fields => fields.map Prod.snd
  | array items => items
  | _ => []

/-- A variant that names itself in a field `tag` among its own. -/
def tagged (tag : String) : Json → Option (String × Json)
  | object fields => do
    let name ← (fields.lookup tag).bind asStr?
    some (name, object (fields.filter fun field => field.1 ≠ tag))
  | array (first :: rest) => do
    let name ← first.asStr?
    some (name, array rest)
  | _ => none

end Json

namespace Latchgate
open Json (string array object)

inductive VerificationOutcome where
  | verified (evidence : Json)
  | verificationFailed (reason : String)
  | unverifiableDeclared
  | providerFailedBeforeVerification
  | skipped

inductive NormalizedResult where
  | success (summary : String)
  | providerFailure (reason : String)
  | timeout
  | cancelled
  | internalError (reason : String)
  deriving DecidableEq

inductive FailureClass where
  | providerError
  | timeout
  | policyViolation
  | verificationFailed
  | cancelled
  | internalError
  deriving DecidableEq

namespace VerificationOutcome

def isFailed : VerificationOutcome → Bool
  | verificationFailed _ => true
  | _ => false

def encode : VerificationOutcome → Json
  | verified evidence => object [("status", string "verified"), ("evidence", evidence)]
  | verificationFailed reason => object [("status", string "verification_failed"), ("reason", string reason)]
  | unverifiableDeclared => object [("status", string "unverifiable_declared")]
  | providerFailedBeforeVerification => object [("status", string "provider_failed_before_verification")]
  | skipped => object [("status", string "skipped")]

def decode (v : Json) : Option VerificationOutcome := do
  let (status, content) ← v.tagged "status"
  match status with
  | "verified" => do
    let get ← content.record ["evidence"]
    (get "evidence").map verified
  | "verification_failed" => do
    let get ← content.record ["reason"]
    let reason ← (get "reason").bind Json.asStr?
    some (verificationFailed reason)
  | "unverifiable_declared" => some unverifiableDeclared
  | "provider_failed_before_verification" => some providerFailedBeforeVerification
  | "skipped" => some skipped
  | _ => none

end VerificationOutcome

namespace NormalizedResult

def encode : NormalizedResult → Json
  | success summary => object [("kind", string "success"), ("summary", string summary)]
  | providerFailure reason => object [("kind", string "provider_failure"), ("reason", string reason)]
  | timeout => object [("kind", string "timeout")]
  | cancelled => object [("kind", string "cancelled")]
  | internalError reason => object [("kind", string "internal_error"), ("reason", string reason)]

def decode (v : Json) : Option NormalizedResult := do
  let (kind, content) ← v.tagged "kind"
  match kind with
  | "success" => do
    let get ← content.record ["summary"]
    let summary ← (get "summary").bind Json.asStr?
    some (success summary)
  | "provider_failure" => do
    let get ← content.record ["reason"]
    let reason ← (get "reason").bind Json.asStr?
    some (providerFailure reason)
  | "timeout" => some timeout
  | "cancelled" => some cancelled
  | "internal_error" => do
    let get ← content.record ["reason"]
    let reason ← (get "reason").bind Json.asStr?
    some (internalError reason)
  | _ => none

end NormalizedResult

namespace FailureClass

def asStr : FailureClass → String
  | providerError => "provider_error"
  | timeout => "timeout"
  | policyViolation => "policy_violation"
  | verificationFailed => "verification_failed"
  | cancelled => "cancelled"
  | internalError => "internal_error"

def all : List FailureClass :=
  [providerError, timeout, policyViolation, verificationFailed, cancelled, internalError]

def encodeOption : Option FailureClass → Json
  | none => .null
  | some c => string c.asStr

def decodeOption : Option Json → Option (Option FailureClass) :=
  Json.decodeOr none (Json.decodeNullable (Json.decodeVariant (all.map fun c => (c.asStr, c))))

end FailureClass

/-- How instants stand in documents: the text `serialize` writes is the one
that `parse` reads, and what is read is printed with `toRfc3339` when hashed. -/
structure TimeFormat where
  toRfc3339 : Int → String
  serialize : Int → String
  parse : String → Option Int

def TimeFormat.decode (times : TimeFormat) (v : Json) : Option DateTime := do
  let text ← v.asStr?
  let instant ← times.parse text
  some ⟨instant, times.toRfc3339 instant⟩

/-- The receipt of an execution. The kernel builds it without the last
three texts, hashes it and signs the hash. -/
structure ExecutionReceipt where
  receiptId : String
  grantId : String
  providerModuleDigest : String
  providerReceipt : Json
  normalizedResult : NormalizedResult
  verificationOutcome : VerificationOutcome
  effectEvidence : List Json := []
  startedAt : DateTime
  finishedAt : DateTime
  failureClass : Option FailureClass
  resultHash : String := ""
  receiptSignature : Option String := none
  signingKeyId : Option String := none

namespace ExecutionReceipt

def isFullySuccessful (receipt : ExecutionReceipt) : Bool :=
  match receipt.normalizedResult, receipt.verificationOutcome with
  | .success _, .verified _ | .success _, .unverifiableDeclared => true
  | _, _ => false

/-- The document that is hashed. It is built as a map. -/
def hashable (receipt : ExecutionReceipt) : Json :=
  (object
    [("receipt_id", string receipt.receiptId),
      ("grant_id", string receipt.grantId),
      ("provider_module_digest", string receipt.providerModuleDigest),
      ("provider_receipt", receipt.providerReceipt),
      ("normalized_result", receipt.normalizedResult.encode),
      ("verification_outcome", receipt.verificationOutcome.encode),
      ("effect_evidence", array receipt.effectEvidence),
      ("started_at", string receipt.startedAt.rfc3339),
      ("finished_at", string receipt.finishedAt.rfc3339),
      ("failure_class", FailureClass.encodeOption receipt.failureClass)]).sorted

/-- A document that cannot be made canonical is hashed as the complaint. -/
def canonicalText (codec : Codec) (receipt : ExecutionReceipt) : String :=
  match codec.jcs receipt.hashable with
  | .ok canonical => canonical
  | .error e => "CANONICALIZATION_FAILED:" ++ e

def computeResultHash (codec : Codec) (receipt : ExecutionReceipt) : String :=
  codec.sha256 (Encoding.utf8 (receipt.canonicalText codec).toList)

/-- The members in the order they are written; a signature that is missing is
skipped. -/
def members (times : TimeFormat) (receipt : ExecutionReceipt) : List (String × Json) :=
  [("receipt_id", string receipt.receiptId), ("grant_id", string receipt.grantId),
    ("provider_module_digest", string receipt.providerModuleDigest), ("provider_receipt", receipt.providerReceipt),
    ("normalized_result", receipt.normalizedResult.encode),
    ("verification_outcome", receipt.verificationOutcome.encode), ("effect_evidence", array receipt.effectEvidence),
    ("result_hash", string receipt.resultHash)] ++
  (receipt.receiptSignature.map fun text => ("receipt_signature", string text)).toList ++
  (receipt.signingKeyId.map fun text => ("signing_key_id", string text)).toList ++
  [("started_at", string (times.serialize receipt.startedAt.unixNanos)),
    ("finished_at", string (times.serialize receipt.finishedAt.unixNanos)),
    ("failure_class", FailureClass.encodeOption receipt.failureClass)]

def encode (times : TimeFormat) (receipt : ExecutionReceipt) : Json :=
  object (receipt.members times)

def names : List String :=
  ["receipt_id", "grant_id", "provider_module_digest", "provider_receipt", "normalized_result", "verification_outcome",
    "effect_evidence", "result_hash", "receipt_signature", "signing_key_id", "started_at", "finished_at",
    "failure_class"]

def decode (times : TimeFormat) (v : Json) : Option ExecutionReceipt := do
  let get ← v.record names
  let receiptId ← (get "receipt_id").bind Json.asStr?
  let grantId ← (get "grant_id").bind Json.asStr?
  let providerModuleDigest ← (get "provider_module_digest").bind Json.asStr?
  let providerReceipt ← get "provider_receipt"
  let normalizedResult ← (get "normalized_result").bind NormalizedResult.decode
  let verificationOutcome ← (get "verification_outcome").bind VerificationOutcome.decode
  let effectEvidence ← (get "effect_evidence").bind Json.asArray?
  let resultHash ← (get "result_hash").bind Json.asStr?
  let receiptSignature ← Json.decodeOr none (Json.decodeNullable Json.asStr?) (get "receipt_signature")
  let signingKeyId ← Json.decodeOr none (Json.decodeNullable Json.asStr?) (get "signing_key_id")
  let startedAt ← (get "started_at").bind times.decode
  let finishedAt ← (get "finished_at").bind times.decode
  let failureClass ← FailureClass.decodeOption (get "failure_class")
  some
    { receiptId, grantId, providerModuleDigest, providerReceipt, normalizedResult, verificationOutcome
      effectEvidence, startedAt, finishedAt, failureClass, resultHash, receiptSignature, signingKeyId }

end ExecutionReceipt

/-! A receipt that was written is read back, up to the doubles in its
documents. -/

theorem record_sorted_object (names : List String) {fields : List (String × Json)}
    (distinct : (fields.map Prod.fst).Nodup) :
    (Json.object fields).sorted.record names = some fun name => (fields.lookup name).map Json.sorted := by
  have found : ∀ name, (Json.object fields).sorted.get? name = (fields.lookup name).map Json.sorted :=
    fun name => Json.get?_sorted_object name distinct
  simp only [Json.sorted, Json.ofFields, Json.get?] at found
  simp only [Json.sorted, Json.ofFields, Json.record, found]

theorem bind_of_some {α β : Type} {x : Option α} {a : α} {f : α → Option β} {b : β} (found : x = some a)
    (rest : f a = some b) : x >>= f = some b := by
  rw [found]
  exact rest

variable {read : FloatText → Except String FloatText} {times : TimeFormat}

theorem sorted_single (a : String) (v : Json) : (object [(a, v)]).sorted = object [(a, v.sorted)] := rfl

theorem sorted_pair_kept {a b : String} (differs : b ≠ a) (order : ¬b < a) (v w : Json) :
    (object [(a, v), (b, w)]).sorted = object [(a, v.sorted), (b, w.sorted)] := by
  simp [Json.sorted, Json.sortedFields, Json.ofFields, Json.insertField, differs, order]

theorem sorted_pair_swapped {a b : String} (differs : b ≠ a) (order : b < a) (v w : Json) :
    (object [(a, v), (b, w)]).sorted = object [(b, w.sorted), (a, v.sorted)] := by
  simp [Json.sorted, Json.sortedFields, Json.ofFields, Json.insertField, differs, order]

namespace NormalizedResult

theorem reparse_encode (result : NormalizedResult) : result.encode.reparse read = .ok result.encode := by
  cases result <;> rfl

theorem decode_sorted_encode (result : NormalizedResult) : decode result.encode.sorted = some result := by
  cases result with
  | success summary =>
    rw [encode, sorted_pair_kept (by decide) (by decide)]
    rfl
  | providerFailure reason =>
    rw [encode, sorted_pair_kept (by decide) (by decide)]
    rfl
  | internalError reason =>
    rw [encode, sorted_pair_kept (by decide) (by decide)]
    rfl
  | timeout => rfl
  | cancelled => rfl

end NormalizedResult

namespace VerificationOutcome

/-- The documents that stand in an outcome as they are. -/
def documents : VerificationOutcome → List Json
  | verified evidence => [evidence]
  | _ => []

def reparse (read : FloatText → Except String FloatText) : VerificationOutcome → Except String VerificationOutcome
  | verified evidence => (evidence.reparse read).map verified
  | outcome => .ok outcome

/-- Two outcomes with the same data. -/
def Same (print : JsonNumber → String) : VerificationOutcome → VerificationOutcome → Prop
  | verified evidence, verified other => Json.Same print evidence other
  | verificationFailed reason, verificationFailed other => reason = other
  | unverifiableDeclared, unverifiableDeclared => True
  | providerFailedBeforeVerification, providerFailedBeforeVerification => True
  | skipped, skipped => True
  | _, _ => False

theorem reparse_encode (outcome : VerificationOutcome) :
    outcome.encode.reparse read = (outcome.reparse read).map encode := by
  cases outcome with
  | verified evidence =>
    simp only [encode, reparse, Json.reparse, Json.reparseFields]
    cases evidence.reparse read <;> rfl
  | _ => rfl

theorem decode_sorted_encode (outcome : VerificationOutcome) (maps : ∀ v ∈ outcome.documents, v.sorted = v) :
    decode outcome.encode.sorted = some outcome := by
  cases outcome with
  | verified evidence =>
    have map : evidence.sorted = evidence := maps evidence (by simp [documents])
    rw [encode, sorted_pair_swapped (by decide) (by decide), map]
    rfl
  | verificationFailed reason =>
    rw [encode, sorted_pair_swapped (by decide) (by decide)]
    rfl
  | unverifiableDeclared => rfl
  | providerFailedBeforeVerification => rfl
  | skipped => rfl

theorem sorted_of_reparse {outcome other : VerificationOutcome} (maps : ∀ v ∈ outcome.documents, v.sorted = v)
    (reparsed : outcome.reparse read = .ok other) : ∀ v ∈ other.documents, v.sorted = v := by
  cases outcome with
  | verified evidence =>
    obtain ⟨w, inner, rfl⟩ := Except.map_eq_ok.1 reparsed
    intro v member
    obtain rfl : v = w := by simpa [documents] using member
    exact Json.sorted_of_reparse (maps evidence (by simp [documents])) inner
  | _ =>
    cases reparsed
    exact maps

theorem reparse_same_iff {print : JsonNumber → String} (outcome : VerificationOutcome) :
    (∃ other, outcome.reparse read = .ok other ∧ outcome.Same print other) ↔
      ∀ t ∈ Json.floatsItems outcome.documents, Json.Keeps print read t := by
  cases outcome with
  | verified evidence =>
    simp only [documents, Json.floatsItems, List.append_nil, ← Json.reparse_same_iff]
    constructor
    · rintro ⟨other, back, same⟩
      obtain ⟨w, inner, rfl⟩ := Except.map_eq_ok.1 back
      exact ⟨w, inner, same⟩
    · rintro ⟨w, inner, same⟩
      exact ⟨verified w, Except.map_eq_ok.2 ⟨w, inner, rfl⟩, same⟩
  | _ => simp [documents, Json.floatsItems, reparse, Same]

end VerificationOutcome

theorem FailureClass.decodeOption_encodeOption (failure : Option FailureClass) :
    decodeOption (some (encodeOption failure).sorted) = some failure := by
  cases failure with
  | none => rfl
  | some c => cases c <;> rfl

theorem TimeFormat.decode_serialize {t : DateTime} (printed : t.rfc3339 = times.toRfc3339 t.unixNanos)
    (reads : ∀ instant, times.parse (times.serialize instant) = some instant) :
    times.decode (string (times.serialize t.unixNanos)) = some t := by
  unfold decode
  refine bind_of_some rfl (bind_of_some (reads t.unixNanos) ?_)
  rw [← printed]

namespace ExecutionReceipt

/-- What holds of every receipt in memory: its documents are maps, and its
times carry the text they are printed as. -/
structure WellFormed (times : TimeFormat) (receipt : ExecutionReceipt) : Prop where
  provider : receipt.providerReceipt.sorted = receipt.providerReceipt
  outcome : ∀ v ∈ receipt.verificationOutcome.documents, v.sorted = v
  evidence : Json.sortedItems receipt.effectEvidence = receipt.effectEvidence
  started : receipt.startedAt.rfc3339 = times.toRfc3339 receipt.startedAt.unixNanos
  finished : receipt.finishedAt.rfc3339 = times.toRfc3339 receipt.finishedAt.unixNanos

/-- The doubles in the documents of a receipt. -/
def floats (receipt : ExecutionReceipt) : List FloatText :=
  receipt.providerReceipt.floats ++
    (Json.floatsItems receipt.verificationOutcome.documents ++ Json.floatsItems receipt.effectEvidence)

/-- A receipt as it comes back from its text. -/
def reparse (read : FloatText → Except String FloatText) (receipt : ExecutionReceipt) :
    Except String ExecutionReceipt := do
  let providerReceipt ← receipt.providerReceipt.reparse read
  let verificationOutcome ← receipt.verificationOutcome.reparse read
  let effectEvidence ← Json.reparseItems read receipt.effectEvidence
  .ok { receipt with providerReceipt, verificationOutcome, effectEvidence }

variable {r r' : ExecutionReceipt}

theorem reparse_eq_ok : r.reparse read = .ok r' ↔
    ∃ p o e, r.providerReceipt.reparse read = .ok p ∧ r.verificationOutcome.reparse read = .ok o ∧
      Json.reparseItems read r.effectEvidence = .ok e ∧
      r' = { r with providerReceipt := p, verificationOutcome := o, effectEvidence := e } := by
  simp only [reparse, Except.bind_eq_ok, Except.ok.injEq]
  constructor
  · rintro ⟨p, first, o, second, e, third, rfl⟩
    exact ⟨p, o, e, first, second, third, rfl⟩
  · rintro ⟨p, o, e, first, second, third, rfl⟩
    exact ⟨p, first, o, second, e, third, rfl⟩

theorem reparse_ok (r : ExecutionReceipt) : r.reparse .ok = .ok r := by
  have outcome : r.verificationOutcome.reparse .ok = .ok r.verificationOutcome := by
    cases r.verificationOutcome with
    | verified evidence => simp [VerificationOutcome.reparse, Json.reparse_ok, Except.map]
    | _ => rfl
  exact reparse_eq_ok.2 ⟨_, _, _, Json.reparse_ok _, outcome, Json.reparseItems_ok _, rfl⟩

theorem encodeOption_reparse (failure : Option FailureClass) :
    (FailureClass.encodeOption failure).reparse read = .ok (FailureClass.encodeOption failure) := by
  cases failure <;> rfl

theorem reparse_encode {w : Json} : (r.encode times).reparse read = .ok w ↔
    ∃ r', r.reparse read = .ok r' ∧ w = r'.encode times := by
  obtain ⟨receiptId, grantId, digest, document, result, outcome, evidence, started, finished, failure, hash, signature,
    kid⟩ := r
  simp only [encode, members, reparse, Json.reparse, Except.map_eq_ok]
  cases signature <;> cases kid <;>
    simp [Json.reparse, Json.reparseFields, NormalizedResult.reparse_encode,
      VerificationOutcome.reparse_encode, Except.map_eq_ok, encodeOption_reparse, Except.bind_eq_ok, @eq_comm _ w]

theorem names_nodup : ((r.members times).map Prod.fst).Nodup := by
  obtain ⟨receiptId, grantId, digest, document, result, outcome, evidence, started, finished, failure, hash, signature,
    kid⟩ := r
  cases signature <;> cases kid <;> simp [members]

/-- What is written is read. -/
theorem decode_encode (formed : r.WellFormed times)
    (reads : ∀ instant, times.parse (times.serialize instant) = some instant) :
    decode times (r.encode times).sorted = some r := by
  have document := formed.provider
  have outcome := r.verificationOutcome.decode_sorted_encode formed.outcome
  have items : (array r.effectEvidence).sorted = array r.effectEvidence := by rw [Json.sorted, formed.evidence]
  have started := TimeFormat.decode_serialize formed.started reads
  have finished := TimeFormat.decode_serialize formed.finished reads
  have result := r.normalizedResult.decode_sorted_encode
  have failure := FailureClass.decodeOption_encodeOption r.failureClass
  obtain ⟨receiptId, grantId, digest, provider, normalized, verification, evidence, start, finish, failureClass, hash,
    signature, kid⟩ := r
  unfold decode encode
  refine bind_of_some (record_sorted_object _ names_nodup) ?_
  refine @bind_of_some _ _ _ receiptId _ _ rfl ?_
  refine @bind_of_some _ _ _ grantId _ _ rfl ?_
  refine @bind_of_some _ _ _ digest _ _ rfl ?_
  refine @bind_of_some _ _ _ provider _ _ (congrArg some document) ?_
  refine @bind_of_some _ _ _ normalized _ _ result ?_
  refine @bind_of_some _ _ _ verification _ _ outcome ?_
  refine @bind_of_some _ _ _ evidence _ _ (congrArg Json.asArray? items) ?_
  refine @bind_of_some _ _ _ hash _ _ rfl ?_
  -- the members that follow a missing signature stand further up
  refine @bind_of_some _ _ _ signature _ _ (by cases signature <;> cases kid <;> rfl) ?_
  refine @bind_of_some _ _ _ kid _ _ (by cases signature <;> cases kid <;> rfl) ?_
  refine @bind_of_some _ _ _ start _ _ (by cases signature <;> cases kid <;> exact started) ?_
  refine @bind_of_some _ _ _ finish _ _ (by cases signature <;> cases kid <;> exact finished) ?_
  exact @bind_of_some _ _ _ failureClass _ _ (by cases signature <;> cases kid <;> exact failure) rfl

theorem WellFormed.reparse (formed : r.WellFormed times) (reparsed : r.reparse read = .ok r') :
    r'.WellFormed times := by
  obtain ⟨p, o, e, provider, outcome, evidence, rfl⟩ := reparse_eq_ok.1 reparsed
  refine ⟨Json.sorted_of_reparse formed.provider provider, ?_, ?_, formed.started, formed.finished⟩
  · exact VerificationOutcome.sorted_of_reparse formed.outcome outcome
  · have back := Json.reparseItems_sorted evidence
    rw [formed.evidence, evidence] at back
    exact (Except.ok.inj back).symm

end ExecutionReceipt

section SameData
variable {print : JsonNumber → String}

theorem NormalizedResult.sorted_encode (result : NormalizedResult) : result.encode.sorted = result.encode := by
  cases result with
  | success summary => exact sorted_pair_kept (by decide) (by decide) _ _
  | providerFailure reason => exact sorted_pair_kept (by decide) (by decide) _ _
  | internalError reason => exact sorted_pair_kept (by decide) (by decide) _ _
  | timeout => rfl
  | cancelled => rfl

theorem NormalizedResult.same_encode {result other : NormalizedResult}
    (same : Json.Same print result.encode.sorted other.encode.sorted) : result = other := by
  rw [sorted_encode, sorted_encode] at same
  cases result <;> cases other <;>
    simp_all [encode, Json.same_object, Json.sameFields_cons, Json.same_string, Json.sameFields_nil,
      Json.sameFields_nil_cons, Json.sameFields_cons_nil]

/-- An outcome as it stands in a map: the text of the status comes last. -/
theorem VerificationOutcome.sorted_encode {outcome : VerificationOutcome} (maps : ∀ v ∈ outcome.documents, v.sorted = v) :
    outcome.encode.sorted = match outcome with
      | verified evidence => object [("evidence", evidence), ("status", string "verified")]
      | verificationFailed reason => object [("reason", string reason), ("status", string "verification_failed")]
      | outcome => outcome.encode := by
  cases outcome with
  | verified evidence =>
    have map : evidence.sorted = evidence := maps evidence (by simp [documents])
    rw [encode, sorted_pair_swapped (by decide) (by decide), map]
    rfl
  | verificationFailed reason => exact sorted_pair_swapped (by decide) (by decide) _ _
  | _ => rfl

theorem VerificationOutcome.same_encode_iff {outcome other : VerificationOutcome}
    (maps : ∀ v ∈ outcome.documents, v.sorted = v) (others : ∀ v ∈ other.documents, v.sorted = v) :
    Json.Same print outcome.encode.sorted other.encode.sorted ↔ outcome.Same print other := by
  rw [sorted_encode maps, sorted_encode others]
  cases outcome <;> cases other <;>
    simp [encode, Json.same_object, Json.sameFields_cons, Json.same_string, Json.sameFields_nil,
      Json.sameFields_nil_cons, Json.sameFields_cons_nil, Same]

theorem VerificationOutcome.Same.encode {outcome other : VerificationOutcome} (same : outcome.Same print other) :
    Json.Same print outcome.encode other.encode := by
  cases outcome <;> cases other <;>
    simp_all [VerificationOutcome.encode, Json.same_object, Json.sameFields_cons, Json.same_string,
      Json.sameFields_nil, VerificationOutcome.Same]

theorem FailureClass.same_encode {failure other : Option FailureClass}
    (same : Json.Same print (encodeOption failure).sorted (encodeOption other).sorted) : failure = other := by
  have first := decodeOption_encodeOption failure
  have second := decodeOption_encodeOption other
  cases failure <;> cases other <;> simp_all [encodeOption, Json.Same, Json.sorted]

theorem DateTime.eq_of_text {t u : DateTime} (clock : Function.Injective times.toRfc3339)
    (first : t.rfc3339 = times.toRfc3339 t.unixNanos) (second : u.rfc3339 = times.toRfc3339 u.unixNanos)
    (same : t.rfc3339 = u.rfc3339) : t = u := by
  have instants : t.unixNanos = u.unixNanos := clock (by rw [← first, ← second, same])
  obtain ⟨nanos, text⟩ := t
  obtain ⟨others, printed⟩ := u
  subst instants same
  rfl

end SameData

namespace ExecutionReceipt
variable {print : JsonNumber → String} {r r' : ExecutionReceipt}

/-- Two receipts with the same data in every field that the hash covers. -/
structure SameCovered (print : JsonNumber → String) (r r' : ExecutionReceipt) : Prop where
  receiptId : r.receiptId = r'.receiptId
  grantId : r.grantId = r'.grantId
  providerModuleDigest : r.providerModuleDigest = r'.providerModuleDigest
  providerReceipt : Json.Same print r.providerReceipt r'.providerReceipt
  normalizedResult : r.normalizedResult = r'.normalizedResult
  verificationOutcome : r.verificationOutcome.Same print r'.verificationOutcome
  effectEvidence : Json.SameItems print r.effectEvidence r'.effectEvidence
  startedAt : r.startedAt = r'.startedAt
  finishedAt : r.finishedAt = r'.finishedAt
  failureClass : r.failureClass = r'.failureClass

/-- A receipt is read back with the same data exactly when every double in it
is. -/
theorem reparse_same_iff :
    (∃ r', r.reparse read = .ok r' ∧ SameCovered print r r') ↔ ∀ t ∈ r.floats, Json.Keeps print read t := by
  simp only [floats, List.forall_mem_append, ← Json.reparse_same_iff, ← VerificationOutcome.reparse_same_iff,
    ← Json.reparseItems_same_iff]
  constructor
  · rintro ⟨r', back, same⟩
    obtain ⟨p, o, e, provider, outcome, evidence, rfl⟩ := reparse_eq_ok.1 back
    exact ⟨⟨p, provider, same.providerReceipt⟩, ⟨o, outcome, same.verificationOutcome⟩,
      e, evidence, same.effectEvidence⟩
  · rintro ⟨⟨p, provider, first⟩, ⟨o, outcome, second⟩, e, evidence, third⟩
    exact ⟨_, reparse_eq_ok.2 ⟨p, o, e, provider, outcome, evidence, rfl⟩,
      rfl, rfl, rfl, first, rfl, second, third, rfl, rfl, rfl⟩

theorem get?_hashable (name : String) : r.hashable.get? name = (List.lookup name
    [("receipt_id", string r.receiptId), ("grant_id", string r.grantId),
      ("provider_module_digest", string r.providerModuleDigest), ("provider_receipt", r.providerReceipt),
      ("normalized_result", r.normalizedResult.encode), ("verification_outcome", r.verificationOutcome.encode),
      ("effect_evidence", array r.effectEvidence), ("started_at", string r.startedAt.rfc3339),
      ("finished_at", string r.finishedAt.rfc3339),
      ("failure_class", FailureClass.encodeOption r.failureClass)]).map Json.sorted :=
  Json.get?_sorted_object name (by simp)

theorem same_hashable_iff (clock : Function.Injective times.toRfc3339) (formed : r.WellFormed times)
    (formed' : r'.WellFormed times) : Json.Same print r.hashable r'.hashable ↔ SameCovered print r r' := by
  constructor
  · intro same
    have member : ∀ name a b, r.hashable.get? name = some a → r'.hashable.get? name = some b → Json.Same print a b :=
      fun name a b first second => same.get? first second
    simp only [get?_hashable] at member
    have provider := member "provider_receipt" _ _ rfl rfl
    have outcome := member "verification_outcome" _ _ rfl rfl
    have evidence := member "effect_evidence" _ _ rfl rfl
    rw [formed.provider, formed'.provider] at provider
    rw [VerificationOutcome.same_encode_iff formed.outcome formed'.outcome] at outcome
    rw [Json.sorted, Json.sorted, formed.evidence, formed'.evidence, Json.Same] at evidence
    exact
      { receiptId := member "receipt_id" _ _ rfl rfl
        grantId := member "grant_id" _ _ rfl rfl
        providerModuleDigest := member "provider_module_digest" _ _ rfl rfl
        providerReceipt := provider
        normalizedResult := NormalizedResult.same_encode (member "normalized_result" _ _ rfl rfl)
        verificationOutcome := outcome
        effectEvidence := evidence
        startedAt := DateTime.eq_of_text clock formed.started formed'.started (member "started_at" _ _ rfl rfl)
        finishedAt := DateTime.eq_of_text clock formed.finished formed'.finished (member "finished_at" _ _ rfl rfl)
        failureClass := FailureClass.same_encode (member "failure_class" _ _ rfl rfl) }
  · intro same
    refine Json.Same.sorted ?_
    rw [same.receiptId, same.grantId, same.providerModuleDigest, same.normalizedResult, same.startedAt, same.finishedAt,
      same.failureClass]
    simp only [Json.same_object, Json.sameFields_cons, Json.same_array, Json.sameFields_nil, Json.Same.refl, true_and,
      and_true]
    exact ⟨same.providerReceipt, same.verificationOutcome.encode, same.effectEvidence⟩
end ExecutionReceipt
/-! What is read from a map is a map. -/

theorem mem_inside_of_record {v x : Json} {names : List String} {get : String → Option Json} {name : String}
    (opened : v.record names = some get) (found : get name = some x) : x ∈ v.inside := by
  cases v with
  | object fields =>
    cases opened
    obtain ⟨before, after, split, -⟩ := List.lookup_eq_some_iff.mp found
    exact List.mem_map.mpr ⟨(name, x), by simp [split], rfl⟩
  | array items =>
    simp only [Json.record, Option.ite_none_right_eq_some, Option.some.injEq] at opened
    obtain ⟨-, rfl⟩ := opened
    exact List.mem_of_getElem? found
  | _ => cases opened

theorem inside_of_tagged {v content x : Json} {tag name : String} (opened : v.tagged tag = some (name, content))
    (member : x ∈ content.inside) : x ∈ v.inside := by
  cases v with
  | object fields =>
    obtain ⟨_, -, same⟩ := Option.bind_eq_some_iff.mp opened
    obtain ⟨-, rfl⟩ := Prod.mk.inj (Option.some.inj same)
    obtain ⟨field, kept, rfl⟩ := List.mem_map.mp member
    exact List.mem_map.mpr ⟨field, List.mem_of_mem_filter kept, rfl⟩
  | array items =>
    cases items with
    | nil => cases opened
    | cons first rest =>
      obtain ⟨_, -, same⟩ := Option.bind_eq_some_iff.mp opened
      obtain ⟨-, rfl⟩ := Prod.mk.inj (Option.some.inj same)
      exact List.mem_cons_of_mem _ member
  | _ => cases opened

theorem sorted_of_mem_inside {v x : Json} (map : v.sorted = v) (member : x ∈ v.inside) : x.sorted = x := by
  cases v with
  | object fields =>
    obtain ⟨field, known, rfl⟩ := List.mem_map.mp member
    exact Json.sorted_of_mem_object map known
  | array items => exact Json.sorted_of_mem_array map member
  | _ => cases member

theorem VerificationOutcome.sorted_of_decode {v : Json} {outcome : VerificationOutcome} (map : v.sorted = v)
    (decoded : decode v = some outcome) : ∀ x ∈ outcome.documents, x.sorted = x := by
  obtain ⟨⟨status, content⟩, opened, decoded⟩ := Option.bind_eq_some_iff.mp decoded
  dsimp only at decoded
  split at decoded
  · obtain ⟨get, inner, decoded⟩ := Option.bind_eq_some_iff.mp decoded
    obtain ⟨evidence, found, rfl⟩ := Option.map_eq_some_iff.mp decoded
    intro x member
    obtain rfl : x = evidence := by simpa [documents] using member
    exact sorted_of_mem_inside map (inside_of_tagged opened (mem_inside_of_record inner found))
  · obtain ⟨get, inner, decoded⟩ := Option.bind_eq_some_iff.mp decoded
    obtain ⟨reason, found, same⟩ := Option.bind_eq_some_iff.mp decoded
    cases same
    simp [documents]
  all_goals
    cases decoded
    try simp [documents]

theorem TimeFormat.printed_of_decode {v : Json} {t : DateTime} (decoded : times.decode v = some t) :
    t.rfc3339 = times.toRfc3339 t.unixNanos := by
  obtain ⟨text, -, decoded⟩ := Option.bind_eq_some_iff.mp decoded
  obtain ⟨instant, -, same⟩ := Option.bind_eq_some_iff.mp decoded
  cases same
  rfl

theorem ExecutionReceipt.WellFormed.of_decode {v : Json} {r : ExecutionReceipt} (map : v.sorted = v)
    (decoded : ExecutionReceipt.decode times v = some r) : r.WellFormed times := by
  obtain ⟨get, opened, decoded⟩ := Option.bind_eq_some_iff.mp decoded
  obtain ⟨_, -, decoded⟩ := Option.bind_eq_some_iff.mp decoded
  obtain ⟨_, -, decoded⟩ := Option.bind_eq_some_iff.mp decoded
  obtain ⟨_, -, decoded⟩ := Option.bind_eq_some_iff.mp decoded
  obtain ⟨document, provider, decoded⟩ := Option.bind_eq_some_iff.mp decoded
  obtain ⟨_, -, decoded⟩ := Option.bind_eq_some_iff.mp decoded
  obtain ⟨outcome, outcomeRead, decoded⟩ := Option.bind_eq_some_iff.mp decoded
  obtain ⟨evidence, evidenceRead, decoded⟩ := Option.bind_eq_some_iff.mp decoded
  obtain ⟨_, -, decoded⟩ := Option.bind_eq_some_iff.mp decoded
  obtain ⟨_, -, decoded⟩ := Option.bind_eq_some_iff.mp decoded
  obtain ⟨_, -, decoded⟩ := Option.bind_eq_some_iff.mp decoded
  obtain ⟨started, startRead, decoded⟩ := Option.bind_eq_some_iff.mp decoded
  obtain ⟨finished, finishRead, decoded⟩ := Option.bind_eq_some_iff.mp decoded
  obtain ⟨_, -, same⟩ := Option.bind_eq_some_iff.mp decoded
  cases same
  obtain ⟨outcomeDocument, atOutcome, decodedOutcome⟩ := Option.bind_eq_some_iff.mp outcomeRead
  obtain ⟨items, atItems, asItems⟩ := Option.bind_eq_some_iff.mp evidenceRead
  obtain ⟨_, -, start⟩ := Option.bind_eq_some_iff.mp startRead
  obtain ⟨_, -, finish⟩ := Option.bind_eq_some_iff.mp finishRead
  have child : ∀ name x, get name = some x → x.sorted = x :=
    fun name x found => sorted_of_mem_inside map (mem_inside_of_record opened found)
  refine ⟨child _ _ provider, VerificationOutcome.sorted_of_decode (child _ _ atOutcome) decodedOutcome, ?_,
    TimeFormat.printed_of_decode start, TimeFormat.printed_of_decode finish⟩
  have array := child _ _ atItems
  cases items with
  | array members =>
    cases asItems
    rw [Json.sorted] at array
    exact Json.array.inj array
  | _ => cases asItems

end Latchgate
