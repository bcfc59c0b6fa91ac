import Latchgate.Crypto.VerifyingKeys
import Latchgate.Json.Compact
import Latchgate.Kernel.Execution

namespace Latchgate
open Json (string)

inductive ReceiptSignatureStatus where
  | valid
  | invalid
  | missingSignature
  | missingKeyId
  | unknownKeyId
  | malformedSignature
  deriving DecidableEq

def ReceiptSignatureStatus.asStr : ReceiptSignatureStatus → String
  | valid => "valid"
  | invalid => "invalid"
  | missingSignature => "missing_signature"
  | missingKeyId => "missing_key_id"
  | unknownKeyId => "unknown_key_id"
  | malformedSignature => "malformed_signature"

namespace ExecutionReceipt
variable (ed : Ed25519) (receipt : ExecutionReceipt)

def sign (signer : ReceiptSigner) : ExecutionReceipt :=
  { receipt with
    receiptSignature := some (signer.sign ed receipt.resultHash)
    signingKeyId := some (signer.kid ed) }

/-- The last lines of `build_signed_receipt`. -/
def hashAndSign (codec : Codec) (signer : ReceiptSigner) : ExecutionReceipt :=
  sign ed { receipt with resultHash := receipt.computeResultHash codec } signer

def verifyKid (store : VerifyingKeyStore) (sigHex kid : String) : ReceiptSignatureStatus :=
  match store.verifyByKid ed kid receipt.resultHash sigHex with
  | .error _ => .unknownKeyId
  | .ok true => .valid
  | .ok false => match hexDecode sigHex with
    | none => .malformedSignature
    | some bytes => if bytes.length ≠ 64 then .malformedSignature else .invalid

/-- A text that is present but empty counts as missing. -/
def verifyWithKeyStore (store : VerifyingKeyStore) : ReceiptSignatureStatus :=
  match receipt.receiptSignature.bind nonempty, receipt.signingKeyId.bind nonempty with
  | none, _ => .missingSignature
  | some _, none => .missingKeyId
  | some sigHex, some kid => receipt.verifyKid ed store sigHex kid

end ExecutionReceipt

namespace Codec
variable (codec : Codec) (times : TimeFormat)

def readReceipt (receiptJson : String) : Except LedgerError ExecutionReceipt := do
  let v ← (codec.fromStr receiptJson).mapError .serialization
  match ExecutionReceipt.decode times v with
  | some receipt => .ok receipt
  | none => .error (.serialization "not an execution receipt")

end Codec

namespace Tables
variable (codec : Codec) (times : TimeFormat)

/-- `write_receipt`, which keeps a row that is there already. -/
def writeReceipt (receipt : ExecutionReceipt) (t : Tables) : Except SqlError Tables :=
  t.insertOrIgnoreReceipt ⟨receipt.receiptId, receipt.grantId, (receipt.encode times).toCompactString⟩

def getReceipt (t : Tables) (receiptId : String) : Except LedgerError (Option ExecutionReceipt) :=
  match t.receipts.find? fun row => row.receiptId = receiptId with
  | none => .ok none
  | some row => (codec.readReceipt times row.receiptJson).map some

/-- The document of a receipt, enriched with what its signature is worth. -/
def withStatus (receipt : ExecutionReceipt) (status : ReceiptSignatureStatus) : Json :=
  match (receipt.encode times).sorted with
  | .object fields => .object (Json.insertField "signature_status" (string status.asStr) fields)
  | other => other

def lookup (ed : Ed25519) (store : VerifyingKeyStore) (t : Tables) (receiptId : String) : Except String (Option Json) :=
  match t.getReceipt codec times receiptId with
  | .error e => .error ("ledger read failed: " ++ e.display)
  | .ok none => .ok none
  | .ok (some receipt) => .ok (some (withStatus times receipt (receipt.verifyWithKeyStore ed store)))

end Tables

/-- A receipt that the kernel has signed, with the key it used. -/
structure SealedReceipt (times : TimeFormat) where
  signer : ReceiptSigner
  draft : ExecutionReceipt
  formed : draft.WellFormed times

namespace Receipts
variable {codec : Codec} {ed : Ed25519} {times : TimeFormat} {store : VerifyingKeyStore} {print : JsonNumber → String}
variable {read : FloatText → Except String FloatText} {issued : List (SealedReceipt times)}

/-- The receipt as it was signed. -/
def signed (codec : Codec) (ed : Ed25519) (s : SealedReceipt times) : ExecutionReceipt :=
  s.draft.hashAndSign ed codec s.signer

/-- What is taken from the libraries. The digest tells all texts apart, the
canonical form tells all data apart, a printed document is read back unless it
is nested too deep, objects are read as maps, and a key of the store accepts
the signatures that the gate has made with it and no others. -/
structure Libraries (codec : Codec) (ed : Ed25519) (times : TimeFormat) (store : VerifyingKeyStore)
    (print : JsonNumber → String) (read : FloatText → Except String FloatText) (issued : List (SealedReceipt times)) :
    Prop where
  digest : Function.Injective codec.sha256
  canonicalizes : ∀ v, ∃ text, codec.jcs v = .ok text
  canonical : ∀ v w, codec.jcs v = codec.jcs w ↔ Json.Same print v w
  parses : ∀ v w, codec.fromStr (Json.toCompactString v) = .ok w ↔
    v.depth ≤ 127 ∧ ∃ u, v.reparse read = .ok u ∧ w = u.sorted
  maps : ∀ text v, codec.fromStr text = .ok v → v.sorted = v
  instants : Function.Injective times.toRfc3339
  parsesInstants : ∀ instant, times.parse (times.serialize instant) = some instant
  formats : ed.Formats
  signatures : ∀ kid key, store.keyOf kid = some key → ∀ message signature,
    ed.verifyStrict key message signature = true ↔ ∃ s ∈ issued, s.signer.verifyingKey ed = key ∧
      (signed codec ed s).resultHash = message ∧ ed.sign s.signer.seed message = signature

/-- The receipt carries a signature that the gate has made for its hash, with
the key that the store has under its key id. -/
def Carries (codec : Codec) (ed : Ed25519) (store : VerifyingKeyStore) (issued : List (SealedReceipt times))
    (receipt : ExecutionReceipt) : Prop :=
  ∃ sigHex kid bytes, receipt.receiptSignature = some sigHex ∧ receipt.signingKeyId = some kid ∧ kid ≠ "" ∧
    hexDecode sigHex = some bytes ∧ ∃ s ∈ issued, store.keyOf kid = some (s.signer.verifyingKey ed) ∧
      (signed codec ed s).resultHash = receipt.resultHash ∧ ed.sign s.signer.seed receipt.resultHash = bytes

/-- The lookup says that the signature is valid. -/
def ReportedValid (codec : Codec) (ed : Ed25519) (times : TimeFormat) (store : VerifyingKeyStore) (t : Tables)
    (receiptId : String) : Prop :=
  ∃ value, t.lookup codec times ed store receiptId = .ok (some value) ∧
    value.get? "signature_status" = some (string "valid")

/-- What is reported valid is what the gate has signed: every field under the
hash has the data of a receipt that the gate has signed. -/
def VouchesForSigned (codec : Codec) (ed : Ed25519) (times : TimeFormat) (store : VerifyingKeyStore)
    (print : JsonNumber → String) (issued : List (SealedReceipt times)) (t : Tables) (receiptId : String) : Prop :=
  ReportedValid codec ed times store t receiptId → ∃ receipt, t.getReceipt codec times receiptId = .ok (some receipt) ∧
    ∃ s ∈ issued, (signed codec ed s).resultHash = receipt.resultHash ∧ receipt.SameCovered print (signed codec ed s)

/-- A signed receipt, once written, is read back, reported valid, and hashes
to what was signed. -/
def StaysValid (codec : Codec) (ed : Ed25519) (times : TimeFormat) (store : VerifyingKeyStore) (s : SealedReceipt times)
    (t : Tables) : Prop :=
  ∃ t', t.writeReceipt times (signed codec ed s) = .ok t' ∧
    ReportedValid codec ed times store t' s.draft.receiptId ∧
    ∃ receipt, t'.getReceipt codec times s.draft.receiptId = .ok (some receipt) ∧
      receipt.computeResultHash codec = (signed codec ed s).resultHash

theorem asStr_eq_valid {status : ReceiptSignatureStatus} : status.asStr = "valid" ↔ status = .valid := by
  cases status <;> decide

theorem get?_withStatus (receipt : ExecutionReceipt) (status : ReceiptSignatureStatus) :
    (Tables.withStatus times receipt status).get? "signature_status" = some (string status.asStr) := by
  simp only [Tables.withStatus, ExecutionReceipt.encode, Json.sorted, Json.ofFields, Json.get?, Json.lookup_insertField,
    if_true]

theorem reportedValid_iff {t : Tables} {receiptId : String} :
    ReportedValid codec ed times store t receiptId ↔
      ∃ receipt, t.getReceipt codec times receiptId = .ok (some receipt) ∧
        receipt.verifyWithKeyStore ed store = .valid := by
  unfold ReportedValid Tables.lookup
  cases found : t.getReceipt codec times receiptId with
  | error e => simp
  | ok result =>
    cases result with
    | none => simp
    | some receipt => simp [get?_withStatus, asStr_eq_valid]

theorem bind_nonempty_eq_some {text : Option String} {given : String} :
    text.bind nonempty = some given ↔ text = some given ∧ given ≠ "" := by
  cases text with
  | none => simp
  | some t =>
    by_cases empty : t = ""
    · simp only [Option.bind_some, nonempty, if_pos empty, Option.some.injEq]
      constructor
      · intro absurd
        cases absurd
      · rintro ⟨rfl, present⟩
        exact absurd empty present
    · simp only [Option.bind_some, nonempty, if_neg empty, Option.some.injEq]
      constructor
      · rintro rfl
        exact ⟨rfl, empty⟩
      · exact And.left

theorem verifyKid_eq_valid {receipt : ExecutionReceipt} {sigHex kid : String} :
    receipt.verifyKid ed store sigHex kid = .valid ↔
      store.verifyByKid ed kid receipt.resultHash sigHex = .ok true := by
  unfold ExecutionReceipt.verifyKid
  cases store.verifyByKid ed kid receipt.resultHash sigHex with
  | error e => simp
  | ok verified =>
    cases verified with
    | true => simp
    | false =>
      cases hexDecode sigHex with
      | none => simp
      | some bytes =>
        dsimp only
        split_ifs <;> simp

theorem verifyWithKeyStore_eq_valid {receipt : ExecutionReceipt} :
    receipt.verifyWithKeyStore ed store = .valid ↔
      ∃ sigHex kid, (receipt.receiptSignature = some sigHex ∧ sigHex ≠ "") ∧
        (receipt.signingKeyId = some kid ∧ kid ≠ "") ∧
        store.verifyByKid ed kid receipt.resultHash sigHex = .ok true := by
  simp only [← bind_nonempty_eq_some, ← verifyKid_eq_valid]
  unfold ExecutionReceipt.verifyWithKeyStore
  cases receipt.receiptSignature.bind nonempty with
  | none => simp
  | some sigHex => cases receipt.signingKeyId.bind nonempty <;> simp

/-- A signature is accepted exactly when the gate has made it. -/
theorem verify_eq_valid_iff (libraries : Libraries codec ed times store print read issued) {receipt : ExecutionReceipt} :
    receipt.verifyWithKeyStore ed store = .valid ↔ Carries codec ed store issued receipt := by
  rw [verifyWithKeyStore_eq_valid]
  constructor
  · rintro ⟨sigHex, kid, ⟨signature, -⟩, ⟨keyId, named⟩, verified⟩
    obtain ⟨key, bytes, resolved, decoded, -, accepted⟩ := VerifyingKeyStore.verifyByKid_eq_ok_true.1 verified
    obtain ⟨s, known, own, hash, made⟩ := (libraries.signatures kid key resolved _ _).mp accepted
    exact ⟨sigHex, kid, bytes, signature, keyId, named, decoded, s, known, own ▸ resolved, hash, made⟩
  · rintro ⟨sigHex, kid, bytes, signature, keyId, named, decoded, s, known, resolved, hash, made⟩
    have length : bytes.length = 64 := by rw [← made, libraries.formats.signatureLength]
    have present : sigHex ≠ "" := by
      rintro rfl
      cases decoded
      simp at length
    have accepted := (libraries.signatures kid _ resolved receipt.resultHash bytes).mpr ⟨s, known, rfl, hash, made⟩
    exact ⟨sigHex, kid, ⟨signature, present⟩, ⟨keyId, named⟩,
      VerifyingKeyStore.verifyByKid_eq_ok_true.2 ⟨_, bytes, resolved, decoded, length, accepted⟩⟩

theorem hashAndSign_resultHash (s : SealedReceipt times) :
    (signed codec ed s).resultHash = (signed codec ed s).computeResultHash codec := rfl

theorem signed_wellFormed (s : SealedReceipt times) : (signed codec ed s).WellFormed times :=
  ⟨s.formed.provider, s.formed.outcome, s.formed.evidence, s.formed.started, s.formed.finished⟩

/-- Receipts hash alike exactly when the fields under the hash have the same
data. -/
theorem computeResultHash_eq_iff (libraries : Libraries codec ed times store print read issued)
    {r r' : ExecutionReceipt} (formed : r.WellFormed times) (formed' : r'.WellFormed times) :
    r.computeResultHash codec = r'.computeResultHash codec ↔ r.SameCovered print r' := by
  rw [← ExecutionReceipt.same_hashable_iff libraries.instants formed formed', ← libraries.canonical]
  obtain ⟨text, first⟩ := libraries.canonicalizes r.hashable
  obtain ⟨text', second⟩ := libraries.canonicalizes r'.hashable
  simp only [ExecutionReceipt.computeResultHash, ExecutionReceipt.canonicalText, first, second, Except.ok.injEq]
  constructor
  · intro same
    exact String.toList_inj.mp (Encoding.utf8_injective (libraries.digest same))
  · rintro rfl
    rfl

theorem readReceipt_eq_ok {text : String} {receipt : ExecutionReceipt} :
    codec.readReceipt times text = .ok receipt ↔
      ∃ v, codec.fromStr text = .ok v ∧ ExecutionReceipt.decode times v = some receipt := by
  simp only [Codec.readReceipt, Except.bind_eq_ok, Except.mapError_eq_ok]
  constructor
  · rintro ⟨v, parsed, decoded⟩
    cases found : ExecutionReceipt.decode times v with
    | none => simp [found] at decoded
    | some r => exact ⟨v, parsed, by simpa [found] using decoded⟩
  · rintro ⟨v, parsed, decoded⟩
    exact ⟨v, parsed, by simp [decoded]⟩

theorem getReceipt_eq_some {t : Tables} {receiptId : String} {receipt : ExecutionReceipt} :
    t.getReceipt codec times receiptId = .ok (some receipt) ↔
      ∃ row, t.receipts.find? (fun row => row.receiptId = receiptId) = some row ∧
        codec.readReceipt times row.receiptJson = .ok receipt := by
  unfold Tables.getReceipt
  cases t.receipts.find? fun row => row.receiptId = receiptId with
  | none => simp
  | some row => simp [Except.map_eq_ok]

/-- Whatever stands in a row, the receipt that is read from it is well formed. -/
theorem getReceipt_wellFormed (libraries : Libraries codec ed times store print read issued) {t : Tables}
    {receiptId : String} {receipt : ExecutionReceipt} (found : t.getReceipt codec times receiptId = .ok (some receipt)) :
    receipt.WellFormed times := by
  obtain ⟨row, -, readable⟩ := getReceipt_eq_some.1 found
  obtain ⟨v, parsed, decoded⟩ := readReceipt_eq_ok.1 readable
  exact .of_decode (libraries.maps _ _ parsed) decoded

/-- The lookup vouches for signed data exactly when the row has no signature
of the gate, or the hash it has is that of its own fields. -/
theorem vouchesForSigned_iff (libraries : Libraries codec ed times store print read issued) (t : Tables)
    (receiptId : String) :
    VouchesForSigned codec ed times store print issued t receiptId ↔
      ∀ receipt, t.getReceipt codec times receiptId = .ok (some receipt) → Carries codec ed store issued receipt →
        receipt.resultHash = receipt.computeResultHash codec := by
  constructor
  · intro vouches receipt found carries
    have reported : ReportedValid codec ed times store t receiptId :=
      reportedValid_iff.2 ⟨receipt, found, (verify_eq_valid_iff libraries).mpr carries⟩
    obtain ⟨same, again, s, -, hash, covered⟩ := vouches reported
    rw [found] at again
    cases again
    have formed := getReceipt_wellFormed libraries found
    have hashes := (computeResultHash_eq_iff libraries formed (signed_wellFormed s)).mpr covered
    rw [hashes, ← hash, hashAndSign_resultHash]
  · intro own reported
    obtain ⟨receipt, found, verified⟩ := reportedValid_iff.1 reported
    have carries := (verify_eq_valid_iff libraries).mp verified
    obtain ⟨_, _, _, _, _, _, _, s, known, -, hash, -⟩ := id carries
    have formed := getReceipt_wellFormed libraries found
    refine ⟨receipt, found, s, known, hash, ?_⟩
    rw [← computeResultHash_eq_iff libraries formed (signed_wellFormed s), ← own receipt found carries, ← hash,
      hashAndSign_resultHash]

/-- Reading back what was written. -/
theorem readReceipt_encode (libraries : Libraries codec ed times store print read issued) {r r' : ExecutionReceipt}
    (formed : r.WellFormed times) :
    codec.readReceipt times (r.encode times).toCompactString = .ok r' ↔
      (r.encode times).depth ≤ 127 ∧ r.reparse read = .ok r' := by
  rw [readReceipt_eq_ok]
  constructor
  · rintro ⟨w, parsed, decoded⟩
    obtain ⟨shallow, u, reparsed, rfl⟩ := (libraries.parses _ _).mp parsed
    obtain ⟨back, restored, rfl⟩ := ExecutionReceipt.reparse_encode.1 reparsed
    rw [ExecutionReceipt.decode_encode (formed.reparse restored) libraries.parsesInstants] at decoded
    cases decoded
    exact ⟨shallow, restored⟩
  · rintro ⟨shallow, restored⟩
    have reparsed : (r.encode times).reparse read = .ok (r'.encode times) :=
      ExecutionReceipt.reparse_encode.2 ⟨r', restored, rfl⟩
    exact ⟨_, (libraries.parses _ _).mpr ⟨shallow, _, reparsed, rfl⟩,
      ExecutionReceipt.decode_encode (formed.reparse restored) libraries.parsesInstants⟩

theorem find?_written {rows : List ReceiptRow} {row : ReceiptRow}
    (fresh : ∀ old ∈ rows, old.receiptId ≠ row.receiptId) :
    (rows ++ [row]).find? (fun old => old.receiptId = row.receiptId) = some row := by
  have absent : rows.find? (fun old => old.receiptId = row.receiptId) = none := by
    refine List.find?_eq_none.mpr ?_
    intro old member
    simpa using fresh old member
  simp [List.find?_append, absent]

theorem writeReceipt_fresh {r : ExecutionReceipt} {t : Tables}
    (fresh : ∀ old ∈ t.receipts, old.receiptId ≠ r.receiptId) :
    ∃ t', t.writeReceipt times r = .ok t' ∧ ∀ r', t'.getReceipt codec times r.receiptId = .ok (some r') ↔
      codec.readReceipt times (r.encode times).toCompactString = .ok r' := by
  have unknown : (t.receipts.any fun old => old.receiptId = r.receiptId) = false := by
    simpa [List.any_eq_false] using fresh
  have inserted := @find?_written t.receipts ⟨r.receiptId, r.grantId, (r.encode times).toCompactString⟩ fresh
  refine ⟨_, by simp only [Tables.writeReceipt, Tables.insertOrIgnoreReceipt, unknown]; rfl, ?_⟩
  intro r'
  rw [getReceipt_eq_some]
  constructor
  · rintro ⟨row, found, readable⟩
    dsimp only at found inserted
    rw [inserted] at found
    cases found
    exact readable
  · intro readable
    exact ⟨_, inserted, readable⟩

/-- A signed receipt stays valid exactly when its text can be parsed, its
doubles are read as doubles that are hashed alike, and the store has its key. -/
theorem staysValid_iff (libraries : Libraries codec ed times store print read issued) (s : SealedReceipt times)
    {t : Tables} (fresh : ∀ row ∈ t.receipts, row.receiptId ≠ s.draft.receiptId) :
    StaysValid codec ed times store s t ↔
      ((signed codec ed s).encode times).depth ≤ 127 ∧ (∀ f ∈ s.draft.floats, Json.Keeps print read f) ∧
        Carries codec ed store issued (signed codec ed s) := by
  obtain ⟨t', written, back⟩ := @writeReceipt_fresh codec times (signed codec ed s) t fresh
  have formed := @signed_wellFormed codec ed times s
  have restored : ∀ r', t'.getReceipt codec times s.draft.receiptId = .ok (some r') ↔
      ((signed codec ed s).encode times).depth ≤ 127 ∧ (signed codec ed s).reparse read = .ok r' :=
    fun r' => (back r').trans (readReceipt_encode libraries formed)
  have kept : ∀ r', (signed codec ed s).reparse read = .ok r' →
      (Carries codec ed store issued r' ↔ Carries codec ed store issued (signed codec ed s)) := by
    intro r' reparsed
    obtain ⟨_, _, _, _, _, _, rfl⟩ := ExecutionReceipt.reparse_eq_ok.1 reparsed
    rfl
  have doubles := @ExecutionReceipt.reparse_same_iff read print (signed codec ed s)
  constructor
  · rintro ⟨t'', again, reported, receipt, found, hash⟩
    rw [written] at again
    cases again
    obtain ⟨shallow, reparsed⟩ := (restored receipt).mp found
    obtain ⟨receipt', found', verified⟩ := reportedValid_iff.1 reported
    rw [found] at found'
    cases found'
    refine ⟨shallow, doubles.mp ⟨receipt, reparsed, ?_⟩, (kept receipt reparsed).mp ((verify_eq_valid_iff libraries).mp verified)⟩
    rw [← computeResultHash_eq_iff libraries formed (formed.reparse reparsed), hash]
    rfl
  · rintro ⟨shallow, exact, carries⟩
    obtain ⟨receipt, reparsed, covered⟩ := doubles.mpr exact
    have found := (restored receipt).mpr ⟨shallow, reparsed⟩
    have verified := (verify_eq_valid_iff libraries).mpr ((kept receipt reparsed).mpr carries)
    refine ⟨t', written, reportedValid_iff.2 ⟨receipt, found, verified⟩, receipt, found, ?_⟩
    exact ((computeResultHash_eq_iff libraries formed (formed.reparse reparsed)).mpr covered).symm

/-- What the status of a receipt is worth, in both directions. -/
theorem receipt_status_exact (libraries : Libraries codec ed times store print read issued) :
    (∀ t receiptId, VouchesForSigned codec ed times store print issued t receiptId ↔
      ∀ receipt, t.getReceipt codec times receiptId = .ok (some receipt) → Carries codec ed store issued receipt →
        receipt.resultHash = receipt.computeResultHash codec) ∧
    ∀ s ∈ issued, ∀ t : Tables, (∀ row ∈ t.receipts, row.receiptId ≠ s.draft.receiptId) →
      (StaysValid codec ed times store s t ↔
        ((signed codec ed s).encode times).depth ≤ 127 ∧ (∀ f ∈ s.draft.floats, Json.Keeps print read f) ∧
          Carries codec ed store issued (signed codec ed s)) :=
  ⟨vouchesForSigned_iff libraries, fun s _ _ fresh => staysValid_iff libraries s fresh⟩

section Sample

/-- Reads what `print` writes. -/
noncomputable def readerOf {α : Type} (print : α → String) (text : String) : Option α :=
  open Classical in if known : ∃ a, print a = text then some known.choose else none

theorem readerOf_print {α : Type} {print : α → String} (distinct : Function.Injective print) (a : α) :
    readerOf print (print a) = some a := by
  have known : ∃ b, print b = print a := ⟨a, rfl⟩
  rw [readerOf, dif_pos known]
  exact congrArg some (distinct known.choose_spec)

/-- The instant zero has the given text. -/
def sampleInstant (epoch : String) (n : Int) : String :=
  if n = 0 then epoch else n.repr

theorem sampleInstant_injective {epoch : String} (marked : ':' ∈ epoch.toList) :
    Function.Injective (sampleInstant epoch) := by
  have other : ∀ n : Int, epoch ≠ n.repr := by
    intro n same
    have inside : ':' ∈ n.repr.toList := same ▸ marked
    have plain := Json.numberText_plain (.int n) ':' inside
    cases plain
  intro n m same
  unfold sampleInstant at same
  split_ifs at same with first second second
  · rw [first, second]
  · exact absurd same (other m)
  · exact absurd same.symm (other n)
  · exact Int.repr_injective same

noncomputable def sampleTimes : TimeFormat where
  toRfc3339 := sampleInstant "1970-01-01T00:00:00+00:00"
  serialize := sampleInstant "1970-01-01T00:00:00Z"
  parse := readerOf (sampleInstant "1970-01-01T00:00:00Z")

/-- A JSON library whose documents have no doubles that change, and a digest
that spells the bytes out. -/
noncomputable def sampleCodec : Codec where
  fromStr text := match readerOf Json.toCompactString text with
    | some v => if v.depth ≤ 127 then .ok v.sorted else .error "recursion limit exceeded"
    | none => .error "expected value at line 1 column 1"
  jcs v := .ok v.toCompactString
  sha256 := hexEncode

def sampleSigner : ReceiptSigner where
  seed := List.replicate 32 1

/-- The receipt of a call that was answered with the status 200. -/
def sampleDraft : ExecutionReceipt where
  receiptId := "rcpt-1"
  grantId := "grant-1"
  providerModuleDigest := "sha256:aabb"
  providerReceipt := .object [("status", .number (.int 200))]
  normalizedResult := .success "provider completed successfully"
  verificationOutcome := .skipped
  startedAt := ⟨0, "1970-01-01T00:00:00+00:00"⟩
  finishedAt := ⟨0, "1970-01-01T00:00:00+00:00"⟩
  failureClass := none

noncomputable def sampleSealed : SealedReceipt sampleTimes where
  signer := sampleSigner
  draft := sampleDraft
  formed := ⟨rfl, by simp [sampleDraft, VerificationOutcome.documents], rfl, rfl, rfl⟩

/-- Keys that accept the signature of the sample and no other. -/
noncomputable def sampleEd : Ed25519 where
  verifyingKey seed := (seed ++ List.replicate 32 0).take 32
  sign _ _ := List.replicate 64 7
  verifyStrict key message signature :=
    key = List.replicate 32 1 && message = sampleDraft.computeResultHash sampleCodec && signature = List.replicate 64 7
  isKey _ := true

noncomputable def sampleStore : VerifyingKeyStore :=
  .single sampleEd sampleSigner "1970-01-01T00:00:00.000Z"

theorem keyOf_sampleStore {kid : String} {key : List UInt8} (resolved : sampleStore.keyOf kid = some key) :
    key = sampleSigner.verifyingKey sampleEd := by
  obtain ⟨found, entry, parsed⟩ := Option.bind_eq_some_iff.mp resolved
  have only : found = .fromSigner sampleEd sampleSigner "1970-01-01T00:00:00.000Z" :=
    List.mem_singleton.mp (List.mem_of_find?_eq_some entry)
  rw [only] at parsed
  exact (Option.some.inj parsed).symm

theorem libraries_sample :
    Libraries sampleCodec sampleEd sampleTimes sampleStore JsonNumber.text .ok [sampleSealed] where
  digest := hexEncode_injective
  canonicalizes v := ⟨_, rfl⟩
  canonical v w := by
    constructor
    · intro same
      have texts : v.toCompactString = w.toCompactString := Except.ok.inj same
      rw [Json.toCompactString_injective texts]
      exact Json.Same.refl w
    · intro same
      have equal : v = w := Json.Same.eq (fun _ _ texts => Json.numberText_inj texts) same
      rw [equal]
  parses v w := by
    simp only [sampleCodec, readerOf_print Json.toCompactString_injective, Json.reparse_ok, Except.ok.injEq,
      exists_eq_left']
    split_ifs with shallow
    · simp [shallow, eq_comm]
    · simp [shallow]
  maps text v parsed := by
    simp only [sampleCodec] at parsed
    split at parsed
    · split_ifs at parsed
      cases parsed
      exact Json.sorted_sorted _
    · cases parsed
  instants := sampleInstant_injective (by decide)
  parsesInstants := readerOf_print (sampleInstant_injective (by decide))
  formats := ⟨by simp [sampleEd], by simp [sampleEd], fun _ => rfl⟩
  signatures kid key resolved message signature := by
    have own : key = sampleSigner.verifyingKey sampleEd := keyOf_sampleStore resolved
    have bytes : sampleSigner.verifyingKey sampleEd = List.replicate 32 1 := rfl
    rw [own, bytes]
    constructor
    · intro accepted
      simp only [sampleEd, Bool.and_eq_true, decide_eq_true_eq] at accepted
      obtain ⟨⟨-, rfl⟩, rfl⟩ := accepted
      exact ⟨sampleSealed, List.mem_singleton_self _, rfl, rfl, rfl⟩
    · rintro ⟨s, member, -, rfl, rfl⟩
      obtain rfl : s = sampleSealed := List.mem_singleton.mp member
      simp only [sampleEd, Bool.and_eq_true, decide_eq_true_eq]
      exact ⟨⟨trivial, rfl⟩, trivial⟩

theorem carries_sample (document : Json) :
    Carries sampleCodec sampleEd sampleStore [sampleSealed]
      { signed sampleCodec sampleEd sampleSealed with providerReceipt := document } := by
  refine ⟨_, _, _, rfl, rfl, ReceiptSigner.kid_ne_empty (libraries_sample).formats sampleSigner,
    hexDecode_hexEncode _, sampleSealed, List.mem_singleton_self _, ?_, rfl, rfl⟩
  simp [VerifyingKeyStore.keyOf, sampleStore, VerifyingKeyStore.single, CachedReceiptKey.fromSigner,
    VerifyingKeyEntry.fromSigner, sampleSealed]

theorem depth_sample (document : Json) :
    ({ signed sampleCodec sampleEd sampleSealed with providerReceipt := document }.encode sampleTimes).depth =
      1 + max document.depth 1 := by
  simp [ExecutionReceipt.encode, ExecutionReceipt.members, Json.depth, Json.depthFields, Json.depthItems, signed,
    ExecutionReceipt.hashAndSign, ExecutionReceipt.sign, sampleSealed, sampleDraft, NormalizedResult.encode,
    VerificationOutcome.encode, FailureClass.encodeOption]

/-- The signed receipt of the sample, once stored, stays valid. -/
theorem receipt_status_exact_sample :
    StaysValid sampleCodec sampleEd sampleTimes sampleStore sampleSealed {} := by
  refine ((receipt_status_exact libraries_sample).2 sampleSealed (List.mem_singleton_self _) {} (by simp)).mpr
    ⟨?_, ?_, carries_sample sampleDraft.providerReceipt⟩
  · have shallow := depth_sample sampleDraft.providerReceipt
    rw [show sampleDraft.providerReceipt.depth = 1 from rfl] at shallow
    exact shallow.le.trans (by decide)
  · simp [sampleSealed, sampleDraft, ExecutionReceipt.floats, Json.floats, Json.floatsFields, Json.floatsItems,
      VerificationOutcome.documents]

/-- The sample after its status was changed to 500. -/
noncomputable def tampered : ExecutionReceipt :=
  { signed sampleCodec sampleEd sampleSealed with providerReceipt := .object [("status", .number (.int 500))] }

noncomputable def tamperedTables : Tables where
  receipts := [⟨"rcpt-1", "grant-1", (tampered.encode sampleTimes).toCompactString⟩]

/-- A row whose provider receipt was changed is still reported valid. -/
theorem tampered_reported_valid :
    Libraries sampleCodec sampleEd sampleTimes sampleStore JsonNumber.text .ok [sampleSealed] ∧
      ¬VouchesForSigned sampleCodec sampleEd sampleTimes sampleStore JsonNumber.text [sampleSealed] tamperedTables
        "rcpt-1" := by
  refine ⟨libraries_sample, ?_⟩
  have formed : tampered.WellFormed sampleTimes :=
    ⟨rfl, by simp [tampered, signed, sampleSealed, sampleDraft, ExecutionReceipt.hashAndSign, ExecutionReceipt.sign,
      VerificationOutcome.documents], rfl, rfl, rfl⟩
  have shallow : (tampered.encode sampleTimes).depth ≤ 127 :=
    (depth_sample (.object [("status", .number (.int 500))])).le.trans (by decide)
  have found : tamperedTables.getReceipt sampleCodec sampleTimes "rcpt-1" = .ok (some tampered) :=
    getReceipt_eq_some.2 ⟨_, rfl, (readReceipt_encode libraries_sample formed).mpr ⟨shallow, tampered.reparse_ok⟩⟩
  have reported : ReportedValid sampleCodec sampleEd sampleTimes sampleStore tamperedTables "rcpt-1" :=
    reportedValid_iff.2 ⟨tampered, found, (verify_eq_valid_iff libraries_sample).mpr (carries_sample _)⟩
  intro vouches
  obtain ⟨receipt, again, s, member, -, covered⟩ := vouches reported
  rw [found] at again
  cases again
  obtain rfl : s = sampleSealed := List.mem_singleton.mp member
  have status : Json.Same JsonNumber.text (.object [("status", .number (.int 500))])
      (.object [("status", .number (.int 200))]) := covered.providerReceipt
  have equal := Json.Same.eq (fun _ _ texts => Json.numberText_inj texts) status
  simp at equal

end Sample

end Receipts
end Latchgate
