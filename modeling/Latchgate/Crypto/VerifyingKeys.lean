import Latchgate.Json.Value

namespace Latchgate

/-! Hexadecimal text, as the `hex` crate writes and reads it. -/

def hexEncode (bytes : List UInt8) : String :=
  String.ofList (bytes.flatMap fun b => [Json.hexDigit (b.toNat / 16), Json.hexDigit (b.toNat % 16)])

def hexNibble (c : Char) : Option Nat :=
  if '0' ≤ c ∧ c ≤ '9' then some (c.toNat - 48)
  else if 'a' ≤ c ∧ c ≤ 'f' then some (c.toNat - 87)
  else if 'A' ≤ c ∧ c ≤ 'F' then some (c.toNat - 55)
  else none

def hexPairs : List Char → Option (List UInt8)
  | [] => some []
  | [_] => none
  | high :: low :: rest => do
    let a ← hexNibble high
    let b ← hexNibble low
    let bytes ← hexPairs rest
    some (.ofNat (a * 16 + b) :: bytes)

def hexDecode (text : String) : Option (List UInt8) :=
  hexPairs text.toList

theorem hexNibble_hexDigit : ∀ d < 16, hexNibble (Json.hexDigit d) = some d := by
  decide

/-- What is written is read back. -/
@[simp] theorem hexDecode_hexEncode (bytes : List UInt8) : hexDecode (hexEncode bytes) = some bytes := by
  unfold hexDecode hexEncode
  rw [String.toList_ofList]
  induction bytes with
  | nil => rfl
  | cons b rest ih =>
    have bound : b.toNat < 256 := b.toNat_lt
    have value : UInt8.ofNat (b.toNat / 16 * 16 + b.toNat % 16) = b := by
      rw [show b.toNat / 16 * 16 + b.toNat % 16 = b.toNat by omega, UInt8.ofNat_toNat]
    simp only [List.flatMap_cons, List.cons_append, List.nil_append, hexPairs,
      hexNibble_hexDigit (b.toNat / 16) (by omega), hexNibble_hexDigit (b.toNat % 16) (by omega), ih]
    exact congrArg (fun byte => some (byte :: rest)) value

theorem hexEncode_injective : Function.Injective hexEncode := by
  intro a b same
  have decoded := congrArg hexDecode same
  rw [hexDecode_hexEncode, hexDecode_hexEncode] at decoded
  exact Option.some.inj decoded

theorem length_hexEncode (bytes : List UInt8) : (hexEncode bytes).toList.length = 2 * bytes.length := by
  unfold hexEncode
  rw [String.toList_ofList]
  induction bytes with
  | nil => rfl
  | cons b rest ih =>
    simp only [List.flatMap_cons, List.length_append, List.length_cons, ih]
    simp only [List.length_nil]
    omega

/-- The signature scheme: the public half of a seed, the signature of a
message, the check of one, and which bytes are a public key. -/
structure Ed25519 where
  verifyingKey : List UInt8 → List UInt8
  sign : List UInt8 → String → List UInt8
  verifyStrict : List UInt8 → String → List UInt8 → Bool
  isKey : List UInt8 → Bool

/-- What the formats promise: a key has 32 bytes, a signature 64, and the
public half of a seed is a public key. -/
structure Ed25519.Formats (ed : Ed25519) : Prop where
  keyLength : ∀ seed, (ed.verifyingKey seed).length = 32
  signatureLength : ∀ seed message, (ed.sign seed message).length = 64
  isKey : ∀ seed, ed.isKey (ed.verifyingKey seed) = true

structure ReceiptSigner where
  seed : List UInt8
  deriving DecidableEq

namespace ReceiptSigner
variable (ed : Ed25519) (signer : ReceiptSigner)

def verifyingKey : List UInt8 :=
  ed.verifyingKey signer.seed

def verifyingKeyHex : String :=
  hexEncode (signer.verifyingKey ed)

def kid : String :=
  String.ofList ((signer.verifyingKeyHex ed).toList.take 16)

def sign (signableHash : String) : String :=
  hexEncode (ed.sign signer.seed signableHash)

end ReceiptSigner

structure VerifyingKeyEntry where
  kid : String
  xHex : String
  kty : String
  crv : String
  alg : String
  addedAt : String
  deriving DecidableEq

def VerifyingKeyEntry.fromSigner (ed : Ed25519) (signer : ReceiptSigner) (addedAt : String) : VerifyingKeyEntry where
  kid := signer.kid ed
  xHex := signer.verifyingKeyHex ed
  kty := "OKP"
  crv := "Ed25519"
  alg := "EdDSA"
  addedAt := addedAt

def decodeVerifyingKey (ed : Ed25519) (hexKey : String) : Option (List UInt8) :=
  match hexDecode hexKey with
  | some bytes => if bytes.length = 32 ∧ ed.isKey bytes then some bytes else none
  | none => none

def verifyEd25519Sig (ed : Ed25519) (verifyingKey : List UInt8) (message sigHex : String) : Bool :=
  match hexDecode sigHex with
  | some bytes => bytes.length = 64 && ed.verifyStrict verifyingKey message bytes
  | none => false

/-- An entry with its key, parsed when the entry was loaded. -/
structure CachedReceiptKey where
  entry : VerifyingKeyEntry
  parsed : Option (List UInt8)
  deriving DecidableEq

namespace CachedReceiptKey
variable (ed : Ed25519)

def fromEntry (entry : VerifyingKeyEntry) : CachedReceiptKey where
  entry := entry
  parsed := decodeVerifyingKey ed entry.xHex

def fromSigner (signer : ReceiptSigner) (addedAt : String) : CachedReceiptKey where
  entry := .fromSigner ed signer addedAt
  parsed := some (signer.verifyingKey ed)

end CachedReceiptKey

structure UnknownKeyId where
  deriving DecidableEq

structure VerifyingKeyStore where
  keys : List CachedReceiptKey := []
  deriving DecidableEq

namespace VerifyingKeyStore
variable (ed : Ed25519) (store : VerifyingKeyStore)

def single (signer : ReceiptSigner) (addedAt : String) : VerifyingKeyStore where
  keys := [.fromSigner ed signer addedAt]

def containsKid (kid : String) : Bool :=
  store.keys.any fun key => key.entry.kid = kid

/-- A key that could not be parsed verifies nothing. -/
def verifyByKid (kid message sigHex : String) : Except UnknownKeyId Bool :=
  match store.keys.find? fun key => key.entry.kid = kid with
  | none => .error {}
  | some key => match key.parsed with
    | some verifyingKey => .ok (verifyEd25519Sig ed verifyingKey message sigHex)
    | none => .ok false

/-- The key that the store resolves a key id to. -/
def keyOf (kid : String) : Option (List UInt8) :=
  (store.keys.find? fun key => key.entry.kid = kid).bind CachedReceiptKey.parsed

variable {ed store}

theorem verifyByKid_eq_ok_true {kid message sigHex : String} :
    store.verifyByKid ed kid message sigHex = .ok true ↔
      ∃ key bytes, store.keyOf kid = some key ∧ hexDecode sigHex = some bytes ∧ bytes.length = 64 ∧
        ed.verifyStrict key message bytes = true := by
  unfold verifyByKid keyOf
  cases store.keys.find? fun key => key.entry.kid = kid with
  | none => simp
  | some found =>
    obtain ⟨entry, parsed⟩ := found
    cases parsed with
    | none => simp
    | some key =>
      simp only [Except.ok.injEq, Option.bind_some, Option.some.injEq, verifyEd25519Sig]
      cases hexDecode sigHex <;> simp

end VerifyingKeyStore

theorem ReceiptSigner.kid_ne_empty {ed : Ed25519} (formats : ed.Formats) (signer : ReceiptSigner) :
    signer.kid ed ≠ "" := by
  intro empty
  have length := congrArg (fun text : String => text.toList.length) empty
  simp only [ReceiptSigner.kid, String.toList_ofList, List.length_take, ReceiptSigner.verifyingKeyHex,
    length_hexEncode, ReceiptSigner.verifyingKey, formats.keyLength] at length
  simp at length

theorem ReceiptSigner.sign_ne_empty {ed : Ed25519} (formats : ed.Formats) (signer : ReceiptSigner) (message : String) :
    signer.sign ed message ≠ "" := by
  intro empty
  have length := congrArg (fun text : String => text.toList.length) empty
  simp only [ReceiptSigner.sign, length_hexEncode, formats.signatureLength] at length
  simp at length

end Latchgate
