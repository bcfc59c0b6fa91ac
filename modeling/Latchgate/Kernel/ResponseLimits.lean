import Latchgate.Crypto.VerifyingKeys
import Latchgate.Json.Canonical
import Latchgate.Kernel.RegistrySwap

namespace Latchgate

/-- The canonicaliser keeps to RFC 8785. -/
def Codec.Canonicalizes (codec : Codec) (es : JsonNumber → String) : Prop :=
  ∀ v, codec.jcs v = .ok (String.ofList (Json.canonical es v))

/-! The limits of the body of a request or a response, and those of its hash. -/

def bodyLimits (maxBytes : Nat) : ValidationLimits where
  maxBytes := maxBytes
  maxDepth := 10
  maxItems := 100

def bodyHashLimits (maxBytes : Nat) : Limits where
  maxBytes := maxBytes
  maxDepth := 32

/-- As large a text, and as deep a document at least. -/
structure Corresponds (limits : ValidationLimits) (hashed : Limits) : Prop where
  bytes : hashed.maxBytes = limits.maxBytes
  depth : limits.maxDepth ≤ hashed.maxDepth

theorem body_corresponds (maxBytes : Nat) : Corresponds (bodyLimits maxBytes) (bodyHashLimits maxBytes) :=
  ⟨rfl, show 10 ≤ 32 by decide⟩

/-- An answer of an action says whether it succeeded. -/
def checkActionEnvelope : Json → Except SchemaError Unit
  | .object fields =>
    match fields.lookup "ok" with
    | some (.bool _) => .ok ()
    | some _ => .error (.validationFailed "response 'ok' field must be a boolean")
    | none => .error (.validationFailed "response must contain an 'ok' field")
  | _ => .error (.validationFailed "response must be a JSON object")

def validateResponse (violations : Json → String) (limits : ValidationLimits) (body : Json)
    (validator : Option (Json → Bool)) : Except SchemaError Unit := do
  checkLimits limits body
  checkActionEnvelope body
  match validator with
  | some validator => checkSchema violations body validator
  | none => .ok ()

theorem checkLimits_bounds {limits : ValidationLimits} {body : Json} (accepted : checkLimits limits body = .ok ()) :
    body.compactByteLen ≤ limits.maxBytes ∧ body.depth ≤ limits.maxDepth := by
  unfold checkLimits at accepted
  dsimp only at accepted
  split_ifs at accepted with large deep
  rw [Json.toCompactString_size] at large
  omega

theorem canonicalHashWithLen_succeeds {codec : Codec} {es : JsonNumber → String} (rfc : codec.Canonicalizes es) {v : Json}
    {limits : Limits} (shallow : v.depth ≤ limits.maxDepth) :
    (∃ hash, codec.canonicalHashWithLen v limits = .ok hash) ↔
      (Encoding.utf8 (Json.canonical es v)).length ≤ limits.maxBytes := by
  have text : (String.ofList (Json.canonical es v)).toList = Json.canonical es v := String.toList_ofList
  unfold Codec.canonicalHashWithLen Codec.validatedCanonical
  rw [if_neg (Nat.not_lt.mpr shallow), rfc v]
  dsimp only
  rw [text]
  split_ifs with large
  · exact iff_of_false nofun (Nat.not_le.mpr large)
  · exact iff_of_true ⟨_, rfl⟩ (Nat.not_lt.mp large)

/-- `1e20` as the JSON library prints it. -/
def bigNumber : JsonNumber :=
  have plain : ("1e20".toList.all fun c => c.isDigit ∨ c ∈ ['-', '+', '.', 'e']) = true := by decide
  .float ⟨"1e20", fun c member => of_decide_eq_true (List.all_eq_true.mp plain c member), 'e', by decide, by decide⟩

/-- ECMAScript prints `1e20` without an exponent. -/
def esText (n : JsonNumber) : String :=
  if n.text = "1e20" then "100000000000000000000" else n.text

def esCodec : Codec where
  fromStr := fun _ => .error "EOF while parsing a value"
  jcs := fun v => .ok (String.ofList (Json.canonical esText v))
  sha256 := hexEncode

def numberResponse (n : JsonNumber) : Json :=
  .object [("n", .number n), ("ok", .bool true)]

end Latchgate
