import Latchgate.Crypto.VerifyingKeys
import Latchgate.Encoding.Delimited
import Latchgate.Manifest.Load
import Mathlib.Algebra.Group.Int.Defs

namespace Latchgate
open Encoding (utf8)

namespace Webhooks

/-! Texts of signed numbers, and arithmetic that stops at an overflow. -/

def digitsValue (digits : List Char) : Option Int :=
  if digits ≠ [] ∧ digits.all Char.isDigit then some (Nat.ofDigitChars 10 digits 0) else none

def signedValue : List Char → Option Int
  | '-' :: digits => (digitsValue digits).map fun n => -n
  | '+' :: digits => digitsValue digits
  | digits => digitsValue digits

def FitsI64 (n : Int) : Prop :=
  -2 ^ 63 ≤ n ∧ n < 2 ^ 63

instance (n : Int) : Decidable (FitsI64 n) :=
  inferInstanceAs (Decidable (_ ∧ _))

/-- `i64::from_str`. -/
def parseI64 (text : String) : Option Int64 :=
  (signedValue text.toList).bind fun n => if FitsI64 n then some (.ofInt n) else none

/-- The exact difference; nothing where it overflows and the process stops. -/
def checkedSub (a b : Int64) : Option Int :=
  if FitsI64 (a.toInt - b.toInt) then some (a.toInt - b.toInt) else none

def checkedNeg (a : Int64) : Option Int :=
  if FitsI64 (-a.toInt) then some (-a.toInt) else none

/-! Signatures. `mac` is HMAC-SHA256, under a secret of any length. -/

section Signatures
variable (mac : List UInt8 → List UInt8 → List UInt8)

def signedMessage (timestamp : String) (body : List UInt8) : List UInt8 :=
  utf8 timestamp.toList ++ 46 :: body

def computeSignature (body : List UInt8) (secret timestamp : String) : String :=
  "sha256=" ++ hexEncode (mac (utf8 secret.toList) (signedMessage timestamp body))

/-- The signature and the timestamp of a payload that is sent at `now`. -/
def signPayload (now : Int64) (body : List UInt8) (secret : String) : String × String :=
  (computeSignature mac body secret now.toInt.repr, now.toInt.repr)

/-- What a receiver gets at `now`. -/
structure SignedDelivery where
  body : List UInt8
  timestamp : String
  signature : String
  secret : String
  toleranceSeconds : Int64
  forwardToleranceSeconds : Int64
  now : Int64

namespace SignedDelivery
variable (d : SignedDelivery)

/-- The signature is the one of the timestamp and the body. -/
def carriesMac : Bool :=
  match stripText "sha256=" d.signature with
  | none => false
  | some hex => hexDecode hex = some (mac (utf8 d.secret.toList) (signedMessage d.timestamp d.body))

/-- `verify_signature`; nothing where its arithmetic overflows. The negation is
made only where the first comparison lets it. -/
def verifySignature : Option Bool :=
  match parseI64 d.timestamp with
  | none => some false
  | some ts => do
    let drift ← checkedSub d.now ts
    if drift > d.toleranceSeconds.toInt then some false
    else
      let earliest ← checkedNeg d.forwardToleranceSeconds
      if drift < earliest then some false else some (d.carriesMac mac)

/-- The timestamp is an instant inside the window, in exact integers. -/
def InWindow : Prop :=
  ∃ ts, parseI64 d.timestamp = some ts ∧ d.now.toInt - d.toleranceSeconds.toInt ≤ ts.toInt ∧
    ts.toInt ≤ d.now.toInt + d.forwardToleranceSeconds.toInt

/-- No overflow, and exactly the verdict of the exact integers. -/
def Exact : Prop :=
  ∃ verdict, d.verifySignature mac = some verdict ∧ (verdict = true ↔ d.InWindow ∧ d.carriesMac mac = true)

/-- The difference of the clock and the timestamp fits, and so does the negated
tolerance where it is needed. -/
def Fits : Prop :=
  ∀ ts, parseI64 d.timestamp = some ts → FitsI64 (d.now.toInt - ts.toInt) ∧
    (d.now.toInt - ts.toInt ≤ d.toleranceSeconds.toInt → FitsI64 (-d.forwardToleranceSeconds.toInt))

end SignedDelivery

/-- What is signed verifies at once, whatever the tolerances are. -/
def SignedVerifies : Prop :=
  ∀ (now tolerance forward : Int64) (body : List UInt8) (secret : String), 0 ≤ tolerance.toInt → 0 ≤ forward.toInt →
    SignedDelivery.verifySignature mac
      ⟨body, (signPayload mac now body secret).2, (signPayload mac now body secret).1, secret, tolerance, forward, now⟩ = some true

/-- A message that was signed is not verified with its bytes cut elsewhere. -/
def SplitsOneWay : Prop :=
  ∀ (now : Int64) (body : List UInt8) (secret : String) (d : SignedDelivery),
    signedMessage d.timestamp d.body = signedMessage (signPayload mac now body secret).2 body →
      d.verifySignature mac = some true → d.timestamp = (signPayload mac now body secret).2 ∧ d.body = body

end Signatures

theorem toInt_fits (n : Int64) : FitsI64 n.toInt :=
  ⟨n.le_toInt, n.toInt_lt⟩

theorem isDigit_of_mem_repr {n : Nat} {c : Char} (member : c ∈ n.repr.toList) : c.isDigit = true := by
  rw [Nat.toList_repr] at member
  exact Nat.isDigit_of_mem_toDigits (by decide) (by decide) member

theorem digitsValue_repr (n : Nat) : digitsValue n.repr.toList = some (n : Int) := by
  have digits : n.repr.toList ≠ [] ∧ n.repr.toList.all Char.isDigit = true := by
    refine ⟨?_, List.all_eq_true.mpr fun c member => isDigit_of_mem_repr member⟩
    rw [Nat.toList_repr]
    exact Nat.toDigits_ne_nil
  rw [digitsValue, if_pos digits, Nat.toList_repr, Nat.ofDigitChars_ten_toDigits]

theorem signedValue_repr (z : Int) : signedValue z.repr.toList = some z := by
  rw [Int.repr_eq_if]
  split_ifs with positive
  · have plain : signedValue z.toNat.repr.toList = digitsValue z.toNat.repr.toList := by
      unfold signedValue
      split
      · rename_i rest starts
        exact absurd (@isDigit_of_mem_repr z.toNat '-' (by rw [starts]; exact List.mem_cons_self)) (by decide)
      · rename_i rest starts
        exact absurd (@isDigit_of_mem_repr z.toNat '+' (by rw [starts]; exact List.mem_cons_self)) (by decide)
      · rfl
    rw [plain, digitsValue_repr]
    exact congrArg some (by omega)
  · rw [String.toList_append]
    change (digitsValue (-z).toNat.repr.toList).map _ = _
    rw [digitsValue_repr, Option.map_some]
    exact congrArg some (show -((-z).toNat : Int) = z by omega)

theorem parseI64_repr (n : Int64) : parseI64 n.toInt.repr = some n := by
  rw [parseI64, signedValue_repr, Option.bind_some, if_pos (toInt_fits n), Int64.ofInt_toInt]

theorem dot_notMem_of_digits {digits : List Char} {value : Int} (read : digitsValue digits = some value) : '.' ∉ digits := by
  unfold digitsValue at read
  split_ifs at read with shape
  intro member
  exact absurd (List.all_eq_true.mp shape.2 '.' member) (by decide)

/-- No timestamp that is read has a dot. -/
theorem dot_notMem_of_parsed {text : String} {ts : Int64} (parsed : parseI64 text = some ts) : '.' ∉ text.toList := by
  obtain ⟨value, read, -⟩ := Option.bind_eq_some_iff.mp parsed
  unfold signedValue at read
  split at read
  · rename_i digits starts
    obtain ⟨n, digitsRead, -⟩ := Option.map_eq_some_iff.mp read
    rw [starts, List.mem_cons, not_or]
    exact ⟨by decide, dot_notMem_of_digits digitsRead⟩
  · rename_i digits starts
    rw [starts, List.mem_cons, not_or]
    exact ⟨by decide, dot_notMem_of_digits read⟩
  · exact dot_notMem_of_digits read

section Signatures
variable {mac : List UInt8 → List UInt8 → List UInt8}

theorem carriesMac_computed (body : List UInt8) (secret timestamp : String) (tolerance forward now : Int64) :
    SignedDelivery.carriesMac mac ⟨body, timestamp, computeSignature mac body secret timestamp, secret, tolerance, forward, now⟩ =
      true := by
  simp only [SignedDelivery.carriesMac, computeSignature, stripText_append, hexDecode_hexEncode, decide_true]

namespace SignedDelivery
variable {d : SignedDelivery}

/-- Where nothing overflows the verdict is the exact one. -/
theorem exact_of_fits (fits : d.Fits) : d.Exact mac := by
  unfold Exact verifySignature InWindow
  cases parsed : parseI64 d.timestamp with
  | none => exact ⟨false, rfl, by simp⟩
  | some ts =>
    obtain ⟨small, negated⟩ := fits ts parsed
    simp only [checkedSub, if_pos small, Option.bind_eq_bind, Option.bind_some, Option.some.injEq, exists_eq_left']
    by_cases late : d.now.toInt - ts.toInt > d.toleranceSeconds.toInt
    · refine ⟨false, if_pos late, ?_⟩
      simp only [Bool.false_eq_true, false_iff, not_and]
      intro window
      omega
    · have fitsNeg := negated (not_lt.mp late)
      simp only [if_neg late, checkedNeg, if_pos fitsNeg, Option.bind_some]
      by_cases early : d.now.toInt - ts.toInt < -d.forwardToleranceSeconds.toInt
      · refine ⟨false, if_pos early, ?_⟩
        simp only [Bool.false_eq_true, false_iff, not_and]
        intro window
        omega
      · have window : d.now.toInt - d.toleranceSeconds.toInt ≤ ts.toInt ∧
            ts.toInt ≤ d.now.toInt + d.forwardToleranceSeconds.toInt := by omega
        exact ⟨d.carriesMac mac, if_neg early, by simp [window]⟩

theorem fits_of_exact (exact_ : d.Exact mac) : d.Fits := by
  obtain ⟨verdict, answered, -⟩ := exact_
  intro ts parsed
  unfold verifySignature at answered
  simp only [parsed, Option.bind_eq_bind] at answered
  obtain ⟨drift, subtracted, answered⟩ := Option.bind_eq_some_iff.mp answered
  unfold checkedSub at subtracted
  split_ifs at subtracted with small
  obtain rfl := Option.some.inj subtracted
  refine ⟨small, fun inside => ?_⟩
  rw [if_neg (not_lt.mpr inside)] at answered
  obtain ⟨earliest, negated, -⟩ := Option.bind_eq_some_iff.mp answered
  unfold checkedNeg at negated
  split_ifs at negated with fitsNeg
  exact fitsNeg

end SignedDelivery

theorem signedVerifies : SignedVerifies mac := by
  intro now tolerance forward body secret past ahead
  have parsed := parseI64_repr now
  have carried := @carriesMac_computed mac body secret now.toInt.repr tolerance forward now
  have upper := forward.toInt_lt
  have fits : SignedDelivery.Fits
      ⟨body, now.toInt.repr, computeSignature mac body secret now.toInt.repr, secret, tolerance, forward, now⟩ := by
    intro ts read
    obtain rfl := Option.some.inj (parsed.symm.trans read)
    simp only [FitsI64]
    omega
  obtain ⟨verdict, answered, meaning⟩ := @SignedDelivery.exact_of_fits mac _ fits
  have inWindow : SignedDelivery.InWindow
      ⟨body, now.toInt.repr, computeSignature mac body secret now.toInt.repr, secret, tolerance, forward, now⟩ :=
    ⟨now, parsed, by dsimp only; omega, by dsimp only; omega⟩
  rw [meaning.2 ⟨inWindow, carried⟩] at answered
  exact answered

theorem splitsOneWay : SplitsOneWay mac := by
  intro now body secret d same verified
  obtain ⟨ts, parsed⟩ : ∃ ts, parseI64 d.timestamp = some ts := by
    cases parsed : parseI64 d.timestamp with
    | none => simp [SignedDelivery.verifySignature, parsed] at verified
    | some ts => exact ⟨ts, rfl⟩
  have own := dot_notMem_of_parsed parsed
  have signed := dot_notMem_of_parsed (parseI64_repr now)
  have cut : Encoding.utf8 (d.timestamp.toList ++ ['.']) ++ d.body = Encoding.utf8 (now.toInt.repr.toList ++ ['.']) ++ body := by
    have dot : Encoding.utf8 ['.'] = [46] := by decide
    rw [Encoding.utf8_append, Encoding.utf8_append, dot, List.append_assoc, List.append_assoc]
    exact same
  obtain ⟨texts, bodies⟩ := Encoding.utf8_terminated_append_inj (Encoding.clear_of_notMem own signed) cut
  exact ⟨String.toList_inj.mp texts, bodies⟩

/-- For every delivery: the verification overflows nowhere and decides by the
exact integers, a signed payload verifies, and a signed message splits one way,
exactly when the clock less the timestamp fits and the negated tolerance does
where it is needed. -/
theorem signatures_exact (mac : List UInt8 → List UInt8 → List UInt8) (d : SignedDelivery) :
    d.Exact mac ∧ SignedVerifies mac ∧ SplitsOneWay mac ↔ d.Fits :=
  ⟨fun holds => SignedDelivery.fits_of_exact holds.1,
    fun fits => ⟨SignedDelivery.exact_of_fits fits, signedVerifies, splitsOneWay⟩⟩

/-- A timestamp at the lower end of the range, received in 2025. -/
def earliestTimestamp : SignedDelivery where
  body := []
  timestamp := "-9223372036854775808"
  signature := "sha256="
  secret := "whsec_test"
  toleranceSeconds := 300
  forwardToleranceSeconds := 5
  now := 1750000000

theorem earliest_timestamp_overflows (mac : List UInt8 → List UInt8 → List UInt8) :
    earliestTimestamp.verifySignature mac = none := by
  have parsed : parseI64 "-9223372036854775808" = some (-9223372036854775808) := by decide
  have overflows : checkedSub 1750000000 (-9223372036854775808) = none := by decide
  simp only [SignedDelivery.verifySignature, earliestTimestamp, parsed, overflows]
  rfl

theorem earliest_timestamp_not_exact : ¬earliestTimestamp.Exact fun _ _ => [] := by
  rintro ⟨verdict, answered, -⟩
  rw [earliest_timestamp_overflows] at answered
  cases answered

end Signatures
end Webhooks
end Latchgate
