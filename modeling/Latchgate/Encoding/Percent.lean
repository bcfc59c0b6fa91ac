import Latchgate.Encoding.Ascii

/-! Percent-encoded texts. -/

namespace Encoding
namespace Percent

section Decode
variable (value : Char → Option Nat)

/-- Takes a sign and two digits for the byte they stand for, and anything else
as it stands. -/
def decode : List Char → List UInt8
  | '%' :: x :: y :: rest =>
    match value x, value y with
    | some high, some low => UInt8.ofNat (16 * high + low) :: decode rest
    | _, _ => String.utf8EncodeChar '%' ++ decode (x :: y :: rest)
  | c :: rest => String.utf8EncodeChar c ++ decode rest
  | [] => []

end Decode

/-- Writes the bytes that are not kept with a sign and two digits. -/
def encode (digit : Nat → Char) (keep : UInt8 → Bool) (bytes : List UInt8) : List Char :=
  bytes.flatMap fun b =>
    if keep b then [Char.ofNat b.toNat] else ['%', digit (b.toNat / 16), digit (b.toNat % 16)]

variable {value : Char → Option Nat} {digit : Nat → Char} {keep : UInt8 → Bool}

theorem decode_cons {c : Char} (other : c ≠ '%') (rest : List Char) :
    decode value (c :: rest) = String.utf8EncodeChar c ++ decode value rest := by
  rw [decode]
  rintro _ _ _ rfl
  exact absurd rfl other

theorem decode_triple {x y : Char} {high low : Nat} (first : value x = some high) (second : value y = some low)
    (rest : List Char) : decode value ('%' :: x :: y :: rest) = UInt8.ofNat (16 * high + low) :: decode value rest := by
  rw [decode]
  simp only [first, second]

/-- What was encoded is decoded. -/
theorem decode_encode (digits : ∀ n < 16, value (digit n) = some n)
    (plain : ∀ b, keep b = true → b.toNat < 128 ∧ b.toNat ≠ 37) (bytes : List UInt8) (rest : List Char) :
    decode value (encode digit keep bytes ++ rest) = bytes ++ decode value rest := by
  induction bytes with
  | nil => rfl
  | cons b bytes ih =>
    have small : b.toNat < 256 := b.toNat_lt
    rw [encode, List.flatMap_cons, List.append_assoc]
    change decode value (_ ++ (encode digit keep bytes ++ rest)) = _
    cases kept : keep b with
    | true =>
      obtain ⟨ascii, other⟩ := plain b kept
      have number : (Char.ofNat b.toNat).toNat = b.toNat := by
        rw [Char.ofNat, dif_pos (.inl (by omega) : b.toNat.isValidChar)]
        rfl
      have sign : Char.ofNat b.toNat ≠ '%' := fun same => other (by rw [← number, same]; rfl)
      rw [if_pos rfl, List.singleton_append, decode_cons sign, utf8EncodeChar_ascii (by omega), number, ih,
        UInt8.ofNat_toNat]
      rfl
    | false =>
      have whole : 16 * (b.toNat / 16) + b.toNat % 16 = b.toNat := by omega
      rw [if_neg Bool.false_ne_true]
      change decode value ('%' :: digit (b.toNat / 16) :: digit (b.toNat % 16) :: (encode digit keep bytes ++ rest)) = _
      rw [decode_triple (digits _ (by omega)) (digits _ (by omega)), whole, UInt8.ofNat_toNat, ih]
      rfl

/-- A text all of whose bytes are kept is its own code. -/
theorem encode_kept {text : List Char} (kept : ∀ c ∈ text, c.toNat < 128 ∧ keep (UInt8.ofNat c.toNat) = true) :
    encode digit keep (utf8 text) = text := by
  induction text with
  | nil => rfl
  | cons c text ih =>
    obtain ⟨ascii, own⟩ := kept c List.mem_cons_self
    have number : (UInt8.ofNat c.toNat).toNat = c.toNat := by
      rw [UInt8.toNat_ofNat']
      omega
    rw [utf8_cons, utf8EncodeChar_ascii ascii, List.singleton_append, encode, List.flatMap_cons, if_pos own, number,
      Char.ofNat_toNat]
    exact congrArg (c :: ·) (ih fun d member => kept d (List.mem_cons_of_mem _ member))

/-- A byte that is not kept stands in the code with its digits. -/
theorem encode_split {bytes : List UInt8} {b : UInt8} (member : b ∈ bytes) (other : keep b = false) :
    ∃ front back, encode digit keep bytes = front ++ '%' :: digit (b.toNat / 16) :: digit (b.toNat % 16) :: back := by
  obtain ⟨before, after, rfl⟩ := List.append_of_mem member
  refine ⟨encode digit keep before, encode digit keep after, ?_⟩
  rw [encode, List.flatMap_append, List.flatMap_cons, if_neg (by rw [other]; exact Bool.false_ne_true)]
  rfl

end Percent
end Encoding
