import Mathlib.Data.List.Basic

namespace Encoding

def base64Alphabet : List Char :=
  "ABCDEFGHIJKLMNOPQRSTUVWXYZabcdefghijklmnopqrstuvwxyz0123456789-_".toList

def sextetChar (n : Nat) : Char :=
  base64Alphabet.getD n 'A'

def sextet? (c : Char) : Option Nat :=
  base64Alphabet.idxOf? c

/-- Base64 with the alphabet for addresses and file names, without padding. -/
def base64Url : List UInt8 → List Char
  | a :: b :: c :: rest =>
    sextetChar (a.toNat / 4) :: sextetChar (a.toNat % 4 * 16 + b.toNat / 16) ::
      sextetChar (b.toNat % 16 * 4 + c.toNat / 64) :: sextetChar (c.toNat % 64) :: base64Url rest
  | [a, b] => [sextetChar (a.toNat / 4), sextetChar (a.toNat % 4 * 16 + b.toNat / 16), sextetChar (b.toNat % 16 * 4)]
  | [a] => [sextetChar (a.toNat / 4), sextetChar (a.toNat % 4 * 16)]
  | [] => []

/-- Bits that are left over at the end must be zero. -/
def unBase64Url : List Char → Option (List UInt8)
  | a :: b :: c :: d :: rest => do
    let a ← sextet? a
    let b ← sextet? b
    let c ← sextet? c
    let d ← sextet? d
    let bytes ← unBase64Url rest
    some (UInt8.ofNat (a * 4 + b / 16) :: UInt8.ofNat (b % 16 * 16 + c / 4) :: UInt8.ofNat (c % 4 * 64 + d) :: bytes)
  | [a, b, c] => do
    let a ← sextet? a
    let b ← sextet? b
    let c ← sextet? c
    if c % 4 = 0 then some [UInt8.ofNat (a * 4 + b / 16), UInt8.ofNat (b % 16 * 16 + c / 4)] else none
  | [a, b] => do
    let a ← sextet? a
    let b ← sextet? b
    if b % 16 = 0 then some [UInt8.ofNat (a * 4 + b / 16)] else none
  | [_] => none
  | [] => some []

theorem sextet?_sextetChar : ∀ n < 64, sextet? (sextetChar n) = some n := by
  decide

theorem sextetChar_ne_dot : ∀ n < 64, sextetChar n ≠ '.' := by
  decide +kernel

theorem unBase64Url_base64Url (bytes : List UInt8) : unBase64Url (base64Url bytes) = some bytes := by
  have byte (a : UInt8) {n : Nat} (same : n = a.toNat) : UInt8.ofNat n = a := by
    rw [same, UInt8.ofNat_toNat]
  have small (a : UInt8) : a.toNat < 256 := a.toNat_lt
  induction bytes using base64Url.induct with
  | case1 a b c rest ih =>
    have := small a
    have := small b
    have := small c
    rw [base64Url, unBase64Url, sextet?_sextetChar _ (by omega), sextet?_sextetChar _ (by omega),
      sextet?_sextetChar _ (by omega), sextet?_sextetChar _ (by omega), ih]
    simp only [Option.bind_eq_bind, Option.bind_some]
    rw [byte a (by omega), byte b (by omega), byte c (by omega)]
  | case2 a b =>
    have := small a
    have := small b
    rw [base64Url, unBase64Url, sextet?_sextetChar _ (by omega), sextet?_sextetChar _ (by omega),
      sextet?_sextetChar _ (by omega)]
    simp only [Option.bind_eq_bind, Option.bind_some]
    rw [if_pos (by omega), byte a (by omega), byte b (by omega)]
  | case3 a =>
    have := small a
    rw [base64Url, unBase64Url, sextet?_sextetChar _ (by omega), sextet?_sextetChar _ (by omega)]
    simp only [Option.bind_eq_bind, Option.bind_some]
    rw [if_pos (by omega), byte a (by omega)]
  | case4 => rfl

theorem dot_notMem_base64Url (bytes : List UInt8) : '.' ∉ base64Url bytes := by
  have small (a : UInt8) : a.toNat < 256 := a.toNat_lt
  have other {n : Nat} (sextet : n < 64) : '.' ≠ sextetChar n := (sextetChar_ne_dot n sextet).symm
  induction bytes using base64Url.induct with
  | case1 a b c rest ih =>
    have := small a
    have := small b
    have := small c
    rw [base64Url, List.mem_cons, List.mem_cons, List.mem_cons, List.mem_cons, not_or, not_or, not_or, not_or]
    exact ⟨other (by omega), other (by omega), other (by omega), other (by omega), ih⟩
  | case2 a b =>
    have := small a
    have := small b
    rw [base64Url, List.mem_cons, List.mem_cons, List.mem_singleton, not_or, not_or]
    exact ⟨other (by omega), other (by omega), other (by omega)⟩
  | case3 a =>
    have := small a
    rw [base64Url, List.mem_cons, List.mem_singleton, not_or]
    exact ⟨other (by omega), other (by omega)⟩
  | case4 => exact List.not_mem_nil

end Encoding
