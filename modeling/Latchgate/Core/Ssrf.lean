import Latchgate.Bits.Prefix
import Latchgate.Core.Ip
import Latchgate.Json.Reparse

namespace Latchgate
open Bits (Block)

/-! The documented ranges of addresses that are not public. -/

def numberV4 (a b c d : Nat) : Nat :=
  ((a * 2 ^ 8 + b) * 2 ^ 8 + c) * 2 ^ 8 + d

def numberV6 (s0 s1 s2 s3 s4 s5 s6 s7 : Nat) : Nat :=
  ((((((s0 * 2 ^ 16 + s1) * 2 ^ 16 + s2) * 2 ^ 16 + s3) * 2 ^ 16 + s4) * 2 ^ 16 + s5) * 2 ^ 16 + s6) * 2 ^ 16 + s7

def nonPublicV4 : List Block :=
  [⟨numberV4 127 0 0 0, 8⟩, ⟨numberV4 10 0 0 0, 8⟩, ⟨numberV4 172 16 0 0, 12⟩, ⟨numberV4 192 168 0 0, 16⟩,
    ⟨numberV4 169 254 0 0, 16⟩, ⟨numberV4 255 255 255 255, 32⟩, ⟨numberV4 0 0 0 0, 32⟩, ⟨numberV4 100 64 0 0, 10⟩,
    ⟨numberV4 192 0 0 0, 24⟩, ⟨numberV4 192 0 2 0, 24⟩, ⟨numberV4 198 51 100 0, 24⟩, ⟨numberV4 203 0 113 0, 24⟩,
    ⟨numberV4 224 0 0 0, 4⟩, ⟨numberV4 240 0 0 0, 4⟩]

def nonPublicV6 : List Block :=
  [⟨numberV6 0 0 0 0 0 0 0 1, 128⟩, ⟨numberV6 0 0 0 0 0 0 0 0, 128⟩, ⟨numberV6 0xfe80 0 0 0 0 0 0 0, 10⟩,
    ⟨numberV6 0xfc00 0 0 0 0 0 0 0, 7⟩, ⟨numberV6 0xff00 0 0 0 0 0 0 0, 8⟩]

/-- Addresses whose last 32 bits are an address of the older kind. -/
def mappedV4 : Block := ⟨numberV6 0 0 0 0 0 0xffff 0 0, 96⟩

def NonPublicV4 (number : Nat) : Prop :=
  ∃ block ∈ nonPublicV4, block.Holds 32 number

def NonPublic : IpAddr → Prop
  | .v4 a b c d => NonPublicV4 (numberV4 a.toNat b.toNat c.toNat d.toNat)
  | .v6 s0 s1 s2 s3 s4 s5 s6 s7 =>
    let number := numberV6 s0.toNat s1.toNat s2.toNat s3.toNat s4.toNat s5.toNat s6.toNat s7.toNat
    (∃ block ∈ nonPublicV6, block.Holds 128 number) ∨ mappedV4.Holds 128 number ∧ NonPublicV4 (number % 2 ^ 32)

/-- The middle of the shared range is found by its mask. -/
theorem sharedSpace_iff (b : UInt8) : b &&& 0xC0 = 64 ↔ b.toNat / 2 ^ 6 = 1 := by
  have masked := @Block.holds_iff_and b.toNat 8 ⟨64, 2⟩ b.toNat_lt (by decide)
  rw [← UInt8.toNat_inj, UInt8.toNat_and]
  exact masked.symm

section OlderKind
variable {a b c d : Nat}

theorem holds8_iff {x : Nat} (hb : b < 2 ^ 8) (hc : c < 2 ^ 8) (hd : d < 2 ^ 8) :
    Block.Holds 32 ⟨numberV4 x 0 0 0, 8⟩ (numberV4 a b c d) ↔ a = x := by
  simp only [Block.Holds, numberV4, Nat.reduceSub]
  omega

theorem holds16_iff {x y : Nat} (hy : y < 2 ^ 8) (hb : b < 2 ^ 8) (hc : c < 2 ^ 8) (hd : d < 2 ^ 8) :
    Block.Holds 32 ⟨numberV4 x y 0 0, 16⟩ (numberV4 a b c d) ↔ a = x ∧ b = y := by
  simp only [Block.Holds, numberV4, Nat.reduceSub]
  omega

theorem holds24_iff {x y z : Nat} (hy : y < 2 ^ 8) (hz : z < 2 ^ 8) (hb : b < 2 ^ 8) (hc : c < 2 ^ 8) (hd : d < 2 ^ 8) :
    Block.Holds 32 ⟨numberV4 x y z 0, 24⟩ (numberV4 a b c d) ↔ a = x ∧ b = y ∧ c = z := by
  simp only [Block.Holds, numberV4, Nat.reduceSub]
  omega

theorem holds32_iff {x y z w : Nat} (hy : y < 2 ^ 8) (hz : z < 2 ^ 8) (hw : w < 2 ^ 8)
    (hb : b < 2 ^ 8) (hc : c < 2 ^ 8) (hd : d < 2 ^ 8) :
    Block.Holds 32 ⟨numberV4 x y z w, 32⟩ (numberV4 a b c d) ↔ a = x ∧ b = y ∧ c = z ∧ d = w := by
  simp only [Block.Holds, numberV4, Nat.reduceSub]
  omega

end OlderKind

theorem isPrivateV4_iff (a b c d : UInt8) :
    isPrivateV4 a b c d = true ↔ NonPublicV4 (numberV4 a.toNat b.toNat c.toNat d.toNat) := by
  have ha := a.toNat_lt
  have hb := b.toNat_lt
  have hc := c.toNat_lt
  have hd := d.toNat_lt
  have tenth : Block.Holds 32 ⟨numberV4 100 64 0 0, 10⟩ (numberV4 a.toNat b.toNat c.toNat d.toNat) ↔
      a.toNat = 100 ∧ b.toNat / 2 ^ 6 = 1 := by
    simp only [Block.Holds, numberV4, Nat.reduceSub]
    omega
  have twelfth : Block.Holds 32 ⟨numberV4 172 16 0 0, 12⟩ (numberV4 a.toNat b.toNat c.toNat d.toNat) ↔
      a.toNat = 172 ∧ 16 ≤ b.toNat ∧ b.toNat ≤ 31 := by
    simp only [Block.Holds, numberV4, Nat.reduceSub]
    omega
  have last : 224 ≤ a.toNat ↔ Block.Holds 32 ⟨numberV4 224 0 0 0, 4⟩ (numberV4 a.toNat b.toNat c.toNat d.toNat) ∨
      Block.Holds 32 ⟨numberV4 240 0 0 0, 4⟩ (numberV4 a.toNat b.toNat c.toNat d.toNat) := by
    simp only [Block.Holds, numberV4, Nat.reduceSub]
    omega
  simp only [isPrivateV4, NonPublicV4, nonPublicV4, List.mem_cons, List.not_mem_nil, or_false,
    exists_eq_or_imp, exists_eq_left, Bool.or_eq_true, Bool.and_eq_true, decide_eq_true_eq, sharedSpace_iff]
  rw [tenth, twelfth, holds8_iff hb hc hd, holds8_iff hb hc hd, holds16_iff (by decide) hb hc hd, holds16_iff (by decide) hb hc hd,
    holds32_iff (by decide) (by decide) (by decide) hb hc hd, holds32_iff (by decide) (by decide) (by decide) hb hc hd,
    holds24_iff (by decide) (by decide) hb hc hd, holds24_iff (by decide) (by decide) hb hc hd,
    holds24_iff (by decide) (by decide) hb hc hd, holds24_iff (by decide) (by decide) hb hc hd, ← last]
  simp only [← UInt8.toNat_inj, UInt8.le_iff_toNat_le, UInt8.reduceToNat, or_assoc, and_assoc]

section NewerKind
variable {s0 s1 s2 s3 s4 s5 s6 s7 : Nat}

theorem holds_first {x length : Nat} (fits : length ≤ 16) (h1 : s1 < 2 ^ 16) (h2 : s2 < 2 ^ 16) (h3 : s3 < 2 ^ 16)
    (h4 : s4 < 2 ^ 16) (h5 : s5 < 2 ^ 16) (h6 : s6 < 2 ^ 16) (h7 : s7 < 2 ^ 16) :
    Block.Holds 128 ⟨numberV6 x 0 0 0 0 0 0 0, length⟩ (numberV6 s0 s1 s2 s3 s4 s5 s6 s7) ↔ Block.Holds 16 ⟨x, length⟩ s0 := by
  have small : numberV6 0 s1 s2 s3 s4 s5 s6 s7 < 2 ^ 112 := by
    unfold numberV6
    omega
  have split : numberV6 s0 s1 s2 s3 s4 s5 s6 s7 = s0 * 2 ^ 112 + numberV6 0 s1 s2 s3 s4 s5 s6 s7 := by
    unfold numberV6
    omega
  have base : numberV6 x 0 0 0 0 0 0 0 / 2 ^ 112 = x := by
    unfold numberV6
    omega
  rw [split, Block.holds_lead small (by dsimp only; omega), base]

theorem numberV6_eq_iff {x : Nat} (small : x < 2 ^ 16) (h1 : s1 < 2 ^ 16) (h2 : s2 < 2 ^ 16) (h3 : s3 < 2 ^ 16)
    (h4 : s4 < 2 ^ 16) (h5 : s5 < 2 ^ 16) (h6 : s6 < 2 ^ 16) (h7 : s7 < 2 ^ 16) :
    Block.Holds 128 ⟨numberV6 0 0 0 0 0 0 0 x, 128⟩ (numberV6 s0 s1 s2 s3 s4 s5 s6 s7) ↔
      s0 = 0 ∧ s1 = 0 ∧ s2 = 0 ∧ s3 = 0 ∧ s4 = 0 ∧ s5 = 0 ∧ s6 = 0 ∧ s7 = x := by
  simp only [Block.Holds, numberV6, Nat.reduceSub]
  omega

theorem mappedV4_iff (h1 : s1 < 2 ^ 16) (h2 : s2 < 2 ^ 16) (h3 : s3 < 2 ^ 16) (h4 : s4 < 2 ^ 16) (h5 : s5 < 2 ^ 16)
    (h6 : s6 < 2 ^ 16) (h7 : s7 < 2 ^ 16) :
    mappedV4.Holds 128 (numberV6 s0 s1 s2 s3 s4 s5 s6 s7) ↔ s0 = 0 ∧ s1 = 0 ∧ s2 = 0 ∧ s3 = 0 ∧ s4 = 0 ∧ s5 = 0xffff := by
  simp only [Block.Holds, mappedV4, numberV6, Nat.reduceSub]
  omega

theorem numberV6_mod (h6 : s6 < 2 ^ 16) (h7 : s7 < 2 ^ 16) :
    numberV6 s0 s1 s2 s3 s4 s5 s6 s7 % 2 ^ 32 = numberV4 (s6 / 256 % 256) (s6 % 256) (s7 / 256 % 256) (s7 % 256) := by
  unfold numberV6 numberV4
  omega

end NewerKind

/-- A mask of the first group takes the first bits of the address. -/
theorem masked_first (s base mask : UInt16) (length : Nat) (aligned : 2 ^ (16 - length) ∣ base.toNat)
    (leading : mask.toNat = 2 ^ 16 - 2 ^ (16 - length)) :
    s &&& mask = base ↔ Block.Holds 16 ⟨base.toNat, length⟩ s.toNat := by
  have masked := @Block.holds_iff_and s.toNat 16 ⟨base.toNat, length⟩ s.toNat_lt aligned
  rw [masked, ← leading, ← UInt16.toNat_and, UInt16.toNat_inj]

/-- An address is judged by the documented ranges. -/
theorem isPrivateIp_iff (ip : IpAddr) : isPrivateIp ip = true ↔ NonPublic ip := by
  cases ip with
  | v4 a b c d => exact isPrivateV4_iff a b c d
  | v6 s0 s1 s2 s3 s4 s5 s6 s7 =>
    have h1 := s1.toNat_lt
    have h2 := s2.toNat_lt
    have h3 := s3.toNat_lt
    have h4 := s4.toNat_lt
    have h5 := s5.toNat_lt
    have h6 := s6.toNat_lt
    have h7 := s7.toNat_lt
    have linkLocal := masked_first s0 0xfe80 0xffc0 10 (by decide) (by decide)
    have uniqueLocal := masked_first s0 0xfc00 0xfe00 7 (by decide) (by decide)
    have multicast := masked_first s0 0xff00 0xff00 8 (by decide) (by decide)
    have embedded := isPrivateV4_iff (s6 >>> 8).toUInt8 s6.toUInt8 (s7 >>> 8).toUInt8 s7.toUInt8
    simp only [UInt16.reduceToNat] at linkLocal uniqueLocal multicast
    simp only [UInt16.toNat_toUInt8, UInt16.toNat_shiftRight, UInt16.reduceToNat, Nat.reduceMod, Nat.shiftRight_eq_div_pow,
      Nat.reducePow] at embedded
    simp only [NonPublic, nonPublicV6, List.mem_cons, List.not_mem_nil, or_false, exists_eq_or_imp, exists_eq_left]
    rw [numberV6_eq_iff (by decide) h1 h2 h3 h4 h5 h6 h7, numberV6_eq_iff (by decide) h1 h2 h3 h4 h5 h6 h7,
      holds_first (by decide) h1 h2 h3 h4 h5 h6 h7, holds_first (by decide) h1 h2 h3 h4 h5 h6 h7,
      holds_first (by decide) h1 h2 h3 h4 h5 h6 h7, mappedV4_iff h1 h2 h3 h4 h5 h6 h7, numberV6_mod h6 h7,
      ← embedded, ← linkLocal, ← uniqueLocal, ← multicast]
    simp only [isPrivateIp, Bool.or_eq_true, Bool.and_eq_true, decide_eq_true_eq, ← UInt16.toNat_inj, UInt16.reduceToNat,
      and_or_left, or_assoc, and_assoc]

/-! The texts of addresses. -/

def displayV4 (a b c d : UInt8) : String :=
  toString a.toNat ++ "." ++ toString b.toNat ++ "." ++ toString c.toNat ++ "." ++ toString d.toNat

/-- A run of zeros by its start and its length. -/
structure Span where
  start : Nat := 0
  len : Nat := 0

/-- The first of the longest runs of zeros. -/
def zeroSpan (segments : List UInt16) : Span :=
  (segments.zipIdx.foldl (fun (longest, current) (segment, i) =>
    if segment = 0 then
      let current : Span := if current.len = 0 then ⟨i, 1⟩ else ⟨current.start, current.len + 1⟩
      (if longest.len < current.len then current else longest, current)
    else (longest, {})) (({} : Span), ({} : Span))).1

def displaySegments (segments : List UInt16) : String :=
  String.intercalate ":" (segments.map fun segment => String.ofList (Nat.toDigits 16 segment.toNat))

def IpAddr.display : IpAddr → String
  | v4 a b c d => displayV4 a b c d
  | v6 s0 s1 s2 s3 s4 s5 s6 s7 =>
    if s0 = 0 ∧ s1 = 0 ∧ s2 = 0 ∧ s3 = 0 ∧ s4 = 0 ∧ s5 = 0xffff then
      "::ffff:" ++ displayV4 (s6 >>> 8).toUInt8 s6.toUInt8 (s7 >>> 8).toUInt8 s7.toUInt8
    else
      let segments := [s0, s1, s2, s3, s4, s5, s6, s7]
      let zeroes := zeroSpan segments
      if 1 < zeroes.len then
        displaySegments (segments.take zeroes.start) ++ "::" ++ displaySegments (segments.drop (zeroes.start + zeroes.len))
      else displaySegments segments

/-! The checks before a connection is made. -/

/-- The parts of a parsed URL that are looked at. -/
structure Url where
  scheme : String
  hostStr : Option String
  port : Option Nat
  portOrKnownDefault : Option Nat

structure SocketAddr where
  ip : IpAddr
  port : UInt16
  deriving DecidableEq

structure SsrfCheckOptions where
  enforceScheme : Bool := true
  enforcePortAllowlist : Bool := true
  allowDevLocalhost : Bool := false

def SsrfCheckOptions.strict : SsrfCheckOptions := {}

inductive SsrfError where
  | blocked (reason : String)
  | dnsResolution (host source : String)
  deriving DecidableEq

namespace SsrfError

def display : SsrfError → String
  | blocked reason => "SSRF blocked: " ++ reason
  | dnsResolution host source => "DNS resolution failed for " ++ host ++ ": " ++ source

def isRetryable : SsrfError → Bool
  | blocked _ => false
  | dnsResolution _ _ => true

end SsrfError

def allowedPorts : List Nat := [443, 80]

def devLocalhosts : List String := ["localhost", "127.0.0.1", "[::1]"]

namespace Ssrf

-- The parser and the resolver are other programs.
variable (parseUrl : String → Except String Url) (lookupHost : String → Except String (List SocketAddr))

/-- The first address a host resolves to, once all of them are judged. -/
def checkAddresses (options : SsrfCheckOptions) (host : String) (port : Nat) : Except SsrfError SocketAddr := do
  match ← (lookupHost (host ++ ":" ++ toString port)).mapError (.dnsResolution host) with
  | [] => .error (.blocked ("DNS resolution returned no addresses for " ++ host))
  | addr :: rest =>
    if options.allowDevLocalhost && host ∈ devLocalhosts then .ok addr
    else match (addr :: rest).find? fun addr => isPrivateIp addr.ip with
      | some hit => .error (.blocked (host ++ " resolved to private/reserved address " ++ hit.ip.display))
      | none => .ok addr

def resolveAndCheckSsrf (url : String) (options : SsrfCheckOptions) : Except SsrfError (SocketAddr × String) := do
  let parsed ← (parseUrl url).mapError fun e => .blocked ("invalid URL: " ++ e)
  if options.enforceScheme && parsed.scheme ∉ ["https", "http"] then
    .error (.blocked ("scheme '" ++ parsed.scheme ++ "' is not allowed (only http/https)"))
  else match parsed.hostStr with
    | none => .error (.blocked "URL has no host")
    | some host =>
      let port := parsed.portOrKnownDefault.getD 443
      if options.enforcePortAllowlist && port ∉ allowedPorts then
        .error (.blocked ("port " ++ toString port ++ " is not allowed (permitted: [443, 80])"))
      else (checkAddresses lookupHost options host port).map fun addr => (addr, host)

variable {parseUrl lookupHost} {options : SsrfCheckOptions}

theorem checkAddresses_ok {host : String} {port : Nat} {addr : SocketAddr}
    (ok : checkAddresses lookupHost options host port = .ok addr) :
    ∃ addrs, lookupHost (host ++ ":" ++ toString port) = .ok addrs ∧ addrs.head? = some addr ∧
      ((∀ a ∈ addrs, isPrivateIp a.ip = false) ∨ options.allowDevLocalhost = true ∧ host ∈ devLocalhosts) := by
  obtain ⟨addrs, found, rest⟩ := Except.bind_eq_ok.1 ok
  have resolved := Except.mapError_eq_ok.1 found
  cases addrs with
  | nil => cases rest
  | cons first others =>
    dsimp only at rest
    split at rest
    · rename_i skip
      cases rest
      rw [Bool.and_eq_true, decide_eq_true_eq] at skip
      exact ⟨_, resolved, rfl, .inr skip⟩
    split at rest
    · cases rest
    · rename_i none
      cases rest
      exact ⟨_, resolved, rfl, .inl fun a member => Bool.eq_false_iff.mpr (List.find?_eq_none.mp none a member)⟩

theorem resolveAndCheckSsrf_ok {url host : String} {addr : SocketAddr}
    (ok : resolveAndCheckSsrf parseUrl lookupHost url options = .ok (addr, host)) :
    ∃ parsed, parseUrl url = .ok parsed ∧ parsed.hostStr = some host ∧
      (options.enforceScheme = true → parsed.scheme ∈ ["https", "http"]) ∧
      (options.enforcePortAllowlist = true → parsed.portOrKnownDefault.getD 443 ∈ allowedPorts) ∧
      checkAddresses lookupHost options host (parsed.portOrKnownDefault.getD 443) = .ok addr := by
  obtain ⟨parsed, found, rest⟩ := Except.bind_eq_ok.1 ok
  have read := Except.mapError_eq_ok.1 found
  split_ifs at rest with scheme
  split at rest
  · cases rest
  rename_i name named
  dsimp only at rest
  split_ifs at rest with port
  obtain ⟨pinned, checked, same⟩ := Except.map_eq_ok.1 rest
  cases same
  rw [Bool.and_eq_true, decide_eq_true_eq, not_and, not_not] at scheme port
  exact ⟨parsed, read, named, scheme, port, checked⟩

/-- An address is private where it lies in a documented range, and an address
is pinned only where none that its host resolves to is, but for the names of
the host itself in development. -/
theorem resolveAndCheckSsrf_public :
    (∀ ip, isPrivateIp ip = true ↔ NonPublic ip) ∧
      ∀ (parseUrl : String → Except String Url) (lookupHost : String → Except String (List SocketAddr)) (url : String)
        (options : SsrfCheckOptions) (addr : SocketAddr) (host : String),
        resolveAndCheckSsrf parseUrl lookupHost url options = .ok (addr, host) →
          ∃ parsed addrs, parseUrl url = .ok parsed ∧ parsed.hostStr = some host ∧
            lookupHost (host ++ ":" ++ toString (parsed.portOrKnownDefault.getD 443)) = .ok addrs ∧ addr ∈ addrs ∧
            ((∀ a ∈ addrs, ¬NonPublic a.ip) ∨ options.allowDevLocalhost = true ∧ host ∈ devLocalhosts) := by
  refine ⟨isPrivateIp_iff, fun parseUrl lookupHost url options addr host ok => ?_⟩
  obtain ⟨parsed, read, named, -, -, checked⟩ := resolveAndCheckSsrf_ok ok
  obtain ⟨addrs, resolved, first, judged⟩ := checkAddresses_ok checked
  refine ⟨parsed, addrs, read, named, resolved, List.mem_of_head? first, judged.imp_left fun all a member => ?_⟩
  rw [← isPrivateIp_iff, all a member]
  exact Bool.false_ne_true

/-- Two public addresses. -/
theorem two_public_pinned :
    let parse : String → Except String Url := fun _ => .ok ⟨"https", some "one.example", none, some 443⟩
    let lookup : String → Except String (List SocketAddr) := fun _ => .ok [⟨.v4 1 1 1 1, 443⟩, ⟨.v4 8 8 8 8, 443⟩]
    ∃ parsed addrs, parse "https://one.example/" = .ok parsed ∧ parsed.hostStr = some "one.example" ∧
      lookup ("one.example" ++ ":" ++ toString (parsed.portOrKnownDefault.getD 443)) = .ok addrs ∧
      ⟨.v4 1 1 1 1, 443⟩ ∈ addrs ∧
      ((∀ a ∈ addrs, ¬NonPublic a.ip) ∨ SsrfCheckOptions.strict.allowDevLocalhost = true ∧ "one.example" ∈ devLocalhosts) := by
  intro parse lookup
  have ok : resolveAndCheckSsrf parse lookup "https://one.example/" .strict = .ok (⟨.v4 1 1 1 1, 443⟩, "one.example") := by
    decide
  exact resolveAndCheckSsrf_public.2 parse lookup _ _ _ _ ok

end Ssrf
end Latchgate
