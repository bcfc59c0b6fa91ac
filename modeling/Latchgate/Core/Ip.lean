import Latchgate.Core.Text

namespace Latchgate

/-! Addresses. -/

inductive IpAddr where
  | v4 (a b c d : UInt8)
  | v6 (s0 s1 s2 s3 s4 s5 s6 s7 : UInt16)
  deriving DecidableEq

def isPrivateV4 (a b c d : UInt8) : Bool :=
  a = 127 || (a = 10 || (a = 172 && 16 ≤ b && b ≤ 31) || (a = 192 && b = 168)) || (a = 169 && b = 254) ||
    (a = 255 && b = 255 && c = 255 && d = 255) || (a = 0 && b = 0 && c = 0 && d = 0) ||
    (a = 100 && b &&& 0xC0 = 64) || (a = 192 && b = 0 && c = 0) || (a = 192 && b = 0 && c = 2) ||
    (a = 198 && b = 51 && c = 100) || (a = 203 && b = 0 && c = 113) || 224 ≤ a

def isPrivateIp : IpAddr → Bool
  | .v4 a b c d => isPrivateV4 a b c d
  | .v6 s0 s1 s2 s3 s4 s5 s6 s7 =>
    let high := s0 = 0 && s1 = 0 && s2 = 0 && s3 = 0 && s4 = 0
    (high && s5 = 0 && s6 = 0 && (s7 = 1 || s7 = 0)) || s0 &&& 0xffc0 = 0xfe80 || s0 &&& 0xfe00 = 0xfc00 ||
      s0 &&& 0xff00 = 0xff00 ||
      (high && s5 = 0xffff && isPrivateV4 (s6 >>> 8).toUInt8 s6.toUInt8 (s7 >>> 8).toUInt8 s7.toUInt8)

/-! Their texts. -/

/-- At most three digits, and no zero before others. -/
def parseOctet (text : List Char) : Option UInt8 :=
  let n := text.foldl (fun n c => n * 10 + (c.toNat - 48)) 0
  if text ≠ [] ∧ text.length ≤ 3 ∧ text.all Char.isDigit ∧ (text.head? = some '0' → text = ['0']) ∧ n ≤ 255 then
    some (UInt8.ofNat n)
  else none

def parseIpv4 (text : List Char) : Option (UInt8 × UInt8 × UInt8 × UInt8) :=
  match text.splitOn '.' with
  | [a, b, c, d] => do some (← parseOctet a, ← parseOctet b, ← parseOctet c, ← parseOctet d)
  | _ => none

def hexDigit (c : Char) : Option Nat :=
  if c.isDigit then some (c.toNat - 48)
  else if 'a' ≤ c ∧ c ≤ 'f' then some (c.toNat - 87)
  else if 'A' ≤ c ∧ c ≤ 'F' then some (c.toNat - 55)
  else none

def parseHexGroup (text : List Char) : Option UInt16 :=
  if text = [] ∨ 4 < text.length then none
  else (text.mapM hexDigit).map fun digits => UInt16.ofNat (digits.foldl (fun n d => n * 16 + d) 0)

/-- An address of the older kind may stand for the last two groups. -/
def parseGroups (embedded : Bool) : List (List Char) → Option (List UInt16)
  | [] => some []
  | [last] => match parseHexGroup last with
    | some group => some [group]
    | none =>
      if embedded then do
        let (a, b, c, d) ← parseIpv4 last
        some [a.toUInt16 * 256 + b.toUInt16, c.toUInt16 * 256 + d.toUInt16]
      else none
  | group :: rest => do some ((← parseHexGroup group) :: (← parseGroups embedded rest))

def groupsOf (embedded : Bool) (text : List Char) : Option (List UInt16) :=
  if text = [] then some [] else parseGroups embedded (text.splitOn ':')

/-- What stands before and after the first `::`. -/
def splitGap : List Char → Option (List Char × List Char)
  | ':' :: ':' :: rest => some ([], rest)
  | c :: rest => (splitGap rest).map fun split => (c :: split.1, split.2)
  | [] => none

def parseIpv6 (text : List Char) : Option IpAddr := do
  let groups ← match splitGap text with
    | none => groupsOf true text
    | some (head, tail) => do
      let first ← groupsOf false head
      let last ← groupsOf true tail
      if first.length + last.length ≤ 7 then some (first ++ List.replicate (8 - first.length - last.length) 0 ++ last)
      else none
  match groups with
  | [s0, s1, s2, s3, s4, s5, s6, s7] => some (.v6 s0 s1 s2 s3 s4 s5 s6 s7)
  | _ => none

def parseIp (text : List Char) : Option IpAddr :=
  match parseIpv4 text with
  | some (a, b, c, d) => some (.v4 a b c d)
  | none => parseIpv6 text

example : parseIp "::ffff:10.0.0.1".toList = some (.v6 0 0 0 0 0 0xffff 0x0a00 1) := by
  decide

end Latchgate
