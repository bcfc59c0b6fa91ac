import Latchgate.Encoding.Delimited
import Latchgate.Json.Value

namespace Json

mutual

/-- `json_depth`: objects and arrays add one level each. -/
def depth : Json → Nat
  | array items => 1 + depthItems items
  | object fields => 1 + depthFields fields
  | _ => 0

def depthItems : List Json → Nat
  | [] => 0
  | v :: rest => max (depth v) (depthItems rest)

def depthFields : List (String × Json) → Nat
  | [] => 0
  | (_, v) :: rest => max (depth v) (depthFields rest)

end

mutual

/-- `max_array_len`: the longest array anywhere in a document. -/
def maxArrayLen : Json → Option Nat
  | array items => some (max items.length ((maxArrayLenItems items).getD 0))
  | object fields => maxArrayLenFields fields
  | _ => none

def maxArrayLenItems : List Json → Option Nat
  | [] => none
  | v :: rest => larger (maxArrayLen v) (maxArrayLenItems rest)

def maxArrayLenFields : List (String × Json) → Option Nat
  | [] => none
  | (_, v) :: rest => larger (maxArrayLen v) (maxArrayLenFields rest)

def larger : Option Nat → Option Nat → Option Nat
  | some m, some n => some (max m n)
  | some m, none => some m
  | none, n => n

end

end Json

namespace Latchgate

structure Limits where
  maxBytes : Nat
  maxDepth : Nat
  deriving DecidableEq

inductive CanonicalError where
  | tooLarge (size max : Nat)
  | tooDeep (depth max : Nat)
  | notIJson (reason : String)
  | canonicalize (message : String)
  deriving DecidableEq

/-- The JSON library, the canonicaliser (RFC 8785) and the digest that the
hashes of documents rest on. A digest is written in hexadecimal. -/
structure Codec where
  fromStr : String → Except String Json
  jcs : Json → Except String String
  sha256 : List UInt8 → String

namespace Codec
variable (codec : Codec)

def sha256Digest (data : List UInt8) : String :=
  "sha256:" ++ codec.sha256 data

/-- A document cannot hold a number that is not finite, so the check for
I-JSON has nothing to refuse. -/
def validatedCanonical (value : Json) (limits : Limits) : Except CanonicalError String :=
  if limits.maxDepth < value.depth then .error (.tooDeep value.depth limits.maxDepth)
  else match codec.jcs value with
    | .error message => .error (.canonicalize message)
    | .ok canonical =>
      if limits.maxBytes < (Encoding.utf8 canonical.toList).length then
        .error (.tooLarge (Encoding.utf8 canonical.toList).length limits.maxBytes)
      else .ok canonical

def canonicalHash (value : Json) (limits : Limits) : Except CanonicalError String := do
  let canonical ← codec.validatedCanonical value limits
  .ok (codec.sha256Digest (Encoding.utf8 canonical.toList))

def canonicalHashWithLen (value : Json) (limits : Limits) : Except CanonicalError (String × Nat) := do
  let canonical ← codec.validatedCanonical value limits
  .ok (codec.sha256Digest (Encoding.utf8 canonical.toList), (Encoding.utf8 canonical.toList).length)

end Codec
end Latchgate
