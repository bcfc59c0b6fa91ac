import Latchgate.Manifest.Load

namespace Latchgate

def toAsciiLowercase (text : String) : String :=
  String.ofList (text.toList.map Char.toLower)

namespace Egress

/-- A host has something before a dot and the suffix. -/
def below (host suffix : List Char) : Bool :=
  suffix.length + 1 < host.length ∧ host[host.length - suffix.length - 1]? = some '.' ∧ suffix.isSuffixOf host

/-- An entry `*.suffix` matches hosts below the suffix, any other entry also
the host it names. -/
def entryMatches (hostLower entry : String) : Bool :=
  match stripText "*." entry with
  | some suffix => suffix ≠ "" ∧ below hostLower.toList suffix.toList
  | none => hostLower = entry ∨ below hostLower.toList entry.toList

/-- The first entry that matches the host, whatever the case of the host. -/
def findMatchingEntry (host : String) (allowlistLower : List String) : Option String :=
  allowlistLower.find? (entryMatches (toAsciiLowercase host))

def hostMatchesAllowlistLower (host : String) (allowlistLower : List String) : Bool :=
  (findMatchingEntry host allowlistLower).isSome

def lowercaseAllowlist (allowlist : List String) : List String :=
  allowlist.map toAsciiLowercase

end Egress

end Latchgate
