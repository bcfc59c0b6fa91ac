import Latchgate.Auth.Replay

namespace Latchgate

/-! Who asks for a lease. -/

inductive IdentityProviderKind where
  | none
  | peercred
  deriving DecidableEq

structure PeercredPrincipal where
  principal : String
  scopes : List String := []
  owner : Option String := .none

/-- The principals by user number, as text. -/
structure PeercredConfig where
  principals : List (String × PeercredPrincipal) := []
  allowUnmapped : Bool := false

structure IdentityConfig where
  provider : IdentityProviderKind := .none
  peercred : PeercredConfig := {}

inductive IdentityConfigError where
  | noneIdentityProviderInProduction
  | allowUnmappedInProduction
  | emptyPeercredPrincipalMap
  deriving DecidableEq

def validateIdentityConfig (identityInsecure : Bool) (config : IdentityConfig) : Except IdentityConfigError Unit :=
  if identityInsecure then .ok ()
  else match config.provider with
    | .none => .error .noneIdentityProviderInProduction
    | .peercred =>
      if config.peercred.allowUnmapped then .error .allowUnmappedInProduction
      else if config.peercred.principals = [] then .error .emptyPeercredPrincipalMap
      else .ok ()

structure PeerCred where
  uid : UInt32
  gid : UInt32
  pid : Option UInt32

structure ConnectionContext where
  peerCred : Option PeerCred := none

structure VerifiedIdentity where
  principal : String
  maxScopes : List String
  identityMethod : String
  owner : Option String

inductive IdentityError where
  | unauthenticated (reason : String)
  | forbidden (reason : String)

namespace IdentityConfig

def principalOf (config : IdentityConfig) (cred : PeerCred) : Option PeercredPrincipal :=
  config.peercred.principals.lookup (toString cred.uid.toNat)

def authenticatePeer (config : IdentityConfig) (ctx : ConnectionContext) : Except IdentityError VerifiedIdentity :=
  match ctx.peerCred with
  | none => .error (.unauthenticated ("peercred identity provider requires a UDS connection with SO_PEERCRED; " ++
      "no peer credentials found in connection context"))
  | some cred =>
    match config.principalOf cred with
    | some entry => .ok ⟨entry.principal, entry.scopes, "peercred", entry.owner⟩
    | none =>
      let uid := toString cred.uid.toNat
      if config.peercred.allowUnmapped then .ok ⟨"uid:" ++ uid, [], "peercred:unmapped", none⟩
      else .error (.forbidden ("Unix UID " ++ uid ++ " is not in the peercred principal map; " ++
        "add an entry to [identity.peercred.principals] in latchgate.toml"))

/-- Without a provider every caller may ask for every scope. -/
def authenticate (config : IdentityConfig) (ctx : ConnectionContext) : Except IdentityError VerifiedIdentity :=
  match config.provider with
  | .peercred => config.authenticatePeer ctx
  | .none => .ok ⟨"dev:anonymous", [], "none", none⟩

end IdentityConfig

/-- `debug` prints a list of texts. -/
def intersectScopes (debug : List String → String) (requested maxScopes : List String) :
    Except IdentityError (List String) :=
  if maxScopes = [] then .ok requested
  else
    let effective := requested.filter fun scope => scope ∈ maxScopes
    if effective = [] then
      .error (.forbidden ("none of the requested scopes (" ++ debug requested ++
        ") are permitted for this identity (allowed: " ++ debug maxScopes ++ ")"))
    else .ok effective

/-! The issuer. -/

def builtinScopes : List String :=
  ["tools:call", "audit:read"]

def isScopeChar (c : Char) : Bool :=
  c.isLower ∨ c.isDigit ∨ c ∈ [':', '_', '-']

def isValidScopeFormat (scope : String) : Bool :=
  4 ≤ scope.utf8ByteSize ∧ scope.utf8ByteSize ≤ 64 ∧ (scope.toList.head?.any Char.isLower) ∧
    scope.toList.getLast? ≠ some ':' ∧ ':' ∈ scope.toList ∧ scope.toList.all isScopeChar

def isValidScope (scope : String) : Bool :=
  scope ∈ builtinScopes ∨ isValidScopeFormat scope

structure Budgets where
  maxCalls : Option UInt64 := none

structure DpopJwk where
  kty : String
  crv : String
  x : String
  y : String

structure IssueLeaseRequest where
  scopes : List String
  dpopJwk : DpopJwk
  budgets : Option Budgets := none
  fsRoot : Option String := none

/-- The claims that are signed: those a verified lease has, and the rest. -/
structure IssuedClaims extends LeaseClaims where
  iss : String
  aud : String
  exp : UInt64
  nbf : UInt64
  iat : UInt64
  budgets : Option Budgets
  owner : Option String

structure IssueLeaseResponse where
  leaseJwt : String
  sessionId : String
  leaseJti : String
  expiresAt : String
  fsRoot : Option String

inductive IssueError where
  | signing (detail : String)
  | invalidRequest (reason : String)
  | clockError

/-- The identifiers are the next ones drawn. Without a time the clock is
broken. -/
structure Issuer where
  leaseTtlSeconds : UInt64
  sessionId : String
  leaseJti : String
  now : Option UInt64
  thumbprint : String → String → Except String String
  sign : IssuedClaims → Except String String

def maxLeaseTtlSecs : UInt64 := 3600

def issuerName : String := "latchgate"

def audience : String := "latchgate"

def daysToYmd (days : Nat) : Nat × Nat × Nat :=
  let z := days + 719468
  let era := z / 146097
  let doe := z - era * 146097
  let yoe := (doe - doe / 1460 + doe / 36524 - doe / 146096) / 365
  let y := yoe + era * 400
  let doy := doe - (365 * yoe + yoe / 4 - yoe / 100)
  let mp := (5 * doy + 2) / 153
  let d := doy - (153 * mp + 2) / 5 + 1
  let m := if mp < 10 then mp + 3 else mp - 9
  (if m ≤ 2 then y + 1 else y, m, d)

def zeroPadded (width n : Nat) : String :=
  String.ofList (List.leftpad width '0' (Nat.repr n).toList)

def formatTimestamp (secs : UInt64) : String :=
  let timeOfDay := secs.toNat % 86400
  let (year, month, day) := daysToYmd (secs.toNat / 86400)
  zeroPadded 4 year ++ "-" ++ zeroPadded 2 month ++ "-" ++ zeroPadded 2 day ++ "T" ++ zeroPadded 2 (timeOfDay / 3600) ++
    ":" ++ zeroPadded 2 (timeOfDay % 3600 / 60) ++ ":" ++ zeroPadded 2 (timeOfDay % 60) ++ "Z"

def requireOf (ok : Bool) (reason : String) : Except IssueError Unit :=
  if ok then .ok () else .error (.invalidRequest reason)

def requireScope (scope : String) : Except IssueError Unit :=
  requireOf (isValidScope scope) ("invalid scope '" ++ scope ++
    "': must be a known built-in scope ([\"tools:call\", \"audit:read\"]) or a custom scope in 'namespace:name' " ++
    "format with [a-z0-9:_-] characters (4–64 chars)")

namespace Issuer

/-- The claims that are signed, and what the caller is answered. -/
def issueLease (issuer : Issuer) (request : IssueLeaseRequest) (verifiedPrincipal owner : Option String) :
    Except IssueError (IssuedClaims × IssueLeaseResponse) := do
  let sub := verifiedPrincipal.getD issuer.sessionId
  requireOf (request.dpopJwk.kty = "EC") ("dpop_jwk.kty must be 'EC', got '" ++ request.dpopJwk.kty ++ "'")
  requireOf (request.dpopJwk.crv = "P-256") ("dpop_jwk.crv must be 'P-256', got '" ++ request.dpopJwk.crv ++ "'")
  requireOf (request.scopes ≠ []) "scopes must not be empty"
  request.scopes.forM requireScope
  let jkt ← (issuer.thumbprint request.dpopJwk.x request.dpopJwk.y).mapError fun e =>
    .invalidRequest ("failed to compute JWK thumbprint: " ++ e)
  let now ← issuer.now.elim (.error .clockError) .ok
  let exp := now + min issuer.leaseTtlSeconds maxLeaseTtlSecs
  let claims : IssuedClaims :=
    { sub, jti := issuer.leaseJti, sessionId := issuer.sessionId, scope := request.scopes, jkt, iss := issuerName,
      aud := audience, exp, nbf := now, iat := now, budgets := request.budgets, owner }
  let token ← (issuer.sign claims).mapError .signing
  .ok (claims, ⟨token, issuer.sessionId, issuer.leaseJti, formatTimestamp exp, none⟩)

end Issuer

@[simp] theorem requireOf_eq_ok {ok : Bool} {reason : String} {u : Unit} : requireOf ok reason = .ok u ↔ ok = true := by
  cases ok <;> simp [requireOf]

/-- What is issued has the scopes that are asked for, all of them valid, and
the principal that is known. -/
theorem Issuer.issueLease_eq_ok {issuer : Issuer} {request : IssueLeaseRequest} {principal : String} {owner : Option String}
    {claims : IssuedClaims} {response : IssueLeaseResponse}
    (issued : issuer.issueLease request (some principal) owner = .ok (claims, response)) :
    claims.sub = principal ∧ claims.scope = request.scopes ∧ ∀ scope ∈ request.scopes, isValidScope scope = true := by
  simp only [Issuer.issueLease, Except.bind_eq_ok, Except.forM_eq_ok, requireScope,
    requireOf_eq_ok, Except.ok.injEq, Prod.mk.injEq] at issued
  obtain ⟨_, -, _, -, _, -, _, valid, jkt, -, now, -, token, -, rfl, -⟩ := issued
  exact ⟨rfl, rfl, valid⟩

end Latchgate
