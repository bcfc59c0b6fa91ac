import Latchgate.Auth.Issuer
import Latchgate.Kernel.SessionRoots
import Latchgate.Policy.Data

namespace Latchgate

/-- What the handler of `POST /v1/leases` reads of a running gate. -/
structure LeaseGate where
  rateOk : Bool
  draining : Bool
  identity : IdentityConfig
  debug : List String → String
  host : FsRootHost
  fsRootAllowedPrefixes : List String
  issuer : Issuer
  leaseTtlSeconds : UInt64
  initBudgets : String → UInt64 → UInt64 → Except String Unit

namespace LeaseGate

def identityRefusal : IdentityError → ApiError
  | .unauthenticated _ => ⟨401, "identity_unauthenticated", []⟩
  | .forbidden _ => ⟨403, "identity_forbidden", []⟩

def fsRootRefusal : FsRootError → ApiError
  | .invalid reason => ⟨400, "invalid_fs_root", [("message", reason)]⟩
  | .denied reason => ⟨403, "fs_root_denied", [("message", reason)]⟩

def issueRefusal : IssueError → ApiError
  | .invalidRequest reason => ⟨400, "invalid_request", [("message", reason)]⟩
  | .signing _ => ⟨500, "internal_error", []⟩
  | .clockError => ⟨503, "clock_error", []⟩

/-- Counters for a lease that has a budget. -/
def openBudgets (gate : LeaseGate) (sessionId : String) : Option Budgets → Except String Unit
  | none => .ok ()
  | some budgets => gate.initBudgets sessionId (budgets.maxCalls.getD 18446744073709551615) (gate.leaseTtlSeconds + 60)

/-- A lease for the caller of a connection: the claims that are signed, and the
answer. -/
def issueLease (gate : LeaseGate) (ctx : ConnectionContext) (body : IssueLeaseRequest) :
    Except ApiError (IssuedClaims × IssueLeaseResponse) := do
  AdminRequest.demand gate.rateOk ⟨429, "rate_limit_exceeded", []⟩
  AdminRequest.demand (!gate.draining) ⟨503, "draining", []⟩
  let verified ← (gate.identity.authenticate ctx).mapError identityRefusal
  let effectiveScopes ← (intersectScopes gate.debug body.scopes verified.maxScopes).mapError fun _ =>
    ⟨403, "scope_not_permitted", []⟩
  let sessionFsRoot ← (body.fsRoot.mapM fun requested =>
    validateSessionFsRoot gate.host requested gate.fsRootAllowedPrefixes).mapError fsRootRefusal
  let (claims, resp) ← (gate.issuer.issueLease { body with scopes := effectiveScopes, fsRoot := none }
    (some verified.principal) verified.owner).mapError issueRefusal
  (gate.openBudgets resp.sessionId body.budgets).mapError fun _ => ⟨503, "budget_store_unavailable", []⟩
  .ok (claims, { resp with fsRoot := sessionFsRoot })

end LeaseGate

/-- The principal of a lease is the one of the peer's user, and its scopes are
asked for, well formed and listed for that user. -/
def LeaseConfined (config : IdentityConfig) (ctx : ConnectionContext) (body : IssueLeaseRequest) (claims : IssuedClaims) : Prop :=
  ∃ cred entry, ctx.peerCred = some cred ∧ config.principalOf cred = some entry ∧ claims.sub = entry.principal ∧
    ∀ scope ∈ claims.scope, scope ∈ body.scopes ∧ isValidScope scope = true ∧ scope ∈ entry.scopes

/-- Behind an accepted configuration only a mapped user is authenticated. -/
theorem authenticate_of_validated {config : IdentityConfig} {ctx : ConnectionContext} {verified : VerifiedIdentity}
    (accepted : validateIdentityConfig false config = .ok ()) (known : config.authenticate ctx = .ok verified) :
    ∃ cred entry, ctx.peerCred = some cred ∧ config.principalOf cred = some entry ∧ verified.principal = entry.principal ∧
      verified.maxScopes = entry.scopes := by
  rw [validateIdentityConfig, if_neg Bool.false_ne_true] at accepted
  rw [IdentityConfig.authenticate] at known
  cases provider : config.provider with
  | none => simp only [provider] at accepted; cases accepted
  | peercred =>
    simp only [provider] at accepted known
    have mapped : config.peercred.allowUnmapped = false := by
      split_ifs at accepted with unmapped
      exact Bool.eq_false_iff.mpr unmapped
    rw [IdentityConfig.authenticatePeer] at known
    cases peer : ctx.peerCred with
    | none => rw [peer] at known; cases known
    | some cred =>
      rw [peer] at known
      cases listed : config.principalOf cred with
      | none =>
        simp only [listed, mapped, Bool.false_eq_true, if_false] at known
        cases known
      | some entry =>
        simp only [listed] at known
        cases known
        exact ⟨cred, entry, rfl, listed, rfl, rfl⟩

theorem authenticate_mapped {config : IdentityConfig} {ctx : ConnectionContext} {cred : PeerCred} {entry : PeercredPrincipal}
    (accepted : validateIdentityConfig false config = .ok ()) (peer : ctx.peerCred = some cred)
    (listed : config.principalOf cred = some entry) :
    config.authenticate ctx = .ok ⟨entry.principal, entry.scopes, "peercred", entry.owner⟩ := by
  rw [validateIdentityConfig, if_neg Bool.false_ne_true] at accepted
  cases provider : config.provider with
  | none => simp only [provider] at accepted; cases accepted
  | peercred => simp only [IdentityConfig.authenticate, IdentityConfig.authenticatePeer, provider, peer, listed]

theorem mem_intersectScopes {debug : List String → String} {requested maxScopes effective : List String}
    (some_ : maxScopes ≠ []) (cut : intersectScopes debug requested maxScopes = .ok effective) :
    ∀ scope ∈ effective, scope ∈ requested ∧ scope ∈ maxScopes := by
  rw [intersectScopes, if_neg some_] at cut
  dsimp only at cut
  split_ifs at cut
  cases cut
  intro scope member
  simpa using member

/-- A gate that issues what it is asked for, to anybody it knows. -/
def openGate (identity : IdentityConfig) : LeaseGate where
  rateOk := true
  draining := false
  identity := identity
  debug _ := ""
  host := ⟨fun _ => .error "", fun _ => .error ""⟩
  fsRootAllowedPrefixes := []
  issuer := ⟨300, "session", "jti", some 0, fun x _ => .ok x, fun _ => .ok "lease"⟩
  leaseTtlSeconds := 300
  initBudgets _ _ _ := .ok ()

def toolsRequest : IssueLeaseRequest where
  scopes := ["tools:call"]
  dpopJwk := ⟨"EC", "P-256", "x", "y"⟩

/-- Behind a configuration that is accepted for production, the leases of a
connection are confined exactly when the user of the peer is not mapped to an
empty list of scopes. -/
theorem leases_confined_iff {config : IdentityConfig} (accepted : validateIdentityConfig false config = .ok ())
    (ctx : ConnectionContext) :
    (∀ (gate : LeaseGate) (body : IssueLeaseRequest) (claims : IssuedClaims) (response : IssueLeaseResponse),
        gate.identity = config → gate.issueLease ctx body = .ok (claims, response) → LeaseConfined config ctx body claims) ↔
      ∀ cred entry, ctx.peerCred = some cred → config.principalOf cred = some entry → entry.scopes ≠ [] := by
  constructor
  · intro confined cred entry peer listed none
    have issued : (openGate config).issueLease ctx toolsRequest = .ok
        ({ sub := entry.principal, jti := "jti", sessionId := "session", scope := ["tools:call"], jkt := "x", iss := issuerName,
           aud := audience, exp := 300, nbf := 0, iat := 0, budgets := .none, owner := entry.owner },
          ⟨"lease", "session", "jti", formatTimestamp 300, .none⟩) := by
      have known := authenticate_mapped accepted peer listed
      rw [none] at known
      simp only [LeaseGate.issueLease, openGate, known]
      rfl
    obtain ⟨cred', entry', peer', listed', -, scopes⟩ := confined _ _ _ _ rfl issued
    cases peer.symm.trans peer'
    cases listed.symm.trans listed'
    have member := (scopes "tools:call" (List.mem_singleton.mpr rfl)).2.2
    rw [none] at member
    cases member
  · rintro some_ gate body claims response rfl issued
    simp only [LeaseGate.issueLease, Except.bind_eq_ok, Except.mapError_eq_ok] at issued
    obtain ⟨_, -, _, -, verified, known, effective, cut, root, -, ⟨signed, resp⟩, issues, _, -, same⟩ := issued
    cases same
    obtain ⟨cred, entry, peer, listed, principal, scopes⟩ := authenticate_of_validated accepted known
    obtain ⟨sub, scope, valid⟩ := Issuer.issueLease_eq_ok issues
    refine ⟨cred, entry, peer, listed, sub.trans principal, fun s member => ?_⟩
    rw [scope] at member
    obtain ⟨asked, allowed⟩ := mem_intersectScopes (scopes ▸ some_ cred entry peer listed) cut s member
    exact ⟨asked, valid s member, scopes ▸ allowed⟩

/-! One user is mapped without scopes, the other with one. -/

def twoUsers : IdentityConfig where
  provider := .peercred
  peercred := { principals := [("1001", ⟨"agent-quiet", [], none⟩), ("1002", ⟨"agent-tools", ["tools:call"], none⟩)] }

def peerOf (uid : UInt32) : ConnectionContext :=
  ⟨some ⟨uid, uid, none⟩⟩

theorem leases_confined_tools :
    ((openGate twoUsers).issueLease (peerOf 1002) toolsRequest).isOk = true ∧
      ∀ (gate : LeaseGate) (body : IssueLeaseRequest) (claims : IssuedClaims) (response : IssueLeaseResponse),
        gate.identity = twoUsers → gate.issueLease (peerOf 1002) body = .ok (claims, response) →
          LeaseConfined twoUsers (peerOf 1002) body claims := by
  refine ⟨by decide, (leases_confined_iff rfl (peerOf 1002)).mpr ?_⟩
  rintro cred entry ⟨⟩ listed
  cases listed
  exact List.cons_ne_nil _ _

/-- The user without scopes is issued the one it asks for. -/
theorem unlisted_scope_issued :
    validateIdentityConfig false twoUsers = .ok () ∧
      (((openGate twoUsers).issueLease (peerOf 1001) toolsRequest).map fun issued => (issued.1.sub, issued.1.scope)) =
        .ok ("agent-quiet", ["tools:call"]) := by
  decide

end Latchgate
