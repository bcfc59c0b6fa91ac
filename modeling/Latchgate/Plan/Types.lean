import Latchgate.Manifest.Types
import Latchgate.Json.Reparse

namespace Latchgate

/-- A reading of the wall clock, with the text it is printed as. -/
structure DateTime where
  unixNanos : Int
  rfc3339 : String
  deriving DecidableEq

def DateTime.timestamp (t : DateTime) : Int :=
  t.unixNanos / 1000000000

def DateTime.timestampMillis (t : DateTime) : Int :=
  t.unixNanos / 1000000

structure ExecutionPlanCore where
  actionId : String
  actionDigest : String
  providerModuleDigest : String
  requestHash : String
  policyVersion : Option String
  approvedTargets : List String
  approvedSecrets : List String
  approvedEgress : EgressProfile
  expiresAt : DateTime
  deriving DecidableEq

structure ApprovedExecutionPlan where
  core : ExecutionPlanCore
  actionVersion : String
  requiredImports : List String
  resourceLimits : ResourceLimits
  verifierKind : VerifierKind
  verificationConfig : Option Json
  riskLevel : RiskLevel
  maxResponseBytes : Nat
  secretDeclarations : List SecretDecl
  budgetCallsRemaining : Int
  policyApprovedCallsAfter : Int
  trustVerdict : TrustVerdict
  databaseConfig : Option Json
  fs : Option Json
  planHash : String

structure StoredAuthContext where
  principal : String
  sessionId : String
  leaseJti : String
  senderThumbprint : String
  owner : Option String
  deriving DecidableEq

structure PendingApproval where
  approvalId : String
  traceId : String
  actionId : String
  authContext : StoredAuthContext
  requestHash : String
  requestBody : Json
  policyVersion : Option String
  createdAt : String
  plan : ApprovedExecutionPlan
  unresolvedDomains : List String
  unresolvedPaths : List String

/-- An optional document is printed only when present, and a printed `null`
is read back as an absent one. -/
def thawOption (read : FloatText → Except String FloatText) : Option Json → Except String (Option Json)
  | none => .ok none
  | some .null => .ok none
  | some v => (v.reparse read).map some

/-- A payload as it comes back from its JSON text. -/
def PendingApproval.thaw (read : FloatText → Except String FloatText) (p : PendingApproval) :
    Except String PendingApproval := do
  let requestBody ← p.requestBody.reparse read
  let verificationConfig ← thawOption read p.plan.verificationConfig
  let databaseConfig ← thawOption read p.plan.databaseConfig
  let fs ← thawOption read p.plan.fs
  .ok { p with requestBody, plan := { p.plan with verificationConfig, databaseConfig, fs } }

/-- What a reloaded payload shares with the stored one, and where the rest
of it comes from. -/
theorem PendingApproval.thaw_eq_ok {read : FloatText → Except String FloatText}
    {p q : PendingApproval} (thawed : p.thaw read = .ok q) :
    ∃ body verification database fs, p.requestBody.reparse read = .ok body ∧
      thawOption read p.plan.verificationConfig = .ok verification ∧
      thawOption read p.plan.databaseConfig = .ok database ∧ thawOption read p.plan.fs = .ok fs ∧
      q = { p with
        requestBody := body
        plan := { p.plan with verificationConfig := verification, databaseConfig := database, fs := fs } } := by
  simp only [thaw, Except.bind_eq_ok, Except.ok.injEq] at thawed
  obtain ⟨body, reparsed, verification, first, database, second, fs, third, rfl⟩ := thawed
  exact ⟨body, verification, database, fs, reparsed, first, second, third, rfl⟩

/-- A minimal plan, with the values the test constructor of the plan has. -/
def ApprovedExecutionPlan.testDefault : ApprovedExecutionPlan where
  core :=
    { actionId := "http_fetch"
      actionDigest := "sha256:f0f0f0f0f0f0f0f0f0f0f0f0f0f0f0f0f0f0f0f0f0f0f0f0f0f0f0f0f0f0f0f0"
      providerModuleDigest := "sha256:a1b2c3d4e5f6a1b2c3d4e5f6a1b2c3d4e5f6a1b2c3d4e5f6a1b2c3d4e5f6a1b2"
      requestHash := "sha256:deadbeef"
      policyVersion := some "test-v1"
      approvedTargets := []
      approvedSecrets := []
      approvedEgress := .none
      expiresAt := ⟨300000000000, "1970-01-01T00:05:00+00:00"⟩ }
  actionVersion := "1.0.0"
  requiredImports := []
  resourceLimits := {}
  verifierKind := .none
  verificationConfig := none
  riskLevel := .low
  maxResponseBytes := 1024 * 1024
  secretDeclarations := []
  budgetCallsRemaining := 9223372036854775807
  policyApprovedCallsAfter := 9223372036854775806
  trustVerdict := .digestOk
  databaseConfig := none
  fs := none
  planHash := ""

def PendingApproval.testDefault (approvalId : String) : PendingApproval where
  approvalId := approvalId
  traceId := "trace-1"
  actionId := "http_fetch"
  authContext :=
    { principal := "agent:test", sessionId := "sess-001", leaseJti := "jti-abc"
      senderThumbprint := "thumb-xyz", owner := none }
  requestHash := "sha256:deadbeef"
  requestBody := .object []
  policyVersion := some "test-v1"
  createdAt := "1970-01-01T00:00:00+00:00"
  plan := .testDefault
  unresolvedDomains := []
  unresolvedPaths := []

end Latchgate
