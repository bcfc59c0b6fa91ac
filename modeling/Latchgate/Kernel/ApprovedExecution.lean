import Latchgate.Kernel.Steps

namespace Latchgate

/-- What an approved call is executed with. The grant that is signed beside
the task is left out. -/
structure AuthorizedExecution where
  task : RunTask
  requestHash : String
  budgetCallsBefore : Int
  budgetCallsAfter : Int
  budgetDebited : Bool

namespace AppState

variable (state : AppState)

def verifyDigest (actionId actualDigest : String) : TrustVerdict :=
  match state.registry actionId with
  | none => .notRegistered
  | some manifest =>
    if startsWith "builtin:" manifest.providerModuleDigest then .digestOk
    else if manifest.providerModuleDigest = actualDigest then .digestOk
    else .digestMismatch manifest.providerModuleDigest actualDigest

def trustErrorOf (actionId : String) : TrustVerdict → Except PipelineError Unit
  | .digestOk => .ok ()
  | .notRegistered =>
    .error (.trust ("action '" ++ actionId ++ "' is not registered in the trust allowlist"))
  | .digestMismatch expected actual =>
    .error (.trust ("action '" ++ actionId ++ "' image digest mismatch: allowlist has " ++ expected ++
      ", image has " ++ actual))

def verifyPlanHash (plan : ApprovedExecutionPlan) : Bool :=
  plan.planHash ≠ "" ∧ state.computePlanHash { plan with planHash := "" } = plan.planHash

def validateApprovedPlan (pending : PendingApproval) : Except PipelineError Unit :=
  if state.verifyPlanHash pending.plan = false then
    .error (.planIntegrity "execution plan hash verification failed")
  else if pending.plan.core.expiresAt.unixNanos ≤ state.now.unixNanos then
    .error (.planIntegrity "execution plan expired before approval")
  else trustErrorOf pending.actionId
    (state.verifyDigest pending.actionId pending.plan.core.providerModuleDigest)

/-- The stored body is hashed again, within the limits the action has now. -/
def verifyRequestHash (pending : PendingApproval) : Except PipelineError String :=
  match state.registry pending.actionId with
  | none => .error (.actionNotFound pending.actionId)
  | some manifest =>
    match state.canonicalHash manifest.io.maxRequestBytes pending.requestBody with
    | .error e => .error (.canonicalHash e)
    | .ok requestHash =>
      if requestHash ≠ pending.requestHash then
        .error (.planIntegrity "request hash mismatch on approval")
      else .ok requestHash

/-- A plan without a budget carries the largest 64-bit count. -/
def debitApproved (pending : PendingApproval) : Except PipelineError (Int × Bool) :=
  if pending.plan.budgetCallsRemaining ≠ 9223372036854775807 then
    match state.getAndDebit pending.authContext.sessionId with
    | .ok callsRemaining => .ok (callsRemaining, true)
    | .error e => .error (.budget e)
  else .ok (pending.plan.budgetCallsRemaining, false)

/-- The host configuration on the approval path: the block of the plan, with
no patterns at hand. -/
def approvedFsConfig (pending : PendingApproval) : Except PipelineError (Option FsHostConfig) :=
  match pending.plan.fs with
  | none => .ok none
  | some value =>
    match FsConfig.fromValue value with
    | none => .error (.internal ("deserialise approved fs config: " ++ state.describeDecodeError value))
    | some fs => .ok (state.buildFsHostConfig pending.actionId fs none
        (state.sessionFsRoots pending.authContext.sessionId))

def approvedRunTask (pending : PendingApproval) (traceId : String)
    (decryptedSecrets : List (String × String)) (moduleDigest : String)
    (fsConfig : Option FsHostConfig) : RunTask where
  moduleDigest := moduleDigest
  argsJson := pending.requestBody.toCompactString
  allowedImports := pending.plan.requiredImports
  resourceLimits := pending.plan.resourceLimits
  allowedSinks := state.resolveEffectiveSinks pending.actionId pending.plan.core.approvedEgress
  approvedSecrets := pending.plan.core.approvedSecrets
  decryptedSecrets := decryptedSecrets
  traceId := traceId
  databaseConfig := pending.plan.databaseConfig.bind DatabaseConfig.fromValue
  egressProxyUrl := state.egressProxyUrl
  fsConfig := fsConfig

def buildAuthorizedExecution (pending : PendingApproval) (traceId : String)
    (decryptedSecrets : List (String × String)) (requestHash : String)
    (budgetAfter : Int × Bool) : Except PipelineError AuthorizedExecution := do
  let moduleDigest ← state.resolveModuleDigest pending.plan.core.providerModuleDigest
  let fsConfig ← state.approvedFsConfig pending
  .ok
    { task := state.approvedRunTask pending traceId decryptedSecrets moduleDigest fsConfig
      requestHash
      budgetCallsBefore := pending.plan.budgetCallsRemaining
      budgetCallsAfter := budgetAfter.1
      budgetDebited := budgetAfter.2 }

def prepareApprovedExecution (pending : PendingApproval) (traceId : String) :
    Except PipelineError AuthorizedExecution := do
  state.validateApprovedPlan pending
  let requestHash ← state.verifyRequestHash pending
  let decryptedSecrets ← state.resolveApprovedSecrets pending.plan.core.approvedSecrets
    pending.plan.secretDeclarations
  let budgetAfter ← state.debitApproved pending
  state.buildAuthorizedExecution pending traceId decryptedSecrets requestHash budgetAfter

variable {state}

/-- Whatever else the gate checked, the task of an approved call is built from
the plan alone. -/
theorem prepareApprovedExecution_task {pending : PendingApproval} {traceId : String}
    {execution : AuthorizedExecution}
    (prepared : state.prepareApprovedExecution pending traceId = .ok execution) :
    ∃ secrets digest fsConfig,
      state.resolveApprovedSecrets pending.plan.core.approvedSecrets
        pending.plan.secretDeclarations = .ok secrets ∧
      state.resolveModuleDigest pending.plan.core.providerModuleDigest = .ok digest ∧
      state.approvedFsConfig pending = .ok fsConfig ∧
      execution.task = state.approvedRunTask pending traceId secrets digest fsConfig := by
  simp only [prepareApprovedExecution, buildAuthorizedExecution, Except.bind_eq_ok,
    Except.ok.injEq] at prepared
  obtain ⟨_, _, _, _, secrets, decrypted, _, _, digest, resolved, fsConfig, built, rfl⟩ := prepared
  exact ⟨secrets, digest, fsConfig, decrypted, resolved, built, rfl⟩

end AppState
end Latchgate
