import Latchgate.Kernel.LearnedAllowlist
import Latchgate.Kernel.Template

namespace Latchgate

/-- What the policy left of the sinks, the secrets and the egress of a call. -/
structure PolicyApproved where
  allowedSinks : List String
  approvedSecrets : List String
  approvedEgress : EgressProfile

/-- A call as the pipeline holds it when the policy has decided: both ways to
a task start from here. -/
structure ActionCall where
  traceId : String
  actionId : String
  auth : StoredAuthContext
  manifest : ActionSpec
  requestHash : String
  requestBody : Json
  policy : PolicyApproved
  policyVersion : Option String
  budgetCallsRemaining : Int
  policyCallsAfter : Int
  trustVerdict : TrustVerdict
  approvalId : String
  unresolvedDomains : List String
  unresolvedPaths : List String

structure PathPrecheckOutput where
  fsPath : Option String
  unresolvedPaths : List String
  compiledAllowed : Option (List GlobPattern)
  compiledDenied : Option (List GlobPattern)

inductive SecretsError where
  | requiredSecretsButNoSopsFile (names : List String)
  | failed (message : String)
  deriving DecidableEq

namespace AppState

variable (state : AppState)

def stepPathPrecheck (actionId : String) (manifest : ActionSpec) (requestBody : Json) :
    PathPrecheckOutput :=
  match manifest.fs, (requestBody.get? "path").bind Json.asStr? with
  | some fs, some path =>
    let learned := state.compileLearnedPaths actionId
    let decision :=
      if fs.compiledDenied.any fun g => g path then PathDecision.denied
      else if (fs.compiledAllowed.any fun g => g path) || (learned.any fun g => g path) then .allowed
      else .notMatched
    { fsPath := some path
      unresolvedPaths := if decision = .notMatched then [path] else []
      compiledAllowed := some (fs.compiledAllowed ++ learned)
      compiledDenied := some fs.compiledDenied }
  | _, _ => { fsPath := none, unresolvedPaths := [], compiledAllowed := none, compiledDenied := none }

def secretsErrorText : SecretsError → String
  | .requiredSecretsButNoSopsFile names =>
    "required secrets " ++ state.debugNames names ++
      " cannot be resolved: sops_secrets_file not configured"
  | .failed message => message

/-- Only declared secrets that the policy approved are decrypted. -/
def resolveApproved (approvedNames : List String) (manifestSecrets : List SecretDecl) :
    Except SecretsError (List (String × String)) :=
  if approvedNames = [] then .ok []
  else
    let allowed := manifestSecrets.filter (·.name ∈ approvedNames)
    if allowed = [] then .ok []
    else match state.sopsSecretsFile with
      | some file => (state.decryptSecrets file allowed).mapError .failed
      | none =>
        let required := (allowed.filter (·.required)).map (·.name)
        if required ≠ [] then .error (.requiredSecretsButNoSopsFile required) else .ok []

/-- A required secret that the gate cannot read is a denial by policy. -/
def resolveApprovedSecrets (approvedNames : List String) (manifestSecrets : List SecretDecl) :
    Except PipelineError (List (String × String)) :=
  (state.resolveApproved approvedNames manifestSecrets).mapError fun e =>
    let message := state.secretsErrorText e
    match e with
    | .requiredSecretsButNoSopsFile _ => .policy ("policy denied: " ++ state.sanitizeForLog message)
    | .failed _ => .secretResolution ("secret injection: " ++ message)

def resolveModuleDigest (providerModuleDigest : String) : Except PipelineError String :=
  match stripText "builtin:" providerModuleDigest with
  | some name =>
    match state.builtinDigests name with
    | some digest => .ok digest
    | none => .error (.provider ("WASM module not found: builtin:" ++ name))
  | none => .ok providerModuleDigest

/-- The document that the auto-allow path hands to the provider. -/
def resolveArgs (template : Option TemplateConfig) (requestBody : Json) : Except PipelineError Json :=
  match template with
  | some template =>
    (Template.resolveTemplate state.parseJson template requestBody).mapError fun e =>
      .schema ("schema validation failed: template resolution failed: " ++ e.display)
  | none => .ok requestBody

def resolveArgsJson (template : Option TemplateConfig) (requestBody : Json) :
    Except PipelineError String :=
  (state.resolveArgs template requestBody).map Json.toCompactString

/-- The host configuration on the auto-allow path, with the patterns of the
path check if that has run. -/
def autoFsConfig (call : ActionCall) (precheck : PathPrecheckOutput) : Option FsHostConfig :=
  match call.manifest.fs with
  | none => none
  | some fs =>
    let precompiled := match precheck.compiledAllowed, precheck.compiledDenied with
      | some allowed, some denied => some (allowed, denied)
      | _, _ => none
    state.buildFsHostConfig call.actionId fs precompiled (state.sessionFsRoots call.auth.sessionId)

def assembleRunTask (call : ActionCall) (precheck : PathPrecheckOutput)
    (decryptedSecrets : List (String × String)) (argsJson moduleDigest : String) : RunTask where
  moduleDigest := moduleDigest
  argsJson := argsJson
  allowedImports := call.manifest.requiredImports
  resourceLimits := call.manifest.resourceLimits
  allowedSinks := state.resolveEffectiveSinks call.actionId call.policy.approvedEgress
  approvedSecrets := call.policy.approvedSecrets
  decryptedSecrets := decryptedSecrets
  traceId := call.traceId
  databaseConfig := call.manifest.databaseConfig.bind DatabaseConfig.fromValue
  egressProxyUrl := state.egressProxyUrl
  fsConfig := state.autoFsConfig call precheck

def stepBuildRunTask (call : ActionCall) (precheck : PathPrecheckOutput) :
    Except PipelineError RunTask := do
  let decryptedSecrets ← state.resolveApprovedSecrets call.policy.approvedSecrets call.manifest.secrets
  let argsJson ← state.resolveArgsJson call.manifest.template call.requestBody
  let moduleDigest ← state.resolveModuleDigest call.manifest.providerModuleDigest
  .ok (state.assembleRunTask call precheck decryptedSecrets argsJson moduleDigest)

/-- The task of a call that the policy allows. -/
def autoTask (call : ActionCall) : Except PipelineError RunTask :=
  state.stepBuildRunTask call (state.stepPathPrecheck call.actionId call.manifest call.requestBody)

/-- The plan of a call that needs an approval, before its hash. -/
def draftPlan (call : ActionCall) (expiresAt : DateTime) : ApprovedExecutionPlan where
  core :=
    { actionId := call.actionId
      actionDigest := call.manifest.contentDigest
      providerModuleDigest := call.manifest.providerModuleDigest
      requestHash := call.requestHash
      policyVersion := call.policyVersion
      approvedTargets := call.policy.allowedSinks
      approvedSecrets := call.policy.approvedSecrets
      approvedEgress := call.policy.approvedEgress
      expiresAt }
  actionVersion := call.manifest.version
  requiredImports := call.manifest.requiredImports
  resourceLimits := call.manifest.resourceLimits
  verifierKind := call.manifest.verifierKind
  verificationConfig := call.manifest.verificationConfig
  riskLevel := call.manifest.riskLevel
  maxResponseBytes := call.manifest.io.maxResponseBytes
  secretDeclarations := call.manifest.secrets
  budgetCallsRemaining := call.budgetCallsRemaining
  policyApprovedCallsAfter := call.policyCallsAfter
  trustVerdict := call.trustVerdict
  databaseConfig := call.manifest.databaseConfig
  fs := call.manifest.fs.map FsConfig.toValue
  planHash := ""

/-- The record that waits for an operator. -/
def stepStorePendingApproval (call : ActionCall) (expiresAt : DateTime) (createdAt : String) :
    PendingApproval where
  approvalId := call.approvalId
  traceId := call.traceId
  actionId := call.actionId
  authContext := call.auth
  requestHash := call.requestHash
  requestBody := call.requestBody
  policyVersion := call.policyVersion
  createdAt := createdAt
  plan :=
    let draft := draftPlan call expiresAt
    { draft with planHash := state.computePlanHash draft }
  unresolvedDomains := call.unresolvedDomains
  unresolvedPaths := call.unresolvedPaths

end AppState
end Latchgate
