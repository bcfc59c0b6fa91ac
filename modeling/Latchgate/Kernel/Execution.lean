import Latchgate.Core.Receipt
import Latchgate.Kernel.ApprovedExecution
import Latchgate.Ledger.Store
import Latchgate.Plan.Grant

namespace Latchgate

def CanonicalError.display : CanonicalError → String
  | tooLarge size max => "input exceeds max size (" ++ toString size ++ " > " ++ toString max ++ ")"
  | tooDeep depth max => "input exceeds max depth (" ++ toString depth ++ " > " ++ toString max ++ ")"
  | notIJson reason => "input is not valid I-JSON: " ++ reason
  | canonicalize message => "canonicalization failed: " ++ message

def SqlError.display : SqlError → String
  | constraintViolation message | failure message => message

def LedgerError.display : LedgerError → String
  | sqlite error => "SQLite error: " ++ error.display
  | serialization message => "serialization error: " ++ message
  | io message => "I/O error: " ++ message
  | lockPoisoned => "lock poisoned"
  | anotherWriterActive => "another LatchGate instance is using this ledger — only one writer is supported"
  | grantAlreadyConsumed grantId => "grant already consumed: " ++ grantId
  | canonicalization error => "event canonicalization failed: " ++ error.display

/-! Signatures of grants. The signature scheme itself is a function. -/

structure GrantVerifyingKeyEntry where
  kid : String
  verifyingKey : String

structure GrantVerifyingKeyStore where
  entries : List GrantVerifyingKeyEntry
  verifyEd25519Sig : String → String → String → Bool

/-- Nothing is returned for a key id that is not in the store. -/
def GrantVerifyingKeyStore.verifyByKid (store : GrantVerifyingKeyStore) (kid message sigHex : String) : Option Bool :=
  (store.entries.find? fun entry => entry.kid = kid).map fun entry =>
    store.verifyEd25519Sig entry.verifyingKey message sigHex

structure GrantSigner where
  kid : String
  sign : String → String

namespace ExecutionGrant
variable (sha256 : List UInt8 → String)

def sign (signer : GrantSigner) (grant : ExecutionGrant) : ExecutionGrant :=
  { grant with
    grantSigningKeyId := some signer.kid
    grantSignature := some (signer.sign (grant.computeSignableHash sha256)) }

def verifySignature (keyStore : GrantVerifyingKeyStore) (grant : ExecutionGrant) : Bool :=
  match grant.grantSignature, grant.grantSigningKeyId with
  | some sig, some kid => (keyStore.verifyByKid kid (grant.computeSignableHash sha256) sig).getD false
  | _, _ => false

end ExecutionGrant

def ExecutionGrantBuilder.buildAndSign (sha256 : List UInt8 → String) (signer : GrantSigner)
    (builder : ExecutionGrantBuilder) : ExecutionGrant :=
  (builder.build sha256).sign sha256 signer

inductive DecisionSource where
  | autoAllow
  | humanApproved (approvalId approvedBy operatorAuthnMethod operatorSenderBinding operatorProofJti : String)

structure ExecutionIdentity where
  traceId : String
  principal : String
  owner : Option String
  sessionId : String
  leaseJti : String

structure ActionMetadata where
  actionId : String
  actionVersion : String
  providerModuleDigest : String
  trustVerdictStr : String
  riskLevel : RiskLevel
  verifierKind : VerifierKind
  maxResponseBytes : Nat

/-- Everything the execution tail is given. The hash of the request and the
budget are among the parts that an authorized execution was modelled with
before. -/
structure AuthorizedCall extends AuthorizedExecution where
  identity : ExecutionIdentity
  grant : ExecutionGrant
  action : ActionMetadata
  schemaId : Option String
  policyVersion : Option String
  allowedSinks : List String
  egressProfile : EgressProfile
  decisionSource : DecisionSource

namespace VerificationOutcome

def tag : VerificationOutcome → String
  | verified _ => "verified"
  | verificationFailed _ => "verification_failed"
  | unverifiableDeclared => "unverifiable_declared"
  | providerFailedBeforeVerification => "provider_failed_before_verification"
  | skipped => "skipped"

end VerificationOutcome

/-- What the runtime returns. The effects that the host has seen go to the
verifier alone. -/
structure RunOutput where
  stdout : Json
  exitCode : Int64
  durationMs : UInt64
  ioCallsMade : UInt32
  fuelConsumed : UInt64

inductive ResponseSchemaEnforcement where
  | deny
  | warn
  deriving DecidableEq

structure ApprovalProvenance where
  decision : String := "allow"
  approvalId : String
  approvedBy : String
  approvalHash : Option String
  operatorAuthnMethod : String
  operatorSenderBinding : String

/-- The response to a call that was executed. -/
structure ExecutedResponse where
  decision : String := "executed"
  traceId : String
  actionId : String
  grantId : String
  receiptId : String
  output : Json
  verificationOutcome : String
  isFullySuccessful : Bool
  durationMs : UInt64
  exitCode : Int64
  fuelConsumed : UInt64
  approval : Option ApprovalProvenance

/-- What the execution tail reads of the configuration, the keys and the
libraries. `encodeReceipt` hashes, signs and prints a receipt. -/
structure ExecutionConfig where
  devMode : Bool := false
  responseSchemaEnforcement : ResponseSchemaEnforcement := .deny
  codec : Codec
  grantVerifyingKeyStore : GrantVerifyingKeyStore
  grantSigner : GrantSigner
  sanitizeForLog : String → String
  encodeReceipt : ExecutionReceipt → String
  approvals : StoreConfig
  maxConcurrent : Nat

def nonempty (text : String) : Option String :=
  if text = "" then none else some text

/-- A budget snapshot as a document. -/
def serializeBudgets (callsRemaining : Int) : Json :=
  .object [("calls_remaining", .number (.int callsRemaining))]

/-- Why a call is denied before dispatch: the reason in the audit trail, the
label of the refund, and the error of the caller. -/
structure Denial where
  reason : String
  label : String
  error : PipelineError

namespace AuthorizedCall
variable (config : ExecutionConfig) (call : AuthorizedCall)

def auditApproval : AuditApproval :=
  match call.decisionSource with
  | .autoAllow => {}
  | .humanApproved approvalId approvedBy operatorAuthnMethod operatorSenderBinding operatorProofJti =>
    { approvalId := some approvalId
      approvedBy := some approvedBy
      operatorAuthnMethod := some operatorAuthnMethod
      operatorSenderBinding := nonempty operatorSenderBinding
      operatorProofJti := nonempty operatorProofJti }

/-- The event with the fields common to all events of an execution. -/
def event (timestamp : String) (decision : Decision) (reason : Option String) : AuditEvent where
  traceId := call.identity.traceId
  timestamp := timestamp
  eventType := .actionCall
  subject :=
    { principal := call.identity.principal
      sessionId := call.identity.sessionId
      leaseJti := call.identity.leaseJti
      owner := call.identity.owner }
  action :=
    { actionId := call.action.actionId
      actionVersion := some call.action.actionVersion
      actionDigest := call.action.providerModuleDigest
      actionTrustVerdict := call.action.trustVerdictStr
      riskLevel := some call.action.riskLevel.asStr }
  request := { requestHash := call.requestHash, requestSchemaId := call.schemaId }
  policy :=
    { policyVersion := call.policyVersion
      decision
      denyReason := reason.map config.sanitizeForLog }
  budgetsBefore := some (serializeBudgets call.budgetCallsBefore)
  budgetsAfter := some (serializeBudgets call.budgetCallsAfter)
  approval := call.auditApproval
  devMode := config.devMode

/-- The checks before dispatch. -/
def validateGrantPreDispatch (now : DateTime) (currentEpoch : UInt64) : Except Denial Unit :=
  if call.grant.isValid now currentEpoch = false then
    .error
      { reason := "grant expired or revoked before dispatch"
        label := "grant_validation_failure"
        error := .grantIntegrity "grant expired or revoked before dispatch" }
  else if call.grant.verifySignature config.codec.sha256 config.grantVerifyingKeyStore = false then
    .error
      { reason := "grant signature verification failed"
        label := "grant_signature_failure"
        error := .grantIntegrity "grant signature verification failed" }
  else if call.action.riskLevel.isHigh ∧ call.grant.approvalHash = none then
    .error
      { reason := "high-risk action missing approval_hash — policy bypass detected"
        label := "approval_hash_assertion"
        error := .grantIntegrity "high-risk action executed without required approval" }
  else .ok ()

def intent (startedAt : String) : ExecutionIntent where
  traceId := call.identity.traceId
  grantId := call.grant.grantId
  actionId := call.action.actionId
  principal := call.identity.principal
  providerModuleDigest := call.action.providerModuleDigest
  requestHash := call.requestHash
  approvedBy := match call.decisionSource with
    | .humanApproved _ approvedBy _ _ _ => some approvedBy
    | .autoAllow => none
  startedAt := startedAt

/-- The error of a failed write of the intent. -/
def intentError : LedgerError → PipelineError
  | .grantAlreadyConsumed _ => .grantConsumed call.grant.grantId
  | _ => .storeUnavailable "pre-dispatch persistence failed"

/-- A violation of the response schema is a denial, unless it is only warned
of in development. -/
def enforceResponseSchema (validated : Except String Unit) : Except (String × PipelineError) Unit :=
  match validated with
  | .ok () => .ok ()
  | .error violation =>
    if config.responseSchemaEnforcement = .warn ∧ config.devMode = false then
      .error ("response schema violation (Warn mode rejected outside dev_mode): " ++ violation,
        .configConstraint "response_schema_enforcement = Warn is not permitted outside dev_mode")
    else if config.responseSchemaEnforcement = .deny then
      .error ("response schema violation: " ++ violation, .schema ("response schema violation: " ++ violation))
    else .ok ()

def buildSignedReceipt (output : RunOutput) (outcome : VerificationOutcome) (receiptId : String)
    (startedAt finishedAt : DateTime) : ExecutionReceipt where
  receiptId := receiptId
  grantId := call.grant.grantId
  providerModuleDigest := call.action.providerModuleDigest
  providerReceipt := output.stdout
  normalizedResult :=
    if output.exitCode = 0 then .success "provider completed successfully"
    else .providerFailure ("exit code " ++ toString output.exitCode)
  verificationOutcome := outcome
  startedAt := startedAt
  finishedAt := finishedAt
  failureClass :=
    if output.exitCode ≠ 0 then some .providerError
    else if outcome.isFailed then some .verificationFailed
    else none

def egressName : EgressProfile → String
  | .none => "none"
  | .proxyAllowlist _ => "proxy_allowlist"

/-- The event that is committed with the receipt. -/
def finalAudit (timestamp : String) (output : RunOutput) (tag : String) (receiptId responseHash : String)
    (responseBytes : Nat) : AuditEvent :=
  let decision := if tag = "verified" ∨ tag = "not_applicable" then Decision.allow else .allowUnverified
  let reason := match call.decisionSource with
    | .autoAllow => none
    | .humanApproved approvalId _ _ _ _ => some ("approved via " ++ approvalId)
  let base := call.event config timestamp decision reason
  { base with
    policy := { base.policy with allowedSinks := call.allowedSinks }
    execution :=
      { runtime := some
          { moduleDigest := call.action.providerModuleDigest
            egressProfile := egressName call.egressProfile
            durationMs := output.durationMs
            exitCode := output.exitCode
            timeoutHit := false
            fuelConsumed := output.fuelConsumed
            ioCallsMade := output.ioCallsMade }
        responseHash := some responseHash
        responseBytes := some (.ofNat responseBytes)
        grantId := some call.grant.grantId
        receiptId := some receiptId
        verificationOutcome := some tag } }

def responseHashLimits : Limits where
  maxBytes := call.action.maxResponseBytes
  maxDepth := 32

/-- The event of a call that is denied because its verifier has failed. -/
def deniedAudit (timestamp tag receiptId : String) : AuditEvent :=
  let base := call.event config timestamp .deny (some ("verifier failed for high-risk action: " ++ tag))
  { base with execution := { receiptId := some receiptId, verificationOutcome := some tag } }

def deniesHighRisk (outcome : VerificationOutcome) : Bool :=
  call.action.riskLevel.isHigh && call.action.verifierKind ≠ .none && outcome.isFailed

def receiptRow (receipt : ExecutionReceipt) : ReceiptRow where
  receiptId := receipt.receiptId
  grantId := receipt.grantId
  receiptJson := config.encodeReceipt receipt

def assembleExecutionResponse (output : RunOutput) (receipt : ExecutionReceipt) (tag : String) : ExecutedResponse where
  traceId := call.identity.traceId
  actionId := call.action.actionId
  grantId := call.grant.grantId
  receiptId := receipt.receiptId
  output := output.stdout
  verificationOutcome := tag
  isFullySuccessful := receipt.isFullySuccessful
  durationMs := output.durationMs
  exitCode := output.exitCode
  fuelConsumed := output.fuelConsumed
  approval := match call.decisionSource with
    | .autoAllow => none
    | .humanApproved approvalId approvedBy operatorAuthnMethod operatorSenderBinding _ =>
      some { approvalId, approvedBy, approvalHash := call.grant.approvalHash, operatorAuthnMethod, operatorSenderBinding }

end AuthorizedCall

/-- The event that records a debit whose refund has failed. -/
def rollbackFailedEvent (config : ExecutionConfig) (traceId sessionId label timestamp : String) (error : String) :
    AuditEvent where
  traceId := traceId
  timestamp := timestamp
  eventType := .budgetRollbackFailed
  subject := { sessionId }
  policy :=
    { decision := .error
      denyReason := some (config.sanitizeForLog ("budget rollback failed at " ++ label ++ ": " ++ error)) }
  devMode := config.devMode

namespace LedgerStore

def writeReceipt (s : LedgerStore) (receipt : ReceiptRow) (io : LedgerIo) : LedgerStore × Except LedgerError Unit :=
  if io.lockPoisoned then (s, .error .lockPoisoned)
  else match s.execute io.insertReceipt (Tables.insertOrIgnoreReceipt receipt) with
    | .ok stored => (stored, .ok ())
    | .error e => (s, .error (.sqlite e))

end LedgerStore
end Latchgate
