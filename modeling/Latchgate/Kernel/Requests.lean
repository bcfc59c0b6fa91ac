import Latchgate.Api.Approvals
import Latchgate.Budget.Manager
import Latchgate.Kernel.Execution
import Latchgate.Machine.Actor

namespace Latchgate
namespace Requests

/-- Who asks for an execution: an agent whose call the policy allows, or an
operator who has claimed an approval. -/
inductive Origin where
  | autoAllow
  | approval (approvalId claimToken : String)

/-- What a caller is told in the end. -/
inductive Reply where
  | call (result : Except PipelineError ExecutedResponse)
  | revocation (previousEpoch currentEpoch : UInt64)
  | drain (draining : Bool) (inFlightExecutions : Nat)
  | noted

/-- What is left to do once the result of a request is known. Each job is one
await. -/
inductive Job where
  | rollback (sessionId traceId label : String)
  | audit (event : AuditEvent)
  | receipt (row : ReceiptRow)
  | outcome (approvalId : String) (kind : TerminalKind) (detail : String)
  | marker (approvalId claimToken : String) (kind : TerminalKind) (detail : String)
  | complete (approvalId claimToken traceId : String) (kind : TerminalKind) (detail : String)

/-- The requests that are modelled. `execute` enters the execution tail with
an authorized call of any making, and `note` is another part of the gate that
writes an event. -/
inductive Task where
  | actionCall
  | approve (approvalId operatorId : String)
  | execute (call : AuthorizedCall)
  | revokeAll
  | postDrain
  | getStatus
  | note (event : AuditEvent)

/-- The await at which a request stands. -/
inductive Phase where
  | idle
  | arrived (task : Task)
  | deciding
  | claiming (approvalId operatorId : String)
  | claimed (approvalId claimToken : String)
  | debiting (origin : Origin) (sessionId : String) (hasBudgets : Bool)
  | building (origin : Origin) (sessionId : String) (budgetDebited : Bool)
  | preparing (origin : Origin) (call : AuthorizedCall)
  | authorized (origin : Origin) (call : AuthorizedCall)
  | recordingIntent (origin : Origin) (call : AuthorizedCall) (startedAt : DateTime)
  | awaitingPermit (origin : Origin) (call : AuthorizedCall) (startedAt : DateTime)
  | running (origin : Origin) (call : AuthorizedCall) (startedAt : DateTime)
  | verifying (origin : Origin) (call : AuthorizedCall) (startedAt : DateTime) (output : RunOutput)
  | finalizing (origin : Origin) (call : AuthorizedCall) (receipt : ReceiptRow) (event : AuditEvent)
      (response : ExecutedResponse)
  | closing (jobs : List Job) (reply : Reply)
  | replied (reply : Reply)
  | revoking (oldEpoch : UInt64)
  | readingInFlight (draining : Bool) (wasFirst : Option Bool)
  | orphaned (phase : Phase)
  | dropped

/-- The parts of the application state that requests change. -/
structure World where
  ledger : LedgerStore := {}
  gate : Gate
  budgets : BudgetBackend
  revocationEpoch : UInt64 := 0
  isDraining : Bool := false
  availablePermits : Nat

/-- What a step meets: the clocks, what goes wrong, and what the parts of the
gate answer that are not followed here. -/
structure Env where
  now : DateTime
  timestamp : String
  ledgerIo : LedgerIo := {}
  taskPanicked : Bool := false
  store : StoreIo
  claimToken : String := ""
  ledgerFault : Option LedgerFault := none
  admission : Except PipelineError Unit := .ok ()
  sessionId : String := ""
  hasBudgets : Bool := false
  learnPath : Except PipelineError Unit := .ok ()
  event : Option AuditEvent := none
  draft : AuthorizedCall
  grant : ExecutionGrantBuilder
  prepared : Except PipelineError Unit := .ok ()
  moduleLookup : Except String Unit := .ok ()
  provider : Except String RunOutput
  responseSchema : Except String Unit := .ok ()
  verification : Except String VerificationOutcome := .ok .skipped
  receiptId : String := ""

/-- What a step means for the claims, the budget, the provider and the callers. -/
inductive Emission where
  | nothing
  | claimed (approvalId : String)
  | debited (sessionId : String)
  | refunded (sessionId : String)
  | built (call : AuthorizedCall)
  | cleared (call : AuthorizedCall) (now : DateTime) (epoch : UInt64)
  | dispatched (call : AuthorizedCall)
  | started (call : AuthorizedCall)
  | advanced (previousEpoch currentEpoch : UInt64)
  | status (draining : Bool) (inFlightExecutions : Nat)
  | returned (reply : Reply)

inductive Input where
  | arrive (task : Task)
  | proceed (env : Env)
  | drop

section Steps
variable (config : ExecutionConfig)

/-- A request of an operator records the outcome of its approval at the end. -/
def outcomeJobs (origin : Origin) (traceId : String) (result : Except PipelineError ExecutedResponse) : List Job :=
  match origin with
  | .autoAllow => []
  | .approval approvalId claimToken =>
    let (kind, detail) : TerminalKind × String := match result with
      | .ok response => (.approved, response.receiptId)
      | .error e => (.failed, e.display)
    [.outcome approvalId kind detail, .marker approvalId claimToken kind detail,
      .complete approvalId claimToken traceId kind detail]

def closeWith (origin : Origin) (traceId : String) (jobs : List Job)
    (result : Except PipelineError ExecutedResponse) : Phase :=
  .closing (jobs ++ outcomeJobs origin traceId result) (.call result)

/-- `rollback_budget_if_debited`. -/
def rollbackJobs (call : AuthorizedCall) (label : String) : List Job :=
  if call.budgetDebited then [.rollback call.identity.sessionId call.identity.traceId label] else []

def denyPreDispatch (origin : Origin) (call : AuthorizedCall) (timestamp : String) (denial : Denial) : Phase :=
  closeWith origin call.identity.traceId
    (rollbackJobs call denial.label ++ [.audit (call.event config timestamp .deny (some denial.reason))])
    (.error denial.error)

/-- The call of a failed provider has its event written. The budget is kept. -/
def providerFailed (origin : Origin) (call : AuthorizedCall) (timestamp message : String) : Phase :=
  closeWith origin call.identity.traceId [.audit (call.event config timestamp .error (some ("provider: " ++ message)))]
    (.error (.provider message))

/-- A blocking task that panics leaves the ledger as it is. -/
def blocking (w : World) (env : Env) (task : LedgerStore → LedgerStore × Except LedgerError Unit) :
    World × Except LedgerError Unit :=
  if env.taskPanicked then (w, .error (.io "task panicked"))
  else
    let (ledger, result) := task w.ledger
    ({ w with ledger }, result)

def storeCall (w : World) (env : Env) (op : ApprovalOp) : World :=
  { w with gate := { w.gate with store := (w.gate.store.call config.approvals env.store op).1 } }

/-- One job. A refund that fails is followed by an event that says so. -/
def doJob (w : World) (env : Env) : Job → World × List Job × Emission
  | .rollback sessionId traceId label =>
    match env.store.fault with
    | none => ({ w with budgets := w.budgets.rollback sessionId env.store.clock }, [], .refunded sessionId)
    | some (.answerLost message) =>
      ({ w with budgets := w.budgets.rollback sessionId env.store.clock },
        [.audit (rollbackFailedEvent config traceId sessionId label env.timestamp message)], .refunded sessionId)
    | some (.refused message) =>
      (w, [.audit (rollbackFailedEvent config traceId sessionId label env.timestamp message)], .nothing)
  | .audit event => ((blocking w env fun ledger => ledger.writeEvent config.codec event env.ledgerIo).1, [], .nothing)
  | .receipt row => ((blocking w env fun ledger => ledger.writeReceipt row env.ledgerIo).1, [], .nothing)
  | .outcome approvalId kind detail =>
    ({ w with gate :=
        { w.gate with
          outcomes := writeDurableOutcome w.gate.outcomes env.ledgerFault approvalId kind.state.asStr detail
            env.timestamp } }, [], .nothing)
  | .marker approvalId claimToken kind detail =>
    (storeCall config w env (.writeOutcomeMarker approvalId claimToken kind.state.asStr detail), [], .nothing)
  | .complete approvalId claimToken traceId kind detail =>
    (storeCall config w env (.complete kind approvalId claimToken traceId detail), [], .nothing)

def inFlightCount (w : World) : Nat :=
  config.maxConcurrent - w.availablePermits

/-- The start of a request. New calls and approvals are turned away while the
gate drains. -/
def admitTask (w : World) (env : Env) : Task → World × Phase × Emission
  | .actionCall =>
    if w.isDraining then (w, .closing [] (.call (.error .draining)), .nothing) else (w, .deciding, .nothing)
  | .approve approvalId operatorId =>
    if w.isDraining then (w, .closing [] (.call (.error .draining)), .nothing)
    else match env.admission with
      | .error e => (w, .closing [] (.call (.error e)), .nothing)
      | .ok () => (w, .claiming approvalId operatorId, .nothing)
  | .execute call => (w, .authorized .autoAllow call, .nothing)
  | .revokeAll => (w, .revoking w.revocationEpoch, .nothing)
  | .postDrain => ({ w with isDraining := true }, .readingInFlight true (some !w.isDraining), .nothing)
  | .getStatus => (w, .readingInFlight w.isDraining none, .nothing)
  | .note event => (w, .closing [.audit event] .noted, .nothing)

/-- After the claim: an approval with an outcome is not executed again, a path
that cannot be learned is refused, and the plan is checked. -/
def afterClaim (w : World) (env : Env) (approvalId claimToken : String) : Phase :=
  if hasDurableOutcome w.gate.outcomes env.ledgerFault approvalId then
    .closing [.complete approvalId claimToken "reconcile" .failed "already_executed"]
      (.call (.error (.conflict "approval already executed (durable outcome exists)")))
  else match env.learnPath, env.admission with
    | .error e, _ => .closing [] (.call (.error e))
    | .ok (), .error e =>
      closeWith (.approval approvalId claimToken) env.draft.identity.traceId (env.event.toList.map .audit) (.error e)
    | .ok (), .ok () => .debiting (.approval approvalId claimToken) env.sessionId env.hasBudgets

def debit (w : World) (env : Env) (origin : Origin) (sessionId : String) : World × Phase × Emission :=
  let (budgets, result) := w.budgets.getAndDebit sessionId env.store.clock
  let refused (message : String) : Phase :=
    closeWith origin env.draft.identity.traceId (env.event.toList.map .audit) (.error (.budget message))
  match env.store.fault, result with
  | some (.refused message), _ => (w, refused message, .nothing)
  | _, .error e => (w, refused e.display, .nothing)
  | some (.answerLost message), .ok _ => ({ w with budgets }, refused message, .debited sessionId)
  | none, .ok _ => ({ w with budgets }, .building origin sessionId true, .debited sessionId)

/-- The grant is signed for the epoch of this moment. -/
def buildCall (w : World) (env : Env) (sessionId : String) (budgetDebited : Bool) : AuthorizedCall :=
  { env.draft with
    identity := { env.draft.identity with sessionId }
    budgetDebited
    grant := { env.grant with revocationEpoch := w.revocationEpoch }.buildAndSign config.codec.sha256 config.grantSigner }

/-- A failure on the way from the grant to the execution. -/
def prepareFailed (origin : Origin) (call : AuthorizedCall) (event : Option AuditEvent) (error : PipelineError) :
    Phase :=
  match origin with
  | .autoAllow =>
    closeWith origin call.identity.traceId
      (event.toList.map .audit ++ rollbackJobs call "build_run_task_error") (.error error)
  | .approval _ _ =>
    closeWith origin call.identity.traceId
      (rollbackJobs call "approval_enforcement_error" ++ event.toList.map .audit) (.error error)

def recordIntent (w : World) (env : Env) (origin : Origin) (call : AuthorizedCall) (startedAt : DateTime) :
    World × Phase × Emission :=
  match blocking w env fun ledger => ledger.writeIntentAndConsumeGrant (call.intent startedAt.rfc3339)
      call.action.actionId call.identity.principal env.timestamp env.ledgerIo with
  | (w, .ok ()) => (w, .awaitingPermit origin call startedAt, .dispatched call)
  | (w, .error e) =>
    (w, denyPreDispatch config origin call env.timestamp
      { reason := "pre-dispatch guard: " ++ e.display
        label := "pre_dispatch_persistence"
        error := call.intentError e }, .nothing)

/-- The runtime: a permit is waited for, then the module is looked up and its
store prepared, then the provider runs. -/
def takePermit (w : World) (env : Env) (origin : Origin) (call : AuthorizedCall) (startedAt : DateTime) :
    World × Phase × Emission :=
  if w.availablePermits = 0 then (w, .awaitingPermit origin call startedAt, .nothing)
  else match env.moduleLookup with
    | .error message => (w, providerFailed config origin call env.timestamp message, .nothing)
    | .ok () =>
      ({ w with availablePermits := w.availablePermits - 1 }, .running origin call startedAt, .started call)

def afterProvider (env : Env) (origin : Origin) (call : AuthorizedCall) (startedAt : DateTime) : Phase :=
  match env.provider with
  | .error message => providerFailed config origin call env.timestamp message
  | .ok output =>
    match AuthorizedCall.enforceResponseSchema config env.responseSchema with
    | .error (reason, error) =>
      closeWith origin call.identity.traceId [.audit (call.event config env.timestamp .deny (some reason))] (.error error)
    | .ok () => .verifying origin call startedAt output

def verifierOutcome (verification : Except String VerificationOutcome) : VerificationOutcome :=
  match verification with
  | .ok outcome => outcome
  | .error message => .verificationFailed ("verifier error: " ++ message)

def afterVerifier (env : Env) (origin : Origin) (call : AuthorizedCall) (startedAt : DateTime) (output : RunOutput) :
    Phase :=
  let outcome := verifierOutcome env.verification
  let receipt := call.buildSignedReceipt output outcome env.receiptId startedAt env.now
  let row := AuthorizedCall.receiptRow config receipt
  if call.deniesHighRisk outcome then
    closeWith origin call.identity.traceId
      [.receipt row, .audit (call.deniedAudit config env.timestamp outcome.tag env.receiptId)]
      (.error (.grantIntegrity "verifier failed for high-risk action — execution denied"))
  else match config.codec.canonicalHashWithLen output.stdout call.responseHashLimits with
    | .error _ =>
      closeWith origin call.identity.traceId []
        (.error (.evidencePersistenceFailed call.identity.traceId call.grant.grantId))
    | .ok (responseHash, responseBytes) =>
      .finalizing origin call row
        (call.finalAudit config env.timestamp output outcome.tag env.receiptId responseHash responseBytes)
        (call.assembleExecutionResponse output receipt outcome.tag)

def finalize (w : World) (env : Env) (origin : Origin) (call : AuthorizedCall) (receipt : ReceiptRow)
    (event : AuditEvent) (response : ExecutedResponse) : World × Phase :=
  match blocking w env fun ledger => ledger.finalizeEvidence config.codec receipt event env.ledgerIo with
  | (w, .ok ()) => (w, closeWith origin call.identity.traceId [] (.ok response))
  | (w, .error _) =>
    (w, closeWith origin call.identity.traceId []
      (.error (.evidencePersistenceFailed call.identity.traceId call.grant.grantId)))

/-- What an administrator's request leaves in the audit trail. -/
def adminEvent (env : Env) (eventType : EventType) (detail : String) : AuditEvent where
  traceId := env.draft.identity.traceId
  timestamp := env.timestamp
  eventType := eventType
  subject := { principal := env.draft.identity.principal, sessionId := env.draft.identity.principal }
  policy := { decision := .allow, denyReason := some (config.sanitizeForLog detail) }

/-- A drain is recorded; a look at the status is not. -/
def drainJobs (env : Env) (count : Nat) (wasFirst : Option Bool) : List Job :=
  wasFirst.toList.map fun first =>
    .audit (adminEvent config env .adminDrain
      ("drain initiated, in_flight=" ++ toString count ++ ", was_first=" ++ toString first))

/-- A call has been handed to the database or the state backend, and may take
effect even if nobody waits for it any more. -/
def Phase.inFlight : Phase → Bool
  | .claiming _ _ | .recordingIntent _ _ _ | .finalizing _ _ _ _ _ => true
  | .debiting _ _ hasBudgets => hasBudgets
  | .closing (_ :: _) _ => true
  | _ => false

/-- A request that is orphaned says nothing of a dispatch: nobody is left to
make it. -/
def Emission.orphaned : Emission → Emission
  | .dispatched _ => .nothing
  | emission => emission

/-- The next step of a request. -/
def proceed (w : World) (env : Env) : Phase → World × Phase × Emission
  | .arrived task => admitTask w env task
  | .deciding =>
    match env.admission with
    | .error e => (w, .closing [] (.call (.error e)), .nothing)
    | .ok () => (w, .debiting .autoAllow env.sessionId env.hasBudgets, .nothing)
  | .claiming approvalId operatorId =>
    let (store, result) := w.gate.store.claimPending config.approvals env.store approvalId operatorId env.claimToken
    match result with
    | .ok _ => ({ w with gate := { w.gate with store } }, .claimed approvalId env.claimToken, .claimed approvalId)
    | .error e => ({ w with gate := { w.gate with store } }, .closing [] (.call (.error (mapApprovalErr e))), .nothing)
  | .claimed approvalId claimToken => (w, afterClaim w env approvalId claimToken, .nothing)
  | .debiting origin sessionId hasBudgets =>
    if hasBudgets then debit w env origin sessionId else (w, .building origin sessionId false, .nothing)
  | .building origin sessionId budgetDebited =>
    let call := buildCall config w env sessionId budgetDebited
    (w, .preparing origin call, .built call)
  | .preparing origin call =>
    match env.prepared with
    | .ok () => (w, .authorized origin call, .nothing)
    | .error e => (w, prepareFailed origin call env.event e, .nothing)
  | .authorized origin call =>
    match call.validateGrantPreDispatch config env.now w.revocationEpoch with
    | .ok () => (w, .recordingIntent origin call env.now, .cleared call env.now w.revocationEpoch)
    | .error denial => (w, denyPreDispatch config origin call env.timestamp denial, .nothing)
  | .recordingIntent origin call startedAt => recordIntent config w env origin call startedAt
  | .awaitingPermit origin call startedAt => takePermit config w env origin call startedAt
  | .running origin call startedAt =>
    ({ w with availablePermits := w.availablePermits + 1 }, afterProvider config env origin call startedAt, .nothing)
  | .verifying origin call startedAt output => (w, afterVerifier config env origin call startedAt output, .nothing)
  | .finalizing origin call receipt event response =>
    let (w, phase) := finalize config w env origin call receipt event response
    (w, phase, .nothing)
  | .closing (job :: jobs) reply =>
    let (w, more, emission) := doJob config w env job
    (w, .closing (more ++ jobs) reply, emission)
  | .closing [] reply => (w, .replied reply, .returned reply)
  | .revoking oldEpoch =>
    let newEpoch := w.revocationEpoch + 1
    ({ w with revocationEpoch := newEpoch },
      .closing [.audit (adminEvent config env .adminRevokeAll
        ("epoch " ++ toString oldEpoch ++ " => " ++ toString newEpoch))] (.revocation oldEpoch newEpoch),
      .advanced oldEpoch newEpoch)
  | .readingInFlight draining wasFirst =>
    let count := inFlightCount config w
    (w, .closing (drainJobs config env count wasFirst) (.drain draining count), .status draining count)
  | phase => (w, phase, .nothing)

/-- The client goes away, and the handler is dropped where it waits. A call
that was handed out is left to itself; a permit is given back. -/
def dropRequest (w : World) : Phase → World × Phase
  | .idle => (w, .idle)
  | .replied reply => (w, .replied reply)
  | .orphaned phase => (w, .orphaned phase)
  | .running _ _ _ => ({ w with availablePermits := w.availablePermits + 1 }, .dropped)
  | phase => (w, if phase.inFlight then .orphaned phase else .dropped)

def act (w : World) (phase : Phase) : Input → World × Phase × Emission
  | .arrive task =>
    match phase with
    | .idle => (w, .arrived task, .nothing)
    | phase => (w, phase, .nothing)
  | .proceed env =>
    match phase with
    | .orphaned phase =>
      let (w, _, emission) := proceed config w env phase
      (w, .dropped, emission.orphaned)
    | phase => proceed config w env phase
  | .drop =>
    let (w, phase) := dropRequest w phase
    (w, phase, .nothing)

def actor : Actor World Phase Input Emission where
  act := act config

end Steps

/-- Nobody has asked for anything yet. -/
def quiet (w : World) : World × (Nat → Phase) :=
  (w, fun _ => .idle)

end Requests
end Latchgate
