import Latchgate.Approval.Backend
import Latchgate.Core.FsPath
import Latchgate.Kernel.Error

namespace Latchgate

namespace ApprovalBackend
variable (config : StoreConfig)

def call (b : ApprovalBackend) (io : StoreIo) (op : ApprovalOp) :
    ApprovalBackend × Except ApprovalError ApprovalAnswer :=
  match io.fault with
  | none => ((b.step config ⟨io.clock, op⟩).1, .ok (b.step config ⟨io.clock, op⟩).2)
  | some (.refused message) => (b, .error (.unavailable message))
  | some (.answerLost message) => ((b.step config ⟨io.clock, op⟩).1, .error (.unavailable message))

def claimResult : Except ApprovalError ApprovalAnswer → Except ApprovalError ClaimedApproval
  | .ok (.claim result) => result
  | .ok _ => .error (.dataCorrupted "answer to another call")
  | .error e => .error e

def statusResult : Except ApprovalError ApprovalAnswer → Except ApprovalError (Option ApprovalStatus)
  | .ok (.status result) => result
  | .ok _ => .error (.dataCorrupted "answer to another call")
  | .error e => .error e

def claimPending (b : ApprovalBackend) (io : StoreIo) (approvalId operatorId claimToken : String) :
    ApprovalBackend × Except ApprovalError ClaimedApproval :=
  let (next, answer) := b.call config io (.claimPending approvalId operatorId claimToken)
  (next, claimResult answer)

def getStatus (b : ApprovalBackend) (io : StoreIo) (approvalId : String) :
    Except ApprovalError (Option ApprovalStatus) :=
  statusResult (b.call config io (.getStatus approvalId)).2

end ApprovalBackend

/-- A row of `approval_outcomes`. -/
structure OutcomeRow where
  outcome : String
  detail : String
  createdAt : String
  deriving DecidableEq

abbrev OutcomeTable := AList fun _ : String => OutcomeRow

/-- How an access to the ledger can fail: the blocking task is lost, or the
ledger reports an error. -/
inductive LedgerFault where
  | join
  | ledger (message : String)

/-- The parts of the application state that deciding an approval writes. -/
structure Gate where
  store : ApprovalBackend
  outcomes : OutcomeTable

/-- A blocking read of the ledger. -/
def spawnBlocking {α : Type} (fault : Option LedgerFault) (result : α) : Except Unit (Except String α) :=
  match fault with
  | some .join => .error ()
  | some (.ledger message) => .ok (.error message)
  | none => .ok (.ok result)

def hasDurableOutcome (outcomes : OutcomeTable) (fault : Option LedgerFault) (approvalId : String) : Bool :=
  ((spawnBlocking fault (outcomes.lookup approvalId).isSome).toOption.getD (.ok false)).toOption.getD false

def getDurableOutcome (outcomes : OutcomeTable) (fault : Option LedgerFault) (approvalId : String) :
    Option OutcomeRow :=
  ((spawnBlocking fault (outcomes.lookup approvalId)).toOption.getD (.ok none)).toOption.getD none

/-- A duplicate id is ignored, and so is a failure. -/
def writeDurableOutcome (outcomes : OutcomeTable) (fault : Option LedgerFault)
    (approvalId outcome detail createdAt : String) : OutcomeTable :=
  match fault, outcomes.lookup approvalId with
  | none, none => outcomes.insert approvalId ⟨outcome, detail, createdAt⟩
  | _, _ => outcomes

structure DurableOutcomeResponse where
  decision : String
  approvalId : String
  state : String
  completedAt : String
  receiptId : Option String
  denyReason : Option String
  errorCode : Option String
  source : String := "durable_outcome"
  deriving DecidableEq

def durableOutcomeResponse (approvalId : String) (row : OutcomeRow) : DurableOutcomeResponse where
  decision :=
    if row.outcome = "approved" then "already_approved"
    else if row.outcome = "denied" then "already_denied"
    else if row.outcome = "failed" then "already_failed"
    else "already_completed"
  approvalId := approvalId
  state := row.outcome
  completedAt := row.createdAt
  receiptId := if row.outcome = "approved" then some row.detail else none
  denyReason := if row.outcome = "denied" then some row.detail else none
  errorCode := if row.outcome = "failed" then some row.detail else none

structure ApprovalTerminalResponse where
  decision : String
  approvalId : String
  state : ApprovalState
  completedAt : Option String
  receiptId : Option String
  denyReason : Option String
  deriving DecidableEq

def terminalFromStatus (approvalId : String) (status : ApprovalStatus) : ApprovalTerminalResponse where
  decision := match status.state with
    | .approved => "already_approved"
    | .denied => "already_denied"
    | .failed => "already_failed"
    | _ => "already_completed"
  approvalId := approvalId
  state := status.state
  completedAt := status.completedAt
  receiptId := status.receiptId
  denyReason := status.denyReason

inductive TerminalReply where
  | status (response : ApprovalTerminalResponse)
  | durable (response : DurableOutcomeResponse)

inductive ClaimOutcome where
  | claimed (pending : PendingApproval) (claimToken : String)
  | terminal (reply : TerminalReply)

/-- What happens to the calls that claiming makes, and the token drawn for it.
The ledger is read at most once. -/
structure ClaimEnv where
  claim : StoreIo
  claimToken : String
  status : StoreIo
  ledgerRead : Option LedgerFault := none
  reconcile : StoreIo

section Handlers
variable (config : StoreConfig)

def failAlreadyExecuted (gate : Gate) (io : StoreIo) (approvalId claimToken : String) : Gate :=
  { gate with
    store := (gate.store.call config io
      (.complete .failed approvalId claimToken "reconcile" "already_executed")).1 }

def claimOrShortCircuit (gate : Gate) (env : ClaimEnv) (approvalId operatorId : String) :
    Gate × Except PipelineError ClaimOutcome :=
  let (store, result) := gate.store.claimPending config env.claim approvalId operatorId env.claimToken
  let gate := { gate with store }
  match result with
  | .error (.alreadyCompleted _) =>
    match gate.store.getStatus config env.status approvalId with
    | .ok (some status) => (gate, .ok (.terminal (.status (terminalFromStatus approvalId status))))
    | _ => (gate, .error (mapApprovalErr (.alreadyCompleted approvalId)))
  | .error (.alreadyClaimed _) =>
    (gate, .error (.conflict "approval already claimed — execution in progress"))
  | .error (.unavailable _) =>
    match getDurableOutcome gate.outcomes env.ledgerRead approvalId with
    | some row => (gate, .ok (.terminal (.durable (durableOutcomeResponse approvalId row))))
    | none =>
      (gate, .error (mapApprovalErr
        (.unavailable "approval store unavailable and no durable outcome found")))
  | .error (.notFound _) =>
    match getDurableOutcome gate.outcomes env.ledgerRead approvalId with
    | some row => (gate, .ok (.terminal (.durable (durableOutcomeResponse approvalId row))))
    | none => (gate, .error (mapApprovalErr (.notFound approvalId)))
  | .error e => (gate, .error (mapApprovalErr e))
  | .ok claimed =>
    if hasDurableOutcome gate.outcomes env.ledgerRead approvalId then
      (failAlreadyExecuted config gate env.reconcile approvalId claimed.claimToken,
        .error (.conflict "approval already executed (durable outcome exists)"))
    else (gate, .ok (.claimed claimed.pending claimed.claimToken))

/-- What happens to the calls that record an outcome. -/
structure FinishEnv where
  durableWrite : Option LedgerFault := none
  createdAt : String
  marker : StoreIo
  complete : StoreIo

/-- First the marker, which blocks another claim, then the terminal state.
Failures are only logged. -/
def finalizeOutcome (store : ApprovalBackend) (env : FinishEnv) (approvalId claimToken traceId : String)
    (kind : TerminalKind) (detail : String) : ApprovalBackend :=
  let marked := (store.call config env.marker
    (.writeOutcomeMarker approvalId claimToken kind.state.asStr detail)).1
  (marked.call config env.complete (.complete kind approvalId claimToken traceId detail)).1

def writeOutcomeAndFinalize (gate : Gate) (env : FinishEnv) (approvalId claimToken traceId : String)
    (kind : TerminalKind) (detail : String) : Gate where
  outcomes := writeDurableOutcome gate.outcomes env.durableWrite approvalId kind.state.asStr detail env.createdAt
  store := finalizeOutcome config gate.store env approvalId claimToken traceId kind detail

structure ApproveQuery where
  learnDomain : Option String := none
  learnPath : Option String := none

def validateLearnDomain (validateDomainEntry : String → Except String Unit) (query : ApproveQuery) :
    Except PipelineError Unit :=
  match query.learnDomain with
  | none => .ok ()
  | some domain =>
    match validateDomainEntry domain with
    | .ok () => .ok ()
    | .error e => .error (.badRequest ("invalid learn_domain '" ++ domain ++ "': " ++ e))

/-- The path to learn, made relative to the root of the session. -/
def resolveLearnPath (explicit fallback : Option String) (sessionFsRoot : Option FsPath.Root) :
    Except PipelineError (Option String) :=
  match explicit.or fallback with
  | none => .ok none
  | some raw =>
    if FsPath.isAbsolute raw = false then .ok (some raw)
    else match sessionFsRoot with
      | none =>
        .error (.badRequest ("learn_path '" ++ raw ++ "' is absolute but no session fs_root is configured"))
      | some root =>
        match FsPath.relativizeToRoot raw root with
        | some relative => .ok (some relative)
        | none =>
          .error (.badRequest
            ("learn_path '" ++ raw ++ "' is not under session fs_root '" ++ root.path ++ "'"))

/-- The path to learn from an approval, once it has passed the checks made on it. -/
def effectiveLearnPath (query : ApproveQuery) (pending : PendingApproval)
    (sessionFsRoot : Option FsPath.Root) : Except PipelineError (Option String) :=
  match resolveLearnPath query.learnPath pending.unresolvedPaths.head? sessionFsRoot with
  | .error e => .error e
  | .ok none => .ok none
  | .ok (some glob) =>
    match FsPath.validatePathGlobEntry glob with
    | .ok () => .ok (some glob)
    | .error e => .error (.badRequest ("invalid learn_path '" ++ glob ++ "': " ++ e.display))

/-- The part of the response to an executed action that the handler uses. -/
structure ExecutionResponse where
  receiptId : String
  learnedDomain : Option String := none
  learnedPath : Option String := none

/-- The results of everything else a handler asks for before it claims, and
what happens to the calls it makes from there on. -/
structure HandlerEnv where
  operator : Except PipelineError String
  devMode : Bool := false
  operatorRateAllows : Bool := true
  claim : ClaimEnv
  finish : FinishEnv
  traceId : String

/-- For an approval also: the domain check, the roots of the sessions, whether
learned entries could be saved, and what preparing and executing the plan gave. -/
structure ApproveEnv extends HandlerEnv where
  draining : Bool := false
  validateDomainEntry : String → Except String Unit
  sessionFsRoots : String → Option FsPath.Root
  domainSaved : Bool := true
  pathSaved : Bool := true
  prepared : Except PipelineError Unit
  executed : Except PipelineError ExecutionResponse

inductive ApproveReply where
  | terminal (reply : TerminalReply)
  | executed (response : ExecutionResponse)

/-- The state a handler leaves, its reply, and whether the plan was executed. -/
structure Handled (ρ : Type) where
  gate : Gate
  reply : Except PipelineError ρ
  planExecuted : Bool

/-- The rest of an approval once the claim is held. -/
def approveClaimed (gate : Gate) (env : ApproveEnv) (approvalId : String) (query : ApproveQuery)
    (pending : PendingApproval) (claimToken : String) : Handled ApproveReply :=
  match effectiveLearnPath query pending (env.sessionFsRoots pending.authContext.sessionId) with
  | .error e => ⟨gate, .error e, false⟩
  | .ok effectivePath =>
    let effectiveDomain := query.learnDomain.or pending.unresolvedDomains.head?
    let learnedDomain := if env.domainSaved then effectiveDomain else none
    let learnedPath := if env.pathSaved then effectivePath else none
    match env.prepared with
    | .error e =>
      ⟨writeOutcomeAndFinalize config gate env.finish approvalId claimToken env.traceId .failed e.display,
        .error e, false⟩
    | .ok () =>
      let (kind, detail) : TerminalKind × String := match env.executed with
        | .ok response => (.approved, response.receiptId)
        | .error e => (.failed, e.display)
      ⟨writeOutcomeAndFinalize config gate env.finish approvalId claimToken env.traceId kind detail,
        env.executed.map fun response => .executed { response with learnedDomain, learnedPath }, true⟩

def approveCall (gate : Gate) (env : ApproveEnv) (approvalId : String) (query : ApproveQuery) :
    Handled ApproveReply :=
  match env.operator with
  | .error e => ⟨gate, .error e, false⟩
  | .ok operatorId =>
    if env.draining then ⟨gate, .error .draining, false⟩
    else if env.devMode = false ∧ env.operatorRateAllows = false then
      ⟨gate, .error (.throttled "operator_write"), false⟩
    else match validateLearnDomain env.validateDomainEntry query with
      | .error e => ⟨gate, .error e, false⟩
      | .ok () =>
        match claimOrShortCircuit config gate env.claim approvalId operatorId with
        | (gate, .error e) => ⟨gate, .error e, false⟩
        | (gate, .ok (.terminal reply)) => ⟨gate, .ok (.terminal reply), false⟩
        | (gate, .ok (.claimed pending claimToken)) =>
          approveClaimed config gate env approvalId query pending claimToken

structure DenyResponse where
  decision : String := "deny"
  traceId : String
  actionId : String
  approvalId : String
  deniedBy : String
  denyReason : String
  deriving DecidableEq

inductive DenyReply where
  | terminal (reply : TerminalReply)
  | denied (response : DenyResponse)

def denyCall (gate : Gate) (env : HandlerEnv) (approvalId : String) (bodyReason : Option String) :
    Handled DenyReply :=
  match env.operator with
  | .error e => ⟨gate, .error e, false⟩
  | .ok operatorId =>
    if env.devMode = false ∧ env.operatorRateAllows = false then
      ⟨gate, .error (.throttled "operator_write"), false⟩
    else match claimOrShortCircuit config gate env.claim approvalId operatorId with
      | (gate, .error e) => ⟨gate, .error e, false⟩
      | (gate, .ok (.terminal reply)) => ⟨gate, .ok (.terminal reply), false⟩
      | (gate, .ok (.claimed pending claimToken)) =>
        let reason := bodyReason.getD "operator_denied"
        ⟨writeOutcomeAndFinalize config gate env.finish approvalId claimToken env.traceId .denied reason,
          .ok (.denied
            { traceId := pending.traceId, actionId := pending.actionId, approvalId
              deniedBy := operatorId, denyReason := reason }), false⟩

end Handlers

/-- An approval as in `claimedRun`, made and not yet claimed, in the in-memory store. -/
def pendingStore (pending : PendingApproval) : ApprovalBackend :=
  (ApprovalBackend.step defaultConfig (.inMemory ∅)
    ⟨.atSecond 0 "1970-01-01T00:00:00+00:00", .createPending pending⟩).1

/-- Claiming one second later, with nothing failing but perhaps the read of the ledger. -/
def claimEnvAt1 (ledgerRead : Option LedgerFault) : ClaimEnv where
  claim := { clock := .atSecond 1 "1970-01-01T00:00:01+00:00" }
  claimToken := "t1"
  status := { clock := .atSecond 1 "1970-01-01T00:00:01+00:00" }
  ledgerRead := ledgerRead
  reconcile := { clock := .atSecond 1 "1970-01-01T00:00:01+00:00" }

/-- An operator's approval in which every step succeeds. -/
def approveEnvAt1 (ledgerRead : Option LedgerFault) : ApproveEnv where
  operator := .ok "op:alice"
  claim := claimEnvAt1 ledgerRead
  finish :=
    { createdAt := "1970-01-01T00:00:02+00:00"
      marker := { clock := .atSecond 2 "1970-01-01T00:00:02+00:00" }
      complete := { clock := .atSecond 2 "1970-01-01T00:00:02+00:00" } }
  traceId := "trace-2"
  validateDomainEntry := fun _ => .ok ()
  sessionFsRoots := fun _ => none
  prepared := .ok ()
  executed := .ok { receiptId := "rcpt-2" }

end Latchgate
