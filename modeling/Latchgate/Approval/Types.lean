import Latchgate.Plan.Types

namespace Latchgate

inductive ApprovalError where
  | alreadyExists (approvalId : String)
  | notFound (approvalId : String)
  | alreadyClaimed (approvalId : String)
  | alreadyCompleted (approvalId : String)
  | tokenMismatch (approvalId : String)
  | notClaimed (approvalId : String)
  | unavailable (message : String)
  | dataCorrupted (message : String)
  deriving DecidableEq

inductive ApprovalState where
  | pending
  | claimed
  | approved
  | denied
  | failed
  deriving DecidableEq

namespace ApprovalState

def isTerminal : ApprovalState → Bool
  | approved | denied | failed => true
  | pending | claimed => false

def asStr : ApprovalState → String
  | pending => "pending"
  | claimed => "claimed"
  | approved => "approved"
  | denied => "denied"
  | failed => "failed"

def fromDbStr (s : String) : Option ApprovalState :=
  if s = "pending" then some pending
  else if s = "claimed" then some claimed
  else if s = "approved" then some approved
  else if s = "denied" then some denied
  else if s = "failed" then some failed
  else none

@[simp] theorem fromDbStr_asStr (s : ApprovalState) : fromDbStr s.asStr = some s := by
  cases s <;> rfl

theorem asStr_injective : Function.Injective asStr := by
  intro s t same
  have read := congrArg fromDbStr same
  simpa using read

end ApprovalState

structure ClaimInfo where
  claimedBy : String
  claimedAt : String
  claimToken : String
  claimExpiresAtUnix : Int
  deriving DecidableEq

structure OutcomeMarker where
  kind : String
  outcomeAt : String
  detail : String
  deriving DecidableEq

structure CompletionInfo where
  completedAt : String
  traceId : String
  receiptId : Option String
  denyReason : Option String
  errorCode : Option String
  deriving DecidableEq

structure ApprovalRecord where
  state : ApprovalState
  payload : PendingApproval
  claim : Option ClaimInfo
  outcomeMarker : Option OutcomeMarker
  completion : Option CompletionInfo

structure ClaimedApproval where
  pending : PendingApproval
  claimToken : String
  claimedAt : String
  claimedBy : String

structure ApprovalStatus where
  state : ApprovalState
  approvalId : String
  actionId : String
  principal : String
  sessionId : String
  requestHash : String
  policyVersion : Option String
  createdAt : String
  claimedBy : Option String
  claimedAt : Option String
  completedAt : Option String
  receiptId : Option String
  denyReason : Option String
  errorCode : Option String
  deriving DecidableEq

structure ApprovalSummary where
  approvalId : String
  state : ApprovalState
  actionId : String
  actionVersion : String
  principal : String
  sessionId : String
  owner : Option String
  riskLevel : RiskLevel
  requestHash : String
  createdAt : String
  expiresAt : String
  claimedBy : Option String
  deriving DecidableEq

/-- The shared precondition of the completing operations. -/
def requireClaimedWithToken (state : ApprovalState) (storedToken : Option String)
    (givenToken approvalId : String) : Except ApprovalError Unit :=
  if state ≠ .claimed then
    if state.isTerminal then .error (.alreadyCompleted approvalId)
    else .error (.notClaimed approvalId)
  else
    let tokenMatches := match storedToken with
      | some stored => decide (stored = givenToken)
      | none => false
    if tokenMatches then .ok () else .error (.tokenMismatch approvalId)

def validateClaimTransition (state : ApprovalState) (hasOutcomeMarker : Bool)
    (claimExpiresAt : Option Int) (now : Int) (approvalId : String) : Except ApprovalError Unit :=
  match state with
  | .pending => .ok ()
  | .claimed =>
    if hasOutcomeMarker then .error (.alreadyCompleted approvalId)
    else match claimExpiresAt with
      | some exp => if now < exp then .error (.alreadyClaimed approvalId) else .ok ()
      | none => .error (.alreadyClaimed approvalId)
  | .approved | .denied | .failed => .error (.alreadyCompleted approvalId)

def buildCompletionInfo (completedAt traceId detailKey detailValue : String) : CompletionInfo :=
  let detailFor (key : String) : Option String :=
    if detailKey = key ∧ detailValue ≠ "" then some detailValue else none
  { completedAt, traceId
    receiptId := detailFor "receipt_id"
    denyReason := detailFor "deny_reason"
    errorCode := detailFor "error_code" }

namespace ApprovalRecord

def newPending (payload : PendingApproval) : ApprovalRecord :=
  { state := .pending, payload, claim := none, outcomeMarker := none, completion := none }

/-- The state a record stands for: a marker written before its completion
already decides it. -/
def effectiveState (r : ApprovalRecord) : ApprovalState :=
  if r.state = .claimed then
    match r.outcomeMarker with
    | some marker =>
      if marker.kind = "approved" then .approved
      else if marker.kind = "denied" then .denied
      else if marker.kind = "failed" then .failed
      else r.state
    | none => r.state
  else r.state

def markerDetailIf (r : ApprovalRecord) (kind : String) : Option String :=
  (r.outcomeMarker.filter fun m => m.kind = kind).map OutcomeMarker.detail

def toStatus (r : ApprovalRecord) : ApprovalStatus :=
  { state := r.effectiveState
    approvalId := r.payload.approvalId
    actionId := r.payload.actionId
    principal := r.payload.authContext.principal
    sessionId := r.payload.authContext.sessionId
    requestHash := r.payload.requestHash
    policyVersion := r.payload.policyVersion
    createdAt := r.payload.createdAt
    claimedBy := r.claim.map ClaimInfo.claimedBy
    claimedAt := r.claim.map ClaimInfo.claimedAt
    completedAt := (r.completion.map CompletionInfo.completedAt).or
      (r.outcomeMarker.map OutcomeMarker.outcomeAt)
    receiptId := (r.completion.bind CompletionInfo.receiptId).or (r.markerDetailIf "approved")
    denyReason := (r.completion.bind CompletionInfo.denyReason).or (r.markerDetailIf "denied")
    errorCode := (r.completion.bind CompletionInfo.errorCode).or (r.markerDetailIf "failed") }

def toSummary (r : ApprovalRecord) : ApprovalSummary :=
  { approvalId := r.payload.approvalId
    state := r.effectiveState
    actionId := r.payload.actionId
    actionVersion := r.payload.plan.actionVersion
    principal := r.payload.authContext.principal
    sessionId := r.payload.authContext.sessionId
    owner := r.payload.authContext.owner
    riskLevel := r.payload.plan.riskLevel
    requestHash := r.payload.requestHash
    createdAt := r.payload.createdAt
    expiresAt := r.payload.plan.core.expiresAt.rfc3339
    claimedBy := r.claim.map ClaimInfo.claimedBy }

end ApprovalRecord

/-- The three completions an approval can get. -/
inductive TerminalKind where
  | approved
  | denied
  | failed
  deriving DecidableEq

def TerminalKind.state : TerminalKind → ApprovalState
  | approved => .approved
  | denied => .denied
  | failed => .failed

def TerminalKind.detailKey : TerminalKind → String
  | approved => "receipt_id"
  | denied => "deny_reason"
  | failed => "error_code"

@[simp] theorem TerminalKind.state_isTerminal (k : TerminalKind) : k.state.isTerminal = true := by
  cases k <;> rfl

/-- The clocks an operation reads: the process's monotonic clock, the wall
clock, and the key expiry clock of the Redis server. -/
structure Clock where
  instant : Nat
  utc : DateTime
  redisMillis : Int

def nanosPerSecond : Nat := 1000000000

/-- The settings of a store. `readFloat` is the JSON library's reading of a
printed double. -/
structure StoreConfig where
  defaultTtl : Nat
  claimTtlSecs : Nat := 120
  forensicsTtlSecs : Nat := 3600
  forensicsTtl_pos : 0 < forensicsTtlSecs := by decide
  readFloat : FloatText → Except String FloatText

def StoreConfig.ttlSecs (config : StoreConfig) : Nat :=
  config.defaultTtl / nanosPerSecond

/-- A stored payload as it comes back from its JSON text. -/
def StoreConfig.readPayload (config : StoreConfig) (payload : PendingApproval) :
    Except ApprovalError PendingApproval :=
  match payload.thaw config.readFloat with
  | .ok pending => .ok pending
  | .error message => .error (.dataCorrupted message)

theorem requireClaimedWithToken_ok {state : ApprovalState} {stored : Option String}
    {given id : String} :
    requireClaimedWithToken state stored given id = .ok () ↔ state = .claimed ∧ stored = some given := by
  by_cases claimed : state = .claimed
  · subst state
    cases stored <;> simp [requireClaimedWithToken]
  · simp only [requireClaimedWithToken, ne_eq, claimed, not_false_eq_true, if_true, false_and, iff_false]
    split_ifs <;> simp

/-- Exactly the states that can be claimed. -/
theorem validateClaimTransition_ok {state : ApprovalState} {marked : Bool} {expiry : Option Int}
    {now : Int} {id : String} :
    validateClaimTransition state marked expiry now id = .ok () ↔
      state = .pending ∨ (state = .claimed ∧ marked = false ∧ ∃ exp, expiry = some exp ∧ exp ≤ now) := by
  cases state with
  | claimed =>
    cases marked <;> cases expiry <;> simp [validateClaimTransition]
  | pending => simp [validateClaimTransition]
  | approved => simp [validateClaimTransition]
  | denied => simp [validateClaimTransition]
  | failed => simp [validateClaimTransition]

end Latchgate
