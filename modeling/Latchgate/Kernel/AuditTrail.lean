import Latchgate.Kernel.FsParity
import Latchgate.Kernel.Progress

namespace Latchgate

/-- The context that the events of one request are made of, as far as the
pipeline has come. -/
structure PipelineAudit where
  traceId : String
  devMode : Bool
  subject : AuditSubject := {}
  action : AuditAction := {}
  request : AuditRequest := {}
  budgetsBefore : Option Json := none
  approvalId : Option String := none

namespace PipelineAudit

def fromPending (pending : PendingApproval) (trustVerdict : String) (devMode : Bool) : PipelineAudit where
  traceId := pending.traceId
  devMode := devMode
  subject :=
    { principal := pending.authContext.principal
      sessionId := pending.authContext.sessionId
      leaseJti := pending.authContext.leaseJti
      owner := pending.authContext.owner }
  action :=
    { actionId := pending.actionId
      actionVersion := some pending.plan.actionVersion
      actionDigest := pending.plan.core.providerModuleDigest
      actionTrustVerdict := trustVerdict
      riskLevel := some pending.plan.riskLevel.asStr }
  request := { requestHash := pending.requestHash }
  approvalId := some pending.approvalId

def event (config : ExecutionConfig) (audit : PipelineAudit) (timestamp : String) (decision : Decision)
    (policyVersion reason : Option String) : AuditEvent where
  traceId := audit.traceId
  timestamp := timestamp
  eventType := .actionCall
  subject := audit.subject
  action := audit.action
  request := audit.request
  policy := { policyVersion, decision, denyReason := reason.map config.sanitizeForLog }
  budgetsBefore := audit.budgetsBefore
  approval := { approvalId := audit.approvalId }
  devMode := audit.devMode

end PipelineAudit

/-- The event of a plan that is not accepted. The request and the owner are
not among its fields. -/
def buildPlanDenyAudit (config : ExecutionConfig) (pending : PendingApproval) (trustStr reason timestamp : String) :
    AuditEvent where
  traceId := pending.traceId
  timestamp := timestamp
  eventType := .actionCall
  subject :=
    { principal := pending.authContext.principal
      sessionId := pending.authContext.sessionId
      leaseJti := pending.authContext.leaseJti }
  action :=
    { actionId := pending.actionId
      actionVersion := some pending.plan.actionVersion
      actionDigest := pending.plan.core.providerModuleDigest
      actionTrustVerdict := trustStr
      riskLevel := some pending.plan.riskLevel.asStr }
  policy :=
    { policyVersion := pending.policyVersion, decision := .deny, denyReason := some (config.sanitizeForLog reason) }
  approval := { approvalId := some pending.approvalId }
  devMode := config.devMode

def TrustVerdict.asStr : TrustVerdict → String
  | digestOk => "digest_ok"
  | digestMismatch _ _ => "mismatch"
  | notRegistered => "not_registered"

/-- What `rollback_budget_if_debited` hands to `write_audit`, with the answer
of the budget store. -/
def rollbackEvents (config : ExecutionConfig) (debited : Bool) (rollback : Except String Unit)
    (traceId sessionId label timestamp : String) : List AuditEvent :=
  match debited, rollback with
  | true, .error e => [rollbackFailedEvent config traceId sessionId label timestamp e]
  | _, _ => []

/-- A debit was taken back in vain. -/
def RollbackFailed (debited : Bool) (rollback : Except String Unit) : Prop :=
  debited = true ∧ ∃ e, rollback = .error e

theorem rollbackEvents_eq_nil {config : ExecutionConfig} {debited : Bool} {rollback : Except String Unit}
    (settled : ¬RollbackFailed debited rollback) (traceId sessionId label timestamp : String) :
    rollbackEvents config debited rollback traceId sessionId label timestamp = [] := by
  unfold rollbackEvents
  split
  · exact absurd ⟨rfl, _, rfl⟩ settled
  · rfl

namespace AppState
variable (config : ExecutionConfig) (state : AppState)

/-- The trust text and the reason under which a plan is denied. -/
def planDenial (pending : PendingApproval) : Option (String × String) :=
  if state.verifyPlanHash pending.plan = false then
    some ("plan_hash_failed", "execution plan hash verification failed — possible tampering")
  else if pending.plan.core.expiresAt.unixNanos ≤ state.now.unixNanos then
    some ("expired", "execution plan expired")
  else
    let verdict := state.verifyDigest pending.actionId pending.plan.core.providerModuleDigest
    match trustErrorOf pending.actionId verdict with
    | .ok () => none
    | .error (.trust message) => some (verdict.asStr, "trust changed since approval: " ++ message)
    | .error e => some (verdict.asStr, "trust changed since approval: " ++ e.display)

/-- What a preparation that fails once the session is debited hands over. -/
def buildFailedTrail (pending : PendingApproval) (traceId timestamp : String) (rollback : Except String Unit)
    (debited : Bool) (e : PipelineError) : List AuditEvent :=
  rollbackEvents config debited rollback traceId pending.authContext.sessionId "approval_enforcement_error" timestamp ++
    [(PipelineAudit.fromPending pending "digest_ok" config.devMode).event config timestamp .error pending.policyVersion
      (some e.display)]

/-- What `prepare_approved_execution` hands to `write_audit`, in its order. An
action that is not registered and a body that has no canonical form are
refused without a word. -/
def prepareTrail (pending : PendingApproval) (traceId timestamp : String) (rollback : Except String Unit) :
    List AuditEvent :=
  match state.planDenial pending with
  | some (trustStr, reason) => [buildPlanDenyAudit config pending trustStr reason timestamp]
  | none =>
    let audit := PipelineAudit.fromPending pending "digest_ok" config.devMode
    match state.verifyRequestHash pending with
    | .error (.planIntegrity _) =>
      [audit.event config timestamp .deny pending.policyVersion
        (some "request hash mismatch: stored data may be tampered")]
    | .error _ => []
    | .ok requestHash =>
      match state.resolveApproved pending.plan.core.approvedSecrets pending.plan.secretDeclarations with
      | .error e =>
        [audit.event config timestamp .error pending.policyVersion (some (state.secretsErrorText e))]
      | .ok decryptedSecrets =>
        match state.debitApproved pending with
        | .error e => [audit.event config timestamp .deny pending.policyVersion (some e.display)]
        | .ok budgetAfter =>
          match state.buildAuthorizedExecution pending traceId decryptedSecrets requestHash budgetAfter with
          | .error e => buildFailedTrail config pending traceId timestamp rollback budgetAfter.2 e
          | .ok _ => []

/-- The session is debited on the way. -/
def debits (pending : PendingApproval) : Bool :=
  match state.planDenial pending, state.verifyRequestHash pending,
    state.resolveApproved pending.plan.core.approvedSecrets pending.plan.secretDeclarations,
    state.debitApproved pending with
  | none, .ok _, .ok _, .ok (_, debited) => debited
  | _, _, _, _ => false

/-- The exits that write nothing. -/
def Silent : PipelineError → Prop
  | .actionNotFound _ | .canonicalHash _ => True
  | _ => False

instance (e : PipelineError) : Decidable (Silent e) := by
  unfold Silent
  split <;> infer_instance

variable {config state}

theorem trustErrorOf_cases (actionId : String) (verdict : TrustVerdict) :
    trustErrorOf actionId verdict = .ok () ∨ ∃ message, trustErrorOf actionId verdict = .error (.trust message) := by
  cases verdict with
  | digestOk => exact .inl rfl
  | notRegistered => exact .inr ⟨_, rfl⟩
  | digestMismatch expected actual => exact .inr ⟨_, rfl⟩

/-- A plan is denied exactly when its validation fails. -/
theorem planDenial_eq_none_iff {pending : PendingApproval} :
    state.planDenial pending = none ↔ state.validateApprovedPlan pending = .ok () := by
  unfold planDenial validateApprovedPlan
  split
  · simp
  split
  · simp
  rcases trustErrorOf_cases pending.actionId
    (state.verifyDigest pending.actionId pending.plan.core.providerModuleDigest) with accepted | ⟨message, refused⟩
  · simp [accepted]
  · simp [refused]

/-- Of the errors of the hash check, all but a mismatch are silent. -/
theorem verifyRequestHash_cases {pending : PendingApproval} {e : PipelineError}
    (failed : state.verifyRequestHash pending = .error e) : Silent e ∨ ∃ reason, e = .planIntegrity reason := by
  unfold verifyRequestHash at failed
  split at failed
  · cases failed
    exact .inl trivial
  split at failed
  · cases failed
    exact .inl trivial
  split at failed
  · cases failed
    exact .inr ⟨_, rfl⟩
  · cases failed

/-- The preparation, with its validation read as the decision on the plan. -/
theorem prepareApprovedExecution_eq {pending : PendingApproval} {traceId : String}
    (accepted : state.planDenial pending = none) :
    state.prepareApprovedExecution pending traceId = (do
      let requestHash ← state.verifyRequestHash pending
      let decryptedSecrets ← state.resolveApprovedSecrets pending.plan.core.approvedSecrets
        pending.plan.secretDeclarations
      let budgetAfter ← state.debitApproved pending
      state.buildAuthorizedExecution pending traceId decryptedSecrets requestHash budgetAfter) := by
  unfold prepareApprovedExecution
  rw [planDenial_eq_none_iff.1 accepted]
  rfl

/-- A preparation that succeeds writes nothing. One that fails writes a single
event, under the trace of the request it approves, unless its exit is silent
or a rollback fails as well. -/
theorem prepareTrail_cases (pending : PendingApproval) (traceId timestamp : String) (rollback : Except String Unit) :
    (∃ execution, state.prepareApprovedExecution pending traceId = .ok execution ∧
        state.prepareTrail config pending traceId timestamp rollback = []) ∨
      ∃ e, state.prepareApprovedExecution pending traceId = .error e ∧
        (Silent e ∨ RollbackFailed (state.debits pending) rollback ∨ ∃ event,
          state.prepareTrail config pending traceId timestamp rollback = [event] ∧ event.traceId = pending.traceId) := by
  cases denial : state.planDenial pending with
  | some verdict =>
    have invalid : state.validateApprovedPlan pending ≠ .ok () := by
      intro valid
      exact nomatch denial.symm.trans (planDenial_eq_none_iff.2 valid)
    have failed : ∃ e, state.validateApprovedPlan pending = .error e := by
      cases outcome : state.validateApprovedPlan pending with
      | error e => exact ⟨e, rfl⟩
      | ok done => exact absurd outcome invalid
    obtain ⟨e, failed⟩ := failed
    refine .inr ⟨e, ?_, .inr (.inr ⟨buildPlanDenyAudit config pending verdict.1 verdict.2 timestamp, ?_, rfl⟩)⟩
    · unfold prepareApprovedExecution
      rw [failed]
      rfl
    · simp only [prepareTrail, denial]
  | none =>
    rw [prepareApprovedExecution_eq denial]
    cases hashed : state.verifyRequestHash pending with
    | error e =>
      refine .inr ⟨e, rfl, ?_⟩
      rcases verifyRequestHash_cases hashed with silent | ⟨reason, rfl⟩
      · exact .inl silent
      · exact .inr (.inr ⟨(PipelineAudit.fromPending pending "digest_ok" config.devMode).event config timestamp .deny
          pending.policyVersion (some "request hash mismatch: stored data may be tampered"),
          by simp only [prepareTrail, denial, hashed], rfl⟩)
    | ok requestHash =>
      cases secrets : state.resolveApproved pending.plan.core.approvedSecrets pending.plan.secretDeclarations with
      | error e =>
        have failed : ∃ error, state.resolveApprovedSecrets pending.plan.core.approvedSecrets
            pending.plan.secretDeclarations = .error error := by
          simp only [resolveApprovedSecrets, secrets, Except.mapError]
          exact ⟨_, rfl⟩
        obtain ⟨error, failed⟩ := failed
        rw [failed]
        exact .inr ⟨error, rfl, .inr (.inr ⟨(PipelineAudit.fromPending pending "digest_ok" config.devMode).event config
          timestamp .error pending.policyVersion (some (state.secretsErrorText e)),
          by simp only [prepareTrail, denial, hashed, secrets], rfl⟩)⟩
      | ok decryptedSecrets =>
        have resolved : state.resolveApprovedSecrets pending.plan.core.approvedSecrets
            pending.plan.secretDeclarations = .ok decryptedSecrets := by
          simp only [resolveApprovedSecrets, secrets, Except.mapError]
        rw [resolved]
        cases debit : state.debitApproved pending with
        | error e =>
          exact .inr ⟨e, rfl, .inr (.inr ⟨(PipelineAudit.fromPending pending "digest_ok" config.devMode).event config
            timestamp .deny pending.policyVersion (some e.display),
            by simp only [prepareTrail, denial, hashed, secrets, debit], rfl⟩)⟩
        | ok budgetAfter =>
          have debits : state.debits pending = budgetAfter.2 := by
            simp only [AppState.debits, denial, hashed, secrets, debit]
          change (∃ execution, state.buildAuthorizedExecution pending traceId decryptedSecrets requestHash budgetAfter =
            .ok execution ∧ _) ∨ ∃ e, state.buildAuthorizedExecution pending traceId decryptedSecrets requestHash
              budgetAfter = .error e ∧ _
          cases built : state.buildAuthorizedExecution pending traceId decryptedSecrets requestHash budgetAfter with
          | ok execution => exact .inl ⟨execution, rfl, by simp only [prepareTrail, denial, hashed, secrets, debit, built]⟩
          | error e =>
            refine .inr ⟨e, rfl, .inr ?_⟩
            by_cases lost : RollbackFailed (state.debits pending) rollback
            · exact .inl lost
            · rw [debits] at lost
              exact .inr ⟨(PipelineAudit.fromPending pending "digest_ok" config.devMode).event config timestamp .error
                pending.policyVersion (some e.display), by
                  simp only [prepareTrail, denial, hashed, secrets, debit, built, buildFailedTrail,
                    rollbackEvents_eq_nil lost, List.nil_append], rfl⟩

end AppState

/-- How the tail of an execution ends, as far as events go. -/
inductive TailEnd where
  | denied (denial : Denial) (rollback : Except String Unit)
  | refused (decision : Decision) (reason : String)
  | unverified (tag receiptId : String)
  | executed (output : RunOutput) (tag receiptId responseHash : String) (responseBytes : Nat) (receipt : ReceiptRow)
  | unhashable

/-- One write of a request: an event for `write_audit`, or the evidence of an
execution. -/
inductive AuditJob where
  | audit (event : AuditEvent)
  | evidence (receipt : ReceiptRow) (event : AuditEvent)

def AuditJob.event : AuditJob → AuditEvent
  | audit event | evidence _ event => event

namespace AuthorizedCall

def tailJobs (config : ExecutionConfig) (call : AuthorizedCall) (timestamp : String) : TailEnd → List AuditJob
  | .denied denial rollback =>
    ((rollbackEvents config call.budgetDebited rollback call.identity.traceId call.identity.sessionId denial.label
      timestamp) ++ [call.event config timestamp .deny (some denial.reason)]).map .audit
  | .refused decision reason => [.audit (call.event config timestamp decision (some reason))]
  | .unverified tag receiptId => [.audit (call.deniedAudit config timestamp tag receiptId)]
  | .executed output tag receiptId responseHash responseBytes receipt =>
    [.evidence receipt (call.finalAudit config timestamp output tag receiptId responseHash responseBytes)]
  | .unhashable => []

end AuthorizedCall

/-- What an event of a step says. -/
structure Verdict where
  decision : Decision
  policyVersion : Option String
  reason : Option String

/-- A request, with the way it goes: a call that ends in a step (a pending
approval among them), one whose task cannot be built once the session is
debited, one that is executed, and the approval of a stored call. -/
inductive PipelineRequest where
  | ended (audit : PipelineAudit) (verdict : Option Verdict)
  | buildFailed (audit : PipelineAudit) (verdict : Option Verdict) (sessionId : String) (debited : Bool)
    (rollback : Except String Unit)
  | executed (call : AuthorizedCall) (tail : TailEnd)
  | approved (state : AppState) (pending : PendingApproval) (rollback : Except String Unit) (call : AuthorizedCall)
    (tail : TailEnd)

namespace PipelineRequest
variable (config : ExecutionConfig)

/-- The trace id that is drawn for the request. -/
def traceId : PipelineRequest → String
  | ended audit _ | buildFailed audit _ _ _ _ => audit.traceId
  | executed call _ | approved _ _ _ call _ => call.identity.traceId

def stepJobs (audit : PipelineAudit) (timestamp : String) (verdict : Option Verdict) : List AuditJob :=
  (verdict.map fun v => AuditJob.audit (audit.event config timestamp v.decision v.policyVersion v.reason)).toList

/-- The writes of a request, in its order. -/
def jobs (timestamp : String) : PipelineRequest → List AuditJob
  | ended audit verdict => stepJobs config audit timestamp verdict
  | buildFailed audit verdict sessionId debited rollback =>
    stepJobs config audit timestamp verdict ++
      (rollbackEvents config debited rollback audit.traceId sessionId "build_run_task_error" timestamp).map .audit
  | executed call tail => call.tailJobs config timestamp tail
  | approved state pending rollback call tail =>
    match state.prepareApprovedExecution pending call.identity.traceId with
    | .ok execution => { call with toAuthorizedExecution := execution }.tailJobs config timestamp tail
    | .error _ => (state.prepareTrail config pending call.identity.traceId timestamp rollback).map .audit

/-- A tail in which no refund fails. -/
def TailSettled (debited : Bool) : TailEnd → Prop
  | .denied _ rollback => ¬RollbackFailed debited rollback
  | _ => True

/-- No refund fails. A preparation that fails does so at an exit that writes,
for a stored call whose own trace id is not in use. -/
def Undisturbed (used : List String) : PipelineRequest → Prop
  | ended _ _ => True
  | buildFailed _ _ _ debited rollback => ¬RollbackFailed debited rollback
  | executed call tail => TailSettled call.budgetDebited tail
  | approved state pending rollback call tail =>
    match state.prepareApprovedExecution pending call.identity.traceId with
    | .ok execution => TailSettled execution.budgetDebited tail
    | .error e => ¬AppState.Silent e ∧ ¬RollbackFailed (state.debits pending) rollback ∧ pending.traceId ∉ used

/-- A preparation that fails has left something to write. -/
def Speaks (timestamp : String) (request : PipelineRequest) : Prop :=
  match request with
  | approved state pending _ call _ =>
    (∃ e, state.prepareApprovedExecution pending call.identity.traceId = .error e) → request.jobs config timestamp ≠ []
  | _ => True

variable {config}

/-- At most one event is written, under a trace id that is not in use. -/
structure Orderly (used : List String) (jobs : List AuditJob) : Prop where
  single : jobs.length ≤ 1
  fresh : ∀ job ∈ jobs, job.event.traceId ∉ used

theorem orderly_nil (used : List String) : Orderly used [] :=
  ⟨by simp, by simp⟩

theorem orderly_singleton {used : List String} {job : AuditJob} (fresh : job.event.traceId ∉ used) :
    Orderly used [job] :=
  ⟨by simp, by simpa using fresh⟩

theorem stepJobs_orderly {used : List String} {audit : PipelineAudit} (fresh : audit.traceId ∉ used) (timestamp : String)
    (verdict : Option Verdict) : Orderly used (stepJobs config audit timestamp verdict) := by
  cases verdict with
  | none => exact orderly_nil used
  | some v => exact orderly_singleton fresh

theorem tailJobs_orderly {used : List String} {call : AuthorizedCall} {tail : TailEnd}
    (fresh : call.identity.traceId ∉ used) (settled : TailSettled call.budgetDebited tail) (timestamp : String) :
    Orderly used (call.tailJobs config timestamp tail) := by
  cases tail with
  | denied denial rollback =>
    simp only [AuthorizedCall.tailJobs, rollbackEvents_eq_nil settled, List.nil_append, List.map_cons, List.map_nil]
    exact orderly_singleton fresh
  | refused decision reason => exact orderly_singleton fresh
  | unverified tag receiptId => exact orderly_singleton fresh
  | executed output tag receiptId responseHash responseBytes receipt => exact orderly_singleton fresh
  | unhashable => exact orderly_nil used

theorem jobs_orderly {used : List String} {request : PipelineRequest} (fresh : request.traceId ∉ used)
    (undisturbed : request.Undisturbed used) (timestamp : String) :
    Orderly used (request.jobs config timestamp) ∧ request.Speaks config timestamp := by
  cases request with
  | ended audit verdict => exact ⟨stepJobs_orderly fresh timestamp verdict, trivial⟩
  | buildFailed audit verdict sessionId debited rollback =>
    refine ⟨?_, trivial⟩
    simp only [jobs, rollbackEvents_eq_nil undisturbed, List.map_nil, List.append_nil]
    exact stepJobs_orderly fresh timestamp verdict
  | executed call tail => exact ⟨tailJobs_orderly fresh undisturbed timestamp, trivial⟩
  | approved state pending rollback call tail =>
    rcases @AppState.prepareTrail_cases config state pending call.identity.traceId timestamp rollback with
      ⟨execution, prepared, -⟩ | ⟨e, failed, outcome⟩
    · simp only [Undisturbed, prepared] at undisturbed
      refine ⟨?_, fun ⟨e, failed⟩ => nomatch prepared.symm.trans failed⟩
      simp only [jobs, prepared]
      exact @tailJobs_orderly config used { call with toAuthorizedExecution := execution } tail fresh undisturbed timestamp
    · simp only [Undisturbed, failed] at undisturbed
      obtain ⟨speaks, settled, unused⟩ := undisturbed
      rcases outcome with silent | lost | ⟨event, trail, traced⟩
      · exact absurd silent speaks
      · exact absurd lost settled
      · have written : (approved state pending rollback call tail).jobs config timestamp = [.audit event] := by
          simp only [jobs, failed, trail, List.map_cons, List.map_nil]
        refine ⟨?_, fun _ => ?_⟩
        · rw [written]
          refine orderly_singleton ?_
          change event.traceId ∉ used
          rwa [traced]
        · rw [written]
          exact List.cons_ne_nil _ _

end PipelineRequest
namespace LedgerStore
variable {codec : Codec} {s : LedgerStore} {event : AuditEvent} {io : LedgerIo}

/-- The trace id is in the table. -/
def Traced (s : LedgerStore) (traceId : String) : Prop :=
  ∃ row ∈ s.committed.auditEvents, row.traceId = traceId

instance (s : LedgerStore) (traceId : String) : Decidable (s.Traced traceId) :=
  inferInstanceAs (Decidable (∃ row ∈ s.committed.auditEvents, row.traceId = traceId))

/-- Between transactions, a write of an event whose trace id is not in use adds
its row. -/
theorem writeEvent_adds (idle : s.transaction = none) (unlocked : io.lockPoisoned = false)
    (accepted : io.insertEvent = none) (fresh : ¬s.Traced event.traceId) :
    (s.writeEvent codec event io).1.transaction = none ∧
      (s.writeEvent codec event io).1.committed = s.committed.withEvent (s.chained event).row := by
  have seen : s.view = s.committed := by simp [view, idle]
  have inserted : s.Inserted event io := by
    refine ⟨unlocked, accepted, ?_⟩
    rw [seen]
    exact fun row member same => fresh ⟨row, member, same⟩
  rw [writeEvent_store inserted, committed_moveHead, seen]
  unfold moveHead put
  rw [idle]
  cases codec.hashText (s.chained event).toText with
  | error e => exact ⟨rfl, rfl⟩
  | ok hash => exact ⟨rfl, rfl⟩

end LedgerStore

namespace AuditTrail

/-- The ledger, what each request has yet to write, and the trace ids that
events were given so far. -/
structure World where
  ledger : LedgerStore
  pending : Nat → List AuditJob := fun _ => []
  used : List String

inductive Input where
  | arrive (i : Nat) (timestamp : String) (request : PipelineRequest)
  | write (i : Nat) (io : LedgerIo)

inductive Answer where
  | accepted
  | busy
  | stored (event : AuditEvent)
  | discarded (event : AuditEvent)
  | nothing

variable (config : ExecutionConfig)

def doJob (ledger : LedgerStore) (io : LedgerIo) : AuditJob → LedgerStore
  | .audit event => (ledger.writeEvent config.codec event io).1
  | .evidence receipt event => (ledger.finalizeEvidence config.codec receipt event io).1

/-- Whether a job has added its row is read off the table. -/
def answerOf (before after : LedgerStore) (event : AuditEvent) : Answer :=
  if after.committed.auditEvents.length = before.committed.auditEvents.length + 1 ∧ after.Traced event.traceId then
    .stored event
  else .discarded event

def step (w : World) : Input → World × Answer
  | .arrive i timestamp request =>
    match w.pending i with
    | [] =>
      let jobs := request.jobs config timestamp
      ({ w with pending := Function.update w.pending i jobs, used := jobs.map (·.event.traceId) ++ w.used }, .accepted)
    | _ :: _ => (w, .busy)
  | .write i io =>
    match w.pending i with
    | [] => (w, .nothing)
    | job :: rest =>
      let ledger := doJob config w.ledger io job
      ({ w with ledger, pending := Function.update w.pending i rest }, answerOf w.ledger ledger job.event)

def machine : Machine World Input Answer where
  step := step config

/-- The gate starts on a ledger of earlier runs. -/
def start (ledger : LedgerStore) : World where
  ledger := ledger
  used := ledger.committed.auditEvents.map (·.traceId)

/-- The ledger does not fail, and the trace id of a request is drawn afresh. -/
def Regular (w : World) : Input → Prop
  | .arrive _ _ request => request.traceId ∉ w.used
  | .write _ io => io.lockPoisoned = false ∧ io.beginTransaction = none ∧ io.insertReceipt = none ∧
      io.insertEvent = none ∧ io.commit.isNone

/-- Besides, no refund fails, and no preparation of an approved call fails
whose request has written before. -/
def Guarded (w : World) (input : Input) : Prop :=
  Regular w input ∧ match input with
    | .arrive _ _ request => request.Undisturbed w.used
    | .write _ _ => True

/-- No event is discarded, and a denial of an approved call is not silent. -/
def Recorded : Input → Answer → Prop
  | .write _ _, .discarded _ => False
  | .arrive _ timestamp request, .accepted => request.Speaks config timestamp
  | _, _ => True

/-- What waits to be written has trace ids of its own. -/
structure Fresh (w : World) : Prop where
  idle : w.ledger.transaction = none
  rows : ∀ traceId, w.ledger.Traced traceId → traceId ∈ w.used
  single : ∀ i, (w.pending i).length ≤ 1
  known : ∀ i, ∀ job ∈ w.pending i, job.event.traceId ∈ w.used
  unwritten : ∀ i, ∀ job ∈ w.pending i, ¬w.ledger.Traced job.event.traceId
  apart : ∀ i j, i ≠ j → ∀ job ∈ w.pending i, ∀ other ∈ w.pending j, job.event.traceId ≠ other.event.traceId

variable {config} {w : World}

theorem fresh_start {ledger : LedgerStore} (idle : ledger.transaction = none) : Fresh (start ledger) where
  idle := idle
  rows := by
    rintro traceId ⟨row, member, rfl⟩
    exact List.mem_map_of_mem member
  single i := by simp [start]
  known i job member := by simp [start] at member
  unwritten i job member := by simp [start] at member
  apart i j differ job member := by simp [start] at member

/-- Done without a fault, a job of a fresh trace id adds its row and no other. -/
theorem doJob_adds {ledger : LedgerStore} {io : LedgerIo} {job : AuditJob} {i : Nat} (idle : ledger.transaction = none)
    (sound : Regular w (.write i io)) (fresh : ¬ledger.Traced job.event.traceId) :
    (doJob config ledger io job).transaction = none ∧ ∃ row, row.traceId = job.event.traceId ∧
      (doJob config ledger io job).committed.auditEvents = ledger.committed.auditEvents ++ [row] := by
  obtain ⟨unlocked, begun, receipted, accepted, committed⟩ := sound
  cases job with
  | audit event =>
    obtain ⟨ended, added⟩ := @LedgerStore.writeEvent_adds config.codec ledger event io idle unlocked accepted fresh
    refine ⟨ended, (ledger.chained event).row, rfl, ?_⟩
    simp only [doJob, added, Tables.withEvent]
  | evidence receipt event =>
    have seen : ledger.view = ledger.committed := by simp [LedgerStore.view, idle]
    have whole : ledger.Committed event io := by
      refine ⟨⟨unlocked, accepted, ?_⟩, idle, begun, receipted, committed⟩
      rw [seen]
      exact fun row member same => fresh ⟨row, member, same⟩
    have done : doJob config ledger io (.evidence receipt event) =
        (LedgerStore.moveHead config.codec
          { ledger with committed := (ledger.committed.withReceipt receipt).withEvent (ledger.chained event).row }
          (ledger.chained event).toText).1 := by
      simp only [doJob, LedgerStore.finalizeEvidence_of_committed whole]
    have stored := @LedgerStore.committed_moveHead config.codec
      { ledger with committed := (ledger.committed.withReceipt receipt).withEvent (ledger.chained event).row }
      (ledger.chained event).toText
    refine ⟨?_, (ledger.chained event).row, rfl, ?_⟩
    · rw [done]
      unfold LedgerStore.moveHead
      cases config.codec.hashText (ledger.chained event).toText with
      | error e => exact idle
      | ok hash => exact idle
    · rw [done, stored]
      simp only [Tables.withEvent, Tables.auditEvents_withReceipt]

theorem traced_of_append {before after : LedgerStore} {row : EventRow}
    (added : after.committed.auditEvents = before.committed.auditEvents ++ [row]) (traceId : String) :
    after.Traced traceId ↔ before.Traced traceId ∨ row.traceId = traceId := by
  simp [LedgerStore.Traced, added, or_and_right, exists_or]

theorem answerOf_added {before after : LedgerStore} {row : EventRow} {event : AuditEvent}
    (same : row.traceId = event.traceId)
    (added : after.committed.auditEvents = before.committed.auditEvents ++ [row]) :
    answerOf before after event = .stored event := by
  unfold answerOf
  rw [if_pos ⟨by rw [added, List.length_append, List.length_singleton], (traced_of_append added _).mpr (.inr same)⟩]

/-- A second event under a trace id leaves the ledger as it is. -/
theorem answerOf_refused {ledger : LedgerStore} {io : LedgerIo} {event : AuditEvent} (idle : ledger.transaction = none)
    (traced : ledger.Traced event.traceId) :
    answerOf ledger (doJob config ledger io (.audit event)) event = .discarded event := by
  have refused : ¬ledger.Inserted event io := by
    rintro ⟨-, -, unused⟩
    obtain ⟨row, member, same⟩ := traced
    refine unused row ?_ same
    rwa [LedgerStore.view, idle]
  obtain ⟨e, failed⟩ := LedgerStore.writeEvent_of_not_inserted config.codec refused
  have kept : doJob config ledger io (.audit event) = ledger := congrArg Prod.fst failed
  rw [kept, answerOf, if_neg]
  exact fun grown => Nat.succ_ne_self _ grown.1.symm

theorem step_arrive {i : Nat} {timestamp : String} {request : PipelineRequest} (idle : w.pending i = []) :
    step config w (.arrive i timestamp request) =
      ({ w with
        pending := Function.update w.pending i (request.jobs config timestamp)
        used := (request.jobs config timestamp).map (·.event.traceId) ++ w.used }, .accepted) := by
  simp only [step, idle]

theorem step_write {i : Nat} {io : LedgerIo} {job : AuditJob} {rest : List AuditJob} (waits : w.pending i = job :: rest) :
    step config w (.write i io) =
      ({ w with ledger := doJob config w.ledger io job, pending := Function.update w.pending i rest },
        answerOf w.ledger (doJob config w.ledger io job) job.event) := by
  simp only [step, waits]

theorem mem_update {pending : Nat → List AuditJob} {i j : Nat} {jobs : List AuditJob} {job : AuditJob}
    (member : job ∈ Function.update pending i jobs j) : j = i ∧ job ∈ jobs ∨ j ≠ i ∧ job ∈ pending j := by
  by_cases own : j = i
  · subst own
    rw [Function.update_self] at member
    exact .inl ⟨rfl, member⟩
  · rw [Function.update_of_ne own] at member
    exact .inr ⟨own, member⟩

/-- A request that has come in keeps the trace ids apart. -/
theorem fresh_arrive {i : Nat} {jobs : List AuditJob} (fresh : Fresh w) (orderly : PipelineRequest.Orderly w.used jobs) :
    Fresh { w with pending := Function.update w.pending i jobs, used := jobs.map (·.event.traceId) ++ w.used } := by
  have apart : ∀ j, ∀ job ∈ jobs, ∀ other ∈ w.pending j, job.event.traceId ≠ other.event.traceId := by
    intro j job member other waits same
    exact orderly.fresh job member (same ▸ fresh.known j other waits)
  constructor
  · exact fresh.idle
  · intro traceId traced
    exact List.mem_append_right _ (fresh.rows traceId traced)
  · intro j
    by_cases own : j = i
    · subst own
      simpa using orderly.single
    · simpa [Function.update_of_ne own] using fresh.single j
  · intro j job member
    rcases mem_update member with ⟨-, new⟩ | ⟨-, old⟩
    · exact List.mem_append_left _ (List.mem_map_of_mem new)
    · exact List.mem_append_right _ (fresh.known j job old)
  · intro j job member traced
    rcases mem_update member with ⟨-, new⟩ | ⟨-, old⟩
    · exact orderly.fresh job new (fresh.rows _ traced)
    · exact fresh.unwritten j job old traced
  · intro j k differ job member other waits
    rcases mem_update member with ⟨rfl, new⟩ | ⟨-, old⟩
    · rcases mem_update waits with ⟨same, -⟩ | ⟨-, before⟩
      · exact absurd same.symm differ
      · exact apart k job new other before
    · rcases mem_update waits with ⟨-, new⟩ | ⟨-, before⟩
      · exact (apart j other new job old).symm
      · exact fresh.apart j k differ job old other before

/-- A write that adds the row of its job leaves the other jobs unwritten. -/
theorem fresh_write {i : Nat} {job : AuditJob} {rest : List AuditJob} {ledger : LedgerStore} {row : EventRow}
    (fresh : Fresh w) (waits : w.pending i = job :: rest) (idle : ledger.transaction = none)
    (same : row.traceId = job.event.traceId)
    (added : ledger.committed.auditEvents = w.ledger.committed.auditEvents ++ [row]) :
    Fresh { w with ledger, pending := Function.update w.pending i rest } := by
  have last : rest = [] := by
    have short := fresh.single i
    rw [waits, List.length_cons] at short
    exact List.eq_nil_of_length_eq_zero (by omega)
  subst last
  have member : job ∈ w.pending i := by
    rw [waits]
    exact List.mem_cons_self
  have elsewhere : ∀ j, ∀ other ∈ Function.update w.pending i [] j, j ≠ i ∧ other ∈ w.pending j := by
    intro j other later
    rcases mem_update later with ⟨-, none⟩ | before
    · exact absurd none List.not_mem_nil
    · exact before
  constructor
  · exact idle
  · intro traceId traced
    rcases (traced_of_append added traceId).mp traced with old | here
    · exact fresh.rows traceId old
    · rw [← here, same]
      exact fresh.known i job member
  · intro j
    by_cases own : j = i
    · subst own
      simp
    · simpa [Function.update_of_ne own] using fresh.single j
  · intro j other later
    exact fresh.known j other (elsewhere j other later).2
  · intro j other later traced
    obtain ⟨differs, before⟩ := elsewhere j other later
    rcases (traced_of_append added _).mp traced with old | here
    · exact fresh.unwritten j other before old
    · exact fresh.apart j i differs other before job member (here.symm.trans same)
  · intro j k differ first one second two
    exact fresh.apart j k differ first (elsewhere j first one).2 second (elsewhere k second two).2

theorem step_fresh {input : Input} (guarded : Guarded w input) (fresh : Fresh w) :
    Fresh (step config w input).1 ∧ Recorded config input (step config w input).2 := by
  obtain ⟨regular, undisturbed⟩ := guarded
  cases input with
  | arrive i timestamp request =>
    obtain ⟨orderly, speaks⟩ := @PipelineRequest.jobs_orderly config w.used request regular undisturbed timestamp
    cases waits : w.pending i with
    | nil =>
      simp only [step, waits]
      exact ⟨fresh_arrive fresh orderly, speaks⟩
    | cons job rest =>
      simp only [step, waits]
      exact ⟨fresh, trivial⟩
  | write i io =>
    cases waits : w.pending i with
    | nil =>
      simp only [step, waits]
      exact ⟨fresh, trivial⟩
    | cons job rest =>
      have unwritten := fresh.unwritten i job (by rw [waits]; exact List.mem_cons_self)
      obtain ⟨idle, row, same, added⟩ := @doJob_adds config w w.ledger io job i fresh.idle regular unwritten
      simp only [step, waits]
      rw [answerOf_added same added]
      exact ⟨fresh_write fresh waits idle same added, trivial⟩

/-- As long as no refund fails, and no approved call is refused whose request
has written before, every event gets its row. -/
theorem every_event_recorded (config : ExecutionConfig) {ledger : LedgerStore} (idle : ledger.transaction = none)
    {inputs : List Input} (meets : (machine config).Meets Guarded (start ledger) inputs) :
    ∀ entry ∈ (machine config).trace (start ledger) inputs, Recorded config entry.1 entry.2 :=
  (@Machine.Meets.trace_all _ _ _ (machine config) Guarded Fresh (Recorded config)
    (fun _ _ guarded fresh => (step_fresh guarded fresh).1) (fun _ _ guarded fresh => (step_fresh guarded fresh).2)
    (start ledger) (fresh_start idle) inputs meets).2

def isLost : Input × Answer → Bool
  | (.write _ _, .discarded _) => true
  | _ => false

theorem not_recorded_of_isLost {entry : Input × Answer} (lost : isLost entry = true) :
    ¬Recorded config entry.1 entry.2 := by
  obtain ⟨input, answer⟩ := entry
  cases input with
  | arrive i timestamp request => exact nomatch lost
  | write i io => cases answer with
    | discarded event => exact id
    | accepted | busy | stored | nothing => exact nomatch lost

/-- A call that waits for its approval under the first trace id. -/
def sampleAudit : PipelineAudit :=
  .fromPending (.testDefault "appr-1") "digest_ok" false

def sampleArrival : Input :=
  .arrive 0 "1970-01-01T00:00:00.000Z" (.ended sampleAudit (some ⟨.pendingApproval, some "test-v1", none⟩))

/-- Its approval, with a plan that has lost its hash. -/
def sampleApproval : Input :=
  .arrive 1 "1970-01-01T00:02:00.000Z" (.approved AppState.fsGate (.testDefault "appr-1") (.ok ())
    { Requests.sampleCall with identity := ⟨"t-2", "agent:test", none, "sess-001", "jti-abc"⟩ } .unhashable)

theorem every_event_recorded_sample :
    (machine Requests.sampleConfig).Meets Guarded (start {}) [sampleArrival, .write 0 {}] ∧
      ∀ entry ∈ (machine Requests.sampleConfig).trace (start {}) [sampleArrival, .write 0 {}],
        Recorded Requests.sampleConfig entry.1 entry.2 := by
  have meets : (machine Requests.sampleConfig).Meets Guarded (start {}) [sampleArrival, .write 0 {}] :=
    ⟨⟨List.not_mem_nil, trivial⟩, ⟨⟨rfl, rfl, rfl, rfl, rfl⟩, trivial⟩, trivial⟩
  exact ⟨meets, every_event_recorded Requests.sampleConfig rfl meets⟩

def sampleEvent : AuditEvent :=
  sampleAudit.event Requests.sampleConfig "1970-01-01T00:00:00.000Z" .pendingApproval (some "test-v1") none

def sampleDenial : AuditEvent :=
  buildPlanDenyAudit Requests.sampleConfig (.testDefault "appr-1") "plan_hash_failed"
    "execution plan hash verification failed — possible tampering" "1970-01-01T00:02:00.000Z"

/-- The plan has no hash, and the call is denied in its own name. -/
theorem jobs_sampleDenial :
    (PipelineRequest.approved AppState.fsGate (.testDefault "appr-1") (.ok ())
      { Requests.sampleCall with identity := ⟨"t-2", "agent:test", none, "sess-001", "jti-abc"⟩ } .unhashable).jobs
      Requests.sampleConfig "1970-01-01T00:02:00.000Z" = [.audit sampleDenial] := by
  have unhashed : AppState.fsGate.verifyPlanHash (PendingApproval.testDefault "appr-1").plan = false := rfl
  have invalid : AppState.fsGate.validateApprovedPlan (.testDefault "appr-1") =
      .error (.planIntegrity "execution plan hash verification failed") := if_pos unhashed
  have refused : AppState.fsGate.prepareApprovedExecution (.testDefault "appr-1") "t-2" =
      .error (.planIntegrity "execution plan hash verification failed") := by
    rw [AppState.prepareApprovedExecution, invalid]
    rfl
  have trail : AppState.fsGate.prepareTrail Requests.sampleConfig (.testDefault "appr-1") "t-2" "1970-01-01T00:02:00.000Z" (.ok ()) =
      [sampleDenial] := by
    rw [AppState.prepareTrail, AppState.planDenial, if_pos unhashed]
    rfl
  simp only [PipelineRequest.jobs, refused, trail, List.map_cons, List.map_nil]

/-- The denial of the approved call is written under the trace id that the
pending call has used, and is discarded. -/
theorem denial_discarded :
    (machine Requests.sampleConfig).Meets Regular (start {}) [sampleArrival, .write 0 {}, sampleApproval, .write 1 {}] ∧
      ¬∀ entry ∈ (machine Requests.sampleConfig).trace (start {})
        [sampleArrival, .write 0 {}, sampleApproval, .write 1 {}], Recorded Requests.sampleConfig entry.1 entry.2 := by
  constructor
  · refine ⟨List.not_mem_nil, ⟨rfl, rfl, rfl, rfl, rfl⟩, ?_, ⟨rfl, rfl, rfl, rfl, rfl⟩, trivial⟩
    change "t-2" ∉ ["trace-1"]
    decide
  · intro all
    obtain ⟨ended, row, same, added⟩ := @doJob_adds Requests.sampleConfig (start {}) {} {} (.audit sampleEvent) 0 rfl
      ⟨rfl, rfl, rfl, rfl, rfl⟩ (by rintro ⟨row, member, -⟩; cases member)
    have traced : (doJob Requests.sampleConfig {} {} (.audit sampleEvent)).Traced sampleDenial.traceId :=
      (traced_of_append added _).mpr (.inr same)
    refine all (.write 1 {}, .discarded sampleDenial) ?_
    have first : (PipelineRequest.ended sampleAudit (some ⟨.pendingApproval, some "test-v1", none⟩)).jobs Requests.sampleConfig
        "1970-01-01T00:00:00.000Z" = [.audit sampleEvent] := rfl
    simp only [Machine.trace, machine]
    rw [sampleArrival, step_arrive rfl, first, @step_write _ _ 0 {} (.audit sampleEvent) [] rfl, sampleApproval,
      step_arrive rfl, jobs_sampleDenial, @step_write _ _ 1 {} (.audit sampleDenial) [] rfl]
    simp only [start, AuditJob.event] at ended traced ⊢
    rw [answerOf_refused ended traced]
    exact List.mem_cons_of_mem _ (List.mem_cons_of_mem _ (List.mem_cons_of_mem _ List.mem_cons_self))

end AuditTrail
end Latchgate
