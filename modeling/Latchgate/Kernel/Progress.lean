import Latchgate.Kernel.Requests
import Latchgate.Ledger.Intents

namespace Latchgate

/-- Every row of one state of the tables is in the other. -/
structure Tables.Within (t u : Tables) : Prop where
  auditEvents : t.auditEvents ⊆ u.auditEvents
  receipts : t.receipts ⊆ u.receipts
  executionIntents : t.executionIntents ⊆ u.executionIntents
  consumedGrants : t.consumedGrants ⊆ u.consumedGrants

namespace Tables
variable {t u v : Tables}

theorem Within.refl (t : Tables) : t.Within t :=
  ⟨List.Subset.refl _, List.Subset.refl _, List.Subset.refl _, List.Subset.refl _⟩

theorem Within.trans (first : t.Within u) (second : u.Within v) : t.Within v :=
  ⟨List.Subset.trans first.1 second.1, List.Subset.trans first.2 second.2, List.Subset.trans first.3 second.3,
    List.Subset.trans first.4 second.4⟩

theorem within_withEvent (t : Tables) (row : EventRow) : t.Within (t.withEvent row) :=
  { Within.refl t with auditEvents := List.subset_append_left _ _ }

theorem within_withReceipt (t : Tables) (row : ReceiptRow) : t.Within (t.withReceipt row) := by
  unfold withReceipt
  split
  · exact Within.refl t
  · exact { Within.refl t with receipts := List.subset_append_left _ _ }

theorem subset_intentsWith (t : Tables) (intent : ExecutionIntent) : t.executionIntents ⊆ t.intentsWith intent := by
  unfold intentsWith
  split
  · exact List.Subset.refl _
  · exact List.subset_append_left _ _

theorem within_withIntent (t : Tables) (intent : ExecutionIntent) (grant : ConsumedGrant) :
    t.Within (t.withIntent intent grant) :=
  { Within.refl t with
    executionIntents := subset_intentsWith t intent
    consumedGrants := List.subset_append_left _ _ }

end Tables

namespace LedgerStore
variable {codec : Codec} {s : LedgerStore} {event : AuditEvent} {io : LedgerIo}

theorem committed_moveHead (s : LedgerStore) (eventJson : String) :
    (moveHead codec s eventJson).1.committed = s.committed := by
  unfold moveHead
  cases codec.hashText eventJson <;> rfl

theorem within_put {t : Tables} (within : s.view.Within t) : s.committed.Within (s.put t).committed := by
  unfold put
  cases active : s.transaction with
  | some open_ => exact Tables.Within.refl _
  | none => simpa [view, active] using within

/-- What was committed stays committed through a write of an event. -/
theorem within_writeEvent (codec : Codec) (s : LedgerStore) (event : AuditEvent) (io : LedgerIo) :
    s.committed.Within (s.writeEvent codec event io).1.committed := by
  by_cases inserted : s.Inserted event io
  · rw [writeEvent_store inserted, committed_moveHead]
    exact within_put (Tables.within_withEvent s.view (s.chained event).row)
  · obtain ⟨e, unchanged⟩ := writeEvent_of_not_inserted codec inserted
    rw [unchanged]
    exact Tables.Within.refl _

/-- The receipt is there afterwards, or the write is refused. -/
theorem writeReceipt_cases (s : LedgerStore) (row : ReceiptRow) (io : LedgerIo) :
    (∃ e, s.writeReceipt row io = (s, .error e)) ∨ s.writeReceipt row io = (s.put (s.view.withReceipt row), .ok ()) := by
  unfold writeReceipt
  split
  · exact .inl ⟨_, rfl⟩
  · cases io.insertReceipt with
    | some message => exact .inl ⟨_, rfl⟩
    | none =>
      have stored : s.execute none (Tables.insertOrIgnoreReceipt row) = .ok (s.put (s.view.withReceipt row)) := by
        unfold execute Tables.insertOrIgnoreReceipt Tables.withReceipt
        dsimp only
        split <;> rfl
      rw [stored]
      exact .inr rfl

theorem within_writeReceipt (s : LedgerStore) (row : ReceiptRow) (io : LedgerIo) :
    s.committed.Within (s.writeReceipt row io).1.committed := by
  rcases writeReceipt_cases s row io with ⟨e, refused⟩ | stored
  · rw [refused]
    exact Tables.Within.refl _
  · rw [stored]
    exact within_put (Tables.within_withReceipt _ _)

end LedgerStore

namespace Requests
variable {config : ExecutionConfig} {w : World} {env : Env}

theorem blocking_panicked (panicked : env.taskPanicked = true)
    (task : LedgerStore → LedgerStore × Except LedgerError Unit) :
    blocking w env task = (w, .error (.io "task panicked")) := by
  simp [blocking, panicked]

theorem blocking_calm (calm : env.taskPanicked = false) (task : LedgerStore → LedgerStore × Except LedgerError Unit) :
    blocking w env task = ({ w with ledger := (task w.ledger).1 }, (task w.ledger).2) := by
  simp [blocking, calm]

/-- The write of an intent either leaves what is committed and denies the
call, or commits the intent with its grant and dispatches the call. -/
theorem recordIntent_cases (config : ExecutionConfig) (w : World) (env : Env) (origin : Origin) (call : AuthorizedCall)
    (startedAt : DateTime) :
    (∃ ledger denial, ledger.committed = w.ledger.committed ∧ recordIntent config w env origin call startedAt =
        ({ w with ledger }, denyPreDispatch config origin call env.timestamp denial, .nothing)) ∨
      w.ledger.transaction = none ∧ w.ledger.committed.Unconsumed call.grant.grantId ∧
        recordIntent config w env origin call startedAt =
          ({ w with ledger := { w.ledger with committed :=
              (w.ledger.committed.withIntent (call.intent startedAt.rfc3339)
                ⟨call.grant.grantId, call.action.actionId, call.identity.principal, env.timestamp⟩) } },
            .awaitingPermit origin call startedAt, .dispatched call) := by
  unfold recordIntent
  cases panicked : env.taskPanicked with
  | true =>
    rw [blocking_panicked panicked]
    exact .inl ⟨w.ledger, _, rfl, rfl⟩
  | false =>
    rw [blocking_calm panicked]
    rcases LedgerStore.writeIntent_cases w.ledger (call.intent startedAt.rfc3339) call.action.actionId
      call.identity.principal env.timestamp env.ledgerIo with ⟨e, refused⟩ | ⟨idle, fresh, written | ⟨-, e, left⟩⟩
    · simp only [refused]
      exact .inl ⟨w.ledger, _, rfl, rfl⟩
    · simp only [written]
      exact .inr ⟨idle, fresh, rfl⟩
    · simp only [left]
      refine .inl ⟨_, _, ?_, rfl⟩
      rfl

/-- The evidence is committed or not; a response is made only when it is. -/
theorem finalize_cases (config : ExecutionConfig) (w : World) (env : Env) (origin : Origin) (call : AuthorizedCall)
    (receipt : ReceiptRow) (event : AuditEvent) (response : ExecutedResponse) :
    (¬(env.taskPanicked = false ∧ w.ledger.Committed event env.ledgerIo) ∧
        finalize config w env origin call receipt event response = (w, closeWith origin call.identity.traceId []
          (.error (.evidencePersistenceFailed call.identity.traceId call.grant.grantId)))) ∨
      (env.taskPanicked = false ∧ w.ledger.Committed event env.ledgerIo) ∧ ∃ ledger result,
        ledger.committed = (w.ledger.committed.withReceipt receipt).withEvent (w.ledger.chained event).row ∧
        (result = .ok response ∨
          result = .error (.evidencePersistenceFailed call.identity.traceId call.grant.grantId)) ∧
        finalize config w env origin call receipt event response =
          ({ w with ledger }, closeWith origin call.identity.traceId [] result) := by
  unfold finalize
  cases panicked : env.taskPanicked with
  | true =>
    rw [blocking_panicked panicked]
    exact .inl ⟨by simp, rfl⟩
  | false =>
    rw [blocking_calm panicked]
    by_cases committed : w.ledger.Committed event env.ledgerIo
    · refine .inr ⟨⟨by simp, committed⟩, ?_⟩
      simp only [LedgerStore.finalizeEvidence_of_committed committed]
      cases hashed : config.codec.hashText (w.ledger.chained event).toText with
      | error e =>
        rw [LedgerStore.moveHead_error hashed]
        exact ⟨_, _, rfl, .inr rfl, rfl⟩
      | ok hash =>
        rw [LedgerStore.moveHead_ok hashed]
        exact ⟨_, _, rfl, .inl rfl, rfl⟩
    · obtain ⟨e, unchanged⟩ := LedgerStore.finalizeEvidence_of_not_committed config.codec receipt committed
      refine .inl ⟨by simp [committed], ?_⟩
      simp only [unchanged]

/-- The receipt, the event and the response are those of the call. -/
structure Concludes (call : AuthorizedCall) (receipt : ReceiptRow) (event : AuditEvent) (response : ExecutedResponse) :
    Prop where
  receiptId : receipt.receiptId = response.receiptId
  receiptGrant : receipt.grantId = call.grant.grantId
  responseGrant : response.grantId = call.grant.grantId
  eventTrace : event.traceId = call.identity.traceId
  responseTrace : response.traceId = call.identity.traceId
  eventReceipt : event.execution.receiptId = some response.receiptId
  eventGrant : event.execution.grantId = some call.grant.grantId

/-- Everything a step of a request can do, with what decides it. -/
inductive Step (config : ExecutionConfig) (w : World) (env : Env) : Phase → World → Phase → Emission → Prop
  | idle : Step config w env .idle w .idle .nothing
  | turnedAway (task : Task) (error : PipelineError) :
    Step config w env (.arrived task) w (.closing [] (.call (.error error))) .nothing
  | admitted (accepting : w.isDraining = false) : Step config w env (.arrived .actionCall) w .deciding .nothing
  | approving (approvalId operatorId : String) (accepting : w.isDraining = false) :
    Step config w env (.arrived (.approve approvalId operatorId)) w (.claiming approvalId operatorId) .nothing
  | executing (call : AuthorizedCall) :
    Step config w env (.arrived (.execute call)) w (.authorized .autoAllow call) .nothing
  | loadedEpoch : Step config w env (.arrived .revokeAll) w (.revoking w.revocationEpoch) .nothing
  | draining :
    Step config w env (.arrived .postDrain) { w with isDraining := true } (.readingInFlight true (some !w.isDraining))
      .nothing
  | looking : Step config w env (.arrived .getStatus) w (.readingInFlight w.isDraining none) .nothing
  | noting (event : AuditEvent) :
    Step config w env (.arrived (.note event)) w (.closing [.audit event] .noted) .nothing
  | denied (error : PipelineError) : Step config w env .deciding w (.closing [] (.call (.error error))) .nothing
  | allowed : Step config w env .deciding w (.debiting .autoAllow env.sessionId env.hasBudgets) .nothing
  | claimed (approvalId operatorId : String) (approval : ClaimedApproval)
    (granted : (w.gate.store.claimPending config.approvals env.store approvalId operatorId env.claimToken).2 =
      .ok approval) :
    Step config w env (.claiming approvalId operatorId)
      { w with gate := { w.gate with store :=
        (w.gate.store.claimPending config.approvals env.store approvalId operatorId env.claimToken).1 } }
      (.claimed approvalId env.claimToken) (.claimed approvalId)
  | unclaimed (approvalId operatorId : String) (error : PipelineError) :
    Step config w env (.claiming approvalId operatorId)
      { w with gate := { w.gate with store :=
        (w.gate.store.claimPending config.approvals env.store approvalId operatorId env.claimToken).1 } }
      (.closing [] (.call (.error error))) .nothing
  | alreadyExecuted (approvalId claimToken : String) (error : PipelineError) :
    Step config w env (.claimed approvalId claimToken) w
      (.closing [.complete approvalId claimToken "reconcile" .failed "already_executed"] (.call (.error error))) .nothing
  | unlearnable (approvalId claimToken : String) (error : PipelineError)
    (unseen : hasDurableOutcome w.gate.outcomes env.ledgerFault approvalId = false)
    (failed : env.learnPath = .error error) :
    Step config w env (.claimed approvalId claimToken) w (.closing [] (.call (.error error))) .nothing
  | refusedPlan (approvalId claimToken traceId : String) (error : PipelineError) :
    Step config w env (.claimed approvalId claimToken) w
      (closeWith (.approval approvalId claimToken) traceId (env.event.toList.map .audit) (.error error)) .nothing
  | acceptedPlan (approvalId claimToken : String) :
    Step config w env (.claimed approvalId claimToken) w
      (.debiting (.approval approvalId claimToken) env.sessionId env.hasBudgets) .nothing
  | unbudgeted (origin : Origin) (sessionId : String) :
    Step config w env (.debiting origin sessionId false) w (.building origin sessionId false) .nothing
  | debitRefused (origin : Origin) (sessionId traceId : String) (error : PipelineError) :
    Step config w env (.debiting origin sessionId true) w
      (closeWith origin traceId (env.event.toList.map .audit) (.error error)) .nothing
  | debitLost (origin : Origin) (sessionId traceId message : String) (error : PipelineError)
    (lost : env.store.fault = some (.answerLost message)) :
    Step config w env (.debiting origin sessionId true)
      { w with budgets := (w.budgets.getAndDebit sessionId env.store.clock).1 }
      (closeWith origin traceId (env.event.toList.map .audit) (.error error)) (.debited sessionId)
  | debited (origin : Origin) (sessionId : String) :
    Step config w env (.debiting origin sessionId true)
      { w with budgets := (w.budgets.getAndDebit sessionId env.store.clock).1 }
      (.building origin sessionId true) (.debited sessionId)
  | built (origin : Origin) (sessionId : String) (budgetDebited : Bool) :
    Step config w env (.building origin sessionId budgetDebited) w
      (.preparing origin (buildCall config w env sessionId budgetDebited))
      (.built (buildCall config w env sessionId budgetDebited))
  | prepared (origin : Origin) (call : AuthorizedCall) :
    Step config w env (.preparing origin call) w (.authorized origin call) .nothing
  | unprepared (origin : Origin) (call : AuthorizedCall) (error : PipelineError) :
    Step config w env (.preparing origin call) w (prepareFailed origin call env.event error) .nothing
  | cleared (origin : Origin) (call : AuthorizedCall)
    (passed : call.validateGrantPreDispatch config env.now w.revocationEpoch = .ok ()) :
    Step config w env (.authorized origin call) w (.recordingIntent origin call env.now)
      (.cleared call env.now w.revocationEpoch)
  | refusedGrant (origin : Origin) (call : AuthorizedCall) (denial : Denial) :
    Step config w env (.authorized origin call) w (denyPreDispatch config origin call env.timestamp denial) .nothing
  | unrecorded (origin : Origin) (call : AuthorizedCall) (startedAt : DateTime) (ledger : LedgerStore) (denial : Denial)
    (committed : ledger.committed = w.ledger.committed) :
    Step config w env (.recordingIntent origin call startedAt) { w with ledger }
      (denyPreDispatch config origin call env.timestamp denial) .nothing
  | dispatched (origin : Origin) (call : AuthorizedCall) (startedAt : DateTime) (grant : ConsumedGrant)
    (consumes : grant.grantId = call.grant.grantId) :
    Step config w env (.recordingIntent origin call startedAt)
      { w with ledger := { w.ledger with committed :=
        (w.ledger.committed.withIntent (call.intent startedAt.rfc3339) grant) } }
      (.awaitingPermit origin call startedAt) (.dispatched call)
  | waiting (origin : Origin) (call : AuthorizedCall) (startedAt : DateTime) (full : w.availablePermits = 0) :
    Step config w env (.awaitingPermit origin call startedAt) w (.awaitingPermit origin call startedAt) .nothing
  | moduleMissing (origin : Origin) (call : AuthorizedCall) (startedAt : DateTime) (message : String)
    (free : w.availablePermits ≠ 0) (missing : env.moduleLookup = .error message) :
    Step config w env (.awaitingPermit origin call startedAt) w (providerFailed config origin call env.timestamp message)
      .nothing
  | started (origin : Origin) (call : AuthorizedCall) (startedAt : DateTime) (free : w.availablePermits ≠ 0) :
    Step config w env (.awaitingPermit origin call startedAt) { w with availablePermits := w.availablePermits - 1 }
      (.running origin call startedAt) (.started call)
  | failed (origin : Origin) (call : AuthorizedCall) (startedAt : DateTime) (message : String)
    (trapped : env.provider = .error message) :
    Step config w env (.running origin call startedAt) { w with availablePermits := w.availablePermits + 1 }
      (providerFailed config origin call env.timestamp message) .nothing
  | misshapen (origin : Origin) (call : AuthorizedCall) (startedAt : DateTime) (reason : String) (error : PipelineError)
    (violated : AuthorizedCall.enforceResponseSchema config env.responseSchema = .error (reason, error)) :
    Step config w env (.running origin call startedAt) { w with availablePermits := w.availablePermits + 1 }
      (closeWith origin call.identity.traceId [.audit (call.event config env.timestamp .deny (some reason))]
        (.error error)) .nothing
  | ran (origin : Origin) (call : AuthorizedCall) (startedAt : DateTime) (output : RunOutput) :
    Step config w env (.running origin call startedAt) { w with availablePermits := w.availablePermits + 1 }
      (.verifying origin call startedAt output) .nothing
  | unverified (origin : Origin) (call : AuthorizedCall) (startedAt : DateTime) (output : RunOutput) (row : ReceiptRow)
    (error : PipelineError) (risky : call.deniesHighRisk (verifierOutcome env.verification) = true) :
    Step config w env (.verifying origin call startedAt output) w
      (closeWith origin call.identity.traceId
        [.receipt row, .audit (call.deniedAudit config env.timestamp (verifierOutcome env.verification).tag env.receiptId)]
        (.error error)) .nothing
  | unhashable (origin : Origin) (call : AuthorizedCall) (startedAt : DateTime) (output : RunOutput)
    (error : PipelineError) (failure : CanonicalError)
    (unrisky : call.deniesHighRisk (verifierOutcome env.verification) = false)
    (refused : config.codec.canonicalHashWithLen output.stdout call.responseHashLimits = .error failure) :
    Step config w env (.verifying origin call startedAt output) w (closeWith origin call.identity.traceId [] (.error error))
      .nothing
  | concluded (origin : Origin) (call : AuthorizedCall) (startedAt : DateTime) (output : RunOutput) (receipt : ReceiptRow)
    (event : AuditEvent) (response : ExecutedResponse)
    (made : Concludes call receipt event response) :
    Step config w env (.verifying origin call startedAt output) w (.finalizing origin call receipt event response) .nothing
  | lostEvidence (origin : Origin) (call : AuthorizedCall) (receipt : ReceiptRow) (event : AuditEvent)
    (response : ExecutedResponse) (error : PipelineError)
    (uncommitted : ¬(env.taskPanicked = false ∧ w.ledger.Committed event env.ledgerIo)) :
    Step config w env (.finalizing origin call receipt event response) w
      (closeWith origin call.identity.traceId [] (.error error)) .nothing
  | storedEvidence (origin : Origin) (call : AuthorizedCall) (receipt : ReceiptRow) (event : AuditEvent)
    (response : ExecutedResponse) (ledger : LedgerStore) (result : Except PipelineError ExecutedResponse)
    (committed : ledger.committed =
      (w.ledger.committed.withReceipt receipt).withEvent (w.ledger.chained event).row)
    (answer : result.toOption = none ∨ result = .ok response) :
    Step config w env (.finalizing origin call receipt event response) { w with ledger }
      (closeWith origin call.identity.traceId [] result) .nothing
  | worked (job : Job) (jobs : List Job) (reply : Reply) :
    Step config w env (.closing (job :: jobs) reply) (doJob config w env job).1
      (.closing ((doJob config w env job).2.1 ++ jobs) reply) (doJob config w env job).2.2
  | returned (reply : Reply) : Step config w env (.closing [] reply) w (.replied reply) (.returned reply)
  | answered (reply : Reply) : Step config w env (.replied reply) w (.replied reply) .nothing
  | advanced (oldEpoch : UInt64) (event : AuditEvent) :
    Step config w env (.revoking oldEpoch) { w with revocationEpoch := w.revocationEpoch + 1 }
      (.closing [.audit event] (.revocation oldEpoch (w.revocationEpoch + 1)))
      (.advanced oldEpoch (w.revocationEpoch + 1))
  | counted (draining : Bool) (wasFirst : Option Bool) :
    Step config w env (.readingInFlight draining wasFirst) w
      (.closing (drainJobs config env (inFlightCount config w) wasFirst) (.drain draining (inFlightCount config w))) (.status draining (inFlightCount config w))
  | left (phase : Phase) : Step config w env (.orphaned phase) w (.orphaned phase) .nothing
  | gone : Step config w env .dropped w .dropped .nothing

theorem admitTask_step (config : ExecutionConfig) (w : World) (env : Env) (task : Task) :
    Step config w env (.arrived task) (admitTask w env task).1 (admitTask w env task).2.1 (admitTask w env task).2.2 := by
  cases task with
  | actionCall =>
    simp only [admitTask]
    split
    · exact .turnedAway _ _
    · exact .admitted (eq_false_of_ne_true ‹_›)
  | approve approvalId operatorId =>
    simp only [admitTask]
    split
    · exact .turnedAway _ _
    · split
      · exact .turnedAway _ _
      · exact .approving _ _ (eq_false_of_ne_true ‹_›)
  | execute call => exact .executing call
  | revokeAll => exact .loadedEpoch
  | postDrain => exact .draining
  | getStatus => exact .looking
  | note event => exact .noting event

theorem afterClaim_step (config : ExecutionConfig) (w : World) (env : Env) (approvalId claimToken : String) :
    Step config w env (.claimed approvalId claimToken) w (afterClaim w env approvalId claimToken) .nothing := by
  unfold afterClaim
  split
  · exact .alreadyExecuted _ _ _
  · split
    · exact .unlearnable _ _ _ (eq_false_of_ne_true ‹_›) ‹_›
    · exact .refusedPlan _ _ _ _
    · exact .acceptedPlan _ _

theorem debit_step (config : ExecutionConfig) (w : World) (env : Env) (origin : Origin) (sessionId : String) :
    Step config w env (.debiting origin sessionId true) (debit w env origin sessionId).1
      (debit w env origin sessionId).2.1 (debit w env origin sessionId).2.2 := by
  unfold debit
  dsimp only
  split
  · exact .debitRefused _ _ _ _
  · exact .debitRefused _ _ _ _
  · exact .debitLost _ _ _ _ _ ‹_›
  · exact .debited _ _

theorem recordIntent_step (config : ExecutionConfig) (w : World) (env : Env) (origin : Origin) (call : AuthorizedCall)
    (startedAt : DateTime) :
    Step config w env (.recordingIntent origin call startedAt) (recordIntent config w env origin call startedAt).1
      (recordIntent config w env origin call startedAt).2.1 (recordIntent config w env origin call startedAt).2.2 := by
  rcases recordIntent_cases config w env origin call startedAt with ⟨ledger, denial, same, refused⟩ | ⟨-, -, written⟩
  · rw [refused]
    exact .unrecorded _ _ _ _ _ same
  · rw [written]
    exact .dispatched _ _ _ _ rfl

theorem afterProvider_step (config : ExecutionConfig) (w : World) (env : Env) (origin : Origin) (call : AuthorizedCall)
    (startedAt : DateTime) :
    Step config w env (.running origin call startedAt) { w with availablePermits := w.availablePermits + 1 }
      (afterProvider config env origin call startedAt) .nothing := by
  unfold afterProvider
  split
  · exact .failed _ _ _ _ ‹_›
  · split
    · exact .misshapen _ _ _ _ _ ‹_›
    · exact .ran _ _ _ _

theorem afterVerifier_step (config : ExecutionConfig) (w : World) (env : Env) (origin : Origin) (call : AuthorizedCall)
    (startedAt : DateTime) (output : RunOutput) :
    Step config w env (.verifying origin call startedAt output) w (afterVerifier config env origin call startedAt output)
      .nothing := by
  unfold afterVerifier
  dsimp only
  split
  · exact .unverified _ _ _ _ _ _ ‹_›
  · split
    · exact .unhashable _ _ _ _ _ _ (eq_false_of_ne_true ‹_›) ‹_›
    · exact .concluded _ _ _ _ _ _ _ ⟨rfl, rfl, rfl, rfl, rfl, rfl, rfl⟩

theorem finalize_step (config : ExecutionConfig) (w : World) (env : Env) (origin : Origin) (call : AuthorizedCall)
    (receipt : ReceiptRow) (event : AuditEvent) (response : ExecutedResponse) :
    Step config w env (.finalizing origin call receipt event response)
      (finalize config w env origin call receipt event response).1
      (finalize config w env origin call receipt event response).2 .nothing := by
  rcases finalize_cases config w env origin call receipt event response with
    ⟨uncommitted, failed⟩ | ⟨-, ledger, result, stored, answer, done⟩
  · rw [failed]
    exact .lostEvidence _ _ _ _ _ _ uncommitted
  · rw [done]
    refine .storedEvidence _ _ _ _ _ _ _ stored ?_
    rcases answer with rfl | rfl
    · exact .inr rfl
    · exact .inl rfl

/-- Every step is one of these. -/
theorem proceed_step (config : ExecutionConfig) (w : World) (env : Env) (phase : Phase) :
    Step config w env phase (proceed config w env phase).1 (proceed config w env phase).2.1
      (proceed config w env phase).2.2 := by
  cases phase with
  | idle => exact .idle
  | arrived task => exact admitTask_step config w env task
  | deciding =>
    simp only [proceed]
    split
    · exact .denied _
    · exact .allowed
  | claiming approvalId operatorId =>
    simp only [proceed]
    split
    · exact .claimed _ _ _ ‹_›
    · exact .unclaimed _ _ _
  | claimed approvalId claimToken => exact afterClaim_step config w env approvalId claimToken
  | debiting origin sessionId hasBudgets =>
    cases hasBudgets with
    | false => exact .unbudgeted _ _
    | true => exact debit_step config w env origin sessionId
  | building origin sessionId budgetDebited => exact .built _ _ _
  | preparing origin call =>
    simp only [proceed]
    split
    · exact .prepared _ _
    · exact .unprepared _ _ _
  | authorized origin call =>
    simp only [proceed]
    split
    · exact .cleared _ _ ‹_›
    · exact .refusedGrant _ _ _
  | recordingIntent origin call startedAt => exact recordIntent_step config w env origin call startedAt
  | awaitingPermit origin call startedAt =>
    simp only [proceed, takePermit]
    split
    · exact .waiting _ _ _ ‹_›
    · split
      · exact .moduleMissing _ _ _ _ ‹_› ‹_›
      · exact .started _ _ _ ‹_›
  | running origin call startedAt => exact afterProvider_step config w env origin call startedAt
  | verifying origin call startedAt output => exact afterVerifier_step config w env origin call startedAt output
  | finalizing origin call receipt event response => exact finalize_step config w env origin call receipt event response
  | closing jobs reply =>
    cases jobs with
    | nil => exact .returned _
    | cons job jobs => exact .worked _ _ _
  | replied reply => exact .answered _
  | revoking oldEpoch => exact .advanced _ _
  | readingInFlight draining wasFirst => exact .counted _ _
  | orphaned phase => exact .left _
  | dropped => exact .gone

/-- What each step can say. -/
inductive Says (config : ExecutionConfig) (w : World) (env : Env) : Phase → Emission → Prop
  | nothing (phase : Phase) : Says config w env phase .nothing
  | claimed (approvalId operatorId : String) : Says config w env (.claiming approvalId operatorId) (.claimed approvalId)
  | debited (origin : Origin) (sessionId : String) :
    Says config w env (.debiting origin sessionId true) (.debited sessionId)
  | refunded (sessionId traceId label : String) (jobs : List Job) (reply : Reply) :
    Says config w env (.closing (.rollback sessionId traceId label :: jobs) reply) (.refunded sessionId)
  | built (origin : Origin) (sessionId : String) (budgetDebited : Bool) :
    Says config w env (.building origin sessionId budgetDebited) (.built (buildCall config w env sessionId budgetDebited))
  | cleared (origin : Origin) (call : AuthorizedCall)
    (passed : call.validateGrantPreDispatch config env.now w.revocationEpoch = .ok ()) :
    Says config w env (.authorized origin call) (.cleared call env.now w.revocationEpoch)
  | dispatched (origin : Origin) (call : AuthorizedCall) (startedAt : DateTime) :
    Says config w env (.recordingIntent origin call startedAt) (.dispatched call)
  | started (origin : Origin) (call : AuthorizedCall) (startedAt : DateTime) :
    Says config w env (.awaitingPermit origin call startedAt) (.started call)
  | advanced (oldEpoch : UInt64) :
    Says config w env (.revoking oldEpoch) (.advanced oldEpoch (w.revocationEpoch + 1))
  | status (draining : Bool) (wasFirst : Option Bool) :
    Says config w env (.readingInFlight draining wasFirst) (.status draining (inFlightCount config w))
  | returned (reply : Reply) : Says config w env (.closing [] reply) (.returned reply)

theorem Step.meaning {phase next : Phase} {v : World} {emission : Emission}
    (step : Step config w env phase v next emission) : Says config w env phase emission := by
  cases step with
  | claimed => exact .claimed _ _
  | debitLost => exact .debited _ _
  | debited => exact .debited _ _
  | built => exact .built _ _ _
  | cleared _ _ passed => exact .cleared _ _ passed
  | dispatched => exact .dispatched _ _ _
  | started => exact .started _ _ _
  | worked job jobs reply =>
    cases job with
    | rollback sessionId traceId label =>
      simp only [doJob]
      split
      · exact .refunded _ _ _ _ _
      · exact .refunded _ _ _ _ _
      · exact .nothing _
    | _ => exact .nothing _
  | returned => exact .returned _
  | advanced => exact .advanced _
  | counted => exact .status _ _
  | _ => exact .nothing _

/-- Everything an input can do to a request. -/
inductive Acts (config : ExecutionConfig) (w : World) : Phase → Input → World → Phase → Emission → Prop
  | arrived (task : Task) : Acts config w .idle (.arrive task) w (.arrived task) .nothing
  | ignored (phase : Phase) (task : Task) : Acts config w phase (.arrive task) w phase .nothing
  | stepped {env : Env} {phase next : Phase} {v : World} {emission : Emission}
    (step : Step config w env phase v next emission) : Acts config w phase (.proceed env) v next emission
  | completed {env : Env} {inner next : Phase} {v : World} {emission : Emission}
    (step : Step config w env inner v next emission) :
    Acts config w (.orphaned inner) (.proceed env) v .dropped emission.orphaned
  | released (origin : Origin) (call : AuthorizedCall) (startedAt : DateTime) :
    Acts config w (.running origin call startedAt) .drop { w with availablePermits := w.availablePermits + 1 } .dropped
      .nothing
  | orphaned (phase : Phase) (handedOut : phase.inFlight = true) :
    Acts config w phase .drop w (.orphaned phase) .nothing
  | dropped (phase : Phase) (idle : phase.inFlight = false)
    (stopped : ∀ origin call startedAt, phase ≠ .running origin call startedAt)
    (owned : ∀ inner, phase ≠ .orphaned inner) : Acts config w phase .drop w .dropped .nothing
  | kept (phase : Phase) : Acts config w phase .drop w phase .nothing

theorem act_acts (config : ExecutionConfig) (w : World) (phase : Phase) (input : Input) :
    Acts config w phase input (act config w phase input).1 (act config w phase input).2.1
      (act config w phase input).2.2 := by
  cases input with
  | arrive task =>
    cases phase with
    | idle => exact .arrived task
    | _ => exact .ignored _ task
  | proceed env =>
    cases phase with
    | orphaned inner => exact .completed (proceed_step config w env inner)
    | _ => exact .stepped (proceed_step config w env _)
  | drop =>
    cases phase with
    | idle => exact .kept _
    | replied => exact .kept _
    | orphaned => exact .kept _
    | running => exact .released _ _ _
    | claiming => exact .orphaned _ rfl
    | recordingIntent => exact .orphaned _ rfl
    | finalizing => exact .orphaned _ rfl
    | debiting origin sessionId hasBudgets =>
      cases hasBudgets with
      | true => exact .orphaned _ rfl
      | false => exact .dropped _ rfl (by simp) (by simp)
    | closing jobs reply =>
      cases jobs with
      | nil => exact .dropped _ rfl (by simp) (by simp)
      | cons job jobs => exact .orphaned _ rfl
    | _ => exact .dropped _ rfl (by simp) (by simp)

/-- What a step says was said by the request at its own phase, or, of a call
that was left to itself, at the phase it was dropped in. -/
theorem Acts.meaning {phase next : Phase} {input : Input} {v : World} {emission : Emission}
    (acts : Acts config w phase input v next emission) (something : emission ≠ .nothing) :
    ∃ env, input = .proceed env ∧
      (Says config w env phase emission ∨
        ∃ inner, phase = .orphaned inner ∧ Says config w env inner emission ∧ ∀ call, emission ≠ .dispatched call) := by
  cases acts with
  | stepped step => exact ⟨_, rfl, .inl step.meaning⟩
  | @completed _ _ _ _ spoken step =>
    have meant := step.meaning
    cases spoken with
    | dispatched call => exact absurd rfl something
    | _ => exact ⟨_, rfl, .inr ⟨_, rfl, meant, fun call same => by cases same⟩⟩
  | _ => exact absurd rfl something

theorem act_meaning {phase : Phase} {input : Input} {emission : Emission}
    (said : (act config w phase input).2.2 = emission) (something : emission ≠ .nothing) :
    ∃ env, input = .proceed env ∧
      (Says config w env phase emission ∨
        ∃ inner, phase = .orphaned inner ∧ Says config w env inner emission ∧ ∀ call, emission ≠ .dispatched call) := by
  subst said
  exact (act_acts config w phase input).meaning something

/-- What is left to itself was handed out before. -/
def Phase.Tidy (phase : Phase) : Prop :=
  ∀ inner, phase = .orphaned inner → inner.inFlight = true

theorem Step.tidy {phase next : Phase} {v : World} {emission : Emission}
    (step : Step config w env phase v next emission) (tidy : phase.Tidy) : next.Tidy := by
  intro inner same
  cases step with
  | left => exact tidy inner same
  | unprepared origin => cases origin <;> cases same
  | _ => cases same

theorem Acts.tidy {phase next : Phase} {input : Input} {v : World} {emission : Emission}
    (acts : Acts config w phase input v next emission) (tidy : phase.Tidy) : next.Tidy := by
  cases acts with
  | stepped step => exact step.tidy tidy
  | ignored => exact tidy
  | kept => exact tidy
  | orphaned phase handedOut =>
    intro inner same
    cases same
    exact handedOut
  | _ =>
    intro inner same
    cases same

theorem step_tidy (config : ExecutionConfig) (s : World × (Nat → Phase)) (input : Nat × Input)
    (tidy : ∀ i, (s.2 i).Tidy) (i : Nat) : (((actor config).machine.step s input).1.2 i).Tidy := by
  by_cases same : i = input.1
  · subst same
    rw [Actor.step_own]
    exact (act_acts config s.1 (s.2 input.1) input.2).tidy (tidy input.1)
  · rw [Actor.step_other s same]
    exact tidy i

theorem quiet_tidy (w : World) (i : Nat) : ((quiet w).2 i).Tidy := by
  intro inner same
  cases same

theorem within_blocking {task : LedgerStore → LedgerStore × Except LedgerError Unit}
    (keeps : ∀ ledger : LedgerStore, ledger.committed.Within (task ledger).1.committed) :
    w.ledger.committed.Within (blocking w env task).1.ledger.committed := by
  unfold blocking
  split
  · exact Tables.Within.refl _
  · exact keeps w.ledger

theorem within_doJob (config : ExecutionConfig) (w : World) (env : Env) (job : Job) :
    w.ledger.committed.Within (doJob config w env job).1.ledger.committed := by
  cases job with
  | rollback sessionId traceId label =>
    simp only [doJob]
    split <;> exact Tables.Within.refl _
  | audit event => exact within_blocking fun ledger => LedgerStore.within_writeEvent _ _ _ _
  | receipt row => exact within_blocking fun ledger => LedgerStore.within_writeReceipt _ _ _
  | _ => exact Tables.Within.refl _

/-- No job touches the epoch, the drain flag or the permits. -/
theorem doJob_frame (config : ExecutionConfig) (w : World) (env : Env) (job : Job) :
    (doJob config w env job).1.revocationEpoch = w.revocationEpoch ∧
      (doJob config w env job).1.isDraining = w.isDraining ∧
      (doJob config w env job).1.availablePermits = w.availablePermits := by
  cases job with
  | rollback sessionId traceId label =>
    simp only [doJob]
    split <;> exact ⟨rfl, rfl, rfl⟩
  | audit event =>
    simp only [doJob, blocking]
    split <;> exact ⟨rfl, rfl, rfl⟩
  | receipt row =>
    simp only [doJob, blocking]
    split <;> exact ⟨rfl, rfl, rfl⟩
  | _ => exact ⟨rfl, rfl, rfl⟩

theorem executionIntents_put {s : LedgerStore} {t : Tables} (same : t.executionIntents = s.view.executionIntents) :
    (s.put t).committed.executionIntents = s.committed.executionIntents := by
  unfold LedgerStore.put
  cases active : s.transaction with
  | some open_ => rfl
  | none => simpa [LedgerStore.view, active] using same

theorem executionIntents_writeEvent (codec : Codec) (s : LedgerStore) (event : AuditEvent) (io : LedgerIo) :
    (s.writeEvent codec event io).1.committed.executionIntents = s.committed.executionIntents := by
  by_cases inserted : s.Inserted event io
  · rw [LedgerStore.writeEvent_store inserted, LedgerStore.committed_moveHead]
    exact executionIntents_put rfl
  · obtain ⟨e, unchanged⟩ := LedgerStore.writeEvent_of_not_inserted codec inserted
    rw [unchanged]

theorem executionIntents_withReceipt (t : Tables) (row : ReceiptRow) :
    (t.withReceipt row).executionIntents = t.executionIntents := by
  unfold Tables.withReceipt
  split <;> rfl

theorem executionIntents_writeReceipt (s : LedgerStore) (row : ReceiptRow) (io : LedgerIo) :
    (s.writeReceipt row io).1.committed.executionIntents = s.committed.executionIntents := by
  rcases LedgerStore.writeReceipt_cases s row io with ⟨e, refused⟩ | stored
  · rw [refused]
  · rw [stored]
    exact executionIntents_put (executionIntents_withReceipt _ _)

/-- No job writes an intent. -/
theorem executionIntents_doJob (config : ExecutionConfig) (w : World) (env : Env) (job : Job) :
    (doJob config w env job).1.ledger.committed.executionIntents = w.ledger.committed.executionIntents := by
  cases job with
  | rollback sessionId traceId label =>
    simp only [doJob]
    split <;> rfl
  | audit event =>
    simp only [doJob, blocking]
    split
    · rfl
    · exact executionIntents_writeEvent _ _ _ _
  | receipt row =>
    simp only [doJob, blocking]
    split
    · rfl
    · exact executionIntents_writeReceipt _ _ _
  | _ => rfl

/-- What was committed stays committed. -/
theorem Step.within {phase next : Phase} {v : World} {emission : Emission}
    (step : Step config w env phase v next emission) : w.ledger.committed.Within v.ledger.committed := by
  cases step with
  | unrecorded _ _ _ ledger _ committed => exact committed ▸ Tables.Within.refl _
  | dispatched => exact Tables.within_withIntent _ _ _
  | storedEvidence _ _ _ _ _ ledger _ committed =>
    exact committed ▸ (Tables.within_withReceipt _ _).trans (Tables.within_withEvent _ _)
  | worked job => exact within_doJob config w env job
  | _ => exact Tables.Within.refl _

theorem Acts.within {phase next : Phase} {input : Input} {v : World} {emission : Emission}
    (acts : Acts config w phase input v next emission) : w.ledger.committed.Within v.ledger.committed := by
  cases acts with
  | stepped step => exact step.within
  | completed step => exact step.within
  | _ => exact Tables.Within.refl _

section Sample

def sampleConfig : ExecutionConfig where
  codec := sampleCodec fun _ => ""
  grantVerifyingKeyStore := ⟨[⟨"k-1", ""⟩], fun _ message sigHex => sigHex = message⟩
  grantSigner := ⟨"k-1", fun message => message⟩
  sanitizeForLog := id
  encodeReceipt := fun _ => ""
  approvals := defaultConfig
  maxConcurrent := 1

def sampleGrant : ExecutionGrantBuilder :=
  ExecutionGrant.sampleBuilder "agent:x" "key"

/-- A call under a grant of the first epoch. -/
def sampleCall : AuthorizedCall where
  task :=
    { moduleDigest := "builtin:http_api", argsJson := "", allowedImports := [], resourceLimits := {}, allowedSinks := []
      approvedSecrets := [], decryptedSecrets := [], traceId := "t-1", databaseConfig := none, egressProxyUrl := none
      fsConfig := none }
  requestHash := "sha256:0"
  budgetCallsBefore := 5
  budgetCallsAfter := 4
  budgetDebited := false
  identity := ⟨"t-1", "agent:x", none, "s-1", "l-1"⟩
  grant := { sampleGrant with revocationEpoch := 0 }.buildAndSign sampleConfig.codec.sha256 sampleConfig.grantSigner
  action := ⟨"http_fetch", "1", "builtin:http_api", "digest_ok", .low, .none, 65536⟩
  schemaId := none
  policyVersion := none
  allowedSinks := []
  egressProfile := .none
  decisionSource := .autoAllow

def sampleEnv : Env where
  now := ⟨0, "1970-01-01T00:00:00.000Z"⟩
  timestamp := "1970-01-01T00:00:00.000Z"
  store := { clock := ⟨0, ⟨0, "1970-01-01T00:00:00.000Z"⟩, 0⟩ }
  sessionId := "s-1"
  draft := sampleCall
  grant := sampleGrant
  provider := .ok ⟨.null, 0, 0, 0, 0⟩

/-- An idle gate with one permit. -/
def sampleWorld : World where
  gate := ⟨.inMemory ∅, ∅⟩
  budgets := .inMemory ∅
  availablePermits := 1

/-- The call that the idle gate builds. -/
def sampleBuilt : AuthorizedCall :=
  buildCall sampleConfig sampleWorld sampleEnv "s-1" false

/-- A call is built and its grant checked. -/
def checkedRun : List (Nat × Input) :=
  [(0, .arrive .actionCall), (0, .proceed sampleEnv), (0, .proceed sampleEnv), (0, .proceed sampleEnv),
    (0, .proceed sampleEnv), (0, .proceed sampleEnv), (0, .proceed sampleEnv)]

end Sample

end Requests
end Latchgate
