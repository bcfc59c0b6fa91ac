import Latchgate.Kernel.Progress

namespace Latchgate
namespace Requests

/-- What a grant has passed before its call is dispatched. -/
structure Checked (config : ExecutionConfig) (call : AuthorizedCall) (now : DateTime) (epoch : UInt64) : Prop where
  unexpired : now.unixNanos < call.grant.core.expiresAt.unixNanos
  unrevoked : epoch ≤ call.grant.revocationEpoch
  signed : ∃ sig kid, call.grant.grantSignature = some sig ∧ call.grant.grantSigningKeyId = some kid ∧
    config.grantVerifyingKeyStore.verifyByKid kid (call.grant.computeSignableHash config.codec.sha256) sig = some true
  approved : call.action.riskLevel.isHigh → call.grant.approvalHash.isSome

theorem checked_of_validated {config : ExecutionConfig} {call : AuthorizedCall} {now : DateTime} {epoch : UInt64}
    (passed : call.validateGrantPreDispatch config now epoch = .ok ()) : Checked config call now epoch := by
  unfold AuthorizedCall.validateGrantPreDispatch at passed
  split_ifs at passed with invalid unsigned unapproved
  have valid : call.grant.isValid now epoch = true := by simpa using invalid
  have verified : call.grant.verifySignature config.codec.sha256 config.grantVerifyingKeyStore = true := by
    simpa using unsigned
  simp only [ExecutionGrant.isValid, ExecutionGrant.isExpired, Bool.and_eq_true, Bool.not_eq_true',
    decide_eq_false_iff_not, not_le, decide_eq_true_eq] at valid
  refine ⟨valid.1, valid.2, ?_, ?_⟩
  · unfold ExecutionGrant.verifySignature at verified
    split at verified
    · rename_i sig kid hasSig hasKid
      refine ⟨sig, kid, hasSig, hasKid, ?_⟩
      cases found : config.grantVerifyingKeyStore.verifyByKid kid (call.grant.computeSignableHash config.codec.sha256) sig with
      | none => simp [found] at verified
      | some answer => simpa [found] using verified
    · cases verified
  · intro high
    rw [Option.isSome_iff_ne_none]
    exact fun absent => unapproved ⟨high, absent⟩

/-- The intent of a call and the mark that its grant is consumed. -/
def IntentStored (t : Tables) (call : AuthorizedCall) : Prop :=
  (∃ intent ∈ t.executionIntents, intent.grantId = call.grant.grantId) ∧
    ∃ row ∈ t.consumedGrants, row.grantId = call.grant.grantId

/-- The receipt and the event of a response. -/
def EvidenceStored (t : Tables) (response : ExecutedResponse) : Prop :=
  (∃ receipt ∈ t.receipts, receipt.receiptId = response.receiptId ∧ receipt.grantId = response.grantId) ∧
    ∃ event : AuditEvent, event.row ∈ t.auditEvents ∧ event.traceId = response.traceId ∧
      event.execution.receiptId = some response.receiptId ∧ event.execution.grantId = some response.grantId

theorem IntentStored.mono {t u : Tables} {call : AuthorizedCall} (stored : IntentStored t call) (within : t.Within u) :
    IntentStored u call := by
  obtain ⟨⟨intent, member, same⟩, row, consumed, grantId⟩ := stored
  exact ⟨⟨intent, within.executionIntents member, same⟩, row, within.consumedGrants consumed, grantId⟩

theorem EvidenceStored.mono {t u : Tables} {response : ExecutedResponse} (stored : EvidenceStored t response)
    (within : t.Within u) : EvidenceStored u response := by
  obtain ⟨⟨receipt, member, same⟩, event, row, about⟩ := stored
  exact ⟨⟨receipt, within.receipts member, same⟩, event, within.auditEvents row, about⟩

/-- Receipt ids are drawn anew for every receipt. -/
def FreshReceiptId (s : World × (Nat → Phase)) (input : Nat × Input) : Prop :=
  ∀ origin call receipt event response, s.2 input.1 = .finalizing origin call receipt event response →
    ∀ old ∈ s.1.ledger.committed.receipts, old.receiptId ≠ receipt.receiptId

abbrev History := List ((Nat × Input) × Emission)

/-- The request was told that its grant has passed the checks. -/
def WasCleared (past : History) (i : Nat) (call : AuthorizedCall) : Prop :=
  ∃ input now epoch, ((i, input), Emission.cleared call now epoch) ∈ past

theorem WasCleared.mono {past : History} {i : Nat} {call : AuthorizedCall} (cleared : WasCleared past i call)
    (entry : (Nat × Input) × Emission) : WasCleared (past ++ [entry]) i call := by
  obtain ⟨input, now, epoch, member⟩ := cleared
  exact ⟨input, now, epoch, List.mem_append_left _ member⟩

/-- A response is backed by evidence that is committed. -/
def Reply.Backed (t : Tables) : Reply → Prop
  | .call (.ok response) => EvidenceStored t response
  | _ => True

theorem Reply.Backed.mono {t u : Tables} {reply : Reply} (backed : reply.Backed t) (within : t.Within u) :
    reply.Backed u := by
  cases reply with
  | call result =>
    cases result with
    | error => trivial
    | ok response => exact EvidenceStored.mono backed within
  | _ => trivial

/-- What each phase vouches for. -/
def Vouched (past : History) (i : Nat) (w : World) : Phase → Prop
  | .recordingIntent _ call _ => WasCleared past i call
  | .awaitingPermit _ call _ => WasCleared past i call ∧ IntentStored w.ledger.committed call
  | .finalizing _ call receipt event response => Concludes call receipt event response
  | .closing _ reply | .replied reply => reply.Backed w.ledger.committed
  | .orphaned inner => inner.inFlight = true
  | _ => True

variable {config : ExecutionConfig} {past : History} {i : Nat} {w v : World} {env : Env}

theorem vouched_closeWith_error (origin : Origin) (traceId : String) (jobs : List Job) (error : PipelineError) :
    Vouched past i w (closeWith origin traceId jobs (.error error)) :=
  trivial

theorem Vouched.mono {phase : Phase} (vouched : Vouched past i w phase) (entry : (Nat × Input) × Emission)
    (within : w.ledger.committed.Within v.ledger.committed) : Vouched (past ++ [entry]) i v phase := by
  cases phase with
  | recordingIntent origin call startedAt => exact WasCleared.mono vouched entry
  | awaitingPermit origin call startedAt => exact ⟨vouched.1.mono entry, vouched.2.mono within⟩
  | finalizing => exact vouched
  | closing jobs reply => exact Reply.Backed.mono vouched within
  | replied reply => exact Reply.Backed.mono vouched within
  | orphaned inner => exact vouched
  | _ => trivial

/-- The intent is there once it is written, be it by this write or before. -/
theorem intentStored_withIntent (t : Tables) {call : AuthorizedCall} {grant : ConsumedGrant} (startedAt : String)
    (consumes : grant.grantId = call.grant.grantId) : IntentStored (t.withIntent (call.intent startedAt) grant) call := by
  refine ⟨?_, ⟨grant, List.mem_append_right _ (List.mem_singleton_self _), consumes⟩⟩
  by_cases known : t.executionIntents.any fun old => old.grantId = (call.intent startedAt).grantId
  · obtain ⟨old, member, same⟩ := List.any_eq_true.mp known
    exact ⟨old, Tables.subset_intentsWith _ _ member, of_decide_eq_true same⟩
  · refine ⟨call.intent startedAt, ?_, rfl⟩
    simp only [Tables.withIntent, Tables.intentsWith]
    rw [if_neg known]
    exact List.mem_append_right _ (List.mem_singleton_self _)

/-- A receipt with an id of its own is stored. -/
theorem mem_withReceipt_of_fresh {t : Tables} {receipt : ReceiptRow}
    (fresh : ∀ old ∈ t.receipts, old.receiptId ≠ receipt.receiptId) : receipt ∈ (t.withReceipt receipt).receipts := by
  have absent : ¬(t.receipts.any fun old => old.receiptId = receipt.receiptId) := by
    simpa using fresh
  unfold Tables.withReceipt
  rw [if_neg absent]
  exact List.mem_append_right _ (List.mem_singleton_self _)

/-- A response is ready when its evidence is committed. -/
theorem evidence_of_concludes {t : Tables} {call : AuthorizedCall} {receipt : ReceiptRow} {event : AuditEvent}
    {response : ExecutedResponse} {ledger : LedgerStore} (made : Concludes call receipt event response)
    (fresh : ∀ old ∈ t.receipts, old.receiptId ≠ receipt.receiptId) :
    EvidenceStored ((t.withReceipt receipt).withEvent (ledger.chained event).row) response := by
  refine ⟨⟨receipt, mem_withReceipt_of_fresh fresh, made.receiptId, made.receiptGrant.trans made.responseGrant.symm⟩,
    ledger.chained event, List.mem_append_right _ (List.mem_singleton_self _), ?_, made.eventReceipt, ?_⟩
  · exact made.eventTrace.trans made.responseTrace.symm
  · exact made.eventGrant.trans (congrArg some made.responseGrant.symm)

/-- One step of a request keeps what its phase vouches for. -/
theorem Step.vouched {phase next : Phase} {emission : Emission} (step : Step config w env phase v next emission)
    (earlier : Vouched past i w phase)
    (fresh : ∀ origin call receipt event response, phase = .finalizing origin call receipt event response →
      ∀ old ∈ w.ledger.committed.receipts, old.receiptId ≠ receipt.receiptId) :
    Vouched (past ++ [((i, .proceed env), emission)]) i v next := by
  cases step with
  | cleared => exact ⟨_, _, _, List.mem_append_right _ (List.mem_singleton_self _)⟩
  | dispatched origin call startedAt grant consumes =>
    exact ⟨WasCleared.mono earlier _, intentStored_withIntent _ _ consumes⟩
  | waiting => exact earlier.mono _ (Tables.Within.refl _)
  | concluded _ _ _ _ _ _ _ made => exact made
  | storedEvidence origin call receipt event response ledger result committed answer =>
    rcases answer with failed | rfl
    · cases result with
      | error => exact vouched_closeWith_error _ _ _ _
      | ok => cases failed
    · have evidence : EvidenceStored ledger.committed response := by
        rw [committed]
        exact evidence_of_concludes earlier (fresh _ _ _ _ _ rfl)
      exact evidence
  | worked job jobs reply => exact Reply.Backed.mono earlier (within_doJob config w env job)
  | returned => exact earlier
  | answered => exact earlier
  | left => exact earlier
  | unprepared origin => cases origin <;> exact vouched_closeWith_error _ _ _ _
  | _ => trivial

theorem act_vouched (phase : Phase) (input : Input) (vouched : Vouched past i w phase)
    (fresh : ∀ origin call receipt event response, phase = .finalizing origin call receipt event response →
      ∀ old ∈ w.ledger.committed.receipts, old.receiptId ≠ receipt.receiptId) :
    Vouched (past ++ [((i, input), (act config w phase input).2.2)]) i (act config w phase input).1
      (act config w phase input).2.1 := by
  cases input with
  | arrive task =>
    have kept := vouched.mono ((i, Input.arrive task), Emission.nothing) (Tables.Within.refl _)
    cases phase <;> exact kept
  | drop =>
    cases phase with
    | replied reply => exact vouched.mono _ (Tables.Within.refl _)
    | orphaned inner => exact vouched
    | closing jobs reply => cases jobs <;> trivial
    | debiting origin sessionId hasBudgets => cases hasBudgets <;> trivial
    | _ => trivial
  | proceed env =>
    cases phase with
    | orphaned inner => trivial
    | _ => exact (proceed_step config w env _).vouched vouched fresh

/-- Every phase of every request keeps its word, in every run. -/
theorem run_vouched (w : World) {past : List (Nat × Input)}
    (meets : (actor config).machine.Meets FreshReceiptId (quiet w) past) (i : Nat) :
    Vouched ((actor config).machine.trace (quiet w) past) i ((actor config).machine.run (quiet w) past).1
      (((actor config).machine.run (quiet w) past).2 i) := by
  refine @Actor.guarded_invariant _ _ _ _ _ FreshReceiptId Vouched ?_ ?_ (quiet w) (fun _ => trivial) _ meets i
  · intro past s i input fresh each
    exact act_vouched _ input (each i) fresh
  · intro past s i j input _ _ each
    exact (each i).mono _ (act_acts config s.1 (s.2 j) input).within

/-- A step of the request in this past has passed the checks for the call, at
the clock and the epoch of that step. -/
def PassedChecks (config : ExecutionConfig) (w : World) (past : List (Nat × Input)) (i : Nat) (call : AuthorizedCall) :
    Prop :=
  ∃ earlier later env, past = earlier ++ (i, .proceed env) :: later ∧
    Checked config call env.now ((actor config).machine.run (quiet w) earlier).1.revocationEpoch

/-- Only the checks can say that a grant is cleared. -/
theorem passedChecks_of_wasCleared {past : List (Nat × Input)} {call : AuthorizedCall}
    (cleared : WasCleared ((actor config).machine.trace (quiet w) past) i call) :
    PassedChecks config w past i call := by
  obtain ⟨input, now, epoch, member⟩ := cleared
  obtain ⟨before, after, split⟩ := List.append_of_mem member
  obtain ⟨earlier, later, cut, -, said⟩ := Machine.trace_split split
  obtain ⟨env, given, meant | ⟨inner, -, meant, -⟩⟩ := act_meaning said (by simp)
  · obtain rfl : input = .proceed env := given
    generalize ((actor config).machine.run (quiet w) earlier).2 _ = phase at meant
    cases meant with
    | cleared origin call passed => exact ⟨earlier, later, env, cut, checked_of_validated passed⟩
  · obtain rfl : input = .proceed env := given
    cases meant with
    | cleared origin call passed => exact ⟨earlier, later, env, cut, checked_of_validated passed⟩

/-- In every run of requests, whatever each step meets: a provider is
dispatched only after its grant has passed every check and its intent is
committed with the consumed grant, and a response is returned only when its
receipt and its event are committed. -/
theorem dispatch_gated (config : ExecutionConfig) (w : World) (past : List (Nat × Input))
    (meets : (actor config).machine.Meets FreshReceiptId (quiet w) past) (i : Nat) (input : Input) :
    let s := (actor config).machine.run (quiet w) past
    let next := (actor config).machine.step s (i, input)
    (∀ call, next.2 = .dispatched call →
      PassedChecks config w past i call ∧ IntentStored next.1.1.ledger.committed call) ∧
    (∀ call, next.2 = .started call →
      PassedChecks config w past i call ∧ IntentStored s.1.ledger.committed call) ∧
    (∀ response, next.2 = .returned (.call (.ok response)) → EvidenceStored s.1.ledger.committed response) := by
  intro s next
  have vouched : Vouched _ i s.1 (s.2 i) := run_vouched w meets i
  refine ⟨?_, ?_, ?_⟩
  · intro call said
    obtain ⟨env, rfl, meant | ⟨inner, -, -, silent⟩⟩ := act_meaning said (by simp)
    · generalize at_ : s.2 i = phase at meant vouched
      cases meant with
      | dispatched origin call startedAt =>
        have step := recordIntent_step config s.1 env origin call startedAt
        have answer : next.2 = (recordIntent config s.1 env origin call startedAt).2.2 := by
          simp only [next, Actor.step_answer, at_, actor, act, proceed]
        have tables : next.1.1 = (recordIntent config s.1 env origin call startedAt).1 := by
          simp only [next, Actor.step_shared, at_, actor, act, proceed]
        rw [tables]
        rw [← answer, said] at step
        refine ⟨passedChecks_of_wasCleared vouched, ?_⟩
        generalize (recordIntent config s.1 env origin call startedAt).1 = reached at step
        generalize (recordIntent config s.1 env origin call startedAt).2.1 = phase at step
        cases step with
        | dispatched _ _ _ grant consumes => exact intentStored_withIntent _ _ consumes
    · exact absurd rfl (silent call)
  · intro call said
    obtain ⟨env, rfl, meant | ⟨inner, at_, meant, -⟩⟩ := act_meaning said (by simp)
    · generalize s.2 i = phase at meant vouched
      cases meant with
      | started origin call startedAt => exact ⟨passedChecks_of_wasCleared vouched.1, vouched.2⟩
    · rw [at_] at vouched
      cases meant
      cases vouched
  · intro response said
    obtain ⟨env, rfl, meant | ⟨inner, at_, meant, -⟩⟩ := act_meaning said (by simp)
    · generalize s.2 i = phase at meant vouched
      cases meant with
      | returned reply => exact vouched
    · rw [at_] at vouched
      cases meant
      cases vouched

/-- A call is authorized, checked and recorded. -/
def recordedRun : List (Nat × Input) :=
  [(0, .arrive (.execute sampleCall)), (0, .proceed sampleEnv), (0, .proceed sampleEnv), (0, .proceed sampleEnv)]

theorem dispatch_gated_recordedRun :
    let s := (actor sampleConfig).machine.run (quiet sampleWorld) recordedRun
    (actor sampleConfig).machine.Meets FreshReceiptId (quiet sampleWorld) recordedRun ∧
      ((actor sampleConfig).machine.step s (0, .proceed sampleEnv)).2 = .started sampleCall ∧
      PassedChecks sampleConfig sampleWorld recordedRun 0 sampleCall ∧ IntentStored s.1.ledger.committed sampleCall := by
  intro s
  have meets : (actor sampleConfig).machine.Meets FreshReceiptId (quiet sampleWorld) recordedRun := by
    refine ⟨?_, ?_, ?_, ?_, trivial⟩ <;>
    · intro origin call receipt event response elsewhere
      cases elsewhere
  have started : ((actor sampleConfig).machine.step s (0, .proceed sampleEnv)).2 = .started sampleCall := rfl
  exact ⟨meets, started, (dispatch_gated sampleConfig sampleWorld recordedRun meets 0 (.proceed sampleEnv)).2.1 _ started⟩

end Requests
end Latchgate
