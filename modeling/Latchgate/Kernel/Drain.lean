import Latchgate.Kernel.DispatchGate
import Mathlib.Data.Finset.Card

namespace Latchgate
namespace Requests

/-- The request has passed the drain guard and holds no permit yet. -/
def Phase.beforePermit : Phase → Bool
  | .deciding | .claiming _ _ | .claimed _ _ | .debiting _ _ _ | .building _ _ _ | .preparing _ _ | .authorized _ _
  | .recordingIntent _ _ _ | .awaitingPermit _ _ _ => true
  | _ => false

/-- The request has given its permit back and has evidence to write. -/
def Phase.owesEvidence : Phase → Bool
  | .verifying _ _ _ _ | .finalizing _ _ _ _ _ | .orphaned (.finalizing _ _ _ _ _) => true
  | _ => false

def Phase.isRunning : Phase → Bool
  | .running _ _ _ => true
  | _ => false

/-- Between the write of the intent and that of the evidence, a request that is
dropped does nothing more. -/
def Phase.isExecuting : Phase → Bool
  | .recordingIntent _ _ _ | .awaitingPermit _ _ _ | .running _ _ _ | .verifying _ _ _ _ => true
  | _ => false

/-- The call that a request has dispatched. -/
def Phase.dispatchedCall : Phase → Option AuthorizedCall
  | .awaitingPermit _ call _ | .running _ call _ | .verifying _ call _ _ | .finalizing _ call _ _ _
  | .orphaned (.finalizing _ call _ _ _) => some call
  | _ => none

/-- The provider and the ledger do their part. -/
def Unhindered (config : ExecutionConfig) (w : World) (env : Env) : Phase → Prop
  | .awaitingPermit _ _ _ => w.availablePermits ≠ 0 → env.moduleLookup = .ok ()
  | .running _ _ _ =>
    (∃ output, env.provider = .ok output) ∧ AuthorizedCall.enforceResponseSchema config env.responseSchema = .ok ()
  | .verifying _ call _ output =>
    call.deniesHighRisk (verifierOutcome env.verification) = false ∧
      ∃ hashed, config.codec.canonicalHashWithLen output.stdout call.responseHashLimits = .ok hashed
  | .finalizing _ _ receipt event _ | .orphaned (.finalizing _ _ receipt event _) =>
    (env.taskPanicked = false ∧ w.ledger.Committed event env.ledgerIo) ∧
      ∀ old ∈ w.ledger.committed.receipts, old.receiptId ≠ receipt.receiptId
  | _ => True

/-- Requests come through the endpoints, none is dropped while it executes, the
provider and the ledger do their part, and the count is read while no request is
between the drain guard and its permit or has evidence to write. -/
def DrainsIdle (config : ExecutionConfig) (s : World × (Nat → Phase)) (input : Nat × Input) : Prop :=
  match input.2 with
  | .arrive task => ∀ call, task ≠ .execute call
  | .proceed env =>
    Unhindered config s.1 env (s.2 input.1) ∧
      ∀ wasFirst, s.2 input.1 = .readingInFlight true wasFirst → inFlightCount config s.1 = 0 →
        ∀ j, (s.2 j).beforePermit = false ∧ (s.2 j).owesEvidence = false
  | .drop => (s.2 input.1).isExecuting = false

/-- The receipt and the event of a call. -/
def Evidenced (t : Tables) (call : AuthorizedCall) : Prop :=
  (∃ receipt ∈ t.receipts, receipt.grantId = call.grant.grantId) ∧
    ∃ event : AuditEvent, event.row ∈ t.auditEvents ∧ event.traceId = call.identity.traceId ∧
      event.execution.grantId = some call.grant.grantId

theorem Evidenced.mono {t u : Tables} {call : AuthorizedCall} (evidenced : Evidenced t call) (within : t.Within u) :
    Evidenced u call := by
  obtain ⟨⟨receipt, member, same⟩, event, row, about⟩ := evidenced
  exact ⟨⟨receipt, within.receipts member, same⟩, event, within.auditEvents row, about⟩

theorem evidenced_of_concludes {t : Tables} {call : AuthorizedCall} {receipt : ReceiptRow} {event : AuditEvent}
    {response : ExecutedResponse} {ledger : LedgerStore} (made : Concludes call receipt event response)
    (fresh : ∀ old ∈ t.receipts, old.receiptId ≠ receipt.receiptId) :
    Evidenced ((t.withReceipt receipt).withEvent (ledger.chained event).row) call :=
  ⟨⟨receipt, mem_withReceipt_of_fresh fresh, made.receiptGrant⟩, ledger.chained event,
    List.mem_append_right _ (List.mem_singleton_self _), made.eventTrace, made.eventGrant⟩

/-- The call was dispatched by the request, or its provider started. -/
def WasDispatched (past : History) (i : Nat) (call : AuthorizedCall) : Prop :=
  ∃ e, ((i, e), .dispatched call) ∈ past ∨ ((i, e), .started call) ∈ past

/-- What holds of each request of a gate that is drained in this way. -/
structure Accounted (past : History) (i : Nat) (w : World) (phase : Phase) : Prop where
  served : ∀ call, phase ≠ .arrived (.execute call)
  draining : ∀ wasFirst, phase = .readingInFlight true wasFirst → w.isDraining = true
  orphans : ∀ inner, phase = .orphaned inner → inner.inFlight = true ∧ inner.isExecuting = false
  concludes : ∀ origin call receipt event response,
    phase = .finalizing origin call receipt event response ∨
      phase = .orphaned (.finalizing origin call receipt event response) → Concludes call receipt event response
  evidence : ∀ call, WasDispatched past i call →
    Evidenced w.ledger.committed call ∨ phase.dispatchedCall = some call

variable {config : ExecutionConfig} {past : History} {i : Nat} {w v : World} {env : Env} {phase next : Phase}
  {input : Input} {emission : Emission}

theorem Step.isDraining (step : Step config w env phase v next emission) (draining : w.isDraining = true) :
    v.isDraining = true := by
  cases step with
  | draining => rfl
  | worked job => exact (doJob_frame config w env job).2.1.trans draining
  | _ => exact draining

theorem Acts.isDraining (acts : Acts config w phase input v next emission) (draining : w.isDraining = true) :
    v.isDraining = true := by
  cases acts with
  | stepped step => exact step.isDraining draining
  | completed step => exact step.isDraining draining
  | _ => exact draining

/-- A call that was dispatched gets its evidence. -/
theorem Step.dispatchedCall {call : AuthorizedCall} (step : Step config w env phase v next emission)
    (unhindered : Unhindered config w env phase)
    (concludes : ∀ origin call receipt event response, phase = .finalizing origin call receipt event response →
      Concludes call receipt event response)
    (carried : phase.dispatchedCall = some call) :
    Evidenced v.ledger.committed call ∨ next.dispatchedCall = some call := by
  cases step with
  | waiting => exact .inr carried
  | moduleMissing _ _ _ _ free missing =>
    have found := unhindered free
    rw [missing] at found
    cases found
  | started => exact .inr carried
  | failed _ _ _ _ trapped =>
    obtain ⟨⟨output, returned⟩, -⟩ := unhindered
    rw [trapped] at returned
    cases returned
  | misshapen _ _ _ _ _ violated =>
    obtain ⟨-, shaped⟩ := unhindered
    rw [violated] at shaped
    cases shaped
  | ran => exact .inr carried
  | unverified _ _ _ _ _ _ risky =>
    rw [unhindered.1] at risky
    cases risky
  | unhashable _ _ _ _ _ _ _ refused =>
    obtain ⟨-, hashed, accepted⟩ := unhindered
    rw [refused] at accepted
    cases accepted
  | concluded => exact .inr carried
  | lostEvidence _ _ _ _ _ _ uncommitted => exact absurd unhindered.1 uncommitted
  | storedEvidence origin call receipt event response ledger result committed =>
    cases carried
    refine .inl ?_
    dsimp only
    rw [committed]
    exact evidenced_of_concludes (concludes _ _ _ _ _ rfl) unhindered.2
  | left => exact .inr carried
  | unprepared => cases carried
  | _ => cases carried

theorem dispatchedCall_of_said {call : AuthorizedCall} (step : Step config w env phase v next emission)
    (said : emission = .dispatched call ∨ emission = .started call) : next.dispatchedCall = some call := by
  cases step with
  | dispatched =>
    rcases said with same | same
    · cases same
      rfl
    · cases same
  | started =>
    rcases said with same | same
    · cases same
    · cases same
      rfl
  | worked job jobs reply =>
    have meant := (Step.worked job jobs reply : Step config w env _ _ _ _).meaning
    rcases said with same | same
    · rw [same] at meant
      cases meant
    · rw [same] at meant
      cases meant
  | _ => rcases said with same | same <;> cases same

theorem WasDispatched.of_concat {call : AuthorizedCall} {e : Input}
    (dispatched : WasDispatched (past ++ [((i, e), emission)]) i call) :
    WasDispatched past i call ∨ emission = .dispatched call ∨ emission = .started call := by
  obtain ⟨f, member | member⟩ := dispatched
  · rcases List.mem_append.mp member with old | new
    · exact .inl ⟨f, .inl old⟩
    · cases List.mem_singleton.mp new
      exact .inr (.inl rfl)
  · rcases List.mem_append.mp member with old | new
    · exact .inl ⟨f, .inr old⟩
    · cases List.mem_singleton.mp new
      exact .inr (.inr rfl)

theorem Step.accounted (step : Step config w env phase v next emission) (unhindered : Unhindered config w env phase)
    (earlier : Accounted past i w phase) : Accounted (past ++ [((i, .proceed env), emission)]) i v next where
  served := by
    intro call same
    cases step with
    | unprepared origin => cases origin <;> cases same
    | _ => cases same
  draining := by
    intro wasFirst same
    cases step with
    | draining => rfl
    | looking =>
      cases flag : w.isDraining with
      | true => rfl
      | false =>
        rw [flag] at same
        cases same
    | unprepared origin => cases origin <;> cases same
    | _ => cases same
  orphans := by
    intro inner same
    cases step with
    | left => exact earlier.orphans inner same
    | unprepared origin => cases origin <;> cases same
    | _ => cases same
  concludes := by
    intro origin call receipt event response same
    cases step with
    | concluded _ _ _ _ _ _ _ made =>
      rcases same with same | same
      · cases same
        exact made
      · cases same
    | left => exact earlier.concludes origin call receipt event response same
    | unprepared origin => cases origin <;> rcases same with same | same <;> cases same
    | _ => rcases same with same | same <;> cases same
  evidence := by
    intro call dispatched
    rcases dispatched.of_concat with old | said
    · rcases earlier.evidence call old with evidenced | carried
      · exact .inl (evidenced.mono step.within)
      · exact step.dispatchedCall unhindered (fun _ _ _ _ _ at_ => earlier.concludes _ _ _ _ _ (.inl at_)) carried
    · exact .inr (dispatchedCall_of_said step said)

theorem Accounted.mono (accounted : Accounted past i w phase) (j : Nat) (e : Input)
    (unsaid : j = i → ∀ call, emission ≠ .dispatched call ∧ emission ≠ .started call)
    (within : w.ledger.committed.Within v.ledger.committed) (draining : w.isDraining = true → v.isDraining = true) :
    Accounted (past ++ [((j, e), emission)]) i v phase where
  served := accounted.served
  draining := fun wasFirst same => draining (accounted.draining wasFirst same)
  orphans := accounted.orphans
  concludes := accounted.concludes
  evidence := by
    rintro call ⟨f, dispatched⟩
    have old : WasDispatched past i call := by
      refine ⟨f, ?_⟩
      rcases dispatched with member | member
      · rcases List.mem_append.mp member with old | new
        · exact .inl old
        · cases List.mem_singleton.mp new
          exact absurd rfl (unsaid rfl call).1
      · rcases List.mem_append.mp member with old | new
        · exact .inr old
        · cases List.mem_singleton.mp new
          exact absurd rfl (unsaid rfl call).2
    rcases accounted.evidence call old with evidenced | carried
    · exact .inl (evidenced.mono within)
    · exact .inr carried

/-- What is left to itself dispatches nothing and starts nothing. -/
theorem orphan_unsaid {inner : Phase} (step : Step config w env inner v next emission) (handedOut : inner.inFlight = true)
    (call : AuthorizedCall) : ¬(emission.orphaned = .dispatched call ∨ emission.orphaned = .started call) := by
  have meant := step.meaning
  cases emission with
  | started =>
    cases meant
    cases handedOut
  | _ => simp [Emission.orphaned]

theorem Acts.accounted (acts : Acts config w phase input v next emission) (earlier : Accounted past i w phase)
    (arrives : ∀ task, input = .arrive task → ∀ call, task ≠ .execute call)
    (proceeds : ∀ env, input = .proceed env → Unhindered config w env phase)
    (drops : input = .drop → phase.isExecuting = false) : Accounted (past ++ [((i, input), emission)]) i v next := by
  have silent : ∀ call, Emission.nothing ≠ .dispatched call ∧ Emission.nothing ≠ .started call := by simp
  have kept : ∀ e, Accounted (past ++ [((i, e), Emission.nothing)]) i w phase :=
    fun e => earlier.mono i e (fun _ => silent) (Tables.Within.refl _) id
  cases acts with
  | arrived task =>
    refine ⟨?_, ?_, ?_, ?_, ?_⟩
    · intro call same
      cases same
      exact arrives _ rfl call rfl
    · intro wasFirst same
      cases same
    · intro inner same
      cases same
    · rintro origin call receipt event response (same | same) <;> cases same
    · intro call dispatched
      exact (kept _).evidence call dispatched
  | ignored => exact kept _
  | kept => exact kept _
  | stepped step => exact step.accounted (proceeds _ rfl) earlier
  | released => cases drops rfl
  | orphaned phase handedOut =>
    refine ⟨by simp, by simp, ?_, ?_, ?_⟩
    · intro inner same
      cases same
      exact ⟨handedOut, drops rfl⟩
    · rintro origin call receipt event response (same | same)
      · cases same
      · cases same
        exact earlier.concludes _ _ _ _ _ (.inl rfl)
    · intro call dispatched
      rcases (kept _).evidence call dispatched with evidenced | carried
      · exact .inl evidenced
      · refine .inr ?_
        have idle := drops rfl
        cases phase with
        | finalizing => exact carried
        | orphaned inner => cases handedOut
        | awaitingPermit => cases idle
        | running => cases idle
        | verifying => cases idle
        | _ => cases carried
  | dropped phase idle stopped owned =>
    refine ⟨by simp, by simp, by simp, by simp, ?_⟩
    intro call dispatched
    rcases (kept _).evidence call dispatched with evidenced | carried
    · exact .inl evidenced
    · have resting := drops rfl
      cases phase with
      | finalizing => cases idle
      | orphaned inner => exact absurd rfl (owned inner)
      | awaitingPermit => cases resting
      | running => cases resting
      | verifying => cases resting
      | _ => cases carried
  | @completed env inner _ _ spoken step =>
    refine ⟨by simp, by simp, by simp, by simp, ?_⟩
    intro call dispatched
    rcases dispatched.of_concat with old | said
    · rcases earlier.evidence call old with evidenced | carried
      · exact .inl (evidenced.mono step.within)
      · cases inner with
        | finalizing =>
          have concluded := step.dispatchedCall (proceeds _ rfl)
            (fun _ _ _ _ _ at_ => earlier.concludes _ _ _ _ _ (.inr (congrArg _ at_))) carried
          rcases concluded with evidenced | carried
          · exact .inl evidenced
          · cases step <;> cases carried
        | _ => cases carried
    · exact absurd said (orphan_unsaid step (earlier.orphans inner rfl).1 call)

/-- What a step does with the permits. -/
theorem Step.permits (step : Step config w env phase v next emission) :
    next.isRunning = phase.isRunning ∧ v.availablePermits = w.availablePermits ∨
      phase.isRunning = false ∧ next.isRunning = true ∧ w.availablePermits = v.availablePermits + 1 ∨
      phase.isRunning = true ∧ next.isRunning = false ∧ v.availablePermits = w.availablePermits + 1 := by
  cases step with
  | started _ _ _ free => exact .inr (.inl ⟨rfl, rfl, (Nat.succ_pred_eq_of_ne_zero free).symm⟩)
  | failed => exact .inr (.inr ⟨rfl, rfl, rfl⟩)
  | misshapen => exact .inr (.inr ⟨rfl, rfl, rfl⟩)
  | ran => exact .inr (.inr ⟨rfl, rfl, rfl⟩)
  | worked job => exact .inl ⟨rfl, (doJob_frame config w env job).2.2⟩
  | unprepared origin => cases origin <;> exact .inl ⟨rfl, rfl⟩
  | _ => exact .inl ⟨rfl, rfl⟩

theorem Acts.permits (acts : Acts config w phase input v next emission) (tidy : phase.Tidy) :
    next.isRunning = phase.isRunning ∧ v.availablePermits = w.availablePermits ∨
      phase.isRunning = false ∧ next.isRunning = true ∧ w.availablePermits = v.availablePermits + 1 ∨
      phase.isRunning = true ∧ next.isRunning = false ∧ v.availablePermits = w.availablePermits + 1 := by
  cases acts with
  | stepped step => exact step.permits
  | released => exact .inr (.inr ⟨rfl, rfl, rfl⟩)
  | dropped phase _ stopped =>
    cases phase with
    | running => exact absurd rfl (stopped _ _ _)
    | _ => exact .inl ⟨rfl, rfl⟩
  | orphaned phase handedOut =>
    cases phase with
    | running => cases handedOut
    | _ => exact .inl ⟨rfl, rfl⟩
  | @completed _ inner _ _ _ step =>
    have handedOut := tidy inner rfl
    cases step with
    | worked job => exact .inl ⟨rfl, (doJob_frame config w _ job).2.2⟩
    | started => cases handedOut
    | failed => cases handedOut
    | misshapen => cases handedOut
    | ran => cases handedOut
    | _ => exact .inl ⟨rfl, rfl⟩
  | _ => exact .inl ⟨rfl, rfl⟩

/-- The permits that are not free are held by the requests that run a provider. -/
def PermitsHeld (config : ExecutionConfig) (s : World × (Nat → Phase)) : Prop :=
  ∃ holders : Finset Nat, (∀ j, j ∈ holders ↔ (s.2 j).isRunning = true) ∧
    s.1.availablePermits + holders.card = config.maxConcurrent

theorem step_permitsHeld (config : ExecutionConfig) (s : World × (Nat → Phase)) (input : Nat × Input)
    (tidy : ∀ i, (s.2 i).Tidy) (held : PermitsHeld config s) :
    PermitsHeld config ((actor config).machine.step s input).1 := by
  obtain ⟨i, input⟩ := input
  obtain ⟨holders, exact, count⟩ := held
  have others : ∀ j, j ≠ i → ((actor config).machine.step s (i, input)).1.2 j = s.2 j :=
    fun j differs => Actor.step_other s differs input
  have own : ((actor config).machine.step s (i, input)).1.2 i = (act config s.1 (s.2 i) input).2.1 := Actor.step_own s i input
  have shared : ((actor config).machine.step s (i, input)).1.1 = (act config s.1 (s.2 i) input).1 := rfl
  rcases (act_acts config s.1 (s.2 i) input).permits (tidy i) with
    ⟨same, unmoved⟩ | ⟨resting, runs, taken⟩ | ⟨ran, rests, given⟩
  · refine ⟨holders, ?_, by rw [shared, unmoved]; exact count⟩
    intro j
    by_cases here : j = i
    · rw [here, own, same]
      exact exact i
    · rw [others j here]
      exact exact j
  · have absent : i ∉ holders := by
      rw [exact i, resting]
      exact Bool.false_ne_true
    refine ⟨insert i holders, ?_, ?_⟩
    · intro j
      by_cases here : j = i
      · rw [here, own, runs]
        simp
      · rw [others j here, Finset.mem_insert, exact j]
        simp [here]
    · rw [Finset.card_insert_of_notMem absent, shared]
      omega
  · have present : i ∈ holders := (exact i).mpr ran
    have some_ : 0 < holders.card := Finset.card_pos.mpr ⟨i, present⟩
    refine ⟨holders.erase i, ?_, ?_⟩
    · intro j
      by_cases here : j = i
      · rw [here, own, rests]
        simp
      · rw [others j here, Finset.mem_erase, exact j]
        simp [here]
    · rw [Finset.card_erase_of_mem present, shared, given]
      omega

/-- An intent is new only where a call is dispatched. -/
theorem Step.intents {intent : ExecutionIntent} (step : Step config w env phase v next emission)
    (member : intent ∈ v.ledger.committed.executionIntents) :
    intent ∈ w.ledger.committed.executionIntents ∨
      ∃ call, emission = .dispatched call ∧ phase.isExecuting = true ∧ call.grant.grantId = intent.grantId := by
  cases step with
  | unrecorded _ _ _ ledger _ committed => exact .inl (committed ▸ member)
  | dispatched origin call startedAt grant =>
    have written : intent ∈ w.ledger.committed.intentsWith (call.intent startedAt.rfc3339) := member
    unfold Tables.intentsWith at written
    split at written
    · exact .inl written
    · rcases List.mem_append.mp written with old | new
      · exact .inl old
      · cases List.mem_singleton.mp new
        exact .inr ⟨call, rfl, rfl, rfl⟩
  | storedEvidence _ _ _ _ _ ledger _ committed =>
    dsimp only at member
    rw [committed] at member
    exact .inl (executionIntents_withReceipt w.ledger.committed _ ▸ member)
  | worked job => exact .inl (executionIntents_doJob config w env job ▸ member)
  | _ => exact .inl member

theorem Acts.intents {intent : ExecutionIntent} (acts : Acts config w phase input v next emission)
    (accounted : Accounted past i w phase) (member : intent ∈ v.ledger.committed.executionIntents) :
    intent ∈ w.ledger.committed.executionIntents ∨
      ∃ call, emission = .dispatched call ∧ call.grant.grantId = intent.grantId := by
  cases acts with
  | stepped step =>
    rcases step.intents member with old | ⟨call, said, -, same⟩
    · exact .inl old
    · exact .inr ⟨call, said, same⟩
  | @completed _ inner _ _ _ step =>
    rcases step.intents member with old | ⟨call, -, executing, -⟩
    · exact .inl old
    · rw [(accounted.orphans inner rfl).2] at executing
      cases executing
  | _ => exact .inl member

/-- The intents that were not there at the start belong to calls that were
dispatched. -/
def IntentsDispatched (start : World) (past : History) (w : World) : Prop :=
  ∀ intent ∈ w.ledger.committed.executionIntents, intent ∈ start.ledger.committed.executionIntents ∨
    ∃ i call, WasDispatched past i call ∧ call.grant.grantId = intent.grantId

/-- What a run keeps as long as its steps meet the condition. -/
structure Kept (config : ExecutionConfig) (start : World) (past : History) (s : World × (Nat → Phase)) : Prop where
  accounted : ∀ i, Accounted past i s.1 (s.2 i)
  permits : PermitsHeld config s
  intents : IntentsDispatched start past s.1

theorem Accounted.tidy (accounted : Accounted past i w phase) : phase.Tidy :=
  fun inner same => (accounted.orphans inner same).1

theorem quiet_kept {start : World} (full : start.availablePermits = config.maxConcurrent) :
    Kept config start [] (quiet start) where
  accounted := by
    intro i
    refine ⟨by simp [quiet], by simp [quiet], by simp [quiet], by simp [quiet], ?_⟩
    rintro call ⟨e, member | member⟩ <;> cases member
  permits := ⟨∅, by simp [quiet, Phase.isRunning], by simpa [quiet] using full⟩
  intents := fun intent member => .inl member

theorem step_kept {start : World} {s : World × (Nat → Phase)} (guard : DrainsIdle config s (i, input))
    (kept : Kept config start past s) :
    Kept config start (past ++ [((i, input), ((actor config).machine.step s (i, input)).2)])
      ((actor config).machine.step s (i, input)).1 where
  accounted := by
    intro j
    have acts := act_acts config s.1 (s.2 i) input
    by_cases same : j = i
    · subst same
      rw [Actor.step_own]
      refine acts.accounted (kept.accounted j) ?_ ?_ ?_
      · rintro task rfl
        exact guard
      · rintro env rfl
        exact guard.1
      · rintro rfl
        exact guard
    · rw [Actor.step_other s same]
      exact (kept.accounted j).mono i input (fun here => absurd here.symm same) acts.within acts.isDraining
  permits := step_permitsHeld config s (i, input) (fun j => (kept.accounted j).tidy) kept.permits
  intents := by
    intro intent member
    rcases (act_acts config s.1 (s.2 i) input).intents (kept.accounted i) member with old | ⟨call, said, same⟩
    · rcases kept.intents intent old with first | ⟨j, call, ⟨e, dispatched⟩, same⟩
      · exact .inl first
      · refine .inr ⟨j, call, ⟨e, ?_⟩, same⟩
        rcases dispatched with member | member
        · exact .inl (List.mem_append_left _ member)
        · exact .inr (List.mem_append_left _ member)
    · refine .inr ⟨i, call, ⟨input, .inl (List.mem_append_right _ ?_)⟩, same⟩
      rw [← said]
      exact List.mem_singleton_self _

/-- The gate drains, and no request can come to start a provider. -/
structure Inert (s : World × (Nat → Phase)) : Prop where
  draining : s.1.isDraining = true
  served : ∀ j call, s.2 j ≠ .arrived (.execute call)
  tidy : ∀ j, (s.2 j).Tidy
  waiting : ∀ j, (s.2 j).beforePermit = false

theorem Step.beforePermit (step : Step config w env phase v next emission) (draining : w.isDraining = true)
    (served : ∀ call, phase ≠ .arrived (.execute call)) (waiting : phase.beforePermit = false) :
    next.beforePermit = false ∧ ∀ call, next ≠ .arrived (.execute call) := by
  cases step with
  | admitted accepting => exact absurd (accepting.symm.trans draining) Bool.false_ne_true
  | approving _ _ accepting => exact absurd (accepting.symm.trans draining) Bool.false_ne_true
  | executing call => exact absurd rfl (served call)
  | _ =>
    first
    | exact ⟨rfl, by simp [closeWith, denyPreDispatch, providerFailed]⟩
    | cases waiting

theorem Acts.inert (acts : Acts config w phase input v next emission) (draining : w.isDraining = true)
    (served : ∀ call, phase ≠ .arrived (.execute call)) (waiting : phase.beforePermit = false)
    (arrives : ∀ task, input = .arrive task → ∀ call, task ≠ .execute call) :
    next.beforePermit = false ∧ ∀ call, next ≠ .arrived (.execute call) := by
  cases acts with
  | arrived task =>
    refine ⟨rfl, ?_⟩
    intro call same
    cases same
    exact arrives _ rfl call rfl
  | stepped step => exact step.beforePermit draining served waiting
  | ignored => exact ⟨waiting, served⟩
  | kept => exact ⟨waiting, served⟩
  | _ => exact ⟨rfl, by simp⟩

theorem step_inert {s : World × (Nat → Phase)} (guard : DrainsIdle config s (i, input)) (inert : Inert s) :
    Inert ((actor config).machine.step s (i, input)).1 := by
  have acts := act_acts config s.1 (s.2 i) input
  have own := acts.inert inert.draining (inert.served i) (inert.waiting i) (by rintro task rfl; exact guard)
  refine ⟨acts.isDraining inert.draining, ?_, step_tidy config s (i, input) inert.tidy, ?_⟩
  · intro j
    by_cases same : j = i
    · subst same
      rw [Actor.step_own]
      exact own.2
    · rw [Actor.step_other s same]
      exact inert.served j
  · intro j
    by_cases same : j = i
    · subst same
      rw [Actor.step_own]
      exact own.1
    · rw [Actor.step_other s same]
      exact inert.waiting j

theorem inert_unstarted {s : World × (Nat → Phase)} (inert : Inert s) (input : Nat × Input) (call : AuthorizedCall) :
    ((actor config).machine.step s input).2 ≠ .started call := by
  intro said
  have waiting := inert.waiting input.1
  have tidy := inert.tidy input.1
  obtain ⟨env, -, meant | ⟨inner, at_, meant, -⟩⟩ := act_meaning said (by simp)
  · generalize s.2 input.1 = phase at meant waiting
    cases meant
    cases waiting
  · have handedOut := tidy inner at_
    cases meant
    cases handedOut

/-- Once an operator reads that the gate drains and that nothing is in flight,
no provider starts any more, every call that was dispatched or started has its
receipt and its event, and no intent of this process is without a receipt. -/
def DrainedIsQuiet (config : ExecutionConfig) (w : World) (inputs : List (Nat × Input)) : Prop :=
  ∀ past input rest, inputs = past ++ input :: rest →
    ((actor config).machine.step ((actor config).machine.run (quiet w) past) input).2 = .status true 0 →
    let s := (actor config).machine.run (quiet w) past
    (∀ entry ∈ (actor config).machine.trace ((actor config).machine.step s input).1 rest,
      ∀ call, entry.2 ≠ .started call) ∧
    (∀ j call, WasDispatched ((actor config).machine.trace (quiet w) past) j call →
      Evidenced s.1.ledger.committed call) ∧
    ∀ intent ∈ s.1.ledger.committed.executionIntents, intent ∈ w.ledger.committed.executionIntents ∨
      ∃ receipt ∈ s.1.ledger.committed.receipts, receipt.grantId = intent.grantId

/-- The count is zero only when no provider runs. -/
theorem idle_of_count {s : World × (Nat → Phase)} (held : PermitsHeld config s) (zero : inFlightCount config s.1 = 0)
    (j : Nat) : (s.2 j).isRunning = false := by
  obtain ⟨holders, exact, count⟩ := held
  have empty : holders.card = 0 := by
    unfold inFlightCount at zero
    omega
  rw [Finset.card_eq_zero] at empty
  refine eq_false_of_ne_true (fun runs => ?_)
  have member := (exact j).mpr runs
  rw [empty] at member
  simp at member

/-- The reading of the count, seen from the state before it. -/
theorem status_read {s : World × (Nat → Phase)} {input : Nat × Input} {draining : Bool} {count : Nat}
    (tidy : (s.2 input.1).Tidy) (said : ((actor config).machine.step s input).2 = .status draining count) :
    (∃ env, input.2 = .proceed env) ∧ (∃ wasFirst, s.2 input.1 = .readingInFlight draining wasFirst) ∧
      inFlightCount config s.1 = count := by
  obtain ⟨env, given, meant | ⟨inner, at_, meant, -⟩⟩ := act_meaning said (by simp)
  · generalize at_ : s.2 input.1 = phase at meant
    cases meant with
    | status _ wasFirst => exact ⟨⟨env, given⟩, ⟨wasFirst, rfl⟩, rfl⟩
  · have handedOut := tidy inner at_
    cases meant
    cases handedOut

/-- A phase in which a call is dispatched and not yet accounted for is one of
those that the condition excludes, or holds a permit. -/
theorem dispatchedCall_none {phase : Phase} (waiting : phase.beforePermit = false) (written : phase.owesEvidence = false)
    (idle : phase.isRunning = false) : phase.dispatchedCall = none := by
  cases phase with
  | orphaned inner =>
    cases inner with
    | finalizing => cases written
    | _ => rfl
  | awaitingPermit => cases waiting
  | running => cases idle
  | verifying => cases written
  | finalizing => cases written
  | _ => rfl

theorem drained_is_quiet (config : ExecutionConfig) (w : World) (inputs : List (Nat × Input))
    (full : w.availablePermits = config.maxConcurrent)
    (meets : (actor config).machine.Meets (DrainsIdle config) (quiet w) inputs) : DrainedIsQuiet config w inputs := by
  rintro past ⟨i, input⟩ rest rfl read s
  obtain ⟨earlier, guard, later⟩ := Machine.meets_append.1 meets
  have kept : Kept config w ((actor config).machine.trace (quiet w) past) s :=
    earlier.trace_invariant (quiet_kept full) (fun _ _ _ guard kept => step_kept guard kept)
  obtain ⟨⟨env, given⟩, ⟨wasFirst, reading⟩, zero⟩ := status_read (kept.accounted i).tidy read
  have idle : ∀ j, (s.2 j).beforePermit = false ∧ (s.2 j).owesEvidence = false := by
    dsimp only at given reading
    subst given
    exact guard.2 wasFirst reading zero
  have evidenced : ∀ j call, WasDispatched ((actor config).machine.trace (quiet w) past) j call →
      Evidenced s.1.ledger.committed call := by
    intro j call dispatched
    rcases (kept.accounted j).evidence call dispatched with evidenced | carried
    · exact evidenced
    · rw [dispatchedCall_none (idle j).1 (idle j).2 (idle_of_count kept.permits zero j)] at carried
      cases carried
  refine ⟨?_, evidenced, ?_⟩
  · have inert : Inert s :=
      ⟨(kept.accounted i).draining wasFirst reading, fun j => (kept.accounted j).served,
        fun j => (kept.accounted j).tidy, fun j => (idle j).1⟩
    let unstarted : Nat × Input → Emission → Prop := fun _ emission => ∀ call, emission ≠ .started call
    have silent := @Machine.Meets.trace_all _ _ _ (actor config).machine (DrainsIdle config) Inert unstarted
      (fun _ _ guard inert => step_inert guard inert) (fun _ input _ inert => inert_unstarted inert input) _
      (step_inert guard inert) _ later
    exact silent.2
  · intro intent member
    rcases kept.intents intent member with old | ⟨j, call, dispatched, same⟩
    · exact .inl old
    · obtain ⟨⟨receipt, stored, about⟩, -⟩ := evidenced j call dispatched
      exact .inr ⟨receipt, stored, about.trans same⟩

/-- A drain, from its arrival to its answer. Its event is lost. -/
def drainRun : List (Nat × Input) :=
  [(1, .arrive .postDrain), (1, .proceed sampleEnv), (1, .proceed sampleEnv),
    (1, .proceed { sampleEnv with taskPanicked := true }), (1, .proceed sampleEnv)]

theorem drained_is_quiet_drainRun :
    (actor sampleConfig).machine.Meets (DrainsIdle sampleConfig) (quiet sampleWorld) drainRun ∧
      DrainedIsQuiet sampleConfig sampleWorld drainRun := by
  have meets : (actor sampleConfig).machine.Meets (DrainsIdle sampleConfig) (quiet sampleWorld) drainRun := by
    refine ⟨?_, ⟨trivial, ?_⟩, ⟨trivial, ?_⟩, ⟨trivial, ?_⟩, ⟨trivial, ?_⟩, trivial⟩
    · intro call same
      cases same
    · intro wasFirst elsewhere
      cases elsewhere
    · intro wasFirst _ _ j
      by_cases same : j = 1
      · rw [same]
        exact ⟨rfl, rfl⟩
      · rw [Actor.step_other _ same, Actor.step_other _ same]
        exact ⟨rfl, rfl⟩
    · intro wasFirst elsewhere
      cases elsewhere
    · intro wasFirst elsewhere
      cases elsewhere
  exact ⟨meets, drained_is_quiet sampleConfig sampleWorld drainRun rfl meets⟩

/-- A call has passed the drain guard. -/
def admittedRun : List (Nat × Input) :=
  [(0, .arrive .actionCall), (0, .proceed sampleEnv)]

/-- The rest of its way to the start of its provider. -/
def onwardRun : List (Nat × Input) :=
  [(0, .proceed sampleEnv), (0, .proceed sampleEnv), (0, .proceed sampleEnv), (0, .proceed sampleEnv),
    (0, .proceed sampleEnv), (0, .proceed sampleEnv), (0, .proceed sampleEnv)]

/-- The drain has answered that nothing is in flight, and then a provider starts. -/
theorem provider_starts_after_drain :
    ((1, .proceed sampleEnv), .returned (.drain true 0)) ∈ (actor sampleConfig).machine.trace
        ((actor sampleConfig).machine.run (quiet sampleWorld) admittedRun) drainRun ∧
      ¬DrainedIsQuiet sampleConfig sampleWorld (admittedRun ++ drainRun ++ onwardRun) := by
  refine ⟨.tail _ (.tail _ (.tail _ (.tail _ (.head _)))), ?_⟩
  intro quiet
  have silent := (quiet (admittedRun ++ drainRun.take 2) (1, .proceed sampleEnv) (drainRun.drop 3 ++ onwardRun) rfl rfl).1
  refine silent ((0, .proceed sampleEnv), .started sampleBuilt) ?_ sampleBuilt rfl
  exact .tail _ (.tail _ (.tail _ (.tail _ (.tail _ (.tail _ (.tail _ (.tail _ (.head _))))))))

end Requests
end Latchgate
