import Latchgate.Api.Settlement
import Latchgate.Kernel.Drain

namespace Latchgate
namespace Requests

/-- The approval that a request has claimed, with the token of its claim. -/
def Origin.claim : Origin → Option (String × String)
  | .autoAllow => none
  | .approval approvalId claimToken => some (approvalId, claimToken)

def Phase.claim : Phase → Option (String × String)
  | .claimed approvalId claimToken => some (approvalId, claimToken)
  | .debiting origin _ _ | .building origin _ _ | .preparing origin _ | .authorized origin _
  | .recordingIntent origin _ _ | .awaitingPermit origin _ _ | .running origin _ _ | .verifying origin _ _ _
  | .finalizing origin _ _ _ _ => origin.claim
  | _ => none

/-- The session that was debited for a call which is not dispatched yet. -/
def Phase.debit : Phase → Option String
  | .building _ sessionId budgetDebited => if budgetDebited then some sessionId else none
  | .preparing _ call | .authorized _ call | .recordingIntent _ call _ =>
    if call.budgetDebited then some call.identity.sessionId else none
  | _ => none

/-- The jobs that will still be done. Of a request that was dropped, only the
one that was handed out. -/
def Phase.jobs : Phase → List Job
  | .closing jobs _ => jobs
  | .orphaned (.closing (job :: _) _) => [job]
  | _ => []

def Job.isOwed : Job → Bool
  | .rollback _ _ _ | .audit _ | .marker _ _ _ _ => true
  | _ => false

/-- The request may be dropped here: it has neither claimed nor debited nor
dispatched anything, or what it owes is in the hands of the database. -/
def Phase.isDroppable : Phase → Bool
  | .claiming _ _ | .claimed _ _ | .awaitingPermit _ _ _ | .running _ _ _ | .verifying _ _ _ _ => false
  | .debiting origin _ hasBudgets => origin.claim.isNone && !hasBudgets
  | .building origin _ budgetDebited => origin.claim.isNone && !budgetDebited
  | .preparing origin call | .authorized origin call | .recordingIntent origin call _ =>
    origin.claim.isNone && !call.budgetDebited
  | .finalizing origin _ _ _ _ => origin.claim.isNone
  | .closing jobs _ => jobs.tail.all (!·.isOwed)
  | _ => true

/-- The job has its effect. -/
def JobReaches (config : ExecutionConfig) (w : World) (env : Env) : Job → Prop
  | .rollback _ _ _ => ∀ message, env.store.fault ≠ some (.refused message)
  | .audit event =>
    env.taskPanicked = false ∧ w.ledger.Inserted event env.ledgerIo ∧ w.ledger.transaction = none
  | .marker approvalId claimToken _ _ | .complete approvalId claimToken _ _ _ =>
    w.gate.store.CarriesOutcome approvalId ∨
      env.store.fault = none ∧ w.gate.store.MerelyClaimed approvalId claimToken ∧
        w.gate.store.Held approvalId env.store.clock
  | _ => True

/-- The step has its effect, as far as the evidence, the budget and the outcome
go. -/
def Reaches (config : ExecutionConfig) (w : World) (env : Env) : Phase → Prop
  | .claimed approvalId _ =>
    hasDurableOutcome w.gate.outcomes env.ledgerFault approvalId = true ∨ env.learnPath = .ok ()
  | .debiting _ _ hasBudgets => hasBudgets = true → ∀ message, env.store.fault ≠ some (.answerLost message)
  | .verifying _ call _ output =>
    call.deniesHighRisk (verifierOutcome env.verification) = true ∨
      ∃ hashed, config.codec.canonicalHashWithLen output.stdout call.responseHashLimits = .ok hashed
  | .finalizing _ _ _ event _ | .orphaned (.finalizing _ _ _ event _) =>
    env.taskPanicked = false ∧ w.ledger.Committed event env.ledgerIo
  | .closing (job :: _) _ | .orphaned (.closing (job :: _) _) => JobReaches config w env job
  | _ => True

/-- No request is dropped while it owes something, and its steps have their effect. -/
def Attended (config : ExecutionConfig) (s : World × (Nat → Phase)) (input : Nat × Input) : Prop :=
  match input.2 with
  | .arrive _ => True
  | .proceed env => Reaches config s.1 env (s.2 input.1)
  | .drop => (s.2 input.1).isDroppable = true

/-- An event about the call is in the ledger. -/
def Covered (t : Tables) (call : AuthorizedCall) : Prop :=
  ∃ event : AuditEvent, event.row ∈ t.auditEvents ∧ event.traceId = call.identity.traceId

theorem Covered.mono {t u : Tables} {call : AuthorizedCall} (covered : Covered t call) (within : t.Within u) :
    Covered u call := by
  obtain ⟨event, row, about⟩ := covered
  exact ⟨event, within.auditEvents row, about⟩

/-- The jobs will record an outcome of the approval. -/
def Settling (approvalId : String) (jobs : List Job) : Prop :=
  (∃ token kind detail, .marker approvalId token kind detail ∈ jobs) ∨
    ∃ token traceId kind detail, jobs = [.complete approvalId token traceId kind detail]

def Refunding (sessionId : String) (jobs : List Job) : Prop :=
  ∃ traceId label, .rollback sessionId traceId label ∈ jobs

def Covering (call : AuthorizedCall) (jobs : List Job) : Prop :=
  ∃ event, .audit event ∈ jobs ∧ event.traceId = call.identity.traceId

variable {config : ExecutionConfig} {past : History} {i : Nat} {w v : World} {env : Env} {phase next : Phase}
  {input : Input} {emission : Emission} {job : Job} {jobs : List Job}

theorem Settling.of_cons {approvalId : String} (settling : Settling approvalId (job :: jobs)) :
    Settling approvalId [job] ∨ ∃ token kind detail, .marker approvalId token kind detail ∈ jobs := by
  rcases settling with ⟨token, kind, detail, member⟩ | ⟨token, traceId, kind, detail, same⟩
  · rcases List.mem_cons.mp member with rfl | later
    · exact .inl (.inl ⟨token, kind, detail, List.mem_singleton_self _⟩)
    · exact .inr ⟨token, kind, detail, later⟩
  · cases same
    exact .inl (.inr ⟨token, traceId, kind, detail, rfl⟩)

theorem Refunding.of_cons {sessionId : String} (refunding : Refunding sessionId (job :: jobs)) :
    Refunding sessionId [job] ∨ Refunding sessionId jobs := by
  obtain ⟨traceId, label, member⟩ := refunding
  rcases List.mem_cons.mp member with rfl | later
  · exact .inl ⟨traceId, label, List.mem_singleton_self _⟩
  · exact .inr ⟨traceId, label, later⟩

theorem Covering.of_cons {call : AuthorizedCall} (covering : Covering call (job :: jobs)) :
    Covering call [job] ∨ Covering call jobs := by
  obtain ⟨event, member, about⟩ := covering
  rcases List.mem_cons.mp member with rfl | later
  · exact .inl ⟨event, List.mem_singleton_self _, about⟩
  · exact .inr ⟨event, later, about⟩

theorem doJob_store (config : ExecutionConfig) (w : World) (env : Env) (job : Job) :
    (doJob config w env job).1.gate.store = w.gate.store ∨
      ∃ op, (∀ pending, op ≠ .createPending pending) ∧
        (doJob config w env job).1.gate.store = (w.gate.store.call config.approvals env.store op).1 := by
  cases job with
  | rollback sessionId traceId label =>
    simp only [doJob]
    split <;> exact .inl rfl
  | audit event =>
    simp only [doJob, blocking]
    split <;> exact .inl rfl
  | receipt row =>
    simp only [doJob, blocking]
    split <;> exact .inl rfl
  | outcome => exact .inl rfl
  | marker => exact .inr ⟨_, by simp, rfl⟩
  | complete => exact .inr ⟨_, by simp, rfl⟩

/-- The approval store is changed through its calls alone, none of which makes
an approval. -/
theorem Step.store (step : Step config w env phase v next emission) :
    v.gate.store = w.gate.store ∨
      ∃ op, (∀ pending, op ≠ .createPending pending) ∧
        v.gate.store = (w.gate.store.call config.approvals env.store op).1 := by
  cases step with
  | claimed approvalId operatorId => exact .inr ⟨.claimPending approvalId operatorId env.claimToken, by simp, rfl⟩
  | unclaimed approvalId operatorId => exact .inr ⟨.claimPending approvalId operatorId env.claimToken, by simp, rfl⟩
  | worked job => exact doJob_store config w env job
  | _ => exact .inl rfl

theorem Acts.store (acts : Acts config w phase input v next emission) (sound : w.gate.store.Sound) :
    v.gate.store.Sound ∧ ∀ approvalId, w.gate.store.CarriesOutcome approvalId → v.gate.store.CarriesOutcome approvalId := by
  have changed : v.gate.store = w.gate.store ∨ ∃ io op, (∀ pending, op ≠ .createPending pending) ∧
      v.gate.store = (w.gate.store.call config.approvals io op).1 := by
    cases acts with
    | stepped step =>
      rcases step.store with same | ⟨op, existing, called⟩
      · exact .inl same
      · exact .inr ⟨_, op, existing, called⟩
    | completed step =>
      rcases step.store with same | ⟨op, existing, called⟩
      · exact .inl same
      · exact .inr ⟨_, op, existing, called⟩
    | _ => exact .inl rfl
  rcases changed with same | ⟨io, op, existing, called⟩
  · rw [same]
    exact ⟨sound, fun _ carried => carried⟩
  · rw [called]
    exact ⟨call_sound sound io op, fun _ carried => call_keeps_outcome sound carried existing⟩

/-- A job that settles an approval leaves it with an outcome. -/
theorem doJob_settles {approvalId : String} (sound : w.gate.store.Sound) (reaches : JobReaches config w env job)
    (settling : Settling approvalId [job]) : (doJob config w env job).1.gate.store.CarriesOutcome approvalId := by
  rcases settling with ⟨token, kind, detail, member⟩ | ⟨token, traceId, kind, detail, same⟩
  · cases List.mem_singleton.mp member
    rcases reaches with carried | ⟨working, claimed, held⟩
    · exact call_keeps_outcome sound carried (by simp)
    · exact writeOutcomeMarker_settles sound claimed working held
  · cases same
    rcases reaches with carried | ⟨working, claimed, held⟩
    · exact call_keeps_outcome sound carried (by simp)
    · exact complete_settles sound claimed working held

theorem doJob_refunds {sessionId : String} (reaches : JobReaches config w env job) (refunding : Refunding sessionId [job]) :
    (doJob config w env job).2.2 = .refunded sessionId := by
  obtain ⟨traceId, label, member⟩ := refunding
  cases List.mem_singleton.mp member
  simp only [doJob]
  split
  · rfl
  · rfl
  · rename_i message refused
    exact absurd refused (reaches message)

theorem doJob_covers {call : AuthorizedCall} (reaches : JobReaches config w env job) (covering : Covering call [job]) :
    Covered (doJob config w env job).1.ledger.committed call := by
  obtain ⟨event, member, about⟩ := covering
  cases List.mem_singleton.mp member
  obtain ⟨calm, inserted, idle⟩ := reaches
  refine ⟨w.ledger.chained event, ?_, about⟩
  simp only [doJob]
  rw [blocking_calm calm]
  dsimp only
  rw [LedgerStore.writeEvent_store inserted, LedgerStore.committed_moveHead]
  simp only [LedgerStore.put, idle]
  exact List.mem_append_right _ (List.mem_singleton_self _)

theorem settling_closeWith {origin : Origin} {approvalId claimToken : String}
    (claimed : origin.claim = some (approvalId, claimToken)) (traceId : String) (jobs : List Job)
    (result : Except PipelineError ExecutedResponse) :
    Settling approvalId (closeWith origin traceId jobs result).jobs := by
  cases origin with
  | autoAllow => cases claimed
  | approval id token =>
    cases claimed
    refine .inl ⟨claimToken, ?_⟩
    cases result with
    | ok response => exact ⟨_, _, List.mem_append_right _ (.tail _ (.head _))⟩
    | error e => exact ⟨_, _, List.mem_append_right _ (.tail _ (.head _))⟩

/-- A claim is handed on, or an outcome of it is about to be recorded. -/
theorem Step.claim {approvalId claimToken : String} (step : Step config w env phase v next emission)
    (reaches : Reaches config w env phase) (held : phase.claim = some (approvalId, claimToken)) :
    next.claim = some (approvalId, claimToken) ∨ Settling approvalId next.jobs := by
  cases step with
  | alreadyExecuted =>
    cases held
    exact .inr (.inr ⟨_, _, _, _, rfl⟩)
  | unlearnable _ _ _ unseen failed =>
    rcases reaches with seen | learned
    · exact absurd (unseen.symm.trans seen) Bool.false_ne_true
    · rw [failed] at learned
      cases learned
  | refusedPlan =>
    cases held
    exact .inr (settling_closeWith rfl _ _ _)
  | claimed => cases held
  | debitRefused => exact .inr (settling_closeWith held _ _ _)
  | debitLost => exact .inr (settling_closeWith held _ _ _)
  | unprepared origin =>
    cases origin with
    | autoAllow => cases held
    | approval =>
      cases held
      exact .inr (settling_closeWith rfl _ _ _)
  | refusedGrant => exact .inr (settling_closeWith held _ _ _)
  | unrecorded => exact .inr (settling_closeWith held _ _ _)
  | moduleMissing => exact .inr (settling_closeWith held _ _ _)
  | failed => exact .inr (settling_closeWith held _ _ _)
  | misshapen => exact .inr (settling_closeWith held _ _ _)
  | unverified => exact .inr (settling_closeWith held _ _ _)
  | unhashable => exact .inr (settling_closeWith held _ _ _)
  | lostEvidence => exact .inr (settling_closeWith held _ _ _)
  | storedEvidence => exact .inr (settling_closeWith held _ _ _)
  | _ => exact .inl held

theorem refunding_rollbackJobs {call : AuthorizedCall} {sessionId : String}
    (debited : (if call.budgetDebited then some call.identity.sessionId else none) = some sessionId) (label : String)
    {jobs : List Job} (included : rollbackJobs call label ⊆ jobs) : Refunding sessionId jobs := by
  split at debited
  · rename_i owed
    cases debited
    refine ⟨call.identity.traceId, label, included ?_⟩
    simp [rollbackJobs, owed]
  · cases debited

/-- A debit is handed on, or about to be taken back, until the call is dispatched. -/
theorem Step.debit {sessionId : String} (step : Step config w env phase v next emission)
    (held : phase.debit = some sessionId) :
    next.debit = some sessionId ∨ Refunding sessionId next.jobs ∨ ∃ call, emission = .dispatched call := by
  cases step with
  | built => exact .inl held
  | prepared => exact .inl held
  | unprepared origin call =>
    refine .inr (.inl (refunding_rollbackJobs held ?_ ?_))
    · exact match origin with
        | .autoAllow => "build_run_task_error"
        | .approval _ _ => "approval_enforcement_error"
    · cases origin with
      | autoAllow =>
        intro job member
        exact List.mem_append_left _ (List.mem_append_right _ member)
      | approval =>
        intro job member
        exact List.mem_append_left _ (List.mem_append_left _ member)
  | cleared => exact .inl held
  | refusedGrant _ _ denial =>
    refine .inr (.inl (refunding_rollbackJobs held denial.label ?_))
    intro job member
    exact List.mem_append_left _ (List.mem_append_left _ member)
  | unrecorded _ _ _ _ denial =>
    refine .inr (.inl (refunding_rollbackJobs held denial.label ?_))
    intro job member
    exact List.mem_append_left _ (List.mem_append_left _ member)
  | dispatched => exact .inr (.inr ⟨_, rfl⟩)
  | _ => cases held

/-- A dispatched call has its event, or is about to get it. -/
theorem Step.covers {call : AuthorizedCall} (step : Step config w env phase v next emission)
    (reaches : Reaches config w env phase)
    (concludes : ∀ origin call receipt event response, phase = .finalizing origin call receipt event response →
      Concludes call receipt event response)
    (carried : phase.dispatchedCall = some call) :
    Covered v.ledger.committed call ∨ next.dispatchedCall = some call ∨ Covering call next.jobs := by
  cases step with
  | waiting => exact .inr (.inl carried)
  | moduleMissing =>
    cases carried
    exact .inr (.inr ⟨_, List.mem_append_left _ (List.mem_singleton_self _), rfl⟩)
  | started => exact .inr (.inl carried)
  | failed =>
    cases carried
    exact .inr (.inr ⟨_, List.mem_append_left _ (List.mem_singleton_self _), rfl⟩)
  | misshapen =>
    cases carried
    exact .inr (.inr ⟨_, List.mem_append_left _ (List.mem_singleton_self _), rfl⟩)
  | ran => exact .inr (.inl carried)
  | unverified =>
    cases carried
    exact .inr (.inr ⟨_, List.mem_append_left _ (.tail _ (.head _)), rfl⟩)
  | unhashable _ _ _ _ _ _ risky refused =>
    rcases reaches with denied | ⟨hashed, accepted⟩
    · exact absurd (risky.symm.trans denied) Bool.false_ne_true
    · rw [refused] at accepted
      cases accepted
  | concluded => exact .inr (.inl carried)
  | lostEvidence _ _ _ _ _ _ uncommitted => exact absurd reaches uncommitted
  | storedEvidence origin call receipt event response ledger result committed =>
    cases carried
    refine .inl ⟨w.ledger.chained event, ?_, (concludes _ _ _ _ _ rfl).eventTrace⟩
    dsimp only
    rw [committed]
    exact List.mem_append_right _ (List.mem_singleton_self _)
  | left => exact .inr (.inl carried)
  | unprepared => cases carried
  | _ => cases carried

theorem not_settling_nil {approvalId : String} : ¬Settling approvalId [] := by
  rintro (⟨token, kind, detail, member⟩ | ⟨token, traceId, kind, detail, same⟩)
  · cases member
  · cases same

theorem not_refunding_nil {sessionId : String} : ¬Refunding sessionId [] := by
  rintro ⟨traceId, label, member⟩
  cases member

theorem not_covering_nil {call : AuthorizedCall} : ¬Covering call [] := by
  rintro ⟨event, member, -⟩
  cases member

/-- The jobs of a request are done one after the other. -/
theorem Step.settles {approvalId : String} (step : Step config w env phase v next emission)
    (reaches : Reaches config w env phase) (sound : w.gate.store.Sound) (settling : Settling approvalId phase.jobs) :
    v.gate.store.CarriesOutcome approvalId ∨ Settling approvalId next.jobs := by
  cases step with
  | worked job jobs reply =>
    rcases settling.of_cons with here | ⟨token, kind, detail, later⟩
    · exact .inl (doJob_settles sound reaches here)
    · exact .inr (.inl ⟨token, kind, detail, List.mem_append_right _ later⟩)
  | left => exact .inr settling
  | _ => exact absurd settling not_settling_nil

theorem Step.refunds {sessionId : String} (step : Step config w env phase v next emission)
    (reaches : Reaches config w env phase) (refunding : Refunding sessionId phase.jobs) :
    emission = .refunded sessionId ∨ Refunding sessionId next.jobs := by
  cases step with
  | worked job jobs reply =>
    rcases refunding.of_cons with here | ⟨traceId, label, later⟩
    · exact .inl (doJob_refunds reaches here)
    · exact .inr ⟨traceId, label, List.mem_append_right _ later⟩
  | left => exact .inr refunding
  | _ => exact absurd refunding not_refunding_nil

theorem Step.records {call : AuthorizedCall} (step : Step config w env phase v next emission)
    (reaches : Reaches config w env phase) (covering : Covering call phase.jobs) :
    Covered v.ledger.committed call ∨ Covering call next.jobs := by
  cases step with
  | worked job jobs reply =>
    rcases covering.of_cons with here | ⟨event, later, about⟩
    · exact .inl (doJob_covers reaches here)
    · exact .inr ⟨event, List.mem_append_right _ later, about⟩
  | left => exact .inr covering
  | _ => exact absurd covering not_covering_nil

/-- A claim and a debit are taken charge of where they are made. -/
theorem Step.said_claimed {approvalId : String} (step : Step config w env phase v next emission)
    (said : emission = .claimed approvalId) : ∃ claimToken, next.claim = some (approvalId, claimToken) := by
  cases step with
  | claimed =>
    cases said
    exact ⟨_, rfl⟩
  | worked job jobs reply =>
    have meant := (Step.worked job jobs reply : Step config w env _ _ _ _).meaning
    rw [said] at meant
    cases meant
  | _ => cases said

theorem Step.said_debited {sessionId : String} (step : Step config w env phase v next emission)
    (reaches : Reaches config w env phase) (said : emission = .debited sessionId) : next.debit = some sessionId := by
  cases step with
  | debitLost _ _ _ message _ lost => exact absurd lost (reaches rfl message)
  | debited =>
    cases said
    rfl
  | worked job jobs reply =>
    have meant := (Step.worked job jobs reply : Step config w env _ _ _ _).meaning
    rw [said] at meant
    cases meant
  | _ => cases said

/-- What is owed by a request, and who sees to it. -/
structure Answerable (past : History) (i : Nat) (w : World) (phase : Phase) : Prop where
  orphans : ∀ inner, phase = .orphaned inner → inner.inFlight = true ∧ inner.isDroppable = true
  concludes : ∀ origin call receipt event response,
    phase = .finalizing origin call receipt event response ∨
      phase = .orphaned (.finalizing origin call receipt event response) → Concludes call receipt event response
  claims : ∀ e approvalId, ((i, e), .claimed approvalId) ∈ past → w.gate.store.CarriesOutcome approvalId ∨
    (∃ claimToken, phase.claim = some (approvalId, claimToken)) ∨ Settling approvalId phase.jobs
  debits : ∀ e sessionId, ((i, e), .debited sessionId) ∈ past → (∃ f call, ((i, f), .dispatched call) ∈ past) ∨
    (∃ f, ((i, f), .refunded sessionId) ∈ past) ∨ phase.debit = some sessionId ∨ Refunding sessionId phase.jobs
  dispatches : ∀ e call, ((i, e), .dispatched call) ∈ past →
    Covered w.ledger.committed call ∨ phase.dispatchedCall = some call ∨ Covering call phase.jobs

theorem mem_concat {entry said : (Nat × Input) × Emission} (member : entry ∈ past ++ [said]) :
    entry ∈ past ∨ entry = said := by
  rcases List.mem_append.mp member with old | new
  · exact .inl old
  · exact .inr (List.mem_singleton.mp new)

/-- What another request does leaves this one as it is, and what it has is
not taken from it. -/
theorem Answerable.mono (answerable : Answerable past i w phase) {j : Nat} {e : Input}
    (silent : j = i → emission = .nothing) (within : w.ledger.committed.Within v.ledger.committed)
    (carried : ∀ approvalId, w.gate.store.CarriesOutcome approvalId → v.gate.store.CarriesOutcome approvalId) :
    Answerable (past ++ [((j, e), emission)]) i v phase := by
  have older : ∀ {f said}, said ≠ .nothing → ((i, f), said) ∈ past ++ [((j, e), emission)] → ((i, f), said) ∈ past := by
    intro f said something member
    rcases mem_concat member with old | new
    · exact old
    · cases new
      exact absurd (silent rfl) something
  refine ⟨answerable.orphans, answerable.concludes, ?_, ?_, ?_⟩
  · intro f approvalId member
    rcases answerable.claims f approvalId (older (by simp) member) with outcome | owed
    · exact .inl (carried approvalId outcome)
    · exact .inr owed
  · intro f sessionId member
    rcases answerable.debits f sessionId (older (by simp) member) with ⟨g, call, dispatched⟩ | ⟨g, refunded⟩ | owed
    · exact .inl ⟨g, call, List.mem_append_left _ dispatched⟩
    · exact .inr (.inl ⟨g, List.mem_append_left _ refunded⟩)
    · exact .inr (.inr owed)
  · intro f call member
    rcases answerable.dispatches f call (older (by simp) member) with covered | owed
    · exact .inl (covered.mono within)
    · exact .inr owed

theorem Step.answerable (step : Step config w env phase v next emission) (reaches : Reaches config w env phase)
    (sound : w.gate.store.Sound) (earlier : Answerable past i w phase) :
    Answerable (past ++ [((i, .proceed env), emission)]) i v next where
  orphans := by
    intro inner same
    cases step with
    | left => exact earlier.orphans inner same
    | unprepared origin => cases origin <;> cases same
    | _ => cases same
  concludes := by
    intro origin call receipt event response same
    cases step with
    | concluded _ _ _ _ _ _ _ made =>
      rcases same with same | same
      · cases same
        exact made
      · cases same
    | left => exact earlier.concludes origin call receipt event response same
    | unprepared origin => cases origin <;> rcases same with same | same <;> cases same
    | _ => rcases same with same | same <;> cases same
  claims := by
    intro f approvalId member
    rcases mem_concat member with old | new
    · rcases earlier.claims f approvalId old with outcome | ⟨claimToken, held⟩ | settling
      · exact .inl (((Acts.stepped step).store sound).2 approvalId outcome)
      · rcases step.claim reaches held with still | settling
        · exact .inr (.inl ⟨claimToken, still⟩)
        · exact .inr (.inr settling)
      · rcases step.settles reaches sound settling with outcome | settling
        · exact .inl outcome
        · exact .inr (.inr settling)
    · exact .inr (.inl (step.said_claimed (congrArg Prod.snd new).symm))
  debits := by
    intro f sessionId member
    have told : ∀ said, emission = said → ((i, Input.proceed env), said) ∈ past ++ [((i, Input.proceed env), emission)] := by
      rintro said rfl
      exact List.mem_append_right _ (List.mem_singleton_self _)
    rcases mem_concat member with old | new
    · rcases earlier.debits f sessionId old with ⟨g, call, dispatched⟩ | ⟨g, refunded⟩ | held | refunding
      · exact .inl ⟨g, call, List.mem_append_left _ dispatched⟩
      · exact .inr (.inl ⟨g, List.mem_append_left _ refunded⟩)
      · rcases step.debit held with still | refunding | ⟨call, said⟩
        · exact .inr (.inr (.inl still))
        · exact .inr (.inr (.inr refunding))
        · exact .inl ⟨_, call, told _ said⟩
      · rcases step.refunds reaches refunding with said | refunding
        · exact .inr (.inl ⟨_, told _ said⟩)
        · exact .inr (.inr (.inr refunding))
    · exact .inr (.inr (.inl (step.said_debited reaches (congrArg Prod.snd new).symm)))
  dispatches := by
    intro f call member
    rcases mem_concat member with old | new
    · rcases earlier.dispatches f call old with covered | carried | covering
      · exact .inl (covered.mono step.within)
      · exact step.covers reaches (fun _ _ _ _ _ at_ => earlier.concludes _ _ _ _ _ (.inl at_)) carried
      · rcases step.records reaches covering with covered | covering
        · exact .inl covered
        · exact .inr (.inr covering)
    · exact .inr (.inl (dispatchedCall_of_said step (.inl (congrArg Prod.snd new).symm)))

theorem droppable_claim (droppable : phase.isDroppable = true) : phase.claim = none := by
  cases phase with
  | claimed => cases droppable
  | awaitingPermit => cases droppable
  | running => cases droppable
  | verifying => cases droppable
  | finalizing => simpa [Phase.isDroppable, Phase.claim] using droppable
  | debiting => simp_all [Phase.isDroppable, Phase.claim]
  | building => simp_all [Phase.isDroppable, Phase.claim]
  | preparing => simp_all [Phase.isDroppable, Phase.claim]
  | authorized => simp_all [Phase.isDroppable, Phase.claim]
  | recordingIntent => simp_all [Phase.isDroppable, Phase.claim]
  | _ => rfl

theorem droppable_debit (droppable : phase.isDroppable = true) : phase.debit = none := by
  cases phase with
  | building => simp_all [Phase.isDroppable, Phase.debit]
  | preparing => simp_all [Phase.isDroppable, Phase.debit]
  | authorized => simp_all [Phase.isDroppable, Phase.debit]
  | recordingIntent => simp_all [Phase.isDroppable, Phase.debit]
  | _ => rfl

/-- Of the jobs of a request that may be dropped, only the first is owed. -/
theorem droppable_tail {reply : Reply} (droppable : (Phase.closing (job :: jobs) reply).isDroppable = true)
    {other : Job} (member : other ∈ jobs) : other.isOwed = false := by
  simpa using List.all_eq_true.mp droppable other member

theorem settling_of_droppable {approvalId : String} {reply : Reply}
    (droppable : (Phase.closing (job :: jobs) reply).isDroppable = true) (settling : Settling approvalId (job :: jobs)) :
    Settling approvalId [job] := by
  rcases settling.of_cons with here | ⟨token, kind, detail, later⟩
  · exact here
  · cases droppable_tail droppable later

theorem refunding_of_droppable {sessionId : String} {reply : Reply}
    (droppable : (Phase.closing (job :: jobs) reply).isDroppable = true) (refunding : Refunding sessionId (job :: jobs)) :
    Refunding sessionId [job] := by
  rcases refunding.of_cons with here | ⟨traceId, label, later⟩
  · exact here
  · cases droppable_tail droppable later

theorem covering_of_droppable {call : AuthorizedCall} {reply : Reply}
    (droppable : (Phase.closing (job :: jobs) reply).isDroppable = true) (covering : Covering call (job :: jobs)) :
    Covering call [job] := by
  rcases covering.of_cons with here | ⟨event, later, -⟩
  · exact here
  · cases droppable_tail droppable later

/-- A request that is dropped where it may be has handed out what it owes. -/
theorem Answerable.orphaned (answerable : Answerable past i w phase) (handedOut : phase.inFlight = true)
    (droppable : phase.isDroppable = true) : Answerable past i w (.orphaned phase) where
  orphans := by
    intro inner same
    cases same
    exact ⟨handedOut, droppable⟩
  concludes := by
    rintro origin call receipt event response (same | same)
    · cases same
    · cases same
      exact answerable.concludes _ _ _ _ _ (.inl rfl)
  claims := by
    intro e approvalId member
    rcases answerable.claims e approvalId member with outcome | ⟨claimToken, held⟩ | settling
    · exact .inl outcome
    · rw [droppable_claim droppable] at held
      cases held
    · cases phase with
      | closing jobs reply =>
        cases jobs with
        | nil => cases handedOut
        | cons job jobs => exact .inr (.inr (settling_of_droppable droppable settling))
      | orphaned => cases handedOut
      | _ => exact absurd settling not_settling_nil
  debits := by
    intro e sessionId member
    rcases answerable.debits e sessionId member with dispatched | refunded | held | refunding
    · exact .inl dispatched
    · exact .inr (.inl refunded)
    · rw [droppable_debit droppable] at held
      cases held
    · cases phase with
      | closing jobs reply =>
        cases jobs with
        | nil => cases handedOut
        | cons job jobs => exact .inr (.inr (.inr (refunding_of_droppable droppable refunding)))
      | orphaned => cases handedOut
      | _ => exact absurd refunding not_refunding_nil
  dispatches := by
    intro e call member
    rcases answerable.dispatches e call member with covered | carried | covering
    · exact .inl covered
    · cases phase with
      | finalizing => exact .inr (.inl carried)
      | awaitingPermit => cases droppable
      | running => cases droppable
      | verifying => cases droppable
      | orphaned => cases handedOut
      | _ => cases carried
    · cases phase with
      | closing jobs reply =>
        cases jobs with
        | nil => cases handedOut
        | cons job jobs => exact .inr (.inr (covering_of_droppable droppable covering))
      | orphaned => cases handedOut
      | _ => exact absurd covering not_covering_nil

/-- One with nothing handed out owes nothing. -/
theorem Answerable.dropped (answerable : Answerable past i w phase) (idle : phase.inFlight = false)
    (owned : ∀ inner, phase ≠ .orphaned inner) (droppable : phase.isDroppable = true) :
    Answerable past i w .dropped := by
  have jobless : phase.jobs = [] := by
    cases phase with
    | closing jobs reply =>
      cases jobs with
      | nil => rfl
      | cons => cases idle
    | orphaned inner => exact absurd rfl (owned inner)
    | _ => rfl
  have undispatched : phase.dispatchedCall = none := by
    cases phase with
    | finalizing => cases idle
    | awaitingPermit => cases droppable
    | running => cases droppable
    | verifying => cases droppable
    | orphaned inner => exact absurd rfl (owned inner)
    | _ => rfl
  refine ⟨by simp, by simp, ?_, ?_, ?_⟩
  · intro e approvalId member
    rcases answerable.claims e approvalId member with outcome | ⟨claimToken, held⟩ | settling
    · exact .inl outcome
    · rw [droppable_claim droppable] at held
      cases held
    · exact absurd (jobless ▸ settling) not_settling_nil
  · intro e sessionId member
    rcases answerable.debits e sessionId member with dispatched | refunded | held | refunding
    · exact .inl dispatched
    · exact .inr (.inl refunded)
    · rw [droppable_debit droppable] at held
      cases held
    · exact absurd (jobless ▸ refunding) not_refunding_nil
  · intro e call member
    rcases answerable.dispatches e call member with covered | carried | covering
    · exact .inl covered
    · rw [undispatched] at carried
      cases carried
    · exact absurd (jobless ▸ covering) not_covering_nil

/-- What was handed out has its effect. -/
theorem Answerable.completed {inner : Phase} (answerable : Answerable past i w (.orphaned inner))
    (step : Step config w env inner v next emission) (reaches : Reaches config w env (.orphaned inner))
    (sound : w.gate.store.Sound) : Answerable (past ++ [((i, .proceed env), emission.orphaned)]) i v .dropped := by
  obtain ⟨handedOut, droppable⟩ := answerable.orphans inner rfl
  have meant := step.meaning
  refine ⟨by simp, by simp, ?_, ?_, ?_⟩
  · intro e approvalId member
    rcases mem_concat member with old | new
    · rcases answerable.claims e approvalId old with outcome | ⟨claimToken, held⟩ | settling
      · exact .inl (((Acts.completed step).store sound).2 approvalId outcome)
      · cases held
      · cases step with
        | worked job jobs reply => exact .inl (doJob_settles sound reaches settling)
        | _ => exact absurd settling not_settling_nil
    · cases emission with
      | claimed =>
        cases meant
        cases droppable
      | _ => cases new
  · intro e sessionId member
    rcases mem_concat member with old | new
    · rcases answerable.debits e sessionId old with ⟨f, call, dispatched⟩ | ⟨f, refunded⟩ | held | refunding
      · exact .inl ⟨f, call, List.mem_append_left _ dispatched⟩
      · exact .inr (.inl ⟨f, List.mem_append_left _ refunded⟩)
      · cases held
      · cases step with
        | worked job jobs reply =>
          rw [doJob_refunds reaches refunding]
          exact .inr (.inl ⟨_, List.mem_append_right _ (List.mem_singleton_self _)⟩)
        | _ => exact absurd refunding not_refunding_nil
    · cases emission with
      | debited =>
        cases meant
        simp [Phase.isDroppable] at droppable
      | _ => cases new
  · intro e call member
    rcases mem_concat member with old | new
    · rcases answerable.dispatches e call old with covered | carried | covering
      · exact .inl (covered.mono step.within)
      · cases step with
        | lostEvidence _ _ _ _ _ _ uncommitted => exact absurd reaches uncommitted
        | storedEvidence origin call receipt event response ledger result committed =>
          cases carried
          refine .inl ⟨w.ledger.chained event, ?_, (answerable.concludes _ _ _ _ _ (.inr rfl)).eventTrace⟩
          dsimp only
          rw [committed]
          exact List.mem_append_right _ (List.mem_singleton_self _)
        | _ => cases carried
      · cases step with
        | worked job jobs reply => exact .inl (doJob_covers reaches covering)
        | _ => exact absurd covering not_covering_nil
    · exact absurd (.inl (congrArg Prod.snd new).symm) (orphan_unsaid step handedOut call)

theorem Acts.answerable (acts : Acts config w phase input v next emission) (sound : w.gate.store.Sound)
    (proceeds : ∀ env, input = .proceed env → Reaches config w env phase)
    (drops : input = .drop → phase.isDroppable = true) (earlier : Answerable past i w phase) :
    Answerable (past ++ [((i, input), emission)]) i v next := by
  have kept : ∀ {phase : Phase} (e : Input), Answerable past i w phase →
      Answerable (past ++ [((i, e), Emission.nothing)]) i w phase :=
    fun e earlier => earlier.mono (fun _ => rfl) (Tables.Within.refl _) (fun _ carried => carried)
  cases acts with
  | arrived task =>
    have old := kept (.arrive task) earlier
    exact ⟨by simp, by simp, old.claims, old.debits, old.dispatches⟩
  | ignored => exact kept _ earlier
  | kept => exact kept _ earlier
  | stepped step => exact step.answerable (proceeds _ rfl) sound earlier
  | completed step => exact earlier.completed step (proceeds _ rfl) sound
  | released => cases drops rfl
  | orphaned phase handedOut => exact kept _ (earlier.orphaned handedOut (drops rfl))
  | dropped phase idle stopped owned => exact kept _ (earlier.dropped idle owned (drops rfl))

theorem quiet_answerable (w : World) (i : Nat) : Answerable [] i w ((quiet w).2 i) := by
  refine ⟨by simp [quiet], by simp [quiet], ?_, ?_, ?_⟩ <;>
  · intro e about member
    cases member

theorem run_answerable {inputs : List (Nat × Input)} (sound : w.gate.store.Sound)
    (meets : (actor config).machine.Meets (Attended config) (quiet w) inputs) :
    ((actor config).machine.run (quiet w) inputs).1.gate.store.Sound ∧
      ∀ i, Answerable ((actor config).machine.trace (quiet w) inputs) i ((actor config).machine.run (quiet w) inputs).1
        (((actor config).machine.run (quiet w) inputs).2 i) := by
  let inv : History → World × (Nat → Phase) → Prop :=
    fun past s => s.1.gate.store.Sound ∧ ∀ i, Answerable past i s.1 (s.2 i)
  have start : inv [] (quiet w) := ⟨sound, quiet_answerable w⟩
  refine meets.trace_invariant start ?_
  rintro past s ⟨i, input⟩ guard ⟨sound, each⟩
  have acts := act_acts config s.1 (s.2 i) input
  refine ⟨(acts.store sound).1, ?_⟩
  intro j
  by_cases same : j = i
  · subst same
    rw [Actor.step_own]
    refine acts.answerable sound ?_ ?_ (each j)
    · rintro env rfl
      exact guard
    · rintro rfl
      exact guard
  · rw [Actor.step_other s same]
    exact (each j).mono (fun here => absurd here.symm same) acts.within (acts.store sound).2

def Phase.isOver : Phase → Bool
  | .replied _ | .dropped => true
  | _ => false

theorem owes_nothing (ended : phase.isOver = true) :
    phase.claim = none ∧ phase.debit = none ∧ phase.dispatchedCall = none ∧ phase.jobs = [] := by
  cases phase with
  | replied => exact ⟨rfl, rfl, rfl, rfl⟩
  | dropped => exact ⟨rfl, rfl, rfl, rfl⟩
  | _ => cases ended

/-! How far a request is from its end. -/

def Job.weight : Job → Nat
  | .rollback _ _ _ => 2
  | _ => 1

def Phase.distance : Phase → Nat
  | .idle | .replied _ | .dropped => 0
  | .orphaned _ => 1
  | .closing jobs _ => (jobs.map Job.weight).sum + 1
  | .revoking _ | .readingInFlight _ _ => 3
  | .finalizing _ _ _ _ _ => 5
  | .verifying _ _ _ _ => 7
  | .running _ _ _ => 8
  | .awaitingPermit _ _ _ => 9
  | .recordingIntent _ _ _ => 10
  | .authorized _ _ => 11
  | .preparing _ _ => 12
  | .building _ _ _ => 13
  | .debiting _ _ _ => 14
  | .deciding | .claimed _ _ => 15
  | .claiming _ _ => 16
  | .arrived _ => 17

theorem weight_outcomeJobs (origin : Origin) (traceId : String) (result : Except PipelineError ExecutedResponse) :
    ((outcomeJobs origin traceId result).map Job.weight).sum ≤ 3 := by
  cases origin with
  | autoAllow => exact Nat.zero_le _
  | approval => cases result <;> exact Nat.le_refl _

theorem distance_closeWith (origin : Origin) (traceId : String) (jobs : List Job)
    (result : Except PipelineError ExecutedResponse) :
    (closeWith origin traceId jobs result).distance ≤ (jobs.map Job.weight).sum + 4 := by
  have outcome := weight_outcomeJobs origin traceId result
  simp only [closeWith, Phase.distance, List.map_append, List.sum_append]
  omega

theorem weight_rollbackJobs (call : AuthorizedCall) (label : String) :
    ((rollbackJobs call label).map Job.weight).sum ≤ 2 := by
  unfold rollbackJobs
  split
  · exact Nat.le_refl _
  · exact Nat.zero_le _

theorem weight_audits {α : Type} (event : Option α) (job : α → Job) (light : ∀ a, (job a).weight = 1) :
    ((event.toList.map job).map Job.weight).sum ≤ 1 := by
  cases event with
  | none => exact Nat.zero_le _
  | some event => simp [light]

theorem weight_doJob (config : ExecutionConfig) (w : World) (env : Env) (job : Job) :
    ((doJob config w env job).2.1.map Job.weight).sum < job.weight := by
  cases job with
  | rollback sessionId traceId label =>
    simp only [doJob]
    split <;> simp [Job.weight]
  | _ => simp [doJob, Job.weight]

theorem distance_deny (config : ExecutionConfig) (origin : Origin) (call : AuthorizedCall) (timestamp : String)
    (denial : Denial) : (denyPreDispatch config origin call timestamp denial).distance ≤ 7 := by
  have rollback := weight_rollbackJobs call denial.label
  have close := distance_closeWith origin call.identity.traceId
    (rollbackJobs call denial.label ++ [Job.audit (call.event config timestamp .deny (some denial.reason))])
    (.error denial.error)
  simp only [List.map_append, List.sum_append, List.map_cons, List.map_nil, List.sum_cons, List.sum_nil,
    Job.weight] at close
  unfold denyPreDispatch
  omega

theorem distance_prepareFailed (origin : Origin) (call : AuthorizedCall) (event : Option AuditEvent)
    (error : PipelineError) : (prepareFailed origin call event error).distance ≤ 7 := by
  have audits := weight_audits event Job.audit (fun _ => rfl)
  cases origin with
  | autoAllow =>
    have rollback := weight_rollbackJobs call "build_run_task_error"
    have close := distance_closeWith .autoAllow call.identity.traceId
      (event.toList.map Job.audit ++ rollbackJobs call "build_run_task_error") (.error error)
    simp only [List.map_append, List.sum_append] at close
    unfold prepareFailed
    dsimp only
    omega
  | approval approvalId claimToken =>
    have rollback := weight_rollbackJobs call "approval_enforcement_error"
    have close := distance_closeWith (.approval approvalId claimToken) call.identity.traceId
      (rollbackJobs call "approval_enforcement_error" ++ event.toList.map Job.audit) (.error error)
    simp only [List.map_append, List.sum_append] at close
    unfold prepareFailed
    dsimp only
    omega

/-- Every step that is not a wait for a permit brings the request nearer to its end. -/
theorem Step.distance (step : Step config w env phase v next emission) (alive : phase.distance ≠ 0)
    (owned : ∀ inner, phase ≠ .orphaned inner) :
    next.distance < phase.distance ∨ w.availablePermits = 0 ∧ next = phase := by
  have audits := weight_audits env.event Job.audit (fun _ => rfl)
  cases step with
  | idle => exact absurd rfl alive
  | answered => exact absurd rfl alive
  | gone => exact absurd rfl alive
  | left phase => exact absurd rfl (owned phase)
  | waiting _ _ _ full => exact .inr ⟨full, rfl⟩
  | refusedPlan => exact .inl (Nat.lt_of_le_of_lt (distance_closeWith _ _ _ _) (by simp only [Phase.distance]; omega))
  | debitRefused => exact .inl (Nat.lt_of_le_of_lt (distance_closeWith _ _ _ _) (by simp only [Phase.distance]; omega))
  | debitLost => exact .inl (Nat.lt_of_le_of_lt (distance_closeWith _ _ _ _) (by simp only [Phase.distance]; omega))
  | unprepared => exact .inl (Nat.lt_of_le_of_lt (distance_prepareFailed _ _ _ _) (by simp [Phase.distance]))
  | refusedGrant => exact .inl (Nat.lt_of_le_of_lt (distance_deny _ _ _ _ _) (by simp [Phase.distance]))
  | unrecorded => exact .inl (Nat.lt_of_le_of_lt (distance_deny _ _ _ _ _) (by simp [Phase.distance]))
  | moduleMissing => exact .inl (Nat.lt_of_le_of_lt (distance_closeWith _ _ _ _) (by simp [Job.weight, Phase.distance]))
  | failed => exact .inl (Nat.lt_of_le_of_lt (distance_closeWith _ _ _ _) (by simp [Job.weight, Phase.distance]))
  | misshapen => exact .inl (Nat.lt_of_le_of_lt (distance_closeWith _ _ _ _) (by simp [Job.weight, Phase.distance]))
  | unverified => exact .inl (Nat.lt_of_le_of_lt (distance_closeWith _ _ _ _) (by simp [Job.weight, Phase.distance]))
  | unhashable => exact .inl (Nat.lt_of_le_of_lt (distance_closeWith _ _ _ _) (by simp [Phase.distance]))
  | lostEvidence => exact .inl (Nat.lt_of_le_of_lt (distance_closeWith _ _ _ _) (by simp [Phase.distance]))
  | storedEvidence => exact .inl (Nat.lt_of_le_of_lt (distance_closeWith _ _ _ _) (by simp [Phase.distance]))
  | worked job jobs reply =>
    have lighter := weight_doJob config w env job
    simp only [Phase.distance, List.map_append, List.sum_append, List.map_cons, List.sum_cons]
    exact .inl (by omega)
  | counted draining wasFirst =>
    have light : (Phase.closing (drainJobs config env (inFlightCount config w) wasFirst)
        (.drain draining (inFlightCount config w))).distance ≤ 2 := by
      have jobs := weight_audits wasFirst (fun first => Job.audit (adminEvent config env .adminDrain
        ("drain initiated, in_flight=" ++ toString (inFlightCount config w) ++ ", was_first=" ++ toString first)))
        (fun _ => rfl)
      simp only [Phase.distance, drainJobs]
      omega
    exact .inl (by simp only [Phase.distance] at light ⊢; omega)
  | _ => exact .inl (by simp [Phase.distance, Job.weight])

/-- Whoever ends, by an answer or by a disconnect, leaves nothing behind: what
was dispatched is in the ledger, what was debited for nothing is given back, and
what was claimed has an outcome. And every request comes to its end: only a wait
for a permit does not bring it nearer. -/
def LeavesNothing (config : ExecutionConfig) (w : World) (inputs : List (Nat × Input)) : Prop :=
  let s := (actor config).machine.run (quiet w) inputs
  let past := (actor config).machine.trace (quiet w) inputs
  ∀ i, ((s.2 i).isOver = true →
      (∀ e call, ((i, e), .dispatched call) ∈ past → Covered s.1.ledger.committed call) ∧
      (∀ e sessionId, ((i, e), .debited sessionId) ∈ past →
        (∃ f call, ((i, f), .dispatched call) ∈ past) ∨ ∃ f, ((i, f), .refunded sessionId) ∈ past) ∧
      (∀ e approvalId, ((i, e), .claimed approvalId) ∈ past → s.1.gate.store.CarriesOutcome approvalId)) ∧
    ∀ env, (s.2 i).distance ≠ 0 →
      (((actor config).machine.step s (i, .proceed env)).1.2 i).distance < (s.2 i).distance ∨
        s.1.availablePermits = 0 ∧ ((actor config).machine.step s (i, .proceed env)).1.2 i = s.2 i

theorem step_distance (s : World × (Nat → Phase)) (i : Nat) (env : Env) (alive : (s.2 i).distance ≠ 0) :
    (((actor config).machine.step s (i, .proceed env)).1.2 i).distance < (s.2 i).distance ∨
      s.1.availablePermits = 0 ∧ ((actor config).machine.step s (i, .proceed env)).1.2 i = s.2 i := by
  rw [Actor.step_own]
  generalize s.2 i = phase at alive
  cases phase with
  | orphaned inner => exact .inl Nat.zero_lt_one
  | _ => exact (proceed_step config s.1 env _).distance alive (by simp)

/-- A gate whose requests are attended to leaves nothing behind. -/
theorem attended_leaves_nothing (config : ExecutionConfig) (w : World) (inputs : List (Nat × Input))
    (sound : w.gate.store.Sound) (meets : (actor config).machine.Meets (Attended config) (quiet w) inputs) :
    LeavesNothing config w inputs := by
  intro i
  refine ⟨?_, step_distance _ i⟩
  intro ended
  have answerable := (run_answerable sound meets).2 i
  obtain ⟨unclaimed, undebited, undispatched, jobless⟩ := owes_nothing ended
  refine ⟨?_, ?_, ?_⟩
  · intro e call member
    rcases answerable.dispatches e call member with covered | carried | covering
    · exact covered
    · rw [undispatched] at carried
      cases carried
    · exact absurd (jobless ▸ covering) not_covering_nil
  · intro e sessionId member
    rcases answerable.debits e sessionId member with dispatched | refunded | held | refunding
    · exact .inl dispatched
    · exact .inr refunded
    · rw [undebited] at held
      cases held
    · exact absurd (jobless ▸ refunding) not_refunding_nil
  · intro e approvalId member
    rcases answerable.claims e approvalId member with outcome | ⟨claimToken, held⟩ | settling
    · exact outcome
    · rw [unclaimed] at held
      cases held
    · exact absurd (jobless ▸ settling) not_settling_nil

/-- A call whose module is missing, with its event. -/
def failedRun : List (Nat × Input) :=
  checkedRun ++ [(0, .proceed sampleEnv), (0, .proceed { sampleEnv with moduleLookup := .error "no module" }),
    (0, .proceed sampleEnv), (0, .proceed sampleEnv)]

theorem attended_leaves_nothing_failedRun :
    (actor sampleConfig).machine.Meets (Attended sampleConfig) (quiet sampleWorld) failedRun ∧
      (((actor sampleConfig).machine.run (quiet sampleWorld) failedRun).2 0).isOver = true ∧
      LeavesNothing sampleConfig sampleWorld failedRun := by
  have meets : (actor sampleConfig).machine.Meets (Attended sampleConfig) (quiet sampleWorld) failedRun := by
    refine ⟨trivial, trivial, trivial, ?_, trivial, trivial, trivial, trivial, trivial, ?_, trivial, trivial⟩
    · intro spent
      cases spent
    · refine ⟨rfl, ⟨rfl, rfl, ?_⟩, rfl⟩
      intro old member
      cases member
  exact ⟨meets, rfl, attended_leaves_nothing sampleConfig sampleWorld failedRun ApprovalBackend.Empty.inMemory.sound meets⟩

/-- The client disconnects while its provider runs. -/
def abandonedRun : List (Nat × Input) :=
  checkedRun ++ [(0, .proceed sampleEnv), (0, .proceed sampleEnv), (0, .drop)]

/-- The client disconnects after the debit. -/
def debitedRun : List (Nat × Input) :=
  let env := { sampleEnv with hasBudgets := true }
  [(0, .arrive .actionCall), (0, .proceed env), (0, .proceed env), (0, .proceed env), (0, .drop)]

def claimEnv : Env :=
  { sampleEnv with store := (approveEnvAt1 none).claim.claim, claimToken := (approveEnvAt1 none).claim.claimToken }

/-- The client disconnects after the claim. -/
def claimedRun : List (Nat × Input) :=
  [(0, .arrive (.approve "a1" "op:alice")), (0, .proceed claimEnv), (0, .proceed claimEnv), (0, .drop)]

/-- A client that disconnects suppresses the evidence of its own execution,
keeps a debit from being given back, and leaves a claim without an outcome. -/
theorem disconnects_leave_something :
    ¬LeavesNothing sampleConfig sampleWorld abandonedRun ∧
      ¬LeavesNothing sampleConfig { sampleWorld with budgets := .inMemory (AList.singleton "s-1" 5) } debitedRun ∧
      ¬LeavesNothing sampleConfig { sampleWorld with gate := freshGate } claimedRun := by
  refine ⟨?_, ?_, ?_⟩
  · intro nothing
    obtain ⟨event, row, -⟩ := ((nothing 0).1 rfl).1 (.proceed sampleEnv) sampleBuilt
      (.tail _ (.tail _ (.tail _ (.tail _ (.tail _ (.tail _ (.tail _ (.head _))))))))
    cases row
  · intro nothing
    have told : ((actor sampleConfig).machine.trace
        (quiet { sampleWorld with budgets := .inMemory (AList.singleton "s-1" 5) }) debitedRun).map Prod.snd =
        [.nothing, .nothing, .nothing, .debited "s-1", .nothing] := rfl
    rcases ((nothing 0).1 rfl).2.1 _ "s-1" (.tail _ (.tail _ (.tail _ (.head _)))) with ⟨f, call, member⟩ | ⟨f, member⟩
    · have said := @List.mem_map_of_mem _ _ _ _ Prod.snd member
      rw [told] at said
      simp at said
    · have said := @List.mem_map_of_mem _ _ _ _ Prod.snd member
      rw [told] at said
      simp at said
  · intro nothing
    have carried := ((nothing 0).1 rfl).2.2 _ "a1" (.tail _ (.tail _ (.head _)))
    exact (claimPending_merelyClaimed freshGate_sound freshGate_granted).2.1.no_outcome carried

end Requests
end Latchgate
