import Latchgate.Api.ClaimGuard

namespace Latchgate

/-- The approval has a terminal state or an outcome marker. -/
def ApprovalBackend.CarriesOutcome (b : ApprovalBackend) (id : String) : Prop :=
  ∃ r, b.view id = some r ∧ Settled r

/-- The approval is claimed with a token, and nothing more. -/
def ApprovalBackend.MerelyClaimed (b : ApprovalBackend) (id token : String) : Prop :=
  ∃ r, b.view id = some r ∧ r.state = .claimed ∧ r.outcomeMarker = none ∧
    r.claim.map ClaimInfo.claimToken = some token

section Settling
variable {config : StoreConfig} {b : ApprovalBackend} {id token : String}

theorem ApprovalBackend.MerelyClaimed.no_outcome (claimed : b.MerelyClaimed id token) : ¬b.CarriesOutcome id := by
  obtain ⟨r, kept, state, unmarked, -⟩ := claimed
  rintro ⟨s, same, settled⟩
  obtain rfl : r = s := Option.some.inj (kept.symm.trans same)
  simp [Settled, state, unmarked, ApprovalState.isTerminal] at settled

theorem claimPending_merelyClaimed {io : StoreIo} {operator : String} {claimed : ClaimedApproval} (sound : b.Sound)
    (granted : (b.claimPending config io id operator token).2 = .ok claimed) :
    (b.claimPending config io id operator token).1.Sound ∧
      (b.claimPending config io id operator token).1.MerelyClaimed id token ∧ claimed.claimToken = token := by
  obtain ⟨working, answer⟩ := claimPending_ok.1 granted
  have reached : (b.claimPending config io id operator token).1 =
      (b.step config ⟨io.clock, .claimPending id operator token⟩).1 := by
    simp [ApprovalBackend.claimPending, ApprovalBackend.call, working]
  obtain ⟨sound', steps⟩ := ApprovalBackend.step_record config sound ⟨io.clock, .claimPending id operator token⟩
  have step := steps id
  rw [answer] at step
  obtain ⟨r, before, claimable, after⟩ := step.claim_ok rfl
  have unsettled := claimable.not_settled (sound.view id r before).1
  have unmarked : r.outcomeMarker = none := by
    simpa using fun marked => unsettled (.inr marked)
  rw [reached]
  exact ⟨sound', ⟨_, after, rfl, unmarked, rfl⟩, ApprovalBackend.claim_answer_token answer⟩

theorem call_sound (sound : b.Sound) (io : StoreIo) (op : ApprovalOp) : (b.call config io op).1.Sound := by
  have stepped := (ApprovalBackend.step_record config sound ⟨io.clock, op⟩).1
  unfold ApprovalBackend.call
  cases io.fault with
  | none => exact stepped
  | some fault =>
    cases fault with
    | refused => exact sound
    | answerLost => exact stepped

/-- A call keeps the outcome of an approval, whether or not the backend fails
on it, unless it makes the approval anew. -/
theorem call_keeps_outcome {io : StoreIo} {op : ApprovalOp} (sound : b.Sound) (carried : b.CarriesOutcome id)
    (existing : ∀ pending, op ≠ .createPending pending) : (b.call config io op).1.CarriesOutcome id := by
  obtain ⟨r, kept, settled⟩ := carried
  have step := (ApprovalBackend.step_record config sound ⟨io.clock, op⟩).2 id
  rw [kept] at step
  have kept' : (b.step config ⟨io.clock, op⟩).1.CarriesOutcome id := by
    rcases step.settled settled (sound.view id r kept).1 with carried | ⟨-, pending, made, -⟩
    · exact carried
    · exact absurd made (existing pending)
  unfold ApprovalBackend.call
  cases io.fault with
  | none => exact kept'
  | some fault =>
    cases fault with
    | refused => exact ⟨r, kept, settled⟩
    | answerLost => exact kept'

/-- A marker settles the approval, as long as it reaches a store that has it. -/
theorem writeOutcomeMarker_settles {io : StoreIo} {detail : String} {kind : TerminalKind} (sound : b.Sound)
    (claimed : b.MerelyClaimed id token) (working : io.fault = none) (held : b.Held id io.clock) :
    (b.call config io (.writeOutcomeMarker id token kind.state.asStr detail)).1.CarriesOutcome id := by
  obtain ⟨r, kept, state, unmarked, holder⟩ := claimed
  have answer : (b.step config ⟨io.clock, .writeOutcomeMarker id token kind.state.asStr detail⟩).2 =
      .done (.ok ()) := ApprovalBackend.writeOutcome_answer sound held kept state holder
  have step := (ApprovalBackend.step_record config sound
    ⟨io.clock, .writeOutcomeMarker id token kind.state.asStr detail⟩).2 id
  rw [answer, kept] at step
  have reached : (b.call config io (.writeOutcomeMarker id token kind.state.asStr detail)).1 =
      (b.step config ⟨io.clock, .writeOutcomeMarker id token kind.state.asStr detail⟩).1 := by
    simp [ApprovalBackend.call, working]
  rw [reached]
  rcases step.writeOutcome_ok rfl with ⟨s, same, present, after⟩ | ⟨s, same, -, -, -, after⟩
  · cases same
    rw [unmarked] at present
    cases present
  · exact ⟨_, after, .inr rfl⟩

/-- Recording an outcome settles the approval, as long as the marker reaches a
store that has it. -/
theorem finalizeOutcome_settles {env : FinishEnv} {traceId detail : String} {kind : TerminalKind} (sound : b.Sound)
    (claimed : b.MerelyClaimed id token) (working : env.marker.fault = none) (held : b.Held id env.marker.clock) :
    (finalizeOutcome config b env id token traceId kind detail).CarriesOutcome id := by
  unfold finalizeOutcome
  exact call_keeps_outcome (call_sound sound _ _) (writeOutcomeMarker_settles sound claimed working held) (by simp)

theorem complete_settles {io : StoreIo} {traceId detail : String} {kind : TerminalKind} (sound : b.Sound)
    (claimed : b.MerelyClaimed id token) (working : io.fault = none) (held : b.Held id io.clock) :
    (b.call config io (.complete kind id token traceId detail)).1.CarriesOutcome id := by
  obtain ⟨r, kept, state, unmarked, holder⟩ := claimed
  have answer : (b.step config ⟨io.clock, .complete kind id token traceId detail⟩).2 = .done (.ok ()) :=
    ApprovalBackend.complete_answer sound held kept state holder
  have step := (ApprovalBackend.step_record config sound ⟨io.clock, .complete kind id token traceId detail⟩).2 id
  rw [answer] at step
  obtain ⟨s, stored, -, -, -, -, after⟩ := step.complete_ok rfl
  have reached : (b.call config io (.complete kind id token traceId detail)).1 =
      (b.step config ⟨io.clock, .complete kind id token traceId detail⟩).1 := by
    simp [ApprovalBackend.call, working]
  rw [reached]
  exact ⟨_, after, .inl (by cases kind <;> rfl)⟩

theorem failAlreadyExecuted_settles {gate : Gate} {io : StoreIo} (sound : gate.store.Sound)
    (claimed : gate.store.MerelyClaimed id token) (working : io.fault = none)
    (held : gate.store.Held id io.clock) :
    (failAlreadyExecuted config gate io id token).store.CarriesOutcome id :=
  complete_settles sound claimed working held

end Settling

/-- The state backend does not fail on the calls that a handler makes after
its claim, and has not dropped the approval by then. -/
structure BackendWorks (config : StoreConfig) (gate : Gate) (env : HandlerEnv) (id operator : String) : Prop where
  reconcile : env.claim.reconcile.fault = none
  marker : env.finish.marker.fault = none
  heldAtReconcile : (gate.store.claimPending config env.claim.claim id operator env.claim.claimToken).1.Held id
    env.claim.reconcile.clock
  heldAtMarker : (gate.store.claimPending config env.claim.claim id operator env.claim.claimToken).1.Held id
    env.finish.marker.clock

/-- What a handler does with a granted claim: it is failed when the ledger
shows an outcome, and handed on otherwise. -/
theorem claimOrShortCircuit_granted {config : StoreConfig} {gate : Gate} {env : ClaimEnv} {id operator : String}
    {claimed : ClaimedApproval}
    (granted : (gate.store.claimPending config env.claim id operator env.claimToken).2 = .ok claimed) :
    claimOrShortCircuit config gate env id operator =
      let reached : Gate :=
        { gate with store := (gate.store.claimPending config env.claim id operator env.claimToken).1 }
      if hasDurableOutcome gate.outcomes env.ledgerRead id then
        (failAlreadyExecuted config reached env.reconcile id claimed.claimToken,
          .error (.conflict "approval already executed (durable outcome exists)"))
      else (reached, .ok (.claimed claimed.pending claimed.claimToken)) := by
  simp only [claimOrShortCircuit, granted]

/-- A denial gets as far as its claim. -/
def HandlerEnv.ReachesClaim (env : HandlerEnv) (operator : String) : Prop :=
  env.operator = .ok operator ∧ ¬(env.devMode = false ∧ env.operatorRateAllows = false)

/-- An approval gets as far as its claim. -/
def ApproveEnv.ReachesClaim (env : ApproveEnv) (query : ApproveQuery) (operator : String) : Prop :=
  env.toHandlerEnv.ReachesClaim operator ∧ env.draining = false ∧
    validateLearnDomain env.validateDomainEntry query = .ok ()

/-- The path to learn passes the checks made on it, or there is none. -/
def LearnPathPasses (query : ApproveQuery) (env : ApproveEnv) (pending : PendingApproval) : Prop :=
  ∃ path, effectiveLearnPath query pending (env.sessionFsRoots pending.authContext.sessionId) = .ok path

section Outcome
variable {config : StoreConfig} {gate : Gate} {id operator : String} {claimed : ClaimedApproval}

/-- After the claim, everything but a failed check of the path to learn ends
in recording an outcome. -/
theorem approveClaimed_outcome_iff {env : ApproveEnv} {query : ApproveQuery} {pending : PendingApproval}
    {token : String} (sound : gate.store.Sound) (held : gate.store.MerelyClaimed id token)
    (working : env.finish.marker.fault = none) (present : gate.store.Held id env.finish.marker.clock) :
    (approveClaimed config gate env id query pending token).gate.store.CarriesOutcome id ↔
      LearnPathPasses query env pending := by
  unfold approveClaimed LearnPathPasses
  cases path : effectiveLearnPath query pending (env.sessionFsRoots pending.authContext.sessionId) with
  | error e => simpa using held.no_outcome
  | ok path =>
    have settles : ∀ kind detail, (writeOutcomeAndFinalize config gate env.finish id token env.traceId
        kind detail).store.CarriesOutcome id :=
      fun _ _ => finalizeOutcome_settles sound held working present
    cases env.prepared with
    | error e => simpa using settles .failed e.display
    | ok _ => simpa using settles _ _

theorem approveCall_outcome_iff {env : ApproveEnv} {query : ApproveQuery} (sound : gate.store.Sound)
    (reaches : env.ReachesClaim query operator)
    (granted : (gate.store.claimPending config env.claim.claim id operator env.claim.claimToken).2 = .ok claimed)
    (works : BackendWorks config gate env.toHandlerEnv id operator) :
    (approveCall config gate env id query).gate.store.CarriesOutcome id ↔
      hasDurableOutcome gate.outcomes env.claim.ledgerRead id = true ∨ LearnPathPasses query env claimed.pending := by
  obtain ⟨⟨authenticated, unthrottled⟩, accepting, domain⟩ := reaches
  obtain ⟨sound', merely, same⟩ := claimPending_merelyClaimed sound granted
  let reached : Gate := ⟨(gate.store.claimPending config env.claim.claim id operator env.claim.claimToken).1, gate.outcomes⟩
  unfold approveCall
  simp only [authenticated, accepting, unthrottled, domain, Bool.false_eq_true, if_false,
    claimOrShortCircuit_granted granted, same]
  cases seen : hasDurableOutcome gate.outcomes env.claim.ledgerRead id with
  | true =>
    have failed : (failAlreadyExecuted config reached env.claim.reconcile id
        env.claim.claimToken).store.CarriesOutcome id :=
      failAlreadyExecuted_settles sound' merely works.reconcile works.heldAtReconcile
    simpa using failed
  | false =>
    have rest : (approveClaimed config reached env id query claimed.pending
        env.claim.claimToken).gate.store.CarriesOutcome id ↔ LearnPathPasses query env claimed.pending :=
      approveClaimed_outcome_iff sound' merely works.marker works.heldAtMarker
    simpa using rest

theorem denyCall_outcome {env : HandlerEnv} {reason : Option String} (sound : gate.store.Sound)
    (reaches : env.ReachesClaim operator)
    (granted : (gate.store.claimPending config env.claim.claim id operator env.claim.claimToken).2 = .ok claimed)
    (works : BackendWorks config gate env id operator) :
    (denyCall config gate env id reason).gate.store.CarriesOutcome id := by
  obtain ⟨authenticated, unthrottled⟩ := reaches
  obtain ⟨sound', merely, same⟩ := claimPending_merelyClaimed sound granted
  unfold denyCall
  simp only [authenticated, unthrottled, if_false, claimOrShortCircuit_granted granted, same]
  cases hasDurableOutcome gate.outcomes env.claim.ledgerRead id with
  | true => exact failAlreadyExecuted_settles sound' merely works.reconcile works.heldAtReconcile
  | false => exact finalizeOutcome_settles sound' merely works.marker works.heldAtMarker

end Outcome

/-- When the claim has succeeded and the state backend works, a denial always
leaves the approval with an outcome. An approval does so exactly when the ledger
showed an outcome already or the path to learn passes its checks. -/
theorem outcome_on_return (config : StoreConfig) (gate : Gate) (id operator : String) (claimed : ClaimedApproval)
    (sound : gate.store.Sound) :
    (∀ (env : ApproveEnv) (query : ApproveQuery), env.ReachesClaim query operator →
      (gate.store.claimPending config env.claim.claim id operator env.claim.claimToken).2 = .ok claimed →
      BackendWorks config gate env.toHandlerEnv id operator →
      ((approveCall config gate env id query).gate.store.CarriesOutcome id ↔
        hasDurableOutcome gate.outcomes env.claim.ledgerRead id = true ∨
          LearnPathPasses query env claimed.pending)) ∧
    (∀ (env : HandlerEnv) (reason : Option String), env.ReachesClaim operator →
      (gate.store.claimPending config env.claim.claim id operator env.claim.claimToken).2 = .ok claimed →
      BackendWorks config gate env id operator →
      (denyCall config gate env id reason).gate.store.CarriesOutcome id) :=
  ⟨fun _ _ reaches granted works => approveCall_outcome_iff sound reaches granted works,
    fun _ _ reaches granted works => denyCall_outcome sound reaches granted works⟩

/-- An approval that is pending, with nothing in the ledger. -/
def freshGate : Gate where
  store := pendingStore (.testDefault "a1")
  outcomes := ∅

theorem pendingStore_sound (pending : PendingApproval) : (pendingStore pending).Sound := by
  unfold pendingStore
  exact (ApprovalBackend.step_record defaultConfig ApprovalBackend.Empty.inMemory.sound _).1

theorem freshGate_sound : freshGate.store.Sound :=
  pendingStore_sound (.testDefault "a1")

theorem approveEnvAt1_reachesClaim (query : ApproveQuery) :
    (approveEnvAt1 none).ReachesClaim query "op:alice" := by
  refine ⟨⟨rfl, by decide⟩, rfl, ?_⟩
  cases domain : query.learnDomain <;> simp [validateLearnDomain, domain, approveEnvAt1]

theorem freshGate_works : BackendWorks defaultConfig freshGate (approveEnvAt1 none).toHandlerEnv "a1" "op:alice" :=
  ⟨rfl, rfl, trivial, trivial⟩

theorem freshGate_granted : (freshGate.store.claimPending defaultConfig (approveEnvAt1 none).claim.claim "a1" "op:alice"
    (approveEnvAt1 none).claim.claimToken).2 =
    .ok ⟨.testDefault "a1", "t1", "1970-01-01T00:00:01+00:00", "op:alice"⟩ := rfl

theorem outcome_on_return_freshGate :
    freshGate.store.Sound ∧ (approveCall defaultConfig freshGate (approveEnvAt1 none) "a1" {}).gate.store.CarriesOutcome "a1" ∧
      (denyCall defaultConfig freshGate (approveEnvAt1 none).toHandlerEnv "a1" none).gate.store.CarriesOutcome "a1" := by
  obtain ⟨approve, deny⟩ := outcome_on_return defaultConfig freshGate "a1" "op:alice" _ freshGate_sound
  refine ⟨freshGate_sound, ?_, ?_⟩
  · exact (approve _ {} (approveEnvAt1_reachesClaim {}) freshGate_granted freshGate_works).mpr (.inr ⟨none, rfl⟩)
  · exact deny _ none (approveEnvAt1_reachesClaim {}).1 freshGate_granted freshGate_works

/-- An absolute path to learn, in a session without a root, is refused after
the claim, which is left behind. -/
theorem approve_leaves_claim :
    ¬∀ (config : StoreConfig) (gate : Gate) (id operator : String) (claimed : ClaimedApproval) (env : ApproveEnv)
      (query : ApproveQuery), gate.store.Sound → env.ReachesClaim query operator →
      (gate.store.claimPending config env.claim.claim id operator env.claim.claimToken).2 = .ok claimed →
      BackendWorks config gate env.toHandlerEnv id operator →
      (approveCall config gate env id query).gate.store.CarriesOutcome id := by
  intro always
  have carried := always defaultConfig freshGate "a1" "op:alice" _ (approveEnvAt1 none)
    { learnPath := some "/srv/data/a.txt" } freshGate_sound (approveEnvAt1_reachesClaim _) freshGate_granted
    freshGate_works
  obtain ⟨r, kept, settled⟩ := carried
  cases kept
  rcases settled with terminal | marked
  · cases terminal
  · cases marked

end Latchgate
