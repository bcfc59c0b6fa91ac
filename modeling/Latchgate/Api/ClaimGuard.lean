import Latchgate.Api.Approvals
import Latchgate.Approval.Progress

namespace Latchgate

theorem claimPending_ok {config : StoreConfig} {b : ApprovalBackend} {io : StoreIo} {id operator token : String}
    {claimed : ClaimedApproval} :
    (b.claimPending config io id operator token).2 = .ok claimed ↔
      io.fault = none ∧ (b.step config ⟨io.clock, .claimPending id operator token⟩).2 = .claim (.ok claimed) := by
  unfold ApprovalBackend.claimPending ApprovalBackend.call
  cases io.fault with
  | some fault => cases fault <;> simp [ApprovalBackend.claimResult]
  | none =>
    cases (b.step config ⟨io.clock, .claimPending id operator token⟩).2 <;> simp [ApprovalBackend.claimResult]

/-- The caller is handed a claim to act on. -/
def HandsClaim (config : StoreConfig) (gate : Gate) (env : ClaimEnv) (id operator : String) : Prop :=
  ∃ pending token, (claimOrShortCircuit config gate env id operator).2 = .ok (.claimed pending token)

/-- A claim is handed on when the store grants it and no durable outcome is seen. -/
theorem handsClaim_iff {config : StoreConfig} {gate : Gate} {env : ClaimEnv} {id operator : String} :
    HandsClaim config gate env id operator ↔
      (env.claim.fault = none ∧ gate.store.Grants config id env.claim.clock) ∧
        hasDurableOutcome gate.outcomes env.ledgerRead id = false := by
  rw [← ApprovalBackend.claim_ok_iff operator env.claimToken]
  have granted : (env.claim.fault = none ∧ ∃ claimed,
      (gate.store.step config ⟨env.claim.clock, .claimPending id operator env.claimToken⟩).2 =
        .claim (.ok claimed)) ↔
      ∃ claimed, (gate.store.claimPending config env.claim id operator env.claimToken).2 = .ok claimed := by
    simp only [claimPending_ok, exists_and_left]
  rw [granted]
  unfold HandsClaim claimOrShortCircuit
  cases result : (gate.store.claimPending config env.claim id operator env.claimToken).2 with
  | ok claimed =>
    cases seen : hasDurableOutcome gate.outcomes env.ledgerRead id <;> simp [result, seen]
  | error e =>
    cases e <;> simp [result] <;> split <;> simp

/-- A recorded outcome is seen unless reading it fails. -/
theorem hasDurableOutcome_recorded {outcomes : OutcomeTable} {id : String}
    {row : OutcomeRow} (recorded : outcomes.lookup id = some row) (fault : Option LedgerFault) :
    hasDurableOutcome outcomes fault id = true ↔ fault = none := by
  cases fault with
  | none => simp [hasDurableOutcome, spawnBlocking, recorded, Except.toOption]
  | some fault => cases fault <;> simp [hasDurableOutcome, spawnBlocking, Except.toOption]

/-- A plan is executed only on a claim that was handed on. -/
theorem handsClaim_of_planExecuted {config : StoreConfig} {gate : Gate} {env : ApproveEnv} {id operator : String}
    {query : ApproveQuery} (authenticated : env.operator = .ok operator)
    (executed : (approveCall config gate env id query).planExecuted = true) :
    HandsClaim config gate env.claim id operator := by
  unfold approveCall at executed
  simp only [authenticated] at executed
  split_ifs at executed
  split at executed
  · cases executed
  · split at executed
    · cases executed
    · cases executed
    · rename_i pending token claimed
      exact ⟨pending, token, congrArg Prod.snd claimed⟩

/-- With an outcome in the ledger, the claim is withheld exactly when the
ledger can be read or the store refuses the claim; a plan is executed only on
a claim that was not withheld. -/
theorem claim_withheld_iff (config : StoreConfig) (gate : Gate) (env : ClaimEnv) (id operator : String)
    (row : OutcomeRow) (recorded : gate.outcomes.lookup id = some row) :
    (¬HandsClaim config gate env id operator ↔
      env.ledgerRead = none ∨ ¬(env.claim.fault = none ∧ gate.store.Grants config id env.claim.clock)) ∧
    ∀ (approve : ApproveEnv) (query : ApproveQuery), approve.operator = .ok operator → approve.claim = env →
      (approveCall config gate approve id query).planExecuted = true → HandsClaim config gate env id operator := by
  constructor
  · have seen := hasDurableOutcome_recorded recorded env.ledgerRead
    rw [handsClaim_iff, Bool.eq_false_iff, ne_eq, seen]
    tauto
  · rintro approve query authenticated rfl executed
    exact handsClaim_of_planExecuted authenticated executed

/-- A store that has lost an outcome which the ledger still has. -/
def resetGate : Gate where
  store := pendingStore (.testDefault "a1")
  outcomes := (∅ : OutcomeTable).insert "a1" ⟨"approved", "rcpt-1", "1970-01-01T00:00:00+00:00"⟩

theorem claim_withheld_iff_resetGate :
    resetGate.outcomes.lookup "a1" = some ⟨"approved", "rcpt-1", "1970-01-01T00:00:00+00:00"⟩ ∧
      ¬HandsClaim defaultConfig resetGate (claimEnvAt1 none) "a1" "op:alice" := by
  have recorded : resetGate.outcomes.lookup "a1" = some ⟨"approved", "rcpt-1", "1970-01-01T00:00:00+00:00"⟩ :=
    rfl
  exact ⟨recorded, (claim_withheld_iff defaultConfig resetGate (claimEnvAt1 none) "a1" "op:alice" _ recorded).1.mpr
    (.inl rfl)⟩

/-- When the ledger cannot be read, an approval that was executed before is
claimed and executed once more. -/
theorem claim_handed_on_failed_read :
    (resetGate.outcomes.lookup "a1").isSome ∧
      HandsClaim defaultConfig resetGate (claimEnvAt1 (some (.ledger "disk I/O error"))) "a1" "op:alice" ∧
      (approveCall defaultConfig resetGate (approveEnvAt1 (some (.ledger "disk I/O error"))) "a1" {}).planExecuted := by
  refine ⟨rfl, ⟨.testDefault "a1", "t1", rfl⟩, rfl⟩

end Latchgate
