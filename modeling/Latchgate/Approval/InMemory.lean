import Latchgate.Approval.Record

namespace Latchgate

structure InMemoryEntry where
  record : ApprovalRecord
  created : Nat

abbrev InMemoryMap := AList fun _ : String => InMemoryEntry

namespace InMemory
variable (config : StoreConfig)

def elapsed (entry : InMemoryEntry) (now : Clock) : Nat :=
  now.instant - entry.created

def create (map : InMemoryMap) (record : ApprovalRecord) (now : Clock) :
    InMemoryMap × Except ApprovalError Unit :=
  let id := record.payload.approvalId
  match map.lookup id with
  | some _ => (map, .error (.alreadyExists id))
  | none => (map.insert id ⟨record, now.instant⟩, .ok ())

def getPending (map : InMemoryMap) (approvalId : String) (now : Clock) :
    Except ApprovalError (Option PendingApproval) :=
  match map.lookup approvalId with
  | some entry =>
    if elapsed entry now ≥ config.defaultTtl then .ok none else .ok (some entry.record.payload)
  | none => .ok none

def getRecord (map : InMemoryMap) (approvalId : String) : Option ApprovalRecord :=
  (map.lookup approvalId).map InMemoryEntry.record

/-- One entry of the listing, or nothing when it is skipped. -/
def summarize (stateFilter : Option ApprovalState) (now : Clock) (entry : InMemoryEntry) :
    Option ApprovalSummary :=
  if entry.record.effectiveState.isTerminal = false ∧ elapsed entry now ≥ config.defaultTtl then none
  else
    let summary := entry.record.toSummary
    match stateFilter with
    | some filter => if summary.state ≠ filter then none else some summary
    | none => some summary

/-- The listing over the entries in the order in which the hash map yields them. -/
def listEntries (entries : List (Sigma fun _ : String => InMemoryEntry))
    (stateFilter : Option ApprovalState) (limit : Nat) (now : Clock) : List ApprovalSummary :=
  (sortByCreatedAt (entries.filterMap fun e => summarize config stateFilter now e.2)).take limit

def list (map : InMemoryMap) (stateFilter : Option ApprovalState) (limit : Nat) (now : Clock) :
    List ApprovalSummary :=
  listEntries config map.entries stateFilter limit now

def claimedEntry (entry : InMemoryEntry) (operatorId claimToken : String) (now : Clock) :
    InMemoryEntry :=
  { entry with
    record := { entry.record with
      state := .claimed
      claim := some
        { claimedBy := operatorId, claimedAt := now.utc.rfc3339, claimToken
          claimExpiresAtUnix := now.utc.timestampMillis + config.claimTtlSecs * 1000 } } }

def claim (map : InMemoryMap) (approvalId operatorId claimToken : String) (now : Clock) :
    InMemoryMap × Except ApprovalError ClaimedApproval :=
  match map.lookup approvalId with
  | none => (map, .error (.notFound approvalId))
  | some entry =>
    let record := entry.record
    if elapsed entry now ≥ config.defaultTtl ∧ record.state.isTerminal = false then
      (map, .error (.notFound approvalId))
    else
      match validateClaimTransition record.state record.outcomeMarker.isSome
          (record.claim.map ClaimInfo.claimExpiresAtUnix) now.utc.timestampMillis approvalId with
      | .error e => (map, .error e)
      | .ok () =>
        (map.insert approvalId (claimedEntry config entry operatorId claimToken now),
          .ok { pending := record.payload, claimToken, claimedAt := now.utc.rfc3339, claimedBy := operatorId })

def markedEntry (entry : InMemoryEntry) (outcomeKind outcomeDetail : String) (now : Clock) :
    InMemoryEntry :=
  { entry with
    record := { entry.record with
      outcomeMarker := some
        { kind := outcomeKind, outcomeAt := now.utc.rfc3339, detail := outcomeDetail } } }

def writeOutcome (map : InMemoryMap) (approvalId claimToken outcomeKind outcomeDetail : String)
    (now : Clock) : InMemoryMap × Except ApprovalError Unit :=
  match map.lookup approvalId with
  | none => (map, .error (.notFound approvalId))
  | some entry =>
    let record := entry.record
    if record.outcomeMarker.isSome then (map, .ok ())
    else
      match requireClaimedWithToken record.state (record.claim.map ClaimInfo.claimToken) claimToken
          approvalId with
      | .error e => (map, .error e)
      | .ok () => (map.insert approvalId (markedEntry entry outcomeKind outcomeDetail now), .ok ())

def completedEntry (entry : InMemoryEntry) (terminalState : ApprovalState)
    (traceId detailKey detailValue : String) (now : Clock) : InMemoryEntry :=
  { entry with
    record := { entry.record with
      state := terminalState
      completion := some (buildCompletionInfo now.utc.rfc3339 traceId detailKey detailValue) } }

def complete (map : InMemoryMap) (approvalId claimToken : String) (terminalState : ApprovalState)
    (traceId detailKey detailValue : String) (now : Clock) :
    InMemoryMap × Except ApprovalError Unit :=
  match map.lookup approvalId with
  | none => (map, .error (.notFound approvalId))
  | some entry =>
    let record := entry.record
    match requireClaimedWithToken record.state (record.claim.map ClaimInfo.claimToken) claimToken
        approvalId with
    | .error e => (map, .error e)
    | .ok () =>
      (map.insert approvalId (completedEntry entry terminalState traceId detailKey detailValue now), .ok ())

/-- The store with the in-memory backend. -/
def step (map : InMemoryMap) (call : ApprovalCall) : InMemoryMap × ApprovalAnswer :=
  let now := call.clock
  match call.op with
  | .createPending pending =>
    let (next, result) := create map (.newPending pending) now
    (next, .done result)
  | .getPending id => (map, .payload (getPending config map id now))
  | .getStatus id => (map, .status (.ok ((getRecord map id).map ApprovalRecord.toStatus)))
  | .listApprovals filter limit =>
    (map, .summaries (.ok (list config map filter (min limit listCap) now)))
  | .claimPending id operator token =>
    let (next, result) := claim config map id operator token now
    (next, .claim result)
  | .writeOutcomeMarker id token kind detail =>
    let (next, result) := writeOutcome map id token kind detail now
    (next, .done result)
  | .complete kind id token traceId detail =>
    let (next, result) := complete map id token kind.state traceId kind.detailKey detail now
    (next, .done result)

def machine : Machine InMemoryMap ApprovalCall ApprovalAnswer where
  step := step config

/-- Everything a call can do to the store. -/
inductive Effect (map : InMemoryMap) (call : ApprovalCall) : InMemoryMap × ApprovalAnswer → Prop
  | unchanged {answer} : (∀ claimed, answer ≠ .claim (.ok claimed)) →
      (answer = .done (.ok ()) → ∃ id token kind detail entry,
        call.op = .writeOutcomeMarker id token kind detail ∧ map.lookup id = some entry ∧
        entry.record.outcomeMarker.isSome) →
      Effect map call (map, answer)
  | created {pending} : call.op = .createPending pending → map.lookup pending.approvalId = none →
      Effect map call (map.insert pending.approvalId ⟨.newPending pending, call.clock.instant⟩, .done (.ok ()))
  | claimed {id operator token entry} : call.op = .claimPending id operator token →
      map.lookup id = some entry →
      ¬(elapsed entry call.clock ≥ config.defaultTtl ∧ entry.record.state.isTerminal = false) →
      validateClaimTransition entry.record.state entry.record.outcomeMarker.isSome
        (entry.record.claim.map ClaimInfo.claimExpiresAtUnix) call.clock.utc.timestampMillis id = .ok () →
      Effect map call (map.insert id (claimedEntry config entry operator token call.clock),
        .claim (.ok ⟨entry.record.payload, token, call.clock.utc.rfc3339, operator⟩))
  | marked {id token kind detail entry} : call.op = .writeOutcomeMarker id token kind detail →
      map.lookup id = some entry → entry.record.outcomeMarker = none → entry.record.state = .claimed →
      entry.record.claim.map ClaimInfo.claimToken = some token →
      Effect map call (map.insert id (markedEntry entry kind detail call.clock), .done (.ok ()))
  | completed {kind id token traceId detail entry} : call.op = .complete kind id token traceId detail →
      map.lookup id = some entry → entry.record.state = .claimed →
      entry.record.claim.map ClaimInfo.claimToken = some token →
      Effect map call
        (map.insert id (completedEntry entry kind.state traceId kind.detailKey detail call.clock), .done (.ok ()))

theorem step_effect (map : InMemoryMap) (call : ApprovalCall) :
    Effect config map call (step config map call) := by
  obtain ⟨now, op⟩ := call
  cases op with
  | createPending pending =>
    cases stored : map.lookup pending.approvalId with
    | none => simpa [step, create, ApprovalRecord.newPending, stored] using Effect.created rfl stored
    | some entry =>
      simp only [step, create, ApprovalRecord.newPending, stored]
      exact .unchanged (by simp) (by simp)
  | getPending id => exact .unchanged (by simp) (by simp)
  | getStatus id => exact .unchanged (by simp) (by simp)
  | listApprovals filter limit => exact .unchanged (by simp) (by simp)
  | claimPending id operator token =>
    cases stored : map.lookup id with
    | none =>
      simp only [step, claim, stored]
      exact .unchanged (by simp) (by simp)
    | some entry =>
      simp only [step, claim, stored]
      split_ifs with expired
      · exact .unchanged (by simp) (by simp)
      · split
        · exact .unchanged (by simp) (by simp)
        · rename_i valid
          exact .claimed rfl stored expired valid
  | writeOutcomeMarker id token kind detail =>
    cases stored : map.lookup id with
    | none =>
      simp only [step, writeOutcome, stored]
      exact .unchanged (by simp) (by simp)
    | some entry =>
      simp only [step, writeOutcome, stored]
      split_ifs with present
      · exact .unchanged (by simp) (fun _ => ⟨id, token, kind, detail, entry, rfl, stored, present⟩)
      · split
        · exact .unchanged (by simp) (by simp)
        · rename_i valid
          obtain ⟨claimed, holder⟩ := requireClaimedWithToken_ok.1 valid
          exact .marked rfl stored (by simpa using present) claimed holder
  | complete kind id token traceId detail =>
    cases stored : map.lookup id with
    | none =>
      simp only [step, complete, stored]
      exact .unchanged (by simp) (by simp)
    | some entry =>
      simp only [step, complete, stored]
      split
      · exact .unchanged (by simp) (by simp)
      · rename_i valid
        obtain ⟨claimed, holder⟩ := requireClaimedWithToken_ok.1 valid
        exact .completed rfl stored claimed holder

def traits : Traits where
  now := fun clock => clock.utc.timestampMillis
  lease := config.claimTtlSecs * 1000
  forgets := false

variable {config}

theorem getRecord_insert (map : InMemoryMap) (key id : String) (entry : InMemoryEntry) :
    getRecord (map.insert key entry) id = if id = key then some entry.record else getRecord map id := by
  unfold getRecord
  split_ifs with same
  · subst key
    rw [AList.lookup_insert]
    rfl
  · rw [AList.lookup_insert_ne same]

theorem getRecord_of_lookup {map : InMemoryMap} {id : String} {entry : InMemoryEntry}
    (stored : map.lookup id = some entry) : getRecord map id = some entry.record := by
  rw [getRecord, stored]
  rfl

/-- An entry written for one approval changes the record of that approval only. -/
theorem insert_step {call : ApprovalCall} {answer : ApprovalAnswer} {map : InMemoryMap} {key : String}
    {entry : InMemoryEntry} (target : call.op.target = some key)
    (step : RecordStep (traits config) key call answer (getRecord map key) (some entry.record)) (id : String) :
    RecordStep (traits config) id call answer (getRecord map id) (getRecord (map.insert key entry) id) := by
  rw [getRecord_insert]
  split_ifs with same
  · subst id
    exact step
  · refine .stay fun other => ?_
    rw [target] at other
    exact absurd (Option.some.inj other).symm same

theorem step_record (map : InMemoryMap) (call : ApprovalCall) (id : String) :
    RecordStep (traits config) id call (step config map call).2 (getRecord map id)
      (getRecord (step config map call).1 id) := by
  have effect := step_effect config map call
  generalize step config map call = result at effect
  cases effect with
  | unchanged refused written =>
    refine .stay fun target => ⟨refused, fun success => ?_⟩
    obtain ⟨other, token, kind, detail, entry, op, stored, marked⟩ := written success
    rw [op] at target
    cases target
    exact ⟨token, kind, detail, op, entry.record, getRecord_of_lookup stored, marked⟩
  | created op fresh =>
    refine insert_step (by rw [op]; rfl) (.create op rfl (.inl ?_) rfl) id
    rw [getRecord, fresh]
    rfl
  | claimed op stored _ valid =>
    refine insert_step (by rw [op]; rfl) ?_ id
    rw [getRecord_of_lookup stored]
    exact .claim op (claimable_of_valid valid)
  | marked op stored unmarked claimed holder =>
    refine insert_step (by rw [op]; rfl) ?_ id
    rw [getRecord_of_lookup stored]
    exact .mark op claimed unmarked holder rfl
  | completed op stored claimed holder =>
    refine insert_step (by rw [op]; rfl) ?_ id
    rw [getRecord_of_lookup stored]
    simp only [completedEntry, buildCompletionInfo_eq]
    exact .complete op claimed holder rfl (by split_ifs with empty <;> simp [empty])

end InMemory
end Latchgate
