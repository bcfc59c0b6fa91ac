import Latchgate.Approval.Fields
import Mathlib.Data.List.AList

namespace Latchgate

/-- What the fields of a record say about each other. -/
structure ApprovalRecord.WellFormed (r : ApprovalRecord) : Prop where
  unclaimed : r.state = .pending → r.claim = none ∧ r.outcomeMarker = none
  claimed : r.state = .claimed → r.claim.isSome
  completed : r.completion.isSome ↔ r.state.isTerminal

theorem ApprovalRecord.WellFormed.incomplete {r : ApprovalRecord} (formed : r.WellFormed)
    (claimed : r.state = .claimed) : r.completion = none := by
  have completed := formed.completed
  simpa [claimed, ApprovalState.isTerminal] using completed

/-- Nothing is left to decide: the record is terminal or carries a marker. -/
def Settled (r : ApprovalRecord) : Prop :=
  r.state.isTerminal ∨ r.outcomeMarker.isSome

/-- What tells the backends apart: how they count the time of a claim lease,
and whether they forget an approval after some time. -/
structure Traits where
  now : Clock → Int
  lease : Int
  forgets : Bool

/-- A claim is granted on a pending record, or on a claimed one without a
marker whose lease has run out. -/
def Claimable (now : Int) (r : ApprovalRecord) : Prop :=
  r.state = .pending ∨ (r.state = .claimed ∧ r.outcomeMarker = none ∧
    ∃ previous, r.claim = some previous ∧ previous.claimExpiresAtUnix ≤ now)

theorem Claimable.not_settled {now : Int} {r : ApprovalRecord} (claimable : Claimable now r)
    (formed : r.WellFormed) : ¬Settled r := by
  rcases claimable with state | ⟨state, unmarked, -⟩
  · simp [Settled, state, ApprovalState.isTerminal, (formed.unclaimed state).2]
  · simp [Settled, state, ApprovalState.isTerminal, unmarked]

def ApprovalOp.target : ApprovalOp → Option String
  | createPending pending => some pending.approvalId
  | getPending id => some id
  | getStatus id => some id
  | listApprovals _ _ => none
  | claimPending id _ _ => some id
  | writeOutcomeMarker id _ _ _ => some id
  | complete _ id _ _ _ => some id

/-- A call that leaves the record as it is has granted nothing, and has only
reported success where a marker was written before. -/
def Idle (id : String) (call : ApprovalCall) (answer : ApprovalAnswer) (r : Option ApprovalRecord) : Prop :=
  call.op.target = some id → (∀ claimed, answer ≠ .claim (.ok claimed)) ∧
    (answer = .done (.ok ()) → ∃ token kind detail, call.op = .writeOutcomeMarker id token kind detail ∧
      ∃ record, r = some record ∧ record.outcomeMarker.isSome)

/-- What one call can do to the record kept for an approval, in any backend.
Only a backend that forgets makes a record anew. -/
inductive RecordStep (traits : Traits) (id : String) (call : ApprovalCall) (answer : ApprovalAnswer) :
    Option ApprovalRecord → Option ApprovalRecord → Prop
  | stay {r} : Idle id call answer r → RecordStep traits id call answer r r
  | create {before payload} : call.op = .createPending payload → payload.approvalId = id →
      before = none ∨ traits.forgets → answer = .done (.ok ()) →
      RecordStep traits id call answer before (some (.newPending payload))
  | claim {r operator token} : call.op = .claimPending id operator token →
      Claimable (traits.now call.clock) r →
      RecordStep traits id call answer (some r) (some { r with
        state := .claimed
        claim := some ⟨operator, call.clock.utc.rfc3339, token, traits.now call.clock + traits.lease⟩ })
  | mark {r token kind detail} : call.op = .writeOutcomeMarker id token kind detail →
      r.state = .claimed → r.outcomeMarker = none → r.claim.map ClaimInfo.claimToken = some token →
      answer = .done (.ok ()) →
      RecordStep traits id call answer (some r)
        (some { r with outcomeMarker := some ⟨kind, call.clock.utc.rfc3339, detail⟩ })
  | complete {r kind token traceId detail stored} : call.op = .complete kind id token traceId detail →
      r.state = .claimed → r.claim.map ClaimInfo.claimToken = some token → answer = .done (.ok ()) →
      stored = some detail ∨ (stored = none ∧ detail = "") →
      RecordStep traits id call answer (some r) (some { r with
        state := kind.state
        completion := some (kind.completion call.clock.utc.rfc3339 traceId stored) })

section Step
variable {traits : Traits} {id : String} {call : ApprovalCall} {answer : ApprovalAnswer}

theorem RecordStep.wellFormed {before after : Option ApprovalRecord}
    (step : RecordStep traits id call answer before after) (formed : ∀ r ∈ before, r.WellFormed) :
    ∀ r ∈ after, r.WellFormed := by
  cases step with
  | stay => exact formed
  | create =>
    rintro r ⟨⟩
    refine ⟨fun _ => ⟨rfl, rfl⟩, ?_, ?_⟩
    · simp [ApprovalRecord.newPending]
    · simp [ApprovalRecord.newPending, ApprovalState.isTerminal]
  | @claim old _ _ _ claimable =>
    rintro r ⟨⟩
    have completed := (formed old rfl).completed
    refine ⟨by simp, by simp, ?_⟩
    rcases claimable with state | ⟨state, -⟩ <;> simpa [state, ApprovalState.isTerminal] using completed
  | @mark old _ _ _ _ state =>
    rintro r ⟨⟩
    exact ⟨by simp [state], (formed old rfl).claimed, (formed old rfl).completed⟩
  | @complete old kind _ _ _ _ _ state =>
    rintro r ⟨⟩
    refine ⟨?_, ?_, by simp⟩
    · cases kind <;> simp [TerminalKind.state]
    · cases kind <;> simp [TerminalKind.state]

/-- The id in a record is the one it is kept under. -/
theorem RecordStep.approvalId {before after : Option ApprovalRecord}
    (step : RecordStep traits id call answer before after)
    (named : ∀ r ∈ before, r.payload.approvalId = id) : ∀ r ∈ after, r.payload.approvalId = id := by
  cases step with
  | stay => exact named
  | create _ same =>
    rintro r ⟨⟩
    exact same
  | @claim old =>
    rintro r ⟨⟩
    exact named old rfl
  | @mark old =>
    rintro r ⟨⟩
    exact named old rfl
  | @complete old =>
    rintro r ⟨⟩
    exact named old rfl

/-- A settled record stays settled until it is made anew. -/
theorem RecordStep.settled {r : ApprovalRecord} {after : Option ApprovalRecord}
    (step : RecordStep traits id call answer (some r) after) (settled : Settled r) (formed : r.WellFormed) :
    (∃ r', after = some r' ∧ Settled r') ∨ (traits.forgets ∧
      ∃ payload, call.op = .createPending payload ∧ payload.approvalId = id ∧ answer = .done (.ok ())) := by
  cases step with
  | stay => exact .inl ⟨r, rfl, settled⟩
  | create op named forgotten success =>
    exact .inr ⟨by simpa using forgotten, _, op, named, success⟩
  | claim _ claimable => exact absurd settled (claimable.not_settled formed)
  | mark => exact .inl ⟨_, rfl, .inr rfl⟩
  | @complete _ kind => exact .inl ⟨_, rfl, .inl kind.state_isTerminal⟩

theorem RecordStep.claim_ok {before after : Option ApprovalRecord} {operator token : String}
    {claimed : ClaimedApproval} (step : RecordStep traits id call (.claim (.ok claimed)) before after)
    (op : call.op = .claimPending id operator token) :
    ∃ r, before = some r ∧ Claimable (traits.now call.clock) r ∧ after = some { r with
      state := .claimed
      claim := some ⟨operator, call.clock.utc.rfc3339, token, traits.now call.clock + traits.lease⟩ } := by
  cases step with
  | stay idle => exact absurd rfl ((idle (by rw [op]; rfl)).1 claimed)
  | create other =>
    rw [op] at other
    cases other
  | claim same claimable =>
    rw [op] at same
    cases same
    exact ⟨_, rfl, claimable, rfl⟩
  | mark other =>
    rw [op] at other
    cases other
  | complete other =>
    rw [op] at other
    cases other

/-- A completing call succeeds only for the holder of the stored claim, and
leaves the record terminal. -/
theorem RecordStep.complete_ok {before after : Option ApprovalRecord} {kind : TerminalKind}
    {token traceId detail : String} (step : RecordStep traits id call (.done (.ok ())) before after)
    (op : call.op = .complete kind id token traceId detail) :
    ∃ r stored, before = some r ∧ r.state = .claimed ∧ r.claim.map ClaimInfo.claimToken = some token ∧
      (stored = some detail ∨ (stored = none ∧ detail = "")) ∧ after = some { r with
        state := kind.state
        completion := some (kind.completion call.clock.utc.rfc3339 traceId stored) } := by
  cases step with
  | stay idle =>
    obtain ⟨_, _, _, other, _⟩ := (idle (by rw [op]; rfl)).2 rfl
    rw [op] at other
    cases other
  | create other =>
    rw [op] at other
    cases other
  | claim other =>
    rw [op] at other
    cases other
  | mark other =>
    rw [op] at other
    cases other
  | complete same state holder _ stored =>
    rw [op] at same
    cases same
    exact ⟨_, _, rfl, state, holder, stored, rfl⟩

/-- A marker is accepted from the holder of the stored claim; where one is
present already nothing is written. -/
theorem RecordStep.writeOutcome_ok {before after : Option ApprovalRecord} {token kind detail : String}
    (step : RecordStep traits id call (.done (.ok ())) before after)
    (op : call.op = .writeOutcomeMarker id token kind detail) :
    (∃ r, before = some r ∧ r.outcomeMarker.isSome ∧ after = before) ∨
      ∃ r, before = some r ∧ r.state = .claimed ∧ r.outcomeMarker = none ∧
        r.claim.map ClaimInfo.claimToken = some token ∧
        after = some { r with outcomeMarker := some ⟨kind, call.clock.utc.rfc3339, detail⟩ } := by
  cases step with
  | stay idle =>
    obtain ⟨_, _, _, _, r, present, marked⟩ := (idle (by rw [op]; rfl)).2 rfl
    exact .inl ⟨r, present, marked, rfl⟩
  | create other =>
    rw [op] at other
    cases other
  | claim other =>
    rw [op] at other
    cases other
  | complete other =>
    rw [op] at other
    cases other
  | mark same state unmarked holder =>
    rw [op] at same
    cases same
    exact .inr ⟨_, rfl, state, unmarked, holder, rfl⟩

end Step

theorem claimable_of_valid {r : ApprovalRecord} {now : Int} {id : String}
    (valid : validateClaimTransition r.state r.outcomeMarker.isSome
      (r.claim.map ClaimInfo.claimExpiresAtUnix) now id = .ok ()) : Claimable now r := by
  rcases validateClaimTransition_ok.1 valid with pending | ⟨claimed, unmarked, expiry, known, expired⟩
  · exact .inl pending
  · obtain ⟨previous, present, rfl⟩ := Option.map_eq_some_iff.mp known
    exact .inr ⟨claimed, by simpa using unmarked, previous, present, expired⟩

/-- The columns of an approval hold a well-formed record of it. -/
def StoredFields.Holds (f : StoredFields) (id : String) : Prop :=
  ∃ r : ApprovalRecord, f = .ofRecord r ∧ r.WellFormed ∧ r.payload.approvalId = id

namespace Table
variable {β : Type} (fields : β → StoredFields)

/-- A keyed table in which every row holds the record of its key. -/
def Laid (db : AList fun _ : String => β) : Prop :=
  ∀ id row, db.lookup id = some row → (fields row).Holds id

def view (db : AList fun _ : String => β) (id : String) : Option ApprovalRecord :=
  (db.lookup id).bind fun row => (fields row).toRecord

variable {fields}

theorem view_of_lookup {db : AList fun _ : String => β} {id : String} {row : β} {r : ApprovalRecord}
    (stored : db.lookup id = some row) (holds : fields row = .ofRecord r) : view fields db id = some r := by
  simp [view, stored, holds]

/-- A call that writes nothing and grants nothing. -/
theorem idle_step {traits : Traits} {call : ApprovalCall} {answer : ApprovalAnswer}
    {db : AList fun _ : String => β} (laid : Laid fields db) (refused : ∀ claimed, answer ≠ .claim (.ok claimed))
    (written : answer = .done (.ok ()) → ∃ id token kind detail r,
      call.op = .writeOutcomeMarker id token kind detail ∧ view fields db id = some r ∧ r.outcomeMarker.isSome) :
    Laid fields db ∧ ∀ id, RecordStep traits id call answer (view fields db id) (view fields db id) := by
  refine ⟨laid, fun id => .stay fun target => ⟨refused, fun success => ?_⟩⟩
  obtain ⟨other, token, kind, detail, r, op, found, marked⟩ := written success
  rw [op] at target
  cases target
  exact ⟨token, kind, detail, op, r, found, marked⟩

/-- A row written for one approval changes the record of that approval only. -/
theorem insert_step {traits : Traits} {call : ApprovalCall} {answer : ApprovalAnswer}
    {db : AList fun _ : String => β} {key : String} {row : β} {r : ApprovalRecord} (laid : Laid fields db)
    (holds : fields row = .ofRecord r) (target : call.op.target = some key)
    (step : RecordStep traits key call answer (view fields db key) (some r)) :
    Laid fields (db.insert key row) ∧
      ∀ id, RecordStep traits id call answer (view fields db id) (view fields (db.insert key row) id) := by
  have old : ∀ s ∈ view fields db key, s.WellFormed ∧ s.payload.approvalId = key := by
    intro s member
    cases stored : db.lookup key with
    | none => simp [view, stored] at member
    | some before =>
      obtain ⟨t, same, formed, named⟩ := laid key before stored
      rw [view_of_lookup stored same] at member
      cases member
      exact ⟨formed, named⟩
  constructor
  · intro id stored found
    by_cases same : id = key
    · subst id
      rw [AList.lookup_insert] at found
      cases found
      exact ⟨r, holds, step.wellFormed (fun s m => (old s m).1) r rfl, step.approvalId (fun s m => (old s m).2) r rfl⟩
    · rw [AList.lookup_insert_ne same] at found
      exact laid id stored found
  · intro id
    by_cases same : id = key
    · subst id
      rw [view_of_lookup (AList.lookup_insert db) holds]
      exact step
    · have unchanged : view fields (db.insert key row) id = view fields db id := by
        simp only [view, AList.lookup_insert_ne same]
      rw [unchanged]
      refine .stay fun other => ?_
      rw [target] at other
      exact absurd (Option.some.inj other).symm same

end Table
end Latchgate
