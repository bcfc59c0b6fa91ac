import Latchgate.Approval.Backend

namespace Latchgate

/-- A status that reports one outcome: its kind, and its detail in the field of
that kind and in no other. -/
structure Reports (status : ApprovalStatus) (kind : TerminalKind) (detail : String) : Prop where
  state : status.state = kind.state
  receiptId : status.receiptId = if kind = .approved then some detail else none
  denyReason : status.denyReason = if kind = .denied then some detail else none
  errorCode : status.errorCode = if kind = .failed then some detail else none

/-- The field of a status that belongs to a kind. -/
def ApprovalStatus.detailOf (status : ApprovalStatus) : TerminalKind → Option String
  | .approved => status.receiptId
  | .denied => status.denyReason
  | .failed => status.errorCode

/-- A record with a marker of the given kind and detail, and no completion
that says anything else. -/
def Marked (kind : TerminalKind) (detail : String) (r : ApprovalRecord) : Prop :=
  (∃ outcomeAt, r.outcomeMarker = some ⟨kind.state.asStr, outcomeAt, detail⟩) ∧
    (r.state = .claimed ∧ r.completion = none ∨ r.state = kind.state ∧
      ∃ completedAt traceId stored, r.completion = some (kind.completion completedAt traceId stored) ∧
        (stored = some detail ∨ stored = none))

theorem Marked.reports {kind : TerminalKind} {detail : String} {r : ApprovalRecord}
    (marked : Marked kind detail r) : Reports r.toStatus kind detail ∧ r.toSummary.state = kind.state := by
  obtain ⟨⟨outcomeAt, marker⟩, ⟨state, completion⟩ | ⟨state, completedAt, traceId, stored, completion, same⟩⟩ := marked
  · have effective : r.effectiveState = kind.state := by
      cases kind <;> simp [ApprovalRecord.effectiveState, state, marker, TerminalKind.state, ApprovalState.asStr]
    refine ⟨⟨effective, ?_, ?_, ?_⟩, effective⟩ <;>
      cases kind <;> simp [ApprovalRecord.toStatus, ApprovalRecord.markerDetailIf, completion, marker,
        TerminalKind.state, ApprovalState.asStr]
  · have effective : r.effectiveState = kind.state := by
      cases kind <;> simp [ApprovalRecord.effectiveState, state, TerminalKind.state]
    refine ⟨⟨effective, ?_, ?_, ?_⟩, effective⟩ <;> rcases same with rfl | rfl <;>
      cases kind <;> simp [ApprovalRecord.toStatus, ApprovalRecord.markerDetailIf, completion, marker,
        TerminalKind.state, TerminalKind.completion, ApprovalState.asStr]

/-- The call does not complete the approval with another outcome, nor make it anew. -/
def Agrees (id : String) (kind : TerminalKind) (detail : String) (entry : ApprovalCall × ApprovalAnswer) : Prop :=
  entry.2 = .done (.ok ()) →
    (∀ k token traceId d, entry.1.op = .complete k id token traceId d → k = kind ∧ d = detail) ∧
    ∀ payload, entry.1.op = .createPending payload → payload.approvalId ≠ id

theorem RecordStep.marked {traits : Traits} {id : String} {call : ApprovalCall} {answer : ApprovalAnswer}
    {kind : TerminalKind} {detail : String} {r : ApprovalRecord} {after : Option ApprovalRecord}
    (step : RecordStep traits id call answer (some r) after) (agrees : Agrees id kind detail (call, answer))
    (formed : r.WellFormed) (marked : Marked kind detail r) : ∃ r', after = some r' ∧ Marked kind detail r' := by
  have settled : Settled r := by
    obtain ⟨⟨outcomeAt, marker⟩, -⟩ := marked
    exact .inr (by simp [marker])
  cases step with
  | stay => exact ⟨r, rfl, marked⟩
  | create op named _ success => exact absurd named ((agrees success).2 _ op)
  | claim _ claimable => exact absurd settled (claimable.not_settled formed)
  | mark _ _ unmarked =>
    obtain ⟨⟨outcomeAt, marker⟩, -⟩ := marked
    simp [unmarked] at marker
  | complete op claimed _ success stored =>
    obtain ⟨rfl, rfl⟩ := (agrees success).1 _ _ _ _ op
    refine ⟨_, rfl, marked.1, .inr ⟨rfl, _, _, _, rfl, ?_⟩⟩
    exact stored.imp_right And.left

/-- A record completed with the given kind and detail. -/
def Completed (kind : TerminalKind) (detail : String) (r : ApprovalRecord) : Prop :=
  r.state = kind.state ∧ ∃ completedAt traceId stored,
    r.completion = some (kind.completion completedAt traceId stored) ∧
      (stored = some detail ∨ (stored = none ∧ detail = ""))

theorem Completed.reports {kind : TerminalKind} {detail : String} {r : ApprovalRecord}
    (completed : Completed kind detail r) : r.toStatus.state = kind.state ∧
      r.toSummary.state = kind.state ∧ (detail ≠ "" → r.toStatus.detailOf kind = some detail) := by
  obtain ⟨state, completedAt, traceId, stored, completion, same⟩ := completed
  have effective : r.effectiveState = kind.state := by
    cases kind <;> simp [ApprovalRecord.effectiveState, state, TerminalKind.state]
  refine ⟨effective, effective, fun present => ?_⟩
  rcases same with rfl | ⟨-, empty⟩
  · cases kind <;> simp [ApprovalStatus.detailOf, ApprovalRecord.toStatus, completion, TerminalKind.completion]
  · exact absurd empty present

theorem RecordStep.completed_of_ok {traits : Traits} {id token traceId detail : String} {call : ApprovalCall}
    {kind : TerminalKind} {before after : Option ApprovalRecord}
    (step : RecordStep traits id call (.done (.ok ())) before after)
    (op : call.op = .complete kind id token traceId detail) : ∃ r, after = some r ∧ Completed kind detail r := by
  obtain ⟨r, stored, -, -, -, same, rfl⟩ := step.complete_ok op
  exact ⟨_, rfl, rfl, _, _, stored, rfl, same⟩

/-- The call does not make the approval anew. -/
def Keeps (id : String) (entry : ApprovalCall × ApprovalAnswer) : Prop :=
  entry.2 = .done (.ok ()) → ∀ payload, entry.1.op = .createPending payload → payload.approvalId ≠ id

theorem RecordStep.completed {traits : Traits} {id : String} {call : ApprovalCall} {answer : ApprovalAnswer}
    {kind : TerminalKind} {detail : String} {r : ApprovalRecord} {after : Option ApprovalRecord}
    (step : RecordStep traits id call answer (some r) after) (keeps : Keeps id (call, answer))
    (completed : Completed kind detail r) : after = some r := by
  have open_ : ∀ {s : ApprovalState}, r.state = s → s.isTerminal := by
    rintro s rfl
    rw [completed.1]
    exact kind.state_isTerminal
  cases step with
  | stay => rfl
  | create op named _ success => exact absurd named (keeps success _ op)
  | claim _ claimable =>
    rcases claimable with state | ⟨state, -⟩ <;> exact absurd (open_ state) (by decide)
  | mark _ state => exact absurd (open_ state) (by decide)
  | complete _ state => exact absurd (open_ state) (by decide)

namespace ApprovalBackend
variable {config : StoreConfig}

theorem marked_after {b : ApprovalBackend} {id detail : String} {kind : TerminalKind} {r : ApprovalRecord}
    (sound : b.Sound) (stored : b.view id = some r) (marked : Marked kind detail r) {more : List ApprovalCall}
    (agrees : ∀ entry ∈ (machine config).trace b more, Agrees id kind detail entry) :
    ∃ r', ((machine config).run b more).view id = some r' ∧ Marked kind detail r' := by
  have preserved : ∀ (c : ApprovalBackend) call, (c.Sound ∧ ∃ s, c.view id = some s ∧ Marked kind detail s) →
      Agrees id kind detail (call, ((machine config).step c call).2) →
      (((machine config).step c call).1.Sound ∧
        ∃ s, ((machine config).step c call).1.view id = some s ∧ Marked kind detail s) := by
    rintro c call ⟨still, s, found, holds⟩ agreeing
    obtain ⟨next, records⟩ := step_record config still call
    have step := records id
    rw [found] at step
    exact ⟨next, step.marked agreeing (still.view id s found).1 holds⟩
  exact (Machine.run_invariant_of_trace preserved ⟨sound, r, stored, marked⟩ agrees).2

theorem completed_after {b : ApprovalBackend} {id detail : String} {kind : TerminalKind} {r : ApprovalRecord}
    (sound : b.Sound) (stored : b.view id = some r) (completed : Completed kind detail r)
    {more : List ApprovalCall} (keeps : ∀ entry ∈ (machine config).trace b more, Keeps id entry) :
    ((machine config).run b more).view id = some r := by
  have preserved : ∀ (c : ApprovalBackend) call, (c.Sound ∧ c.view id = some r) →
      Keeps id (call, ((machine config).step c call).2) →
      (((machine config).step c call).1.Sound ∧ ((machine config).step c call).1.view id = some r) := by
    rintro c call ⟨still, found⟩ keeping
    obtain ⟨next, records⟩ := step_record config still call
    have step := records id
    rw [found] at step
    exact ⟨next, step.completed keeping completed⟩
  exact (Machine.run_invariant_of_trace preserved ⟨sound, stored⟩ keeps).2

/-- What is read for a marked record is marked alike. -/
theorem Marked.read {b : ApprovalBackend} {id detail : String} {now : Clock} {kind : TerminalKind}
    {r s : ApprovalRecord} (sound : b.Sound) (stored : b.view id = some s) (marked : Marked kind detail s)
    (read : b.getRecord config id now = .ok (some r)) : Marked kind detail r := by
  obtain ⟨t, found, state, marker, completion, -⟩ := getRecord_view sound read
  obtain rfl : s = t := Option.some.inj (stored.symm.trans found)
  simpa only [Marked, state, marker, completion] using marked

theorem Completed.read {b : ApprovalBackend} {id detail : String} {now : Clock} {kind : TerminalKind}
    {r s : ApprovalRecord} (sound : b.Sound) (stored : b.view id = some s) (completed : Completed kind detail s)
    (read : b.getRecord config id now = .ok (some r)) : Completed kind detail r := by
  obtain ⟨t, found, state, -, completion, -⟩ := getRecord_view sound read
  obtain rfl : s = t := Option.some.inj (stored.symm.trans found)
  simpa only [Completed, state, completion] using completed

/-- The call wrote the first marker of the approval. -/
structure Records (config : StoreConfig) (b : ApprovalBackend) (mark : ApprovalCall) (id : String)
    (kind : TerminalKind) (detail : String) : Prop where
  op : ∃ token, mark.op = .writeOutcomeMarker id token kind.state.asStr detail
  success : (step config b mark).2 = .done (.ok ())
  first : ∀ r ∈ b.view id, r.outcomeMarker = none

theorem Records.marked {b : ApprovalBackend} {mark : ApprovalCall} {id detail : String} {kind : TerminalKind}
    (recorded : Records config b mark id kind detail) (sound : b.Sound) :
    ∃ r, (step config b mark).1.view id = some r ∧ Marked kind detail r := by
  obtain ⟨token, op⟩ := recorded.op
  have step := (step_record config sound mark).2 id
  rw [recorded.success] at step
  rcases step.writeOutcome_ok op with ⟨r, stored, present, -⟩ | ⟨r, stored, claimed, -, -, after⟩
  · simp [recorded.first r stored] at present
  · have formed := (sound.view id r stored).1
    exact ⟨_, after, ⟨_, rfl⟩, .inl ⟨claimed, formed.incomplete claimed⟩⟩

/-- After a marker has been recorded, every status and every summary of the
approval reports its kind and its detail, as long as the approval is only
completed with that outcome. A completion with another one takes precedence
over the marker. -/
theorem marked_outcome_reported (config : StoreConfig) {start : ApprovalBackend} (empty : start.Empty)
    (past : List ApprovalCall) (mark : ApprovalCall) (id detail : String) (kind : TerminalKind)
    (recorded : Records config ((machine config).run start past) mark id kind detail)
    (more : List ApprovalCall) :
    let marked := (machine config).run start (past ++ [mark])
    ((∀ entry ∈ (machine config).trace marked more, Agrees id kind detail entry) →
      ∀ now r, ((machine config).run marked more).getRecord config id now = .ok (some r) →
        Reports r.toStatus kind detail ∧ r.toSummary.state = kind.state) ∧
    ∀ call other token traceId reason, call.op = .complete other id token traceId reason →
      (step config ((machine config).run marked more) call).2 = .done (.ok ()) →
      ∀ later, (∀ entry ∈ (machine config).trace ((machine config).run marked (more ++ [call])) later, Keeps id entry) →
      ∀ now r, ((machine config).run marked (more ++ [call] ++ later)).getRecord config id now = .ok (some r) →
        r.toStatus.state = other.state ∧ r.toSummary.state = other.state ∧
          (reason ≠ "" → r.toStatus.detailOf other = some reason) := by
  intro marked
  have sound : marked.Sound := run_sound empty.sound (past ++ [mark])
  constructor
  · intro agrees now r read
    have before : ((machine config).run start past).Sound := run_sound empty.sound past
    obtain ⟨s, stored, holds⟩ := recorded.marked before
    have found : marked.view id = some s := by
      rw [← stored]
      simp only [marked, Machine.run_concat]
      rfl
    obtain ⟨t, last, still⟩ := marked_after sound found holds agrees
    exact (Marked.read (run_sound sound more) last still read).reports
  · intro call other token traceId reason op success later keeps now r read
    have middle : ((machine config).run marked more).Sound := run_sound sound more
    have stepped := (step_record config middle call).2 id
    rw [success] at stepped
    obtain ⟨s, after, completed⟩ := stepped.completed_of_ok op
    have found : ((machine config).run marked (more ++ [call])).view id = some s := by
      rw [Machine.run_concat]
      exact after
    have last := completed_after (run_sound sound (more ++ [call])) found completed keeps
    rw [← Machine.run_append] at last
    exact (Completed.read (run_sound sound _) last completed read).reports

/-- Where no completion follows, the marker alone decides the status. -/
theorem marked_outcome_reported_claimedRun :
    Records defaultConfig ((machine defaultConfig).run (.sqlite ∅) claimedRun) markApproved "a1" .approved "rcpt-1" ∧
      ∃ r, ((machine defaultConfig).run (.sqlite ∅) (claimedRun ++ [markApproved])).getRecord defaultConfig "a1"
        (.atSecond 3 "1970-01-01T00:00:03+00:00") = .ok (some r) ∧ Reports r.toStatus .approved "rcpt-1" := by
  have recorded : Records defaultConfig ((machine defaultConfig).run (.sqlite ∅) claimedRun) markApproved "a1"
      .approved "rcpt-1" := by
    refine ⟨⟨"t1", rfl⟩, rfl, ?_⟩
    rintro r ⟨⟩
    rfl
  refine ⟨recorded, _, rfl, ?_⟩
  exact ((marked_outcome_reported defaultConfig .sqlite claimedRun markApproved "a1" "rcpt-1" .approved recorded
    []).1 (by simp [Machine.trace]) (.atSecond 3 "1970-01-01T00:00:03+00:00") _ rfl).1

/-- The holder of the claim can still complete the approval with another
outcome than the one it has marked. -/
theorem marked_outcome_overridden :
    ¬∀ (config : StoreConfig) (start : ApprovalBackend) (past : List ApprovalCall) (mark : ApprovalCall)
      (id detail : String) (kind : TerminalKind) (more : List ApprovalCall) (now : Clock) (r : ApprovalRecord),
      start.Empty → Records config ((machine config).run start past) mark id kind detail →
      ((machine config).run start (past ++ mark :: more)).getRecord config id now = .ok (some r) →
      Reports r.toStatus kind detail := by
  intro always
  have reports := always defaultConfig (.inMemory ∅) claimedRun markApproved "a1" "rcpt-1" .approved
    [⟨.atSecond 3 "1970-01-01T00:00:03+00:00", .complete .denied "a1" "t1" "trace-2" "changed my mind"⟩]
    (.atSecond 4 "1970-01-01T00:00:04+00:00") _ .inMemory
    ⟨⟨"t1", rfl⟩, rfl, by rintro r ⟨⟩; rfl⟩ rfl
  exact absurd reports.state (by decide)

end ApprovalBackend
end Latchgate
