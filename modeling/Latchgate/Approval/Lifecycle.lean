import Latchgate.Approval.InMemory
import Latchgate.Machine.Lease
import Mathlib.Data.Int.Order.Basic

namespace Latchgate

/-- The moves of one approval. The time is the one at which the move is made. -/
inductive Move (nowMillis : Int) : Option ApprovalRecord → Option ApprovalRecord → Prop
  | stay (r) : Move nowMillis r r
  | create (payload) : Move nowMillis none (some (.newPending payload))
  | claim {r} (claim) : r.state = .pending →
      Move nowMillis (some r) (some { r with state := .claimed, claim := some claim })
  | reclaim {r previous} (claim) : r.state = .claimed → r.outcomeMarker = none →
      r.claim = some previous → previous.claimExpiresAtUnix ≤ nowMillis →
      Move nowMillis (some r) (some { r with state := .claimed, claim := some claim })
  | mark {r} (marker) : r.state = .claimed → r.outcomeMarker = none →
      Move nowMillis (some r) (some { r with outcomeMarker := some marker })
  | complete {r} (kind : TerminalKind) (info) : r.state = .claimed →
      Move nowMillis (some r) (some { r with state := kind.state, completion := some info })

theorem RecordStep.move {traits : Traits} {id : String} {call : ApprovalCall} {answer : ApprovalAnswer}
    {before after : Option ApprovalRecord} (step : RecordStep traits id call answer before after)
    (remembers : traits.forgets = false) : Move (traits.now call.clock) before after := by
  cases step with
  | stay => exact .stay _
  | create _ _ forgotten _ =>
    obtain rfl : before = none := by simpa [remembers] using forgotten
    exact .create _
  | claim _ claimable =>
    rcases claimable with pending | ⟨claimed, unmarked, previous, present, expired⟩
    · exact .claim _ pending
    · exact .reclaim _ claimed unmarked present expired
  | mark _ claimed unmarked => exact .mark _ claimed unmarked
  | complete _ claimed => exact .complete _ _ claimed

theorem Move.terminal {now : Int} {r : ApprovalRecord} {after : Option ApprovalRecord}
    (move : Move now (some r) after) (terminal : r.state.isTerminal) : after = some r := by
  cases move with
  | stay => rfl
  | claim _ state => simp [state, ApprovalState.isTerminal] at terminal
  | reclaim _ state => simp [state, ApprovalState.isTerminal] at terminal
  | mark _ state => simp [state, ApprovalState.isTerminal] at terminal
  | complete _ _ state => simp [state, ApprovalState.isTerminal] at terminal

namespace InMemory
variable {config : StoreConfig}

/-- The lease a call was given on an approval, if it was a successful claim of it. -/
def grantedClaim (config : StoreConfig) (id : String) (entry : ApprovalCall × ApprovalAnswer) :
    Option (Tenure String Int) :=
  match entry.1.op, entry.2 with
  | .claimPending approvalId _ token, .claim (.ok _) =>
    let now := entry.1.clock.utc.timestampMillis
    if approvalId = id then some ⟨token, now, now + config.claimTtlSecs * 1000⟩ else none
  | _, _ => none

/-- The successful claims of an approval, oldest first. -/
def claimsOn (config : StoreConfig) (id : String) (past : List (ApprovalCall × ApprovalAnswer)) :
    List (Tenure String Int) :=
  past.filterMap (grantedClaim config id)

theorem grantedClaim_of_not_ok {id : String} {call : ApprovalCall} {answer : ApprovalAnswer}
    (refused : ∀ claimed, answer ≠ .claim (.ok claimed)) : grantedClaim config id (call, answer) = none := by
  unfold grantedClaim
  split
  · rename_i same
    exact absurd same (refused _)
  · rfl

theorem grantedClaim_done (id : String) (call : ApprovalCall) (result : Except ApprovalError Unit) :
    grantedClaim config id (call, .done result) = none :=
  grantedClaim_of_not_ok (by simp)

theorem grantedClaim_start {id : String} {entry : ApprovalCall × ApprovalAnswer} {t : Tenure String Int}
    (granted : grantedClaim config id entry = some t) : t.start = entry.1.clock.utc.timestampMillis := by
  unfold grantedClaim at granted
  split at granted
  · split_ifs at granted
    cases granted
    rfl
  · cases granted

theorem claimsOn_start_le {id : String} {past : List (ApprovalCall × ApprovalAnswer)} {now : Int}
    (before : ∀ entry ∈ past, entry.1.clock.utc.timestampMillis ≤ now) :
    ∀ t ∈ claimsOn config id past, t.start ≤ now := by
  intro t member
  obtain ⟨entry, inside, granted⟩ := List.mem_filterMap.mp member
  rw [grantedClaim_start granted]
  exact before entry inside

theorem claimsOn_concat (config : StoreConfig) (id : String) (past : List (ApprovalCall × ApprovalAnswer))
    (entry : ApprovalCall × ApprovalAnswer) :
    claimsOn config id (past ++ [entry]) = claimsOn config id past ++ (grantedClaim config id entry).toList := by
  rw [claimsOn, List.filterMap_append]
  cases granted : grantedClaim config id entry <;> simp [claimsOn, granted]

/-- The stored claim is the last one that was granted, and a claim was only
granted when every earlier one had run out. -/
structure Tracks (config : StoreConfig) (id : String) (past : List (ApprovalCall × ApprovalAnswer))
    (map : InMemoryMap) : Prop where
  absent : getRecord map id = none → claimsOn config id past = []
  unclaimed : ∀ r, getRecord map id = some r → r.state = .pending → claimsOn config id past = []
  last : ∀ r claim, getRecord map id = some r → r.state = .claimed → r.claim = some claim →
    ∃ earlier start, claimsOn config id past =
      earlier ++ [⟨claim.claimToken, start, claim.claimExpiresAtUnix⟩]
  successive : NonDecreasing (past.map Prod.fst) → Tenure.Successive (claimsOn config id past)

theorem NonDecreasing.before_last {past : List (ApprovalCall × ApprovalAnswer)} {call : ApprovalCall}
    {answer : ApprovalAnswer} (clock : NonDecreasing ((past ++ [(call, answer)]).map Prod.fst)) :
    NonDecreasing (past.map Prod.fst) ∧
      ∀ entry ∈ past, entry.1.clock.utc.timestampMillis ≤ call.clock.utc.timestampMillis := by
  rw [List.map_append] at clock
  obtain ⟨old, -, between⟩ := List.pairwise_append.mp clock
  refine ⟨old, ?_⟩
  intro entry member
  have ordered := (between _ (List.mem_map_of_mem member) call (by simp)).2
  unfold DateTime.timestampMillis
  omega

theorem Tracks.keep {id : String} {past : List (ApprovalCall × ApprovalAnswer)} {map next : InMemoryMap}
    {call : ApprovalCall} {answer : ApprovalAnswer} (tracks : Tracks config id past map)
    (ungranted : grantedClaim config id (call, answer) = none)
    (same : getRecord next id = getRecord map id) :
    Tracks config id (past ++ [(call, answer)]) next := by
  have claims : claimsOn config id (past ++ [(call, answer)]) = claimsOn config id past := by
    simp [claimsOn_concat, ungranted]
  refine ⟨?_, ?_, ?_, ?_⟩
  · rw [claims, same]
    exact tracks.absent
  · rw [claims, same]
    exact tracks.unclaimed
  · rw [claims, same]
    exact tracks.last
  · intro clock
    rw [claims]
    exact tracks.successive (NonDecreasing.before_last clock).1

/-- A change of the record that is no claim keeps the bookkeeping, as long as
a record left in the claimed state keeps its claim. -/
theorem Tracks.update {id : String} {past : List (ApprovalCall × ApprovalAnswer)} {map next : InMemoryMap}
    {call : ApprovalCall} {answer : ApprovalAnswer} {r r' : ApprovalRecord}
    (tracks : Tracks config id past map) (ungranted : grantedClaim config id (call, answer) = none)
    (old : getRecord map id = some r) (new : getRecord next id = some r') (notPending : r'.state ≠ .pending)
    (claimed : r'.state = .claimed → r.state = .claimed ∧ r'.claim = r.claim) :
    Tracks config id (past ++ [(call, answer)]) next := by
  have claims : claimsOn config id (past ++ [(call, answer)]) = claimsOn config id past := by
    simp [claimsOn_concat, ungranted]
  refine ⟨?_, ?_, ?_, ?_⟩
  · intro absent
    simp [new] at absent
  · intro record found pending
    rw [new] at found
    cases found
    exact absurd pending notPending
  · intro record claim found state present
    rw [new] at found
    cases found
    obtain ⟨wasClaimed, sameClaim⟩ := claimed state
    rw [claims]
    exact tracks.last r claim old wasClaimed (sameClaim ▸ present)
  · intro clock
    rw [claims]
    exact tracks.successive (NonDecreasing.before_last clock).1

/-- A claim goes through only when every lease granted before has run out. -/
theorem Tracks.ended_of_claimable {id : String} {past : List (ApprovalCall × ApprovalAnswer)}
    {map : InMemoryMap} {r : ApprovalRecord} {now : Int} (tracks : Tracks config id past map)
    (stored : getRecord map id = some r)
    (valid : validateClaimTransition r.state r.outcomeMarker.isSome
      (r.claim.map ClaimInfo.claimExpiresAtUnix) now id = .ok ())
    (clock : NonDecreasing (past.map Prod.fst))
    (before : ∀ entry ∈ past, entry.1.clock.utc.timestampMillis ≤ now) :
    ∀ t ∈ claimsOn config id past, t.stop ≤ now := by
  rcases validateClaimTransition_ok.1 valid with pending | ⟨claimed, -, expiry, known, expired⟩
  · rw [tracks.unclaimed r stored pending]
    simp
  · obtain ⟨previous, present, rfl⟩ := Option.map_eq_some_iff.mp known
    obtain ⟨earlier, start, claims⟩ := tracks.last r previous stored claimed present
    have begun : ∀ t ∈ claimsOn config id past, t.start ≤ now := claimsOn_start_le before
    have successive := tracks.successive clock
    rw [claims] at begun successive ⊢
    exact successive.all_ended (begun _ (by simp)) expired

/-- A new record has no claims, and neither had the id before it. -/
theorem Tracks.create {past : List (ApprovalCall × ApprovalAnswer)} {map : InMemoryMap}
    {call : ApprovalCall} {pending : PendingApproval} {entry : InMemoryEntry}
    (tracks : Tracks config pending.approvalId past map)
    (fresh : map.lookup pending.approvalId = none) (made : entry.record = .newPending pending) :
    Tracks config pending.approvalId (past ++ [(call, .done (.ok ()))])
      (map.insert pending.approvalId entry) := by
  have empty := tracks.absent (by rw [getRecord, fresh]; rfl)
  have claims : claimsOn config pending.approvalId (past ++ [(call, ApprovalAnswer.done (.ok ()))]) = [] := by
    simp [claimsOn_concat, grantedClaim_done, empty]
  refine ⟨fun _ => claims, fun _ _ _ => claims, ?_, ?_⟩
  · intro r claim stored claimed
    rw [getRecord_insert, if_pos rfl, made] at stored
    cases stored
    cases claimed
  · rw [claims]
    intro _
    exact List.Pairwise.nil

/-- A claim that is granted becomes the last one. -/
theorem Tracks.claim {id operator token : String} {past : List (ApprovalCall × ApprovalAnswer)}
    {map : InMemoryMap} {call : ApprovalCall} {entry : InMemoryEntry} (tracks : Tracks config id past map)
    (op : call.op = .claimPending id operator token) (stored : map.lookup id = some entry)
    (valid : validateClaimTransition entry.record.state entry.record.outcomeMarker.isSome
      (entry.record.claim.map ClaimInfo.claimExpiresAtUnix) call.clock.utc.timestampMillis id = .ok ()) :
    Tracks config id
      (past ++ [(call, .claim (.ok ⟨entry.record.payload, token, call.clock.utc.rfc3339, operator⟩))])
      (map.insert id (claimedEntry config entry operator token call.clock)) := by
  have old := getRecord_of_lookup stored
  have granted : grantedClaim config id
      (call, .claim (.ok ⟨entry.record.payload, token, call.clock.utc.rfc3339, operator⟩)) =
      some ⟨token, call.clock.utc.timestampMillis,
        call.clock.utc.timestampMillis + config.claimTtlSecs * 1000⟩ := by
    simp [grantedClaim, op]
  refine ⟨?_, ?_, ?_, ?_⟩
  · rw [getRecord_insert, if_pos rfl]
    simp
  · rw [getRecord_insert, if_pos rfl]
    intro r found pending
    cases found
    cases pending
  · rw [getRecord_insert, if_pos rfl, claimsOn_concat, granted]
    intro r claim found _ present
    cases found
    cases present
    exact ⟨_, _, rfl⟩
  · intro clock
    obtain ⟨older, before⟩ := NonDecreasing.before_last clock
    rw [claimsOn_concat, granted]
    exact (tracks.successive older).concat (tracks.ended_of_claimable old valid older before)

theorem step_tracks {id : String} {past : List (ApprovalCall × ApprovalAnswer)} {map : InMemoryMap}
    (call : ApprovalCall) (tracks : Tracks config id past map) :
    Tracks config id (past ++ [(call, (step config map call).2)]) (step config map call).1 := by
  have effect := step_effect config map call
  generalize step config map call = result at effect
  cases effect with
  | unchanged refused _ => exact tracks.keep (grantedClaim_of_not_ok refused) rfl
  | @created pending _ fresh =>
    by_cases same : id = pending.approvalId
    · subst id
      exact tracks.create fresh rfl
    · exact tracks.keep (grantedClaim_done _ _ _) (by rw [getRecord_insert, if_neg same])
  | @claimed key operator token entry op stored alive valid =>
    by_cases same : id = key
    · subst key
      exact tracks.claim op stored valid
    · refine tracks.keep ?_ (by rw [getRecord_insert, if_neg same])
      simp [grantedClaim, op, Ne.symm same]
  | @marked key token kind detail entry op stored unmarked claimed holder =>
    by_cases same : id = key
    · subst key
      exact tracks.update (grantedClaim_done _ _ _) (getRecord_of_lookup stored)
        (by rw [getRecord_insert, if_pos rfl]) (by simp [markedEntry, claimed])
        (by simp [markedEntry, claimed])
    · exact tracks.keep (grantedClaim_done _ _ _) (by rw [getRecord_insert, if_neg same])
  | @completed kind key token traceId detail entry op stored claimed holder =>
    by_cases same : id = key
    · subst key
      refine tracks.update (grantedClaim_done _ _ _) (getRecord_of_lookup stored)
        (by rw [getRecord_insert, if_pos rfl]) ?_ ?_
      · cases kind <;> simp [completedEntry, TerminalKind.state]
      · cases kind <;> simp [completedEntry, TerminalKind.state]
    · exact tracks.keep (grantedClaim_done _ _ _) (by rw [getRecord_insert, if_neg same])

theorem run_tracks (config : StoreConfig) (id : String) (past : List ApprovalCall) :
    Tracks config id ((machine config).trace ∅ past) ((machine config).run ∅ past) := by
  have start : Tracks config id [] ∅ := by
    refine ⟨fun _ => rfl, ?_, ?_, fun _ => List.Pairwise.nil⟩
    · intro r stored
      cases stored
    · intro r claim stored
      cases stored
  have preserved : ∀ seen map call, Tracks config id seen map →
      Tracks config id (seen ++ [(call, ((machine config).step map call).2)]) ((machine config).step map call).1 :=
    fun _ _ call tracks => step_tracks call tracks
  exact Machine.trace_invariant start preserved past

/-- The record of an approval after a run of the store. -/
def recordAfter (config : StoreConfig) (past : List ApprovalCall) (id : String) : Option ApprovalRecord :=
  getRecord ((machine config).run ∅ past) id

def answerAfter (config : StoreConfig) (past : List ApprovalCall) (call : ApprovalCall) : ApprovalAnswer :=
  ((machine config).step ((machine config).run ∅ past) call).2

theorem recordAfter_concat (config : StoreConfig) (past : List ApprovalCall) (call : ApprovalCall)
    (id : String) : RecordStep (traits config) id call (answerAfter config past call)
      (recordAfter config past id) (recordAfter config (past ++ [call]) id) := by
  rw [recordAfter, recordAfter, answerAfter, Machine.run_concat]
  exact step_record _ call id

theorem recordAfter_wellFormed (config : StoreConfig) (past : List ApprovalCall) (id : String) :
    ∀ r ∈ recordAfter config past id, r.WellFormed := by
  induction past using List.reverseRecOn with
  | nil =>
    intro r stored
    cases stored
  | append_singleton past call ih => exact (recordAfter_concat config past call id).wellFormed ih

theorem settled_after {past : List ApprovalCall} {id : String} {r : ApprovalRecord}
    (stored : recordAfter config past id = some r) (settled : Settled r) (more : List ApprovalCall) :
    ∃ r', recordAfter config (past ++ more) id = some r' ∧ Settled r' := by
  induction more using List.reverseRecOn with
  | nil => exact ⟨r, by simpa using stored, settled⟩
  | append_singleton more call ih =>
    obtain ⟨middle, found, still⟩ := ih
    have step := recordAfter_concat config (past ++ more) call id
    rw [found, List.append_assoc] at step
    rcases step.settled still (recordAfter_wellFormed config _ id middle found) with kept | ⟨forgets, -⟩
    · exact kept
    · exact absurd forgets (by simp [traits])

theorem terminal_after {past : List ApprovalCall} {id : String} {r : ApprovalRecord}
    (stored : recordAfter config past id = some r) (terminal : r.state.isTerminal)
    (more : List ApprovalCall) : recordAfter config (past ++ more) id = some r := by
  induction more using List.reverseRecOn with
  | nil => simpa using stored
  | append_singleton more call ih =>
    have step := recordAfter_concat config (past ++ more) call id
    rw [ih, List.append_assoc] at step
    exact (step.move rfl).terminal terminal

/-- The token of the most recent successful claim. -/
def lastHolder (config : StoreConfig) (id : String) (past : List ApprovalCall) : Option String :=
  (claimsOn config id ((machine config).trace ∅ past)).getLast?.map Tenure.holder

theorem lastHolder_of_claim {past : List ApprovalCall} {id token : String} {r : ApprovalRecord}
    (stored : recordAfter config past id = some r) (claimed : r.state = .claimed)
    (holder : r.claim.map ClaimInfo.claimToken = some token) : lastHolder config id past = some token := by
  obtain ⟨claim, present, rfl⟩ := Option.map_eq_some_iff.mp holder
  obtain ⟨earlier, start, claims⟩ := (run_tracks config id past).last r claim stored claimed present
  simp [lastHolder, claims]

/-- Where a marker is present a further one is accepted and dropped. -/
theorem writeOutcome_marked {map : InMemoryMap} {call : ApprovalCall} {id token kind detail : String}
    {r : ApprovalRecord} (op : call.op = .writeOutcomeMarker id token kind detail)
    (stored : getRecord map id = some r) (marked : r.outcomeMarker.isSome) :
    (step config map call).1 = map := by
  obtain ⟨entry, found, rfl⟩ := Option.map_eq_some_iff.mp stored
  simp [step, op, writeOutcome, found, marked]

/-- The lifecycle of an approval in the in-memory store, after any run:
it moves only as `Move` says; while no clock runs backwards at most one
lease is live; a settled approval is never claimed again; completions come
from the holder of the latest claim, and so does a marker unless one is
there already, in which case the store stays as it is; and a terminal record
never changes. -/
theorem lifecycle (config : StoreConfig) (id : String) (past : List ApprovalCall)
    (clock : NonDecreasing past) :
    (∀ call, Move call.clock.utc.timestampMillis (recordAfter config past id)
      (recordAfter config (past ++ [call]) id)) ∧
    (∀ now : DateTime, (∀ call ∈ past, call.clock.utc.unixNanos ≤ now.unixNanos) →
      (Tenure.live now.timestampMillis
        (claimsOn config id ((machine config).trace ∅ past))).length ≤ 1) ∧
    (∀ r, recordAfter config past id = some r → Settled r → ∀ more call operator token claimed,
      call.op = .claimPending id operator token →
      answerAfter config (past ++ more) call ≠ .claim (.ok claimed)) ∧
    (∀ call kind token traceId detail, call.op = .complete kind id token traceId detail →
      answerAfter config past call = .done (.ok ()) → lastHolder config id past = some token) ∧
    (∀ call token kind detail, call.op = .writeOutcomeMarker id token kind detail →
      answerAfter config past call = .done (.ok ()) → lastHolder config id past = some token ∨
        (∃ r, recordAfter config past id = some r ∧ r.outcomeMarker.isSome) ∧
        (machine config).run ∅ (past ++ [call]) = (machine config).run ∅ past) ∧
    (∀ r, recordAfter config past id = some r → r.state.isTerminal → r.completion.isSome ∧
      ∀ more, recordAfter config (past ++ more) id = some r) := by
  refine ⟨fun call => (recordAfter_concat config past call id).move rfl, ?_, ?_, ?_, ?_, ?_⟩
  · intro now before
    have calls : ((machine config).trace ∅ past).map Prod.fst = past := Machine.trace_inputs _ _ past
    have successive := (run_tracks config id past).successive (by rwa [calls])
    refine successive.live_le_one (claimsOn_start_le ?_)
    intro entry member
    have ordered := before entry.1 (by rw [← calls]; exact List.mem_map_of_mem member)
    unfold DateTime.timestampMillis
    omega
  · intro r stored settled more call operator token claimed op answer
    obtain ⟨r', found, still⟩ := settled_after stored settled more
    have step := recordAfter_concat config (past ++ more) call id
    rw [answer] at step
    obtain ⟨s, same, claimable, -⟩ := step.claim_ok op
    obtain rfl : r' = s := Option.some.inj (found.symm.trans same)
    exact claimable.not_settled (recordAfter_wellFormed config _ id r' found) still
  · intro call kind token traceId detail op answer
    have step := recordAfter_concat config past call id
    rw [answer] at step
    obtain ⟨r, -, stored, claimed, holder, -⟩ := step.complete_ok op
    exact lastHolder_of_claim stored claimed holder
  · intro call token kind detail op answer
    have step := recordAfter_concat config past call id
    rw [answer] at step
    rcases step.writeOutcome_ok op with ⟨r, stored, present, -⟩ | ⟨r, stored, claimed, -, holder, -⟩
    · refine .inr ⟨⟨r, stored, present⟩, ?_⟩
      rw [Machine.run_concat]
      exact writeOutcome_marked op stored present
    · exact .inl (lastHolder_of_claim stored claimed holder)
  · intro r stored terminal
    exact ⟨(recordAfter_wellFormed config past id r stored).completed.mpr terminal, terminal_after stored terminal⟩

/-- A run in which an approval is claimed and its outcome marked. -/
def markedRun : List ApprovalCall :=
  claimedRun ++ [markApproved]

theorem lifecycle_markedRun :
    NonDecreasing markedRun ∧
      (∃ r, recordAfter defaultConfig markedRun "a1" = some r ∧ Settled r) ∧
      lastHolder defaultConfig "a1" markedRun = some "t1" ∧
      (∀ claimed, answerAfter defaultConfig markedRun
        ⟨.atSecond 500 "1970-01-01T00:08:20+00:00", .claimPending "a1" "op:bob" "t2"⟩ ≠ .claim (.ok claimed)) := by
  have clock : NonDecreasing markedRun := by
    unfold NonDecreasing markedRun claimedRun markApproved
    decide
  refine ⟨clock, ⟨_, rfl, .inr rfl⟩, rfl, ?_⟩
  intro claimed
  have settled := (lifecycle defaultConfig "a1" markedRun clock).2.2.1 _ rfl (.inr rfl) []
  exact settled _ "op:bob" "t2" claimed rfl

/-- The marker is accepted a second time with a token that never held the claim. -/
theorem writeOutcome_with_other_token :
    ¬∀ (config : StoreConfig) (id : String) (past : List ApprovalCall) (call : ApprovalCall)
      (token kind detail : String), NonDecreasing past →
      call.op = .writeOutcomeMarker id token kind detail →
      answerAfter config past call = .done (.ok ()) → lastHolder config id past = some token := by
  intro always
  have holder := always defaultConfig "a1" markedRun
    ⟨.atSecond 3 "1970-01-01T00:00:03+00:00", .writeOutcomeMarker "a1" "forged" "denied" "no"⟩
    "forged" "denied" "no" (by unfold NonDecreasing markedRun claimedRun markApproved; decide) rfl rfl
  have real : lastHolder defaultConfig "a1" markedRun = some "t1" := rfl
  rw [real] at holder
  exact absurd holder (by decide)

end InMemory
end Latchgate
