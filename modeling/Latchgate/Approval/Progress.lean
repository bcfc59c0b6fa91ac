import Latchgate.Approval.Backend

namespace Latchgate
namespace ApprovalBackend
variable (config : StoreConfig)

/-- The backend still has the approval; only a Redis key can be gone. -/
def Held (b : ApprovalBackend) (id : String) (now : Clock) : Prop :=
  match b with
  | redis db => (Redis.find db id now).isSome
  | _ => True

/-- The tests that the backends make before they grant a claim and hand out
the payload. -/
def Grants (b : ApprovalBackend) (id : String) (now : Clock) : Prop :=
  match b with
  | inMemory map => ∃ entry, map.lookup id = some entry ∧
      ¬(InMemory.elapsed entry now ≥ config.defaultTtl ∧ entry.record.state.isTerminal = false) ∧
      validateClaimTransition entry.record.state entry.record.outcomeMarker.isSome
        (entry.record.claim.map ClaimInfo.claimExpiresAtUnix) now.utc.timestampMillis id = .ok ()
  | sqlite db => ∃ row state pending, db.lookup id = some row ∧
      row.expiresAtUnix > now.utc.timestamp - max (config.ttlSecs : Int) 0 ∧
      ApprovalState.fromDbStr row.state = some state ∧
      validateClaimTransition state row.terminalOutcomeKind.isSome row.claimExpiresAtUnix
        now.utc.timestamp id = .ok () ∧
      config.readPayload row.payload = .ok pending
  | redis db => ∃ hash pending, Redis.find db id now = some hash ∧
      Redis.luaClaim hash id now.utc.timestamp = .ok () ∧ config.readPayload hash.payload = .ok pending

variable {config}

/-- A claim is granted exactly when the backend's tests pass. -/
theorem claim_ok_iff {b : ApprovalBackend} {id : String} {now : Clock} (operator token : String) :
    (∃ claimed, (step config b ⟨now, .claimPending id operator token⟩).2 = .claim (.ok claimed)) ↔
      b.Grants config id now := by
  constructor
  · rintro ⟨claimed, granted⟩
    cases b with
    | inMemory map =>
      simp only [step, InMemory.step, InMemory.claim] at granted
      split at granted
      · cases granted
      · rename_i entry stored
        split_ifs at granted with hidden
        · cases granted
        · split at granted
          · cases granted
          · rename_i valid
            exact ⟨entry, stored, hidden, valid⟩
    | sqlite db =>
      simp only [step, Sqlite.step, Sqlite.claim] at granted
      split at granted
      · cases granted
      · rename_i row stored
        split_ifs at granted with visible
        · split at granted
          · cases granted
          · rename_i state known
            split at granted
            · cases granted
            · rename_i valid
              split at granted
              · rename_i pending read
                exact ⟨row, state, pending, stored, visible, known, valid, read⟩
              · cases granted
        · cases granted
    | redis db =>
      simp only [step, Redis.step, Redis.claim] at granted
      split at granted
      · cases granted
      · rename_i hash found
        split at granted
        · cases granted
        · rename_i valid
          split at granted
          · rename_i pending read
            exact ⟨hash, pending, found, valid, read⟩
          · cases granted
  · intro grants
    cases b with
    | inMemory map =>
      obtain ⟨entry, stored, visible, valid⟩ := grants
      simp only [step, InMemory.step, InMemory.claim, stored, if_neg visible, valid]
      exact ⟨_, rfl⟩
    | sqlite db =>
      obtain ⟨row, state, pending, stored, visible, known, valid, read⟩ := grants
      simp only [step, Sqlite.step, Sqlite.claim, stored, if_pos visible, known, valid, read]
      exact ⟨_, rfl⟩
    | redis db =>
      obtain ⟨hash, pending, found, valid, read⟩ := grants
      simp only [step, Redis.step, Redis.claim, found, valid, read]
      exact ⟨_, rfl⟩

theorem claim_answer_token {b : ApprovalBackend} {id operator token : String} {now : Clock}
    {claimed : ClaimedApproval}
    (granted : (step config b ⟨now, .claimPending id operator token⟩).2 = .claim (.ok claimed)) :
    claimed.claimToken = token := by
  cases b with
  | inMemory map =>
    simp only [step, InMemory.step, InMemory.claim] at granted
    repeat' split at granted
    all_goals cases granted
    rfl
  | sqlite db =>
    simp only [step, Sqlite.step, Sqlite.claim] at granted
    repeat' split at granted
    all_goals cases granted
    rfl
  | redis db =>
    simp only [step, Redis.step, Redis.claim] at granted
    repeat' split at granted
    all_goals cases granted
    rfl

/-- The holder of a claim can write the outcome of an approval that the
backend still has. -/
theorem writeOutcome_answer {b : ApprovalBackend} {id token kind detail : String} {now : Clock}
    {r : ApprovalRecord} (sound : b.Sound) (held : b.Held id now) (kept : b.view id = some r)
    (claimed : r.state = .claimed) (holder : r.claim.map ClaimInfo.claimToken = some token) :
    (step config b ⟨now, .writeOutcomeMarker id token kind detail⟩).2 = .done (.ok ()) := by
  have allowed : requireClaimedWithToken r.state (r.claim.map ClaimInfo.claimToken) token id = .ok () :=
    requireClaimedWithToken_ok.2 ⟨claimed, holder⟩
  cases b with
  | inMemory map =>
    obtain ⟨entry, stored, rfl⟩ := Option.map_eq_some_iff.mp kept
    simp only [step, InMemory.step, InMemory.writeOutcome, stored, allowed]
    split_ifs <;> rfl
  | sqlite db =>
    obtain ⟨row, stored, holds⟩ := Option.bind_eq_some_iff.mp kept
    obtain ⟨fields, createdAt, expires⟩ := row
    obtain ⟨s, rfl, -, -⟩ := sound id _ stored
    obtain rfl : s = r := by simpa using holds
    simp only [step, Sqlite.step, Sqlite.writeOutcome, stored, Sqlite.state_ofRecord]
    have same : (StoredFields.ofRecord s).claimToken = s.claim.map ClaimInfo.claimToken := rfl
    rw [same, allowed]
    split_ifs <;> rfl
  | redis db =>
    obtain ⟨hash, found⟩ := Option.isSome_iff_exists.mp held
    obtain ⟨s, holds, -, -⟩ := sound id hash (Redis.lookup_of_find found)
    obtain rfl : s = r :=
      Option.some.inj ((Table.view_of_lookup (Redis.lookup_of_find found) holds).symm.trans kept)
    simp only [step, Redis.step, Redis.writeOutcome, found, Redis.luaRequireClaimed_eq id token holds, allowed]
    split_ifs <;> rfl

theorem complete_answer {b : ApprovalBackend} {kind : TerminalKind} {id token traceId detail : String} {now : Clock}
    {r : ApprovalRecord} (sound : b.Sound) (held : b.Held id now) (kept : b.view id = some r)
    (claimed : r.state = .claimed) (holder : r.claim.map ClaimInfo.claimToken = some token) :
    (step config b ⟨now, .complete kind id token traceId detail⟩).2 = .done (.ok ()) := by
  have allowed : requireClaimedWithToken r.state (r.claim.map ClaimInfo.claimToken) token id = .ok () :=
    requireClaimedWithToken_ok.2 ⟨claimed, holder⟩
  cases b with
  | inMemory map =>
    obtain ⟨entry, stored, rfl⟩ := Option.map_eq_some_iff.mp kept
    simp only [step, InMemory.step, InMemory.complete, stored, allowed]
  | sqlite db =>
    obtain ⟨row, stored, holds⟩ := Option.bind_eq_some_iff.mp kept
    obtain ⟨fields, createdAt, expires⟩ := row
    obtain ⟨s, rfl, -, -⟩ := sound id _ stored
    obtain rfl : s = r := by simpa using holds
    simp only [step, Sqlite.step, Sqlite.complete, stored, Sqlite.state_ofRecord]
    have same : (StoredFields.ofRecord s).claimToken = s.claim.map ClaimInfo.claimToken := rfl
    rw [same, allowed]
  | redis db =>
    obtain ⟨hash, found⟩ := Option.isSome_iff_exists.mp held
    obtain ⟨s, holds, -, -⟩ := sound id hash (Redis.lookup_of_find found)
    obtain rfl : s = r :=
      Option.some.inj ((Table.view_of_lookup (Redis.lookup_of_find found) holds).symm.trans kept)
    simp only [step, Redis.step, Redis.complete, found, Redis.luaRequireClaimed_eq id token holds, allowed]

end ApprovalBackend
end Latchgate
