import Latchgate.Approval.Backend

namespace Latchgate

/-- The three backends, given the same calls. -/
structure Trio where
  mem : InMemoryMap
  sql : SqliteDb
  red : RedisDb

structure TrioAnswer where
  mem : ApprovalAnswer
  sql : ApprovalAnswer
  red : ApprovalAnswer

/-- The three backends answer alike. -/
def TrioAnswer.Alike (a : TrioAnswer) : Prop :=
  a.sql = a.mem ∧ a.red = a.mem

/-- Listings, which are about no single approval, are not compared. -/
def AlikeOn (call : ApprovalCall) (a : TrioAnswer) : Prop :=
  call.op.target ≠ none → a.Alike

namespace Trio

def machine (config : StoreConfig) : Machine Trio ApprovalCall TrioAnswer where
  step s call :=
    let m := InMemory.step config s.mem call
    let q := Sqlite.step config s.sql call
    let h := Redis.step config s.red call
    (⟨m.1, q.1, h.1⟩, ⟨m.2, q.2, h.2⟩)

def start : Trio := ⟨∅, ∅, ∅⟩

/-- SQLite keeps an empty detail where the others keep none; a status hides the
difference where the marker has that kind and an empty detail too. -/
def EmptyDetailMarked (row : StoredFields) : Prop :=
  ∀ kind : TerminalKind, (match kind with
    | .approved => row.receiptId
    | .denied => row.denyReason
    | .failed => row.errorCode) = some "" →
    row.terminalOutcomeKind = some kind.state.asStr ∧ row.terminalOutcomeDetail = some ""

/-- The tests by which the backends decide whether an approval can still be
read as pending. -/
def PendingTestsAgree (config : StoreConfig) (now : Clock) (entry : InMemoryEntry) (row : SqliteRow)
    (hash : RedisHash) : Prop :=
  (InMemory.elapsed entry now < config.defaultTtl ↔
    row.state = "pending" ∧ row.expiresAtUnix > now.utc.timestamp) ∧
  (InMemory.elapsed entry now < config.defaultTtl ↔
    hash.state = "pending" ∧ now.redisMillis ≤ hash.expireAtMillis)

/-- The tests by which the backends decide whether an approval can still be
claimed, and whether its lease has run out. -/
def ClaimTestsAgree (config : StoreConfig) (now : Clock) (entry : InMemoryEntry) (row : SqliteRow)
    (hash : RedisHash) : Prop :=
  let visible := ¬(InMemory.elapsed entry now ≥ config.defaultTtl ∧ entry.record.state.isTerminal = false)
  (visible ↔ row.expiresAtUnix > now.utc.timestamp - max (config.ttlSecs : Int) 0) ∧
  (visible ↔ now.redisMillis ≤ hash.expireAtMillis) ∧
  (visible → entry.record.state = .claimed → entry.record.outcomeMarker = none →
    ∀ claim, entry.record.claim = some claim → ∀ expiry, row.claimExpiresAtUnix = some expiry →
      (now.utc.timestampMillis < claim.claimExpiresAtUnix ↔ now.utc.timestamp < expiry))

/-- When the backends cannot be told apart by a call: the payload survives its
JSON text, the Redis key has not expired where the others forget nothing, and
the time tests come out alike. -/
def Guard (config : StoreConfig) (s : Trio) (call : ApprovalCall) : Prop :=
  let now := call.clock
  let kept := fun id => s.mem.lookup id ≠ none → (Redis.find s.red id now).isSome
  match call.op with
  | .createPending p => config.readPayload p = .ok p ∧ kept p.approvalId
  | .getPending id => ∀ entry row hash, s.mem.lookup id = some entry → s.sql.lookup id = some row →
      s.red.lookup id = some hash → PendingTestsAgree config now entry row hash
  | .claimPending id _ _ => ∀ entry row hash, s.mem.lookup id = some entry → s.sql.lookup id = some row →
      s.red.lookup id = some hash → ClaimTestsAgree config now entry row hash
  | .writeOutcomeMarker id _ _ _ => kept id
  | .complete _ id _ _ _ => kept id
  | .getStatus id => kept id ∧ ∀ row, s.sql.lookup id = some row → EmptyDetailMarked row.toStoredFields
  | .listApprovals _ _ => True

/-- The completion as SQLite keeps it, against the one the others keep. -/
inductive SameCompletion : Option CompletionInfo → Option CompletionInfo → Prop
  | none : SameCompletion none none
  | some (kind : TerminalKind) (completedAt traceId detail : String) : SameCompletion
      (some (kind.completion completedAt traceId (if detail = "" then Option.none else some detail)))
      (some (kind.completion completedAt traceId (some detail)))

/-- The same record with the lease counted in seconds. -/
def inSeconds (r : ApprovalRecord) (lease : Int) : ApprovalRecord :=
  { r with claim := r.claim.map fun c => { c with claimExpiresAtUnix := lease } }

/-- The three backends keep one record of an approval. -/
structure Kept (config : StoreConfig) (entry : InMemoryEntry) (row : SqliteRow) (hash : RedisHash) (lease : Int)
    (detailed : Option CompletionInfo) : Prop where
  readable : config.readPayload entry.record.payload = .ok entry.record.payload
  formed : entry.record.WellFormed
  same : SameCompletion entry.record.completion detailed
  sql : row.toStoredFields = .ofRecord { inSeconds entry.record lease with completion := detailed }
  red : hash.toStoredFields = .ofRecord (inSeconds entry.record lease)

inductive RelatedAt (config : StoreConfig) : Option InMemoryEntry → Option SqliteRow → Option RedisHash → Prop
  | absent : RelatedAt config none none none
  | present {entry row hash} (lease : Int) (detailed : Option CompletionInfo) :
      Kept config entry row hash lease detailed → RelatedAt config (some entry) (some row) (some hash)

def Related (config : StoreConfig) (s : Trio) : Prop :=
  ∀ id, RelatedAt config (s.mem.lookup id) (s.sql.lookup id) (s.red.lookup id)

variable {config : StoreConfig}

theorem Related.insert {s : Trio} {id : String} {entry : InMemoryEntry} {row : SqliteRow} {hash : RedisHash}
    (related : Related config s) (here : RelatedAt config (some entry) (some row) (some hash)) :
    Related config ⟨s.mem.insert id entry, s.sql.insert id row, s.red.insert id hash⟩ := by
  intro other
  by_cases same : other = id
  · subst other
    simpa only [AList.lookup_insert] using here
  · simpa only [AList.lookup_insert_ne same] using related other

theorem wellFormed_inSeconds {r : ApprovalRecord} (formed : r.WellFormed) (lease : Int) :
    (inSeconds r lease).WellFormed := by
  refine ⟨?_, ?_, formed.completed⟩
  · intro pending
    obtain ⟨unclaimed, unmarked⟩ := formed.unclaimed pending
    exact ⟨by simp [inSeconds, unclaimed], unmarked⟩
  · intro claimed
    have present := formed.claimed claimed
    simpa [inSeconds] using present

theorem find_of_lookup {db : RedisDb} {id : String} {hash : RedisHash} (now : Clock)
    (stored : db.lookup id = some hash) :
    Redis.find db id now = if now.redisMillis ≤ hash.expireAtMillis then some hash else none := by
  rw [Redis.find, stored, Option.filter_some]
  simp

theorem find_kept {db : RedisDb} {id : String} {now : Clock} {hash : RedisHash}
    (stored : db.lookup id = some hash) (kept : (Redis.find db id now).isSome) :
    Redis.find db id now = some hash := by
  obtain ⟨found, present⟩ := Option.isSome_iff_exists.mp kept
  obtain rfl : hash = found := Option.some.inj (stored.symm.trans (Redis.lookup_of_find present))
  exact present

section Kept
variable {entry : InMemoryEntry} {row : SqliteRow} {hash : RedisHash} {lease : Int}
  {detailed : Option CompletionInfo}

theorem Kept.sqlPayload (kept : Kept config entry row hash lease detailed) : row.payload = entry.record.payload :=
  congrArg StoredFields.payload kept.sql

theorem Kept.redPayload (kept : Kept config entry row hash lease detailed) : hash.payload = entry.record.payload :=
  congrArg StoredFields.payload kept.red

theorem Kept.sqlState (kept : Kept config entry row hash lease detailed) :
    ApprovalState.fromDbStr row.state = some entry.record.state := by
  rw [kept.sql]
  exact ApprovalState.fromDbStr_asStr entry.record.state

theorem Kept.redState (kept : Kept config entry row hash lease detailed) :
    ApprovalState.fromDbStr hash.state = some entry.record.state := by
  rw [kept.red]
  exact ApprovalState.fromDbStr_asStr entry.record.state

theorem Kept.sqlMarked (kept : Kept config entry row hash lease detailed) :
    row.terminalOutcomeKind.isSome = entry.record.outcomeMarker.isSome := by
  rw [kept.sql]
  simp [StoredFields.ofRecord, inSeconds]

theorem Kept.redMarked (kept : Kept config entry row hash lease detailed) :
    hash.terminalOutcomeKind.isSome = entry.record.outcomeMarker.isSome := by
  rw [kept.red]
  simp [StoredFields.ofRecord, inSeconds]

theorem Kept.sqlToken (kept : Kept config entry row hash lease detailed) :
    row.claimToken = entry.record.claim.map ClaimInfo.claimToken := by
  rw [kept.sql]
  simp [StoredFields.ofRecord, inSeconds, Function.comp_def]

theorem Kept.sqlExpiry (kept : Kept config entry row hash lease detailed) :
    row.claimExpiresAtUnix = entry.record.claim.map fun _ => lease := by
  rw [kept.sql]
  simp [StoredFields.ofRecord, inSeconds, Function.comp_def]

theorem Kept.luaClaim (kept : Kept config entry row hash lease detailed) (id : String) (now : Int) :
    Redis.luaClaim hash id now = validateClaimTransition entry.record.state entry.record.outcomeMarker.isSome
      (entry.record.claim.map fun _ => lease) now id := by
  rw [Redis.luaClaim_eq id now kept.red (wellFormed_inSeconds kept.formed lease)]
  simp [inSeconds, Function.comp_def]

theorem Kept.luaRequireClaimed (kept : Kept config entry row hash lease detailed) (id token : String) :
    Redis.luaRequireClaimed hash id token = requireClaimedWithToken entry.record.state
      (entry.record.claim.map ClaimInfo.claimToken) token id := by
  rw [Redis.luaRequireClaimed_eq id token kept.red]
  simp [inSeconds, Function.comp_def]

end Kept

theorem create_alike {s : Trio} {now : Clock} {p : PendingApproval} (related : Related config s)
    (guard : Guard config s ⟨now, .createPending p⟩) :
    Related config ((machine config).step s ⟨now, .createPending p⟩).1 ∧
      ((machine config).step s ⟨now, .createPending p⟩).2.Alike := by
  obtain ⟨readable, kept⟩ := guard
  have here := related p.approvalId
  cases m : s.mem.lookup p.approvalId with
  | none =>
    rw [m] at here
    generalize q : s.sql.lookup p.approvalId = row at here
    generalize h : s.red.lookup p.approvalId = hash at here
    cases here
    have gone : Redis.find s.red p.approvalId now = none := by simp [Redis.find, h]
    simp only [machine, InMemory.step, InMemory.create, Sqlite.step, Sqlite.create, Redis.step, Redis.create,
      ApprovalRecord.newPending, m, q, gone]
    refine ⟨related.insert (.present 0 none ⟨readable, ?_, .none, rfl, rfl⟩), rfl, rfl⟩
    exact ⟨fun _ => ⟨rfl, rfl⟩, by simp, by simp [ApprovalState.isTerminal]⟩
  | some entry =>
    have alive := kept (by simp [m])
    rw [m] at here
    generalize q : s.sql.lookup p.approvalId = row at here
    generalize h : s.red.lookup p.approvalId = hash at here
    cases here
    have found := find_kept h alive
    simp only [machine, InMemory.step, InMemory.create, Sqlite.step, Sqlite.create, Redis.step, Redis.create,
      ApprovalRecord.newPending, m, q, found]
    exact ⟨related, rfl, rfl⟩

/-- The rows of an approval that the backends keep, with what relates them. -/
theorem Related.rows {s : Trio} {id : String} {entry : InMemoryEntry} (related : Related config s)
    (stored : s.mem.lookup id = some entry) :
    ∃ row hash lease detailed, s.sql.lookup id = some row ∧ s.red.lookup id = some hash ∧
      Kept config entry row hash lease detailed := by
  have here := related id
  rw [stored] at here
  generalize q : s.sql.lookup id = row at here
  generalize h : s.red.lookup id = hash at here
  cases here with
  | present lease detailed kept => exact ⟨_, _, lease, detailed, rfl, rfl, kept⟩

theorem Related.absent {s : Trio} {id : String} (related : Related config s) (missing : s.mem.lookup id = none) :
    s.sql.lookup id = none ∧ s.red.lookup id = none := by
  have here := related id
  rw [missing] at here
  generalize q : s.sql.lookup id = row at here
  generalize h : s.red.lookup id = hash at here
  cases here
  exact ⟨rfl, rfl⟩

theorem getPending_alike {s : Trio} {now : Clock} {id : String} (related : Related config s)
    (guard : Guard config s ⟨now, .getPending id⟩) :
    ((machine config).step s ⟨now, .getPending id⟩).2.Alike := by
  cases m : s.mem.lookup id with
  | none =>
    obtain ⟨q, h⟩ := related.absent m
    have gone : Redis.find s.red id now = none := by simp [Redis.find, h]
    simp only [machine, InMemory.step, InMemory.getPending, Sqlite.step, Sqlite.getPending, Redis.step,
      Redis.getPending, m, q, gone]
    exact ⟨rfl, rfl⟩
  | some entry =>
    obtain ⟨row, hash, lease, detailed, q, h, kept⟩ := related.rows m
    obtain ⟨sqlTest, redTest⟩ := guard entry row hash m q h
    have found := find_of_lookup now h
    by_cases fresh : InMemory.elapsed entry now < config.defaultTtl
    · obtain ⟨pending, unexpired⟩ := sqlTest.mp fresh
      obtain ⟨redPending, alive⟩ := redTest.mp fresh
      simp only [machine, InMemory.step, InMemory.getPending, Sqlite.step, Sqlite.getPending, Redis.step,
        Redis.getPending, m, q, found, kept.sqlPayload, kept.redPayload, kept.readable, pending, unexpired, redPending, alive,
        ge_iff_le, not_le.mpr fresh, if_true, if_false, and_self, ne_eq, not_true_eq_false]
      exact ⟨rfl, rfl⟩
    · have stale : ¬(row.state = "pending" ∧ row.expiresAtUnix > now.utc.timestamp) := fun test => fresh (sqlTest.mpr test)
      have gone : ¬(hash.state = "pending" ∧ now.redisMillis ≤ hash.expireAtMillis) := fun test => fresh (redTest.mpr test)
      have redAnswer : Redis.getPending config s.red id now = .ok none := by
        unfold Redis.getPending
        rw [found]
        by_cases alive : now.redisMillis ≤ hash.expireAtMillis
        · have state : hash.state ≠ "pending" := fun pending => gone ⟨pending, alive⟩
          simp [alive, state]
        · simp [alive]
      simp only [machine, InMemory.step, InMemory.getPending, Sqlite.step, Sqlite.getPending, Redis.step, m, q,
        redAnswer, stale, ge_iff_le, not_lt.mp fresh, if_true, if_false]
      exact ⟨rfl, rfl⟩

/-- The transition check depends on the clock only through the test of the lease. -/
theorem validateClaimTransition_congr {state : ApprovalState} {marked : Bool} {a b : Option Int} {m n : Int}
    (id : String) (lease : state = .claimed → marked = false → a.map (fun e => decide (m < e)) = b.map fun e => decide (n < e)) :
    validateClaimTransition state marked a m id = validateClaimTransition state marked b n id := by
  cases state with
  | claimed =>
    cases marked with
    | true => rfl
    | false =>
      have tests := lease rfl rfl
      cases a <;> cases b <;> simp_all [validateClaimTransition]
  | pending => rfl
  | approved => rfl
  | denied => rfl
  | failed => rfl

theorem claim_alike {s : Trio} {now : Clock} {id operator token : String} (related : Related config s)
    (guard : Guard config s ⟨now, .claimPending id operator token⟩) :
    Related config ((machine config).step s ⟨now, .claimPending id operator token⟩).1 ∧
      ((machine config).step s ⟨now, .claimPending id operator token⟩).2.Alike := by
  cases m : s.mem.lookup id with
  | none =>
    obtain ⟨q, h⟩ := related.absent m
    have gone : Redis.find s.red id now = none := by simp [Redis.find, h]
    simp only [machine, InMemory.step, InMemory.claim, Sqlite.step, Sqlite.claim, Redis.step, Redis.claim, m, q, gone]
    exact ⟨related, rfl, rfl⟩
  | some entry =>
    obtain ⟨row, hash, lease, detailed, q, h, kept⟩ := related.rows m
    obtain ⟨sqlTest, redTest, leaseTest⟩ := guard entry row hash m q h
    have found := find_of_lookup now h
    by_cases hidden : InMemory.elapsed entry now ≥ config.defaultTtl ∧ entry.record.state.isTerminal = false
    · have stale : ¬row.expiresAtUnix > now.utc.timestamp - max (config.ttlSecs : Int) 0 :=
        fun test => sqlTest.mpr test hidden
      have gone : ¬now.redisMillis ≤ hash.expireAtMillis := fun test => redTest.mpr test hidden
      simp only [machine, InMemory.step, InMemory.claim, Sqlite.step, Sqlite.claim, Redis.step, Redis.claim, m, q,
        found, hidden, stale, gone, if_true, if_false, and_self]
      exact ⟨related, rfl, rfl⟩
    · have visible := sqlTest.mp hidden
      have alive := redTest.mp hidden
      have check : validateClaimTransition entry.record.state entry.record.outcomeMarker.isSome
          (entry.record.claim.map fun _ => lease) now.utc.timestamp id =
          validateClaimTransition entry.record.state entry.record.outcomeMarker.isSome
            (entry.record.claim.map ClaimInfo.claimExpiresAtUnix) now.utc.timestampMillis id := by
        refine validateClaimTransition_congr id fun claimed unmarked => ?_
        cases holder : entry.record.claim with
        | none => rfl
        | some claim =>
          have same := leaseTest hidden claimed (by simpa using unmarked) claim holder lease (by rw [kept.sqlExpiry, holder]; rfl)
          simp [same]
      simp only [machine, InMemory.step, InMemory.claim, Sqlite.step, Sqlite.claim, Redis.step, Redis.claim, m, q,
        found, hidden, visible, alive, if_true, if_false, kept.sqlState, kept.sqlMarked, kept.sqlExpiry,
        kept.luaClaim, check]
      cases valid : validateClaimTransition entry.record.state entry.record.outcomeMarker.isSome
          (entry.record.claim.map ClaimInfo.claimExpiresAtUnix) now.utc.timestampMillis id with
      | error e => exact ⟨related, rfl, rfl⟩
      | ok =>
        have step : RecordStep (InMemory.traits config) id ⟨now, .claimPending id operator token⟩ (.done (.ok ()))
            (some entry.record) (some (InMemory.claimedEntry config entry operator token now).record) :=
          .claim rfl (claimable_of_valid valid)
        have formed := step.wellFormed (fun r same => by cases same; exact kept.formed) _ rfl
        simp only [kept.sqlPayload, kept.redPayload, kept.readable]
        refine ⟨related.insert (.present (now.utc.timestamp + config.claimTtlSecs) detailed
          ⟨kept.readable, formed, kept.same, ?_, ?_⟩), rfl, rfl⟩
        · rw [Sqlite.claimedRow, kept.sql]
          rfl
        · rw [Redis.claimedHash, kept.red]
          rfl

theorem writeOutcome_alike {s : Trio} {now : Clock} {id token kind detail : String} (related : Related config s)
    (guard : Guard config s ⟨now, .writeOutcomeMarker id token kind detail⟩) :
    Related config ((machine config).step s ⟨now, .writeOutcomeMarker id token kind detail⟩).1 ∧
      ((machine config).step s ⟨now, .writeOutcomeMarker id token kind detail⟩).2.Alike := by
  cases m : s.mem.lookup id with
  | none =>
    obtain ⟨q, h⟩ := related.absent m
    have gone : Redis.find s.red id now = none := by simp [Redis.find, h]
    simp only [machine, InMemory.step, InMemory.writeOutcome, Sqlite.step, Sqlite.writeOutcome, Redis.step,
      Redis.writeOutcome, m, q, gone]
    exact ⟨related, rfl, rfl⟩
  | some entry =>
    obtain ⟨row, hash, lease, detailed, q, h, kept⟩ := related.rows m
    have found := find_kept h (guard (by simp [m]))
    simp only [machine, InMemory.step, InMemory.writeOutcome, Sqlite.step, Sqlite.writeOutcome, Redis.step,
      Redis.writeOutcome, m, q, found, kept.sqlMarked, kept.redMarked, kept.sqlState, kept.sqlToken,
      kept.luaRequireClaimed]
    by_cases marked : entry.record.outcomeMarker.isSome
    · simp only [marked, if_true]
      exact ⟨related, rfl, rfl⟩
    simp only [marked, Bool.false_eq_true, if_false]
    cases valid : requireClaimedWithToken entry.record.state (entry.record.claim.map ClaimInfo.claimToken) token id with
    | error e => exact ⟨related, rfl, rfl⟩
    | ok =>
      obtain ⟨claimed, holder⟩ := requireClaimedWithToken_ok.1 valid
      have step : RecordStep (InMemory.traits config) id ⟨now, .writeOutcomeMarker id token kind detail⟩
          (.done (.ok ())) (some entry.record) (some (InMemory.markedEntry entry kind detail now).record) :=
        .mark rfl claimed (by simpa using marked) holder rfl
      have formed := step.wellFormed (fun r same => by cases same; exact kept.formed) _ rfl
      refine ⟨related.insert (.present lease detailed ⟨kept.readable, formed, kept.same, ?_, ?_⟩), rfl, rfl⟩
      · rw [Sqlite.markedRow, kept.sql]
        rfl
      · rw [Redis.markedHash, kept.red]
        rfl

theorem complete_alike {s : Trio} {now : Clock} {kind : TerminalKind} {id token traceId detail : String}
    (related : Related config s) (guard : Guard config s ⟨now, .complete kind id token traceId detail⟩) :
    Related config ((machine config).step s ⟨now, .complete kind id token traceId detail⟩).1 ∧
      ((machine config).step s ⟨now, .complete kind id token traceId detail⟩).2.Alike := by
  cases m : s.mem.lookup id with
  | none =>
    obtain ⟨q, h⟩ := related.absent m
    have gone : Redis.find s.red id now = none := by simp [Redis.find, h]
    simp only [machine, InMemory.step, InMemory.complete, Sqlite.step, Sqlite.complete, Redis.step, Redis.complete,
      m, q, gone]
    exact ⟨related, rfl, rfl⟩
  | some entry =>
    obtain ⟨row, hash, lease, detailed, q, h, kept⟩ := related.rows m
    have found := find_kept h (guard (by simp [m]))
    simp only [machine, InMemory.step, InMemory.complete, Sqlite.step, Sqlite.complete, Redis.step, Redis.complete,
      m, q, found, kept.sqlState, kept.sqlToken, kept.luaRequireClaimed]
    cases valid : requireClaimedWithToken entry.record.state (entry.record.claim.map ClaimInfo.claimToken) token id with
    | error e => exact ⟨related, rfl, rfl⟩
    | ok =>
      obtain ⟨claimed, holder⟩ := requireClaimedWithToken_ok.1 valid
      have incomplete : (inSeconds entry.record lease).completion = none := kept.formed.incomplete claimed
      have plain : detailed = none := by
        have same := kept.same
        rw [kept.formed.incomplete claimed] at same
        cases same
        rfl
      have key : kind.detailKey ≠ "" := by cases kind <;> decide
      have stored : (if kind.detailKey ≠ "" ∧ detail ≠ "" then some detail else none) =
          if detail = "" then none else some detail := by
        by_cases empty : detail = "" <;> simp [key, empty]
      have step : RecordStep (InMemory.traits config) id ⟨now, .complete kind id token traceId detail⟩
          (.done (.ok ())) (some entry.record)
          (some (InMemory.completedEntry entry kind.state traceId kind.detailKey detail now).record) := by
        rw [InMemory.completedEntry, buildCompletionInfo_eq]
        exact .complete rfl claimed holder rfl (by split_ifs with empty <;> simp [empty])
      have formed := step.wellFormed (fun r same => by cases same; exact kept.formed) _ rfl
      refine ⟨related.insert (.present lease (some (kind.completion now.utc.rfc3339 traceId (some detail)))
        ⟨kept.readable, formed, ?_, ?_, ?_⟩), rfl, rfl⟩
      · simp only [InMemory.completedEntry, buildCompletionInfo_eq]
        exact .some kind now.utc.rfc3339 traceId detail
      · rw [Sqlite.completedRow, kept.sql, StoredFields.ofRecord_setCompletion plain]
        rfl
      · rw [Redis.completedHash, kept.red, stored, StoredFields.ofRecord_setCompletion incomplete]
        simp only [InMemory.completedEntry, buildCompletionInfo_eq]
        rfl

/-- A status does not show when the lease ends. -/
theorem toStatus_inSeconds (r : ApprovalRecord) (lease : Int) : (inSeconds r lease).toStatus = r.toStatus := by
  obtain ⟨state, payload, claim, marker, completion⟩ := r
  cases claim <;> rfl

/-- A status does not show the token, which the Redis backend leaves out. -/
theorem toStatus_recordFromHash (r : ApprovalRecord) :
    (Redis.recordFromHash r.state r.payload (.ofRecord r)).toStatus = r.toStatus := by
  obtain ⟨state, payload, claim, marker, completion⟩ := r
  cases claim <;> cases marker <;> cases completion <;> rfl

theorem toStatus_detailed {r : ApprovalRecord} {detailed : Option CompletionInfo}
    (same : SameCompletion r.completion detailed)
    (marked : EmptyDetailMarked (.ofRecord { r with completion := detailed })) :
    ({ r with completion := detailed } : ApprovalRecord).toStatus = r.toStatus := by
  obtain ⟨state, payload, claim, marker, completion⟩ := r
  cases same with
  | none => rfl
  | some kind completedAt traceId detail =>
    by_cases empty : detail = ""
    · subst detail
      have mark := marked kind (by cases kind <;> rfl)
      cases marker with
      | none => simp [StoredFields.ofRecord] at mark
      | some marker =>
        obtain ⟨markerKind, markerAt, markerDetail⟩ := marker
        simp only [StoredFields.ofRecord, Option.map_some, Option.some.injEq] at mark
        obtain ⟨rfl, rfl⟩ := mark
        cases kind <;> rfl
    · simp [empty]

theorem getStatus_alike {s : Trio} {now : Clock} {id : String} (related : Related config s)
    (guard : Guard config s ⟨now, .getStatus id⟩) :
    ((machine config).step s ⟨now, .getStatus id⟩).2.Alike := by
  obtain ⟨alive, details⟩ := guard
  cases m : s.mem.lookup id with
  | none =>
    obtain ⟨q, h⟩ := related.absent m
    have gone : Redis.find s.red id now = none := by simp [Redis.find, h]
    simp only [machine, InMemory.step, InMemory.getRecord, Sqlite.step, Sqlite.getRecord, Redis.step,
      Redis.getRecord, m, q, gone]
    exact ⟨rfl, rfl⟩
  | some entry =>
    obtain ⟨row, hash, lease, detailed, q, h, kept⟩ := related.rows m
    have found := find_kept h (alive (by simp [m]))
    have marked := details row q
    rw [kept.sql] at marked
    have sqlStatus : (Sqlite.recordFromRow entry.record.state entry.record.payload row.toStoredFields).toStatus =
        entry.record.toStatus := by
      rw [kept.sql]
      calc (Sqlite.recordFromRow entry.record.state entry.record.payload
            (.ofRecord { inSeconds entry.record lease with completion := detailed })).toStatus
          = ({ inSeconds entry.record lease with completion := detailed } : ApprovalRecord).toStatus :=
            congrArg _ (StoredFields.recordFromRow_ofRecord
              { inSeconds entry.record lease with completion := detailed } entry.record.payload)
        _ = (inSeconds entry.record lease).toStatus := toStatus_detailed kept.same marked
        _ = entry.record.toStatus := toStatus_inSeconds entry.record lease
    have redStatus : (Redis.recordFromHash entry.record.state entry.record.payload hash.toStoredFields).toStatus =
        entry.record.toStatus := by
      rw [kept.red]
      exact (toStatus_recordFromHash (inSeconds entry.record lease)).trans (toStatus_inSeconds entry.record lease)
    simp only [machine, InMemory.step, InMemory.getRecord, Sqlite.step, Sqlite.getRecord, Redis.step,
      Redis.getRecord, m, q, found, kept.sqlState, kept.redState, kept.sqlPayload, kept.redPayload, kept.readable]
    exact ⟨by simp [Except.map, sqlStatus], by simp [Except.map, redStatus]⟩

theorem step_alike {s : Trio} {call : ApprovalCall} (guard : Guard config s call) (related : Related config s) :
    Related config ((machine config).step s call).1 ∧
      AlikeOn call ((machine config).step s call).2 := by
  obtain ⟨now, op⟩ := call
  cases op with
  | createPending p => exact (create_alike related guard).imp_right fun alike _ => alike
  | getPending id => exact ⟨related, fun _ => getPending_alike related guard⟩
  | getStatus id => exact ⟨related, fun _ => getStatus_alike related guard⟩
  | listApprovals filter limit => exact ⟨related, fun targeted => absurd rfl targeted⟩
  | claimPending id operator token => exact (claim_alike related guard).imp_right fun alike _ => alike
  | writeOutcomeMarker id token kind detail => exact (writeOutcome_alike related guard).imp_right fun alike _ => alike
  | complete kind id token traceId detail => exact (complete_alike related guard).imp_right fun alike _ => alike

/-- In every run from empty stores whose calls meet the guard, the three
backends give the same answer to every call about an approval. -/
theorem answers_alike (config : StoreConfig) (calls : List ApprovalCall)
    (meets : (machine config).Meets (Guard config) start calls) :
    ∀ entry ∈ (machine config).trace start calls, AlikeOn entry.1 entry.2 := by
  have empty : Related config start := fun _ => .absent
  have preserved : ∀ s call, Guard config s call → Related config s → Related config ((machine config).step s call).1 :=
    fun s call guard related => (step_alike guard related).1
  have alike : ∀ s call, Guard config s call → Related config s →
      AlikeOn call ((machine config).step s call).2 :=
    fun s call guard related => (step_alike guard related).2
  exact (meets.trace_all preserved alike empty).2

theorem answers_alike_claimedRun :
    (machine defaultConfig).Meets (Guard defaultConfig) start claimedRun ∧
      ∀ entry ∈ (machine defaultConfig).trace start claimedRun, AlikeOn entry.1 entry.2 := by
  have meets : (machine defaultConfig).Meets (Guard defaultConfig) start claimedRun := by
    refine ⟨⟨rfl, fun stored => absurd rfl stored⟩, ?_, trivial⟩
    intro entry row hash m q h
    cases m
    cases q
    cases h
    exact ⟨by decide, by decide, by decide⟩
  exact ⟨meets, answers_alike defaultConfig claimedRun meets⟩

/-- The in-memory backend goes on handing out the payload of a claimed
approval; the others do not. -/
theorem getPending_of_claimed_differs :
    ∃ entry ∈ (machine defaultConfig).trace start
        (claimedRun ++ [⟨.atSecond 2 "1970-01-01T00:00:02+00:00", .getPending "a1"⟩]),
      ¬AlikeOn entry.1 entry.2 := by
  refine ⟨_, .tail _ (.tail _ (.head _)), fun alike => ?_⟩
  obtain ⟨sql, -⟩ := alike (by simp [ApprovalOp.target])
  cases sql

end Trio
end Latchgate
