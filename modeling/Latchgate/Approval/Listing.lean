import Latchgate.Approval.Backend

namespace Latchgate
namespace ApprovalBackend
variable (config : StoreConfig)

/-- An approval that was not decided within its lifetime. A key that has
expired in Redis is not there to be read. -/
def Expired (b : ApprovalBackend) (id : String) (now : Clock) : Prop :=
  match b with
  | inMemory map => ∃ entry, map.lookup id = some entry ∧
      InMemory.elapsed entry now ≥ config.defaultTtl ∧ entry.record.effectiveState.isTerminal = false
  | sqlite db => ∃ row r, db.lookup id = some row ∧ row.expiresAtUnix ≤ now.utc.timestamp ∧
      row.toStoredFields = .ofRecord r ∧ r.effectiveState.isTerminal = false
  | redis db => Redis.find db id now = none

/-- The results a listing can have, with the number of entries it goes
through. The hash map and the table yield their entries in any order; a scan
meets every key that is there, some perhaps more than once. -/
inductive Lists (now : Clock) (filter : Option ApprovalState) (limit : Nat) :
    ApprovalBackend → Nat → List ApprovalSummary → Prop
  | inMemory {map : InMemoryMap} {order} : order.Perm map.entries →
      Lists now filter limit (.inMemory map) order.length
        (InMemory.listEntries config order filter (min limit listCap) now)
  | sqlite {db : SqliteDb} {order} : order.Perm db.entries →
      Lists now filter limit (.sqlite db) order.length (Sqlite.listRows config order filter (min limit listCap))
  | redis {db : RedisDb} {batches} :
      (∀ id, (Redis.find db id now).isSome → id ∈ (batches.take Redis.maxScanIterations).flatten) →
      Lists now filter limit (.redis db) (batches.take Redis.maxScanIterations).flatten.length
        (Redis.list config db batches filter (min limit listCap) now)

/-- A listing under a state filter that agrees with the statuses: everything in
it is an unexpired approval in that state, reported as such, and unless it was
cut at the limit every such approval is in it. -/
structure ListExact (b : ApprovalBackend) (now : Clock) (s : ApprovalState) (limit count : Nat)
    (result : List ApprovalSummary) : Prop where
  sound : ∀ summary ∈ result, ∃ r, b.getRecord config summary.approvalId now = .ok (some r) ∧
    ¬b.Expired config summary.approvalId now ∧ r.effectiveState = s ∧ summary.state = r.toStatus.state
  complete : count ≤ min limit listCap → ∀ id r, b.getRecord config id now = .ok (some r) →
    ¬b.Expired config id now → r.effectiveState = s → ∃ summary ∈ result, summary.approvalId = id

/-- A known outcome has been marked, but the state has not been advanced to it. -/
def AwaitsCompletion (r : ApprovalRecord) : Prop :=
  r.state = .claimed ∧ ∃ marker, r.outcomeMarker = some marker ∧ marker.kind ∈ ["approved", "denied", "failed"]

/-- No approval is between its marker and its completion, and in SQLite none
has outlived its time undecided. -/
def Clean (b : ApprovalBackend) (now : Clock) : Prop :=
  ∀ id r, b.getRecord config id now = .ok (some r) →
    match b with
    | inMemory _ => True
    | sqlite db => ¬AwaitsCompletion r ∧
        ∀ row, db.lookup id = some row → row.expiresAtUnix ≤ now.utc.timestamp → r.state.isTerminal
    | redis _ => ¬AwaitsCompletion r

variable {config}

theorem effectiveState_eq_state {r : ApprovalRecord} (advanced : ¬AwaitsCompletion r) :
    r.effectiveState = r.state := by
  unfold ApprovalRecord.effectiveState
  split_ifs with claimed
  · cases marker : r.outcomeMarker with
    | none => rfl
    | some m =>
      have unknown : m.kind ∉ ["approved", "denied", "failed"] := fun known => advanced ⟨claimed, m, marker, known⟩
      simp only [List.mem_cons, List.not_mem_nil, or_false, not_or] at unknown
      simp [unknown]
  · rfl

theorem mem_sortByCreatedAt_take {summary : ApprovalSummary} {all : List ApprovalSummary} {n : Nat} :
    summary ∈ (sortByCreatedAt all).take n → summary ∈ all := by
  intro member
  exact (List.mem_insertionSort _).mp (List.mem_of_mem_take member)

theorem sortByCreatedAt_take_of_le {summary : ApprovalSummary} {all : List ApprovalSummary} {n : Nat}
    (short : all.length ≤ n) (member : summary ∈ all) : summary ∈ (sortByCreatedAt all).take n := by
  rw [List.take_of_length_le (by simpa [sortByCreatedAt] using short)]
  exact (List.mem_insertionSort _).mpr member

theorem inMemory_summarize {s : ApprovalState} {now : Clock} {entry : InMemoryEntry} {summary : ApprovalSummary} :
    InMemory.summarize config (some s) now entry = some summary ↔
      ¬(entry.record.effectiveState.isTerminal = false ∧ InMemory.elapsed entry now ≥ config.defaultTtl) ∧
        entry.record.effectiveState = s ∧ summary = entry.record.toSummary := by
  have state : entry.record.toSummary.state = entry.record.effectiveState := rfl
  simp only [InMemory.summarize, state]
  split_ifs with lapsed other
  · simp [lapsed]
  · simp [other]
  · constructor
    · rintro ⟨⟩
      exact ⟨lapsed, not_not.mp other, rfl⟩
    · rintro ⟨-, -, rfl⟩
      rfl

theorem inMemory_list_exact {map : InMemoryMap} {now : Clock} {s : ApprovalState} {limit : Nat}
    {order : List (Sigma fun _ : String => InMemoryEntry)} (sound : (inMemory map).Sound)
    (enumerates : order.Perm map.entries) :
    ListExact config (inMemory map) now s limit order.length
      (InMemory.listEntries config order (some s) (min limit listCap) now) := by
  constructor
  · intro summary member
    obtain ⟨⟨id, entry⟩, inside, kept⟩ := List.mem_filterMap.mp (mem_sortByCreatedAt_take member)
    have stored : map.lookup id = some entry := AList.mem_lookup_iff.mpr (enumerates.mem_iff.mp inside)
    have found := InMemory.getRecord_of_lookup stored
    have named : entry.record.toSummary.approvalId = id := (sound id entry.record found).2
    obtain ⟨fresh, effective, rfl⟩ := inMemory_summarize.1 kept
    rw [named]
    refine ⟨entry.record, congrArg Except.ok found, ?_, effective, rfl⟩
    rintro ⟨entry', again, old, undecided⟩
    obtain rfl : entry = entry' := Option.some.inj (stored.symm.trans again)
    exact fresh ⟨undecided, old⟩
  · intro short id r read fresh effective
    obtain ⟨entry, stored, rfl⟩ := Option.map_eq_some_iff.mp (Except.ok.inj read)
    have inside : ⟨id, entry⟩ ∈ order := enumerates.mem_iff.mpr (AList.mem_lookup_iff.mp stored)
    refine ⟨entry.record.toSummary, ?_, (sound id entry.record (InMemory.getRecord_of_lookup stored)).2⟩
    refine sortByCreatedAt_take_of_le (le_trans (List.length_filterMap_le _ _) short) ?_
    refine List.mem_filterMap.mpr ⟨⟨id, entry⟩, inside, inMemory_summarize.2 ⟨?_, effective, rfl⟩⟩
    exact fun lapsed => fresh ⟨entry, stored, lapsed.2, lapsed.1⟩

/-- Reading a payload back keeps its id. -/
theorem readPayload_approvalId {payload read : PendingApproval}
    (thawed : config.readPayload payload = .ok read) : read.approvalId = payload.approvalId := by
  unfold StoreConfig.readPayload at thawed
  split at thawed
  · rename_i pending ok
    cases thawed
    obtain ⟨_, _, _, _, _, _, _, _, rfl⟩ := PendingApproval.thaw_eq_ok ok
    rfl
  · cases thawed

/-- A row of SQLite that can be listed can be read, and the listing shows the
state of the column. -/
theorem sqlite_summarize {db : SqliteDb} (now : Clock) {id : String} {row : SqliteRow} {summary : ApprovalSummary}
    (sound : (sqlite db).Sound) (stored : db.lookup id = some row)
    (kept : Sqlite.summarize config row = some summary) :
    ∃ r, (sqlite db).getRecord config id now = .ok (some r) ∧ row.state = r.state.asStr ∧
      summary.approvalId = id ∧ summary.state = r.state := by
  obtain ⟨fields, createdAt, expires⟩ := row
  obtain ⟨r, rfl, formed, named⟩ := sound id _ stored
  simp only [Sqlite.summarize, Sqlite.state_ofRecord] at kept
  split at kept
  · rename_i state payload known read
    cases known
    cases kept
    refine ⟨{ r with payload }, ?_, rfl, (readPayload_approvalId read).trans named, rfl⟩
    simp only [getRecord, Sqlite.getRecord, stored, Sqlite.state_ofRecord, read,
      StoredFields.recordFromRow_ofRecord]
  · cases kept

theorem sqlite_getRecord {db : SqliteDb} {now : Clock} {id : String} {r : ApprovalRecord} (sound : (sqlite db).Sound)
    (read : (sqlite db).getRecord config id now = .ok (some r)) :
    ∃ row summary, db.lookup id = some row ∧ row.state = r.state.asStr ∧
      Sqlite.summarize config row = some summary ∧ summary.approvalId = id := by
  cases stored : db.lookup id with
  | none => simp [getRecord, Sqlite.getRecord, stored] at read
  | some row =>
    obtain ⟨fields, createdAt, expires⟩ := row
    obtain ⟨s, rfl, formed, named⟩ := sound id _ stored
    simp only [getRecord, Sqlite.getRecord, stored, Sqlite.state_ofRecord] at read
    split at read
    · rename_i payload thawed
      rw [StoredFields.recordFromRow_ofRecord] at read
      cases read
      refine ⟨_, _, rfl, rfl, by simp only [Sqlite.summarize, Sqlite.state_ofRecord, thawed]; rfl, ?_⟩
      exact (readPayload_approvalId thawed).trans named
    · cases read

/-- In a clean table the approvals that can be read are fresh and show the
state they are in. -/
theorem Clean.sqlite {db : SqliteDb} {now : Clock} {id : String} {r : ApprovalRecord}
    (clean : (sqlite db).Clean config now) (sound : (sqlite db).Sound)
    (read : (sqlite db).getRecord config id now = .ok (some r)) :
    r.effectiveState = r.state ∧ ¬(ApprovalBackend.sqlite db).Expired config id now := by
  obtain ⟨advanced, decided⟩ := clean id r read
  have effective := effectiveState_eq_state advanced
  refine ⟨effective, ?_⟩
  rintro ⟨row, t, stored, old, holds, undecided⟩
  obtain ⟨u, found, state, marker, -⟩ := getRecord_view sound read
  obtain rfl : t = u := Option.some.inj ((Table.view_of_lookup stored holds).symm.trans found)
  have same : t.effectiveState = r.effectiveState := by
    simp only [ApprovalRecord.effectiveState, state, marker]
  rw [same, effective, decided row stored old] at undecided
  cases undecided

theorem sqlite_list_exact {db : SqliteDb} {now : Clock} {s : ApprovalState} {limit : Nat}
    {order : List (Sigma fun _ : String => SqliteRow)} (sound : (sqlite db).Sound)
    (clean : (sqlite db).Clean config now) (enumerates : order.Perm db.entries) :
    ListExact config (sqlite db) now s limit order.length
      (Sqlite.listRows config order (some s) (min limit listCap)) := by
  constructor
  · intro summary member
    obtain ⟨⟨id, row⟩, taken, kept⟩ := List.mem_filterMap.mp member
    obtain ⟨inside, selected⟩ := List.mem_filter.mp ((List.mem_insertionSort _).mp (List.mem_of_mem_take taken))
    have stored : db.lookup id = some row := AList.mem_lookup_iff.mpr (enumerates.mem_iff.mp inside)
    obtain ⟨r, read, column, named, shown⟩ := sqlite_summarize now sound stored kept
    obtain ⟨effective, fresh⟩ := clean.sqlite sound read
    have state : r.state = s := ApprovalState.asStr_injective (column.symm.trans (by simpa using selected))
    rw [named]
    exact ⟨r, read, fresh, effective.trans state, shown.trans effective.symm⟩
  · intro short id r read fresh effective
    obtain ⟨row, summary, stored, column, kept, named⟩ := sqlite_getRecord sound read
    have state : r.state = s := (clean.sqlite sound read).1.symm.trans effective
    have inside : ⟨id, row⟩ ∈ order := enumerates.mem_iff.mpr (AList.mem_lookup_iff.mp stored)
    refine ⟨summary, List.mem_filterMap.mpr ⟨⟨id, row⟩, ?_, kept⟩, named⟩
    rw [List.take_of_length_le]
    · exact (List.mem_insertionSort _).mpr (List.mem_filter.mpr ⟨inside, by simp [column, state]⟩)
    · rw [List.length_insertionSort]
      exact le_trans (List.length_filter_le _ _) short

theorem fromDbStr_of_holds {f : StoredFields} {r : ApprovalRecord} (holds : f = .ofRecord r) :
    ApprovalState.fromDbStr f.state = some r.state := by
  rw [holds]
  exact Sqlite.state_ofRecord r

theorem redis_summarize {hash : RedisHash} {r : ApprovalRecord} {s : ApprovalState} {summary : ApprovalSummary}
    (holds : hash.toStoredFields = .ofRecord r) :
    Redis.summarize config (some s) hash = some summary ↔ r.state = s ∧
      ∃ payload, config.readPayload hash.payload = .ok payload ∧
        summary = (Redis.recordFromHash r.state payload hash.toStoredFields).toSummary := by
  have state := fromDbStr_of_holds holds
  by_cases same : r.state = s
  · cases read : config.readPayload hash.payload <;>
      simp [Redis.summarize, state, same, read, eq_comm (a := summary)]
  · simp [Redis.summarize, state, same]

theorem redis_getRecord {db : RedisDb} {now : Clock} {id : String} {r : ApprovalRecord} :
    (redis db).getRecord config id now = .ok (some r) ↔ ∃ hash state payload, Redis.find db id now = some hash ∧
      ApprovalState.fromDbStr hash.state = some state ∧ config.readPayload hash.payload = .ok payload ∧
      r = Redis.recordFromHash state payload hash.toStoredFields := by
  cases found : Redis.find db id now with
  | none => simp [getRecord, Redis.getRecord, found]
  | some hash =>
    cases state : ApprovalState.fromDbStr hash.state <;> cases read : config.readPayload hash.payload <;>
      simp [getRecord, Redis.getRecord, found, state, read, eq_comm (a := r)]

theorem redis_list_exact {db : RedisDb} {now : Clock} {s : ApprovalState} {limit : Nat}
    {batches : List (List String)} (sound : (redis db).Sound) (clean : (redis db).Clean config now)
    (scanned : ∀ id, (Redis.find db id now).isSome → id ∈ (batches.take Redis.maxScanIterations).flatten) :
    ListExact config (redis db) now s limit (batches.take Redis.maxScanIterations).flatten.length
      (Redis.list config db batches (some s) (min limit listCap) now) := by
  constructor
  · intro summary member
    obtain ⟨id, inside, kept⟩ := List.mem_filterMap.mp (mem_sortByCreatedAt_take member)
    obtain ⟨hash, found, kept⟩ := Option.bind_eq_some_iff.mp kept
    obtain ⟨r, holds, formed, named⟩ := sound id hash (Redis.lookup_of_find found)
    obtain ⟨state, payload, thawed, rfl⟩ := (redis_summarize holds).mp kept
    have read := redis_getRecord.2 ⟨hash, r.state, payload, found, fromDbStr_of_holds holds, thawed, rfl⟩
    have listed : (Redis.recordFromHash r.state payload hash.toStoredFields).toSummary.approvalId = id :=
      (readPayload_approvalId thawed).trans ((congrArg (·.payload.approvalId) holds).trans named)
    rw [listed]
    exact ⟨_, read, by simp [Expired, found], (effectiveState_eq_state (clean id _ read)).trans state, rfl⟩
  · intro short id r read fresh effective
    have raw : r.effectiveState = r.state := effectiveState_eq_state (clean id r read)
    obtain ⟨hash, state, payload, found, known, thawed, rfl⟩ := redis_getRecord.1 read
    obtain ⟨t, holds, formed, named⟩ := sound id hash (Redis.lookup_of_find found)
    obtain rfl : t.state = state := Option.some.inj ((fromDbStr_of_holds holds).symm.trans known)
    have kept := (redis_summarize holds).mpr ⟨raw.symm.trans effective, payload, thawed, rfl⟩
    refine ⟨(Redis.recordFromHash t.state payload hash.toStoredFields).toSummary,
      sortByCreatedAt_take_of_le (le_trans (List.length_filterMap_le _ _) short) ?_,
      (readPayload_approvalId thawed).trans ((congrArg (·.payload.approvalId) holds).trans named)⟩
    refine List.mem_filterMap.mpr ⟨id, scanned id (by simp [found]), ?_⟩
    exact Option.bind_eq_some_iff.mpr ⟨hash, found, kept⟩

end ApprovalBackend
end Latchgate
