import Latchgate.Approval.Listing

namespace Latchgate

/-- The event `approval.expired`. -/
structure ApprovalExpired where
  approvalId : String
  actionId : String
  principal : String
  owner : Option String
  createdAt : String
  expiredAt : String
  deriving DecidableEq

def ApprovalExpired.ofSummary (s : ApprovalSummary) : ApprovalExpired :=
  ⟨s.approvalId, s.actionId, s.principal, s.owner, s.createdAt, s.expiresAt⟩

namespace Expiry

def scanLimit : Nat := 200

/-- One pass through the pending approvals. An event is emitted for each that
has expired and is not in the set yet. -/
def scanLoop (parse : String → Option Int) (now : Int) :
    List ApprovalSummary → List String → List ApprovalExpired × List String
  | [], emitted => ([], emitted)
  | summary :: rest, emitted =>
    if summary.approvalId ∈ emitted then scanLoop parse now rest emitted
    else match parse summary.expiresAt with
      | none => scanLoop parse now rest emitted
      | some expiresAt =>
        if expiresAt ≤ now then
          let (events, marked) := scanLoop parse now rest (summary.approvalId :: emitted)
          (.ofSummary summary :: events, marked)
        else scanLoop parse now rest emitted

/-- The set keeps only what is still listed. -/
def scanOnce (parse : String → Option Int) (now : Int) (approvals : List ApprovalSummary) (emitted : List String) :
    List ApprovalExpired × List String :=
  let (events, marked) := scanLoop parse now approvals emitted
  (events, marked.filter fun id => id ∈ approvals.map ApprovalSummary.approvalId)

/-- A listed approval that has expired. -/
def ListedExpired (parse : String → Option Int) (now : Int) (approvals : List ApprovalSummary) (id : String) : Prop :=
  ∃ summary ∈ approvals, summary.approvalId = id ∧ ∃ t, parse summary.expiresAt = some t ∧ t ≤ now

section
variable {parse : String → Option Int} {now : Int}

theorem listedExpired_cons {summary : ApprovalSummary} {rest : List ApprovalSummary} {id : String} :
    ListedExpired parse now (summary :: rest) id ↔
      (summary.approvalId = id ∧ ∃ t, parse summary.expiresAt = some t ∧ t ≤ now) ∨ ListedExpired parse now rest id := by
  simp [ListedExpired]

theorem mem_scanLoop (approvals : List ApprovalSummary) (emitted : List String) (id : String) :
    id ∈ (scanLoop parse now approvals emitted).2 ↔ id ∈ emitted ∨ ListedExpired parse now approvals id := by
  induction approvals generalizing emitted with
  | nil => simp [scanLoop, ListedExpired]
  | cons summary rest ih =>
    rw [listedExpired_cons]
    unfold scanLoop
    split
    · rename_i seen
      by_cases same : summary.approvalId = id
      · subst same
        simp [ih, seen]
      · simp [ih, same]
    · split
      · rename_i unread
        simp [ih, unread]
      · rename_i t read
        split
        · rename_i past
          simp [ih, read, past, eq_comm, or_assoc, or_left_comm]
        · rename_i ahead
          simp [ih, read, ahead]

/-- An approval that is listed as expired is reported once, unless it has been
reported. -/
theorem count_scanLoop (approvals : List ApprovalSummary) (emitted : List String) (id : String) :
    (id ∉ emitted → ListedExpired parse now approvals id →
        ((scanLoop parse now approvals emitted).1.map ApprovalExpired.approvalId).count id = 1) ∧
      (id ∈ emitted ∨ ¬ListedExpired parse now approvals id →
        ((scanLoop parse now approvals emitted).1.map ApprovalExpired.approvalId).count id = 0) := by
  induction approvals generalizing emitted with
  | nil => simp [scanLoop, ListedExpired]
  | cons summary rest ih =>
    rw [listedExpired_cons]
    unfold scanLoop
    split
    · rename_i seen
      obtain ⟨once, never⟩ := ih emitted
      by_cases same : summary.approvalId = id
      · subst same
        exact ⟨fun fresh => absurd seen fresh, fun _ => never (.inl seen)⟩
      · exact ⟨fun fresh listed => once fresh (by simpa [same] using listed), fun other => never (by simpa [same] using other)⟩
    · rename_i unseen
      split
      · rename_i unread
        obtain ⟨once, never⟩ := ih emitted
        exact ⟨fun fresh listed => once fresh (by simpa [unread] using listed), fun other => never (by simpa [unread] using other)⟩
      · rename_i t read
        split
        · rename_i past
          obtain ⟨once, never⟩ := ih (summary.approvalId :: emitted)
          simp only [List.map_cons, List.count_cons, ApprovalExpired.ofSummary]
          by_cases same : summary.approvalId = id
          · subst same
            have rest := never (.inl List.mem_cons_self)
            refine ⟨fun _ _ => by simp [rest], fun other => ?_⟩
            rcases other with seen | unlisted
            · exact absurd seen unseen
            · exact absurd (.inl ⟨rfl, t, read, past⟩) unlisted
          · simp only [beq_iff_eq, same, if_false, Nat.add_zero]
            refine ⟨fun fresh listed => once ?_ (by simpa [same] using listed), fun other => never ?_⟩
            · simp [fresh, Ne.symm same]
            · simpa [same, Ne.symm same] using other
        · rename_i ahead
          obtain ⟨once, never⟩ := ih emitted
          exact ⟨fun fresh listed => once fresh (by simpa [read, ahead] using listed),
            fun other => never (by simpa [read, ahead] using other)⟩

end

/-- The order in which a store yields its entries to a listing. -/
inductive Enumeration where
  | inMemory (order : List (Sigma fun _ : String => InMemoryEntry))
  | sqlite (order : List (Sigma fun _ : String => SqliteRow))
  | redis (batches : List (List String))

/-- The enumerations that a store can give: every entry once, and in Redis
every key that is there at least once. -/
def Enumerates (b : ApprovalBackend) (clock : Clock) (order : Enumeration) : Prop :=
  match b, order with
  | .inMemory map, .inMemory order => order.Perm map.entries
  | .sqlite db, .sqlite order => order.Perm db.entries
  | .redis db, .redis batches => ∀ id, (Redis.find db id clock).isSome → id ∈ batches.flatten
  | _, _ => False

def listPending (config : StoreConfig) (b : ApprovalBackend) (clock : Clock) (order : Enumeration) :
    List ApprovalSummary :=
  match b, order with
  | .inMemory _, .inMemory order => InMemory.listEntries config order (some .pending) (min scanLimit listCap) clock
  | .sqlite _, .sqlite order => Sqlite.listRows config order (some .pending) (min scanLimit listCap)
  | .redis db, .redis batches => Redis.list config db batches (some .pending) (min scanLimit listCap) clock
  | _, _ => []

/-- The store with the set that the scanner keeps. The rest is history: the
events, the time, the approvals for which a scan has succeeded since they
expired, and when approvals ceased to be pending. -/
structure ScannerState where
  store : ApprovalBackend
  emitted : List String := []
  events : List ApprovalExpired := []
  time : Int := 0
  scanned : String → Bool := fun _ => false
  left : List (String × Int) := []

/-- Operations of the store, and scans. A scan reads the clock again when it
has its list. -/
inductive ScannerInput where
  | call (call : ApprovalCall)
  | scan (clock : Clock) (now : DateTime) (order : Enumeration)
  | failedScan (clock : Clock)

def expiry (r : ApprovalRecord) : Int :=
  r.payload.plan.core.expiresAt.unixNanos

def isPending (b : ApprovalBackend) (id : String) : Bool :=
  match b.view id with
  | some r => r.state = .pending
  | none => false

section
variable (config : StoreConfig) (parse : String → Option Int)

/-- A call that takes an approval out of the pending state is noted. -/
def callStore (s : ScannerState) (call : ApprovalCall) : ScannerState :=
  let store := (ApprovalBackend.step config s.store call).1
  let left := match call.op.target with
    | some id => if isPending s.store id ∧ isPending store id = false then [(id, call.clock.utc.unixNanos)] else []
    | none => []
  { s with store, time := call.clock.utc.unixNanos, left := s.left ++ left }

def scan (s : ScannerState) (clock : Clock) (now : DateTime) (order : Enumeration) : ScannerState :=
  let (events, emitted) := scanOnce parse now.unixNanos (listPending config s.store clock order) s.emitted
  let scanned (id : String) : Bool := s.scanned id || match s.store.view id with
    | some r => expiry r ≤ now.unixNanos
    | none => false
  { s with emitted, events := s.events ++ events, time := now.unixNanos, scanned }

def machine : Machine ScannerState ScannerInput Unit where
  step s
    | .call call => (callStore config s call, ())
    | .scan clock now order => (scan config parse s clock now order, ())
    | .failedScan clock => ({ s with time := clock.utc.unixNanos }, ())

/-- What can happen: time does not run backwards, an approval gets an
identifier of its own and a text that says when it expires, and the store
enumerates what it has. -/
def Possible (s : ScannerState) : ScannerInput → Prop
  | .call call => s.time ≤ call.clock.utc.unixNanos ∧ ∀ payload, call.op = .createPending payload →
      s.store.view payload.approvalId = none ∧
        parse payload.plan.core.expiresAt.rfc3339 = some payload.plan.core.expiresAt.unixNanos
  | .scan clock now order => s.time ≤ clock.utc.unixNanos ∧ clock.utc.unixNanos ≤ now.unixNanos ∧
      Enumerates s.store clock order
  | .failedScan clock => s.time ≤ clock.utc.unixNanos

/-- A pending approval is still given out by the store and can be read. -/
def Visible (b : ApprovalBackend) (clock : Clock) (id : String) : Prop :=
  match b with
  | .inMemory map => ∀ entry, map.lookup id = some entry → InMemory.elapsed entry clock < config.defaultTtl
  | .sqlite db => ∀ row, db.lookup id = some row → ∃ payload, config.readPayload row.payload = .ok payload
  | .redis db => ∃ hash, Redis.find db id clock = some hash ∧ ∃ payload, config.readPayload hash.payload = .ok payload

/-- The store finds no more pending approvals than a scan takes, and Redis
needs no more rounds than a listing makes. -/
def Uncut (b : ApprovalBackend) (clock : Clock) (order : Enumeration) : Prop :=
  match b, order with
  | .inMemory _, .inMemory order =>
    (order.filterMap fun e => InMemory.summarize config (some .pending) clock e.2).length ≤ scanLimit
  | .sqlite _, .sqlite order => (order.filter fun e => decide (e.2.state = ApprovalState.pending.asStr)).length ≤ scanLimit
  | .redis db, .redis batches => batches.length ≤ Redis.maxScanIterations ∧
      (batches.flatten.filterMap fun id =>
        (Redis.find db id clock).bind (Redis.summarize config (some .pending))).length ≤ scanLimit
  | _, _ => True

/-- What has to hold of a step. A scan gets all pending approvals that have
expired, and none of them is claimed before it has been reported. -/
def Attended (s : ScannerState) : ScannerInput → Prop
  | .call call => ∀ id operator token, call.op = .claimPending id operator token →
      ∀ r, s.store.view id = some r → r.state = .pending → expiry r ≤ call.clock.utc.unixNanos → id ∈ s.emitted
  | .scan clock now order => Uncut config s.store clock order ∧
      ∀ id r, s.store.view id = some r → r.state = .pending → expiry r ≤ now.unixNanos →
        Visible config s.store clock id
  | .failedScan _ => True

end

/-- The approval was pending when it expired, and a scan has succeeded since. -/
def Due (s : ScannerState) (id : String) (r : ApprovalRecord) : Prop :=
  s.scanned id = true ∧ ∀ t, (id, t) ∈ s.left → expiry r ≤ t

def reports (s : ScannerState) (id : String) : Nat :=
  (s.events.map ApprovalExpired.approvalId).count id

/-- One event for each approval that was pending when it expired, from the
first scan that has succeeded since, and none for any other. -/
def ReportedExactly (s : ScannerState) : Prop :=
  ∀ id, (∀ r, s.store.view id = some r → Due s id r → reports s id = 1) ∧
    ((∀ r, s.store.view id = some r → ¬Due s id r) → reports s id = 0)

section Listing
variable {config : StoreConfig} {clock : Clock}

theorem effectiveState_eq_pending {r : ApprovalRecord} : r.effectiveState = .pending ↔ r.state = .pending := by
  unfold ApprovalRecord.effectiveState
  split
  · rename_i claimed
    rw [claimed]
    cases r.outcomeMarker with
    | none => simp
    | some marker =>
      dsimp only
      split_ifs <;> simp
  · rfl

theorem readPayload_expiresAt {payload read : PendingApproval} (thawed : config.readPayload payload = .ok read) :
    read.plan.core.expiresAt = payload.plan.core.expiresAt := by
  unfold StoreConfig.readPayload at thawed
  split at thawed
  · rename_i pending ok
    cases thawed
    obtain ⟨_, _, _, _, _, _, _, _, rfl⟩ := PendingApproval.thaw_eq_ok ok
    rfl
  · cases thawed

theorem take_of_uncut {α : Type} {all : List α} (short : all.length ≤ scanLimit) :
    all.take (min scanLimit listCap) = all :=
  List.take_of_length_le (le_trans short (by decide))

/-- A record of Redis keeps the payload and the state it was read with. -/
theorem toSummary_recordFromHash (state : ApprovalState) (payload : PendingApproval) (fields : StoredFields) :
    (Redis.recordFromHash state payload fields).toSummary.approvalId = payload.approvalId ∧
      (Redis.recordFromHash state payload fields).toSummary.expiresAt = payload.plan.core.expiresAt.rfc3339 :=
  ⟨rfl, rfl⟩

theorem inMemory_listed {map : InMemoryMap} {order : List (Sigma fun _ : String => InMemoryEntry)}
    (sound : (ApprovalBackend.inMemory map).Sound) (enumerates : order.Perm map.entries) {summary : ApprovalSummary}
    (member : summary ∈ InMemory.listEntries config order (some .pending) (min scanLimit listCap) clock) :
    ∃ r, InMemory.getRecord map summary.approvalId = some r ∧ r.state = .pending ∧
      summary.expiresAt = r.payload.plan.core.expiresAt.rfc3339 := by
  obtain ⟨⟨id, entry⟩, inside, kept⟩ := List.mem_filterMap.mp (ApprovalBackend.mem_sortByCreatedAt_take member)
  have stored : map.lookup id = some entry := AList.mem_lookup_iff.mpr (enumerates.mem_iff.mp inside)
  have found := InMemory.getRecord_of_lookup stored
  obtain ⟨-, effective, rfl⟩ := ApprovalBackend.inMemory_summarize.1 kept
  have named : entry.record.toSummary.approvalId = id := (sound id entry.record found).2
  rw [named]
  exact ⟨entry.record, found, effectiveState_eq_pending.1 effective, rfl⟩

theorem sqlite_listed {db : SqliteDb} {order : List (Sigma fun _ : String => SqliteRow)}
    (sound : (ApprovalBackend.sqlite db).Sound) (enumerates : order.Perm db.entries) {summary : ApprovalSummary}
    (member : summary ∈ Sqlite.listRows config order (some .pending) (min scanLimit listCap)) :
    ∃ r, Sqlite.view db summary.approvalId = some r ∧ r.state = .pending ∧
      summary.expiresAt = r.payload.plan.core.expiresAt.rfc3339 := by
  obtain ⟨⟨id, row⟩, taken, kept⟩ := List.mem_filterMap.mp member
  obtain ⟨inside, selected⟩ := List.mem_filter.mp ((List.mem_insertionSort _).mp (List.mem_of_mem_take taken))
  have stored : db.lookup id = some row := AList.mem_lookup_iff.mpr (enumerates.mem_iff.mp inside)
  obtain ⟨fields, createdAt, expires⟩ := row
  obtain ⟨r, rfl, formed, named⟩ := sound id _ stored
  have view : Sqlite.view db id = some r := Table.view_of_lookup stored rfl
  have column : (StoredFields.ofRecord r).state = ApprovalState.pending.asStr := by simpa using selected
  simp only [Sqlite.summarize, Sqlite.state_ofRecord] at kept
  split at kept
  · rename_i state payload known read
    cases kept
    have same : payload.approvalId = id := (ApprovalBackend.readPayload_approvalId read).trans named
    refine ⟨r, same ▸ view, ApprovalState.asStr_injective column, ?_⟩
    exact congrArg DateTime.rfc3339 (readPayload_expiresAt read)
  · cases kept

theorem redis_listed {db : RedisDb} {batches : List (List String)} (sound : (ApprovalBackend.redis db).Sound)
    {summary : ApprovalSummary}
    (member : summary ∈ Redis.list config db batches (some .pending) (min scanLimit listCap) clock) :
    ∃ r, Redis.view db summary.approvalId = some r ∧ r.state = .pending ∧
      summary.expiresAt = r.payload.plan.core.expiresAt.rfc3339 := by
  obtain ⟨id, inside, kept⟩ := List.mem_filterMap.mp (ApprovalBackend.mem_sortByCreatedAt_take member)
  obtain ⟨hash, found, kept⟩ := Option.bind_eq_some_iff.mp kept
  obtain ⟨r, holds, formed, named⟩ := sound id hash (Redis.lookup_of_find found)
  obtain ⟨state, payload, thawed, rfl⟩ := (ApprovalBackend.redis_summarize holds).mp kept
  have original : hash.payload = r.payload := congrArg StoredFields.payload holds
  obtain ⟨shown, text⟩ := toSummary_recordFromHash r.state payload hash.toStoredFields
  have same : payload.approvalId = id :=
    (ApprovalBackend.readPayload_approvalId thawed).trans ((congrArg PendingApproval.approvalId original).trans named)
  rw [shown, same, text, readPayload_expiresAt thawed, original]
  exact ⟨r, Table.view_of_lookup (Redis.lookup_of_find found) holds, state, rfl⟩

/-- What a listing shows is pending, with the text of its expiry. -/
theorem listPending_sound {b : ApprovalBackend} {order : Enumeration} (sound : b.Sound)
    (enumerates : Enumerates b clock order) {summary : ApprovalSummary}
    (member : summary ∈ listPending config b clock order) :
    ∃ r, b.view summary.approvalId = some r ∧ r.state = .pending ∧
      summary.expiresAt = r.payload.plan.core.expiresAt.rfc3339 := by
  cases b with
  | inMemory map =>
    cases order with
    | inMemory order => exact inMemory_listed sound enumerates member
    | sqlite _ | redis _ => cases member
  | sqlite db =>
    cases order with
    | sqlite order => exact sqlite_listed sound enumerates member
    | inMemory _ | redis _ => cases member
  | redis db =>
    cases order with
    | redis batches => exact redis_listed sound member
    | inMemory _ | sqlite _ => cases member

/-- A listing that is not cut shows every pending approval that is visible. -/
theorem listPending_complete {b : ApprovalBackend} {order : Enumeration} {id : String} {r : ApprovalRecord}
    (sound : b.Sound) (enumerates : Enumerates b clock order) (uncut : Uncut config b clock order)
    (kept : b.view id = some r) (pending : r.state = .pending) (visible : Visible config b clock id) :
    ∃ summary ∈ listPending config b clock order, summary.approvalId = id := by
  cases b with
  | inMemory map =>
    cases order with
    | sqlite _ | redis _ => cases enumerates
    | inMemory order =>
      obtain ⟨entry, stored, rfl⟩ := Option.map_eq_some_iff.mp kept
      have inside : ⟨id, entry⟩ ∈ order := enumerates.mem_iff.mpr (AList.mem_lookup_iff.mp stored)
      refine ⟨entry.record.toSummary, ?_, (sound id entry.record kept).2⟩
      rw [listPending, InMemory.listEntries, take_of_uncut (by simpa [sortByCreatedAt, Uncut] using uncut)]
      refine (List.mem_insertionSort _).mpr (List.mem_filterMap.mpr ⟨⟨id, entry⟩, inside, ?_⟩)
      refine ApprovalBackend.inMemory_summarize.2 ⟨?_, effectiveState_eq_pending.2 pending, rfl⟩
      exact fun lapsed => absurd lapsed.2 (not_le.mpr (visible entry stored))
  | sqlite db =>
    cases order with
    | inMemory _ | redis _ => cases enumerates
    | sqlite order =>
      cases stored : db.lookup id with
      | none => simp [ApprovalBackend.view, Sqlite.view, Table.view, stored] at kept
      | some row =>
        obtain ⟨payload, read⟩ := visible row stored
        obtain ⟨fields, createdAt, expires⟩ := row
        obtain ⟨t, rfl, formed, named⟩ := sound id _ stored
        have view : Sqlite.view db id = some t := Table.view_of_lookup stored rfl
        obtain rfl : t = r := Option.some.inj (view.symm.trans kept)
        have inside : ⟨id, _⟩ ∈ order := enumerates.mem_iff.mpr (AList.mem_lookup_iff.mp stored)
        have column : (StoredFields.ofRecord t).state = ApprovalState.pending.asStr :=
          congrArg ApprovalState.asStr pending
        obtain ⟨summary, shown, same⟩ : ∃ summary, Sqlite.summarize config
            ⟨StoredFields.ofRecord t, createdAt, expires⟩ = some summary ∧ summary.approvalId = id := by
          simp only [Sqlite.summarize, Sqlite.state_ofRecord, read]
          exact ⟨_, rfl, (ApprovalBackend.readPayload_approvalId read).trans named⟩
        refine ⟨summary, ?_, same⟩
        simp only [listPending, Sqlite.listRows]
        rw [take_of_uncut (by simpa [List.length_insertionSort, Uncut] using uncut)]
        refine List.mem_filterMap.mpr ⟨_, (List.mem_insertionSort _).mpr (List.mem_filter.mpr ⟨inside, ?_⟩), shown⟩
        exact decide_eq_true column
  | redis db =>
    cases order with
    | inMemory _ | sqlite _ => cases enumerates
    | redis batches =>
      obtain ⟨hash, found, payload, thawed⟩ := visible
      obtain ⟨t, holds, formed, named⟩ := sound id hash (Redis.lookup_of_find found)
      have view : Redis.view db id = some t := Table.view_of_lookup (Redis.lookup_of_find found) holds
      obtain rfl : t = r := Option.some.inj (view.symm.trans kept)
      have shown := (ApprovalBackend.redis_summarize holds).mpr ⟨pending, payload, thawed, rfl⟩
      have original : hash.payload = t.payload := congrArg StoredFields.payload holds
      refine ⟨(Redis.recordFromHash t.state payload hash.toStoredFields).toSummary, ?_, ?_⟩
      · simp only [listPending, Redis.list]
        rw [List.take_of_length_le uncut.1, take_of_uncut (by simpa [sortByCreatedAt] using uncut.2)]
        refine (List.mem_insertionSort _).mpr (List.mem_filterMap.mpr ⟨id, enumerates id (by simp [found]), ?_⟩)
        exact Option.bind_eq_some_iff.mpr ⟨hash, found, shown⟩
      · exact (ApprovalBackend.readPayload_approvalId thawed).trans
          ((congrArg PendingApproval.approvalId original).trans named)

end Listing

section Runs
variable {config : StoreConfig} {parse : String → Option Int} {s : ScannerState}

/-- What the scanner, the store and the history say of an approval. -/
structure SoundAt (parse : String → Option Int) (s : ScannerState) (id : String) : Prop where
  texts : ∀ r, s.store.view id = some r → parse r.payload.plan.core.expiresAt.rfc3339 = some (expiry r)
  since : ∀ r, s.store.view id = some r → s.scanned id = true → expiry r ≤ s.time
  unknown : s.store.view id = none → s.scanned id = false ∧ id ∉ s.emitted ∧ ∀ t, (id, t) ∉ s.left
  pending : ∀ r, s.store.view id = some r → r.state = .pending →
    (∀ t, (id, t) ∉ s.left) ∧ (id ∈ s.emitted ↔ s.scanned id = true)
  gone : ∀ r, s.store.view id = some r → r.state ≠ .pending →
    s.scanned id = true ∨ ∃ t, (id, t) ∈ s.left ∧ t < expiry r
  once : ∀ r, s.store.view id = some r → Due s id r → reports s id = 1
  never : (∀ r, s.store.view id = some r → ¬Due s id r) → reports s id = 0

structure Sound (parse : String → Option Int) (s : ScannerState) : Prop where
  store : s.store.Sound
  each : ∀ id, SoundAt parse s id

theorem Sound.reportedExactly (sound : Sound parse s) : ReportedExactly s :=
  fun id => ⟨(sound.each id).once, (sound.each id).never⟩

/-- What a call of the store can do to an approval, as far as expiry goes. -/
theorem record_cases {traits : Traits} {id : String} {call : ApprovalCall} {answer : ApprovalAnswer}
    {before after : Option ApprovalRecord} (step : RecordStep traits id call answer before after) :
    after = before ∨
      (∃ payload, call.op = .createPending payload ∧ payload.approvalId = id ∧ after = some (.newPending payload)) ∨
      ∃ r r', before = some r ∧ after = some r' ∧ r'.payload = r.payload ∧ r'.state ≠ .pending ∧
        (r.state = .pending → ∃ operator token, call.op = .claimPending id operator token) := by
  cases step with
  | stay => exact .inl rfl
  | create made named => exact .inr (.inl ⟨_, made, named, rfl⟩)
  | @claim r operator token claims _ =>
    exact .inr (.inr ⟨r, _, rfl, rfl, rfl, by simp, fun _ => ⟨operator, token, claims⟩⟩)
  | @mark r _ _ _ _ state =>
    exact .inr (.inr ⟨r, _, rfl, rfl, rfl, by simp [state], fun pending => by simp [state] at pending⟩)
  | @complete r kind _ _ _ _ _ state =>
    refine .inr (.inr ⟨r, _, rfl, rfl, rfl, ?_, fun pending => by simp [state] at pending⟩)
    cases kind <;> simp [TerminalKind.state]

theorem isPending_iff {b : ApprovalBackend} {id : String} :
    isPending b id = true ↔ ∃ r, b.view id = some r ∧ r.state = .pending := by
  unfold isPending
  cases b.view id <;> simp

/-- A call notes that an approval is not pending any more when it takes it
out of that state, and at no other time. -/
theorem mem_left_callStore {call : ApprovalCall} {id : String} {t : Int} :
    (id, t) ∈ (callStore config s call).left ↔ (id, t) ∈ s.left ∨
      (call.op.target = some id ∧ isPending s.store id = true ∧
        isPending (callStore config s call).store id = false ∧ t = call.clock.utc.unixNanos) := by
  simp only [callStore]
  cases target : call.op.target with
  | none => simp
  | some key =>
    dsimp only
    split
    · rename_i leaves
      simp only [List.mem_append, List.mem_singleton, Prod.mk.injEq, Option.some.injEq]
      refine or_congr_right ⟨?_, ?_⟩
      · rintro ⟨rfl, rfl⟩
        exact ⟨rfl, leaves.1, leaves.2, rfl⟩
      · rintro ⟨rfl, -, -, rfl⟩
        exact ⟨rfl, rfl⟩
    · rename_i stays
      simp only [List.append_nil, Option.some.injEq]
      refine ⟨.inl, ?_⟩
      rintro (old | ⟨rfl, was, now, -⟩)
      · exact old
      · exact absurd ⟨was, now⟩ stays

/-- An approval whose state is not changed by a call. -/
theorem left_of_same {call : ApprovalCall} {id : String}
    (same : (callStore config s call).store.view id = s.store.view id) (t : Int) :
    (id, t) ∈ (callStore config s call).left ↔ (id, t) ∈ s.left := by
  rw [mem_left_callStore]
  refine ⟨?_, .inl⟩
  rintro (old | ⟨-, was, now, -⟩)
  · exact old
  · unfold isPending at was now
    rw [same] at now
    exact absurd (was.symm.trans now) (by simp)

/-- Two records that do not differ in whether and when they expire. -/
inductive Alike : Option ApprovalRecord → Option ApprovalRecord → Prop
  | none : Alike none none
  | some {r r'} : r'.payload = r.payload → (r'.state = .pending ↔ r.state = .pending) → Alike (some r) (some r')

theorem Alike.refl (r : Option ApprovalRecord) : Alike r r := by
  cases r with
  | none => exact .none
  | some r => exact .some rfl Iff.rfl

/-- Steps that leave an approval pending, or leave it decided, keep what is
known of it. -/
theorem SoundAt.keep {s' : ScannerState} {id : String} (sound : SoundAt parse s id)
    (view : Alike (s.store.view id) (s'.store.view id)) (emitted : s'.emitted = s.emitted)
    (events : s'.events = s.events) (scanned : s'.scanned = s.scanned) (time : s.time ≤ s'.time)
    (left : ∀ t, (id, t) ∈ s'.left ↔ (id, t) ∈ s.left) : SoundAt parse s' id := by
  have counts : reports s' id = reports s id := by simp only [reports, events]
  generalize was : s.store.view id = before at view
  generalize becomes : s'.store.view id = after at view
  cases view with
  | none =>
    obtain ⟨unscanned, unreported, unmoved⟩ := sound.unknown was
    constructor <;> simp only [becomes, reduceCtorEq, false_implies, implies_true, forall_const]
    case unknown => exact ⟨scanned ▸ unscanned, emitted ▸ unreported, fun t moved => unmoved t ((left t).mp moved)⟩
    case never =>
      rw [counts]
      exact sound.never (by simp [was])
  | @some r r' payload state =>
    have same : expiry r' = expiry r := by simp only [expiry, payload]
    have due : Due s' id r' ↔ Due s id r := by simp only [Due, scanned, left, same]
    constructor <;> simp only [becomes, Option.some.injEq, forall_eq', reduceCtorEq, false_implies]
    case texts =>
      rw [payload, same]
      exact sound.texts r was
    case since =>
      intro late
      rw [same]
      exact (sound.since r was (scanned ▸ late)).trans time
    case pending =>
      intro pending
      obtain ⟨unmoved, reported⟩ := sound.pending r was (state.1 pending)
      rw [emitted, scanned]
      exact ⟨fun t moved => unmoved t ((left t).mp moved), reported⟩
    case gone =>
      intro decided
      rw [scanned, same]
      rcases sound.gone r was (mt state.2 decided) with late | ⟨t, moved, early⟩
      · exact .inl late
      · exact .inr ⟨t, (left t).mpr moved, early⟩
    case once =>
      intro isDue
      rw [counts]
      exact sound.once r was (due.1 isDue)
    case never =>
      intro undue
      rw [counts]
      refine sound.never ?_
      simp only [was, Option.some.injEq, forall_eq']
      exact fun isDue => undue (due.2 isDue)

/-- An approval that has just been made. -/
theorem SoundAt.made {s' : ScannerState} {id : String} {payload : PendingApproval} (sound : SoundAt parse s id)
    (missing : s.store.view id = none)
    (text : parse payload.plan.core.expiresAt.rfc3339 = some payload.plan.core.expiresAt.unixNanos)
    (view : s'.store.view id = some (.newPending payload)) (emitted : s'.emitted = s.emitted)
    (events : s'.events = s.events) (scanned : s'.scanned = s.scanned)
    (left : ∀ t, (id, t) ∈ s'.left ↔ (id, t) ∈ s.left) : SoundAt parse s' id := by
  obtain ⟨unscanned, unreported, unmoved⟩ := sound.unknown missing
  have counts : reports s' id = reports s id := by simp only [reports, events]
  have record : ∀ r, s'.store.view id = some r → r = .newPending payload := fun r found =>
    Option.some.inj (found.symm.trans view)
  have undue : ∀ r, ¬Due s' id r := fun r isDue => by
    rw [Due, scanned, unscanned] at isDue
    exact absurd isDue.1 (by simp)
  constructor
  case texts =>
    intro r found
    rw [record r found]
    exact text
  case since =>
    intro r found late
    rw [scanned, unscanned] at late
    cases late
  case unknown => exact fun absent => absurd (absent.symm.trans view) (by simp)
  case pending =>
    intro r found state
    refine ⟨fun t moved => unmoved t ((left t).mp moved), ?_⟩
    rw [emitted, scanned, unscanned]
    simp [unreported]
  case gone =>
    intro r found state
    rw [record r found] at state
    exact absurd rfl state
  case once => exact fun r found isDue => absurd isDue (undue r)
  case never =>
    intro _
    rw [counts]
    exact sound.never fun r found => absurd (missing.symm.trans found) (by simp)

/-- An approval that is taken out of the pending state, in time or after it was
reported. -/
theorem SoundAt.claimed {s' : ScannerState} {id : String} {r r' : ApprovalRecord} (sound : SoundAt parse s id)
    (found : s.store.view id = some r) (pending : r.state = .pending) (view : s'.store.view id = some r')
    (payload : r'.payload = r.payload) (decided : r'.state ≠ .pending)
    (events : s'.events = s.events) (scanned : s'.scanned = s.scanned) (time : s.time ≤ s'.time)
    (left : ∀ t, (id, t) ∈ s'.left ↔ (id, t) ∈ s.left ∨ t = s'.time)
    (attended : expiry r ≤ s'.time → id ∈ s.emitted) : SoundAt parse s' id := by
  obtain ⟨unmoved, reported⟩ := sound.pending r found pending
  have counts : reports s' id = reports s id := by simp only [reports, events]
  have same : expiry r' = expiry r := by simp only [expiry, payload]
  have only : ∀ t, (id, t) ∈ s'.left ↔ t = s'.time := fun t => by simp [left, unmoved t]
  have due : Due s' id r' ↔ Due s id r := by
    simp only [Due, scanned, same]
    refine and_congr_right fun late => ⟨fun _ t moved => absurd moved (unmoved t), fun _ t moved => ?_⟩
    rw [(only t).mp moved]
    exact (sound.since r found late).trans time
  have record : ∀ q, s'.store.view id = some q → q = r' := fun q known => Option.some.inj (known.symm.trans view)
  constructor
  case texts =>
    intro q known
    rw [record q known, payload, same]
    exact sound.texts r found
  case since =>
    intro q known late
    rw [record q known, same]
    exact (sound.since r found (scanned ▸ late)).trans time
  case unknown => exact fun absent => absurd (absent.symm.trans view) (by simp)
  case pending => exact fun q known state => absurd (record q known ▸ state) decided
  case gone =>
    intro q known _
    rw [record q known, same, scanned]
    rcases lt_or_ge s'.time (expiry r) with early | late
    · exact .inr ⟨s'.time, (only _).mpr rfl, early⟩
    · exact .inl (reported.mp (attended late))
  case once =>
    intro q known isDue
    rw [record q known] at isDue
    rw [counts]
    exact sound.once r found (due.1 isDue)
  case never =>
    intro undue
    rw [counts]
    refine sound.never fun q known isDue => undue r' view (due.2 ?_)
    rw [← Option.some.inj (known.symm.trans found)]
    exact isDue

theorem not_isPending {b : ApprovalBackend} {id : String} (other : ∀ r, b.view id = some r → r.state ≠ .pending) :
    isPending b id = false := by
  rw [← Bool.not_eq_true, isPending_iff]
  rintro ⟨r, found, pending⟩
  exact other r found pending

theorem Sound.call {call : ApprovalCall} (sound : Sound parse s) (possible : Possible parse s (.call call))
    (attended : Attended config s (.call call)) : Sound parse (callStore config s call) := by
  obtain ⟨store, step⟩ := ApprovalBackend.step_record config sound.store call
  refine ⟨store, fun id => ?_⟩
  obtain ⟨later, fresh⟩ := possible
  rcases record_cases (step id) with same | ⟨payload, made, named, new⟩ | ⟨r, r', was, becomes, kept, decided, claims⟩
  · exact (sound.each id).keep (same ▸ Alike.refl _) rfl rfl rfl later (left_of_same same)
  · obtain ⟨missing, text⟩ := fresh payload made
    rw [named] at missing
    refine (sound.each id).made missing text new rfl rfl rfl fun t => ?_
    rw [mem_left_callStore, not_isPending (by simp [missing])]
    simp
  · have settled : isPending (callStore config s call).store id = false := by
      refine not_isPending fun q known => ?_
      rwa [← Option.some.inj (becomes.symm.trans known)]
    by_cases pending : r.state = .pending
    · obtain ⟨operator, token, claim⟩ := claims pending
      refine (sound.each id).claimed was pending becomes kept decided rfl rfl later (fun t => ?_) ?_
      · rw [mem_left_callStore, isPending_iff.2 ⟨r, was, pending⟩, settled, claim]
        simp [ApprovalOp.target, callStore]
      · exact attended id operator token claim r was pending
    · refine (sound.each id).keep ?_ rfl rfl rfl later fun t => ?_
      · have view : Alike (some r) (some r') := .some kept (by simp [pending, decided])
        rw [← was, ← becomes] at view
        exact view
      · rw [mem_left_callStore, not_isPending (by simp [was, pending])]
        simp

/-- The approvals that a scan finds expired are those that are pending and have
expired. -/
theorem listedExpired_iff {clock : Clock} {now : DateTime} {order : Enumeration} {id : String} (sound : Sound parse s)
    (enumerates : Enumerates s.store clock order) (attended : Attended config s (.scan clock now order)) :
    ListedExpired parse now.unixNanos (listPending config s.store clock order) id ↔
      ∃ r, s.store.view id = some r ∧ r.state = .pending ∧ expiry r ≤ now.unixNanos := by
  constructor
  · rintro ⟨summary, listed, rfl, t, read, past⟩
    obtain ⟨r, found, pending, text⟩ := listPending_sound sound.store enumerates listed
    rw [text, (sound.each _).texts r found] at read
    exact ⟨r, found, pending, Option.some.inj read ▸ past⟩
  · rintro ⟨r, found, pending, past⟩
    obtain ⟨uncut, visible⟩ := attended
    obtain ⟨summary, listed, rfl⟩ := listPending_complete sound.store enumerates uncut found pending
      (visible id r found pending past)
    obtain ⟨q, known, -, text⟩ := listPending_sound sound.store enumerates listed
    refine ⟨summary, listed, rfl, expiry q, ?_, ?_⟩
    · rw [text]
      exact (sound.each _).texts q known
    · rw [Option.some.inj (known.symm.trans found)]
      exact past

theorem scanned_scan {clock : Clock} {now : DateTime} {order : Enumeration} {id : String} :
    (scan config parse s clock now order).scanned id = true ↔
      s.scanned id = true ∨ ∃ r, s.store.view id = some r ∧ expiry r ≤ now.unixNanos := by
  simp only [scan, Bool.or_eq_true]
  refine or_congr_right ?_
  cases s.store.view id <;> simp

theorem mem_emitted_scan {clock : Clock} {now : DateTime} {order : Enumeration} {id : String} :
    id ∈ (scan config parse s clock now order).emitted ↔
      (id ∈ s.emitted ∨ ListedExpired parse now.unixNanos (listPending config s.store clock order) id) ∧
        ∃ summary ∈ listPending config s.store clock order, summary.approvalId = id := by
  simp only [scan, scanOnce, List.mem_filter, mem_scanLoop, decide_eq_true_eq, List.mem_map]

/-- A scan adds one report of an approval that is listed as expired and has not
been reported. -/
theorem reports_scan {clock : Clock} {now : DateTime} {order : Enumeration} {id : String} :
    (id ∉ s.emitted → ListedExpired parse now.unixNanos (listPending config s.store clock order) id →
        reports (scan config parse s clock now order) id = reports s id + 1) ∧
      (id ∈ s.emitted ∨ ¬ListedExpired parse now.unixNanos (listPending config s.store clock order) id →
        reports (scan config parse s clock now order) id = reports s id) := by
  obtain ⟨once, never⟩ := @count_scanLoop parse now.unixNanos (listPending config s.store clock order) s.emitted id
  simp only [reports, scan, scanOnce, List.map_append, List.count_append]
  exact ⟨fun fresh listed => by rw [once fresh listed], fun other => by rw [never other, Nat.add_zero]⟩

theorem SoundAt.scanPending {clock : Clock} {now : DateTime} {order : Enumeration} {id : String} {r : ApprovalRecord}
    (sound : SoundAt parse s id) (later : s.time ≤ now.unixNanos) (found : s.store.view id = some r)
    (pending : r.state = .pending)
    (listed : ListedExpired parse now.unixNanos (listPending config s.store clock order) id ↔ expiry r ≤ now.unixNanos) :
    SoundAt parse (scan config parse s clock now order) id := by
  obtain ⟨unmoved, reported⟩ := sound.pending r found pending
  obtain ⟨added, unchanged⟩ := @reports_scan config parse s clock now order id
  have view : (scan config parse s clock now order).store.view id = some r := found
  have sinceNow : (scan config parse s clock now order).scanned id = true ↔ expiry r ≤ now.unixNanos := by
    rw [scanned_scan]
    simp only [found, Option.some.injEq, exists_eq_left', or_iff_right_iff_imp]
    exact fun late => (sound.since r found late).trans later
  have due : Due (scan config parse s clock now order) id r ↔ expiry r ≤ now.unixNanos := by
    rw [Due, sinceNow, and_iff_left_iff_imp]
    exact fun _ t moved => absurd moved (unmoved t)
  constructor <;> simp only [view, Option.some.injEq, forall_eq', reduceCtorEq, false_implies]
  case texts => exact sound.texts r found
  case since => exact sinceNow.mp
  case pending =>
    intro _
    refine ⟨unmoved, ?_⟩
    rw [sinceNow, mem_emitted_scan, listed]
    constructor
    · rintro ⟨old | past, -⟩
      · exact (sound.since r found (reported.mp old)).trans later
      · exact past
    · intro past
      obtain ⟨summary, inside, named, -⟩ := listed.mpr past
      exact ⟨.inr past, summary, inside, named⟩
  case gone => exact fun decided => absurd pending decided
  case once =>
    intro isDue
    have past := due.1 isDue
    by_cases old : id ∈ s.emitted
    · rw [unchanged (.inl old)]
      exact sound.once r found ⟨reported.mp old, fun t moved => absurd moved (unmoved t)⟩
    · rw [added old (listed.mpr past), sound.never ?_]
      simp only [found, Option.some.injEq, forall_eq']
      exact fun wasDue => old (reported.mpr wasDue.1)
  case never =>
    intro undue
    have ahead : ¬expiry r ≤ now.unixNanos := mt due.2 undue
    rw [unchanged (.inr (mt listed.mp ahead))]
    refine sound.never ?_
    simp only [found, Option.some.injEq, forall_eq']
    exact fun wasDue => ahead ((sound.since r found wasDue.1).trans later)

/-- A scan does not report approvals that are not pending. -/
theorem SoundAt.scanOther {clock : Clock} {now : DateTime} {order : Enumeration} {id : String}
    (sound : SoundAt parse s id) (later : s.time ≤ now.unixNanos)
    (other : ∀ r, s.store.view id = some r → r.state ≠ .pending)
    (unlisted : ¬ListedExpired parse now.unixNanos (listPending config s.store clock order) id) :
    SoundAt parse (scan config parse s clock now order) id := by
  have counts : reports (scan config parse s clock now order) id = reports s id :=
    (@reports_scan config parse s clock now order id).2 (.inr unlisted)
  have due : ∀ r, s.store.view id = some r → (Due (scan config parse s clock now order) id r ↔ Due s id r) := by
    intro r found
    refine ⟨fun isDue => ⟨?_, isDue.2⟩, fun wasDue => ⟨scanned_scan.2 (.inl wasDue.1), wasDue.2⟩⟩
    rcases sound.gone r found (other r found) with late | ⟨t, moved, early⟩
    · exact late
    · exact absurd (isDue.2 t moved) (not_le.mpr early)
  constructor
  case texts => exact sound.texts
  case since =>
    intro r found late
    rcases scanned_scan.1 late with old | ⟨q, known, past⟩
    · exact (sound.since r found old).trans later
    · rw [← Option.some.inj (known.symm.trans found)]
      exact past
  case unknown =>
    intro missing
    obtain ⟨unscanned, unreported, unmoved⟩ := sound.unknown missing
    have absent : s.store.view id = none := missing
    refine ⟨?_, ?_, unmoved⟩
    · rw [← Bool.not_eq_true, scanned_scan]
      simp [unscanned, absent]
    · rw [mem_emitted_scan]
      simp [unreported, unlisted]
  case pending => exact fun r found pending => absurd pending (other r found)
  case gone =>
    intro r found decided
    rcases sound.gone r found decided with late | early
    · exact .inl (scanned_scan.2 (.inl late))
    · exact .inr early
  case once =>
    intro r found isDue
    rw [counts]
    exact sound.once r found ((due r found).mp isDue)
  case never =>
    intro undue
    rw [counts]
    exact sound.never fun r found wasDue => undue r found ((due r found).mpr wasDue)

theorem Sound.scan {clock : Clock} {now : DateTime} {order : Enumeration} (sound : Sound parse s)
    (possible : Possible parse s (.scan clock now order)) (attended : Attended config s (.scan clock now order)) :
    Sound parse (scan config parse s clock now order) := by
  obtain ⟨begun, ended, enumerates⟩ := possible
  have later : s.time ≤ now.unixNanos := begun.trans ended
  refine ⟨sound.store, fun id => ?_⟩
  have listed := @listedExpired_iff config parse s clock now order id sound enumerates attended
  by_cases pending : ∃ r, s.store.view id = some r ∧ r.state = .pending
  · obtain ⟨r, found, state⟩ := pending
    refine (sound.each id).scanPending later found state (listed.trans ?_)
    simp [found, state]
  · refine (sound.each id).scanOther later (fun r found state => pending ⟨r, found, state⟩) fun hit => ?_
    obtain ⟨r, found, state, -⟩ := listed.mp hit
    exact pending ⟨r, found, state⟩

theorem Sound.step {input : ScannerInput} (sound : Sound parse s) (possible : Possible parse s input)
    (attended : Attended config s input) : Sound parse ((machine config parse).step s input).1 := by
  cases input with
  | call call => exact sound.call possible attended
  | scan clock now order => exact sound.scan possible attended
  | failedScan clock =>
    exact ⟨sound.store, fun id => (sound.each id).keep (Alike.refl _) rfl rfl rfl possible fun _ => Iff.rfl⟩

theorem sound_start {b : ApprovalBackend} (empty : b.Empty) (time : Int) : Sound parse { store := b, time } := by
  have missing : ∀ id, b.view id = none := by
    intro id
    cases empty <;> rfl
  refine ⟨empty.sound, fun id => ?_⟩
  constructor <;> simp [missing, reports]

/-- In every run from an empty store in which scans get all approvals that
have expired and none of these is claimed first, each approval that was pending
when it expired is reported once, from the first scan that has succeeded since,
and no other is reported. -/
theorem expired_reported_exactly {b : ApprovalBackend} (empty : b.Empty) (time : Int) {inputs : List ScannerInput}
    (meets : (machine config parse).Meets (fun s input => Possible parse s input ∧ Attended config s input)
      { store := b, time } inputs) :
    ReportedExactly ((machine config parse).run { store := b, time } inputs) := by
  have sound : Sound parse ((machine config parse).run { store := b, time } inputs) :=
    meets.run_invariant (fun _ _ guarded before => before.step guarded.1 guarded.2) (sound_start empty time)
  exact sound.reportedExactly

end Runs

/-- Reads the time at which the sample approval expires. -/
def sampleParse (text : String) : Option Int :=
  if text = "1970-01-01T00:05:00+00:00" then some 300000000000 else none

def makeSample : ApprovalCall :=
  ⟨.atSecond 0 "1970-01-01T00:00:00+00:00", .createPending (.testDefault "a1")⟩

/-- The first scan after the approval has expired. -/
def scanAfterExpiry (order : Enumeration) : ScannerInput :=
  .scan (.atSecond 330 "1970-01-01T00:05:30+00:00") ⟨330000000000, "1970-01-01T00:05:30+00:00"⟩ order

def sampleRows : SqliteDb := (Sqlite.step defaultConfig ∅ makeSample).1

def sampleEntries : InMemoryMap := (InMemory.step defaultConfig ∅ makeSample).1

theorem sampleRows_payload {id : String} {row : SqliteRow} (stored : sampleRows.lookup id = some row) :
    row.payload = .testDefault "a1" := by
  have inside : ⟨id, row⟩ ∈ sampleRows.entries := AList.mem_lookup_iff.mp stored
  obtain ⟨rfl, same⟩ := Sigma.mk.inj (List.mem_singleton.mp inside)
  rw [eq_of_heq same]
  rfl

theorem expired_reported_exactly_sqlite :
    ReportedExactly ((machine defaultConfig sampleParse).run { store := .sqlite ∅ }
      [.call makeSample, scanAfterExpiry (.sqlite sampleRows.entries)]) ∧
    reports ((machine defaultConfig sampleParse).run { store := .sqlite ∅ }
      [.call makeSample, scanAfterExpiry (.sqlite sampleRows.entries)]) "a1" = 1 := by
  refine ⟨expired_reported_exactly .sqlite 0 ?_, by decide⟩
  refine ⟨⟨⟨by decide, ?_⟩, ?_⟩, ⟨⟨by decide, by decide, List.Perm.refl _⟩, ?_, ?_⟩, trivial⟩
  · intro payload made
    obtain rfl := ApprovalOp.createPending.inj made
    exact ⟨rfl, by decide⟩
  · intro id operator token claim
    cases claim
  · show 1 ≤ scanLimit
    decide
  · intro id r _ _ _ row stored
    rw [sampleRows_payload stored]
    exact ⟨_, rfl⟩

/-- In memory an approval is not listed any more as soon as it has expired, and
no scan reports it. -/
theorem expired_in_memory_unreported :
    (machine defaultConfig sampleParse).Meets (Possible sampleParse) { store := .inMemory ∅ }
      [.call makeSample, scanAfterExpiry (.inMemory sampleEntries.entries)] ∧
    ¬ReportedExactly ((machine defaultConfig sampleParse).run { store := .inMemory ∅ }
      [.call makeSample, scanAfterExpiry (.inMemory sampleEntries.entries)]) := by
  refine ⟨⟨⟨by decide, ?_⟩, ⟨by decide, by decide, List.Perm.refl _⟩, trivial⟩, ?_⟩
  · intro payload made
    obtain rfl := ApprovalOp.createPending.inj made
    exact ⟨rfl, by decide⟩
  · intro exactly
    have once := (exactly "a1").1 _ rfl ⟨by decide, fun t moved => absurd moved List.not_mem_nil⟩
    exact absurd once (by decide)

end Expiry

end Latchgate
