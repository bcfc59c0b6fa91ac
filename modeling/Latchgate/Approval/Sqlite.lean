import Latchgate.Approval.Record

namespace Latchgate

/-- A row of `pending_approvals`. -/
structure SqliteRow extends StoredFields where
  createdAt : String
  expiresAtUnix : Int

abbrev SqliteDb := AList fun _ : String => SqliteRow

namespace Sqlite
variable (config : StoreConfig)

def create (db : SqliteDb) (record : ApprovalRecord) (now : Clock) : SqliteDb × Except ApprovalError Unit :=
  let id := record.payload.approvalId
  match db.lookup id with
  | some _ => (db, .error (.alreadyExists id))
  | none =>
    (db.insert id
      { state := record.state.asStr, payload := record.payload, createdAt := record.payload.createdAt
        expiresAtUnix := now.utc.timestamp + config.ttlSecs }, .ok ())

def getPending (db : SqliteDb) (approvalId : String) (now : Clock) :
    Except ApprovalError (Option PendingApproval) :=
  match db.lookup approvalId with
  | some row =>
    if row.state = "pending" ∧ row.expiresAtUnix > now.utc.timestamp then
      match config.readPayload row.payload with
      | .ok pending => .ok (some pending)
      | .error e => .error e
    else .ok none
  | none => .ok none

def getRecord (db : SqliteDb) (approvalId : String) : Except ApprovalError (Option ApprovalRecord) :=
  match db.lookup approvalId with
  | some row =>
    match ApprovalState.fromDbStr row.state with
    | none => .error (.dataCorrupted ("unknown approval state in database: " ++ row.state))
    | some state =>
      match config.readPayload row.payload with
      | .ok payload => .ok (some (recordFromRow state payload row.toStoredFields))
      | .error e => .error e
  | none => .ok none

/-- One selected row of the listing, or nothing when it is skipped. The state
reported is the one of the column. -/
def summarize (row : SqliteRow) : Option ApprovalSummary :=
  match ApprovalState.fromDbStr row.state, config.readPayload row.payload with
  | some state, .ok payload =>
    some
      { approvalId := payload.approvalId
        state
        actionId := payload.actionId
        actionVersion := payload.plan.actionVersion
        principal := payload.authContext.principal
        sessionId := payload.authContext.sessionId
        owner := payload.authContext.owner
        riskLevel := payload.plan.riskLevel
        requestHash := payload.requestHash
        createdAt := payload.createdAt
        expiresAt := payload.plan.core.expiresAt.rfc3339
        claimedBy := row.claimedBy }
  | _, _ => none

/-- The listing over the rows in the order in which the query meets them:
selection, order and limit are the query's, the rest is done to its result. -/
def listRows (rows : List (Sigma fun _ : String => SqliteRow)) (stateFilter : Option ApprovalState)
    (limit : Nat) : List ApprovalSummary :=
  let selected := rows.filter fun e =>
    match stateFilter with
    | some s => decide (e.2.state = s.asStr)
    | none => true
  let ordered := selected.insertionSort fun a b => b.2.createdAt ≤ a.2.createdAt
  (ordered.take limit).filterMap fun e => summarize config e.2

def list (db : SqliteDb) (stateFilter : Option ApprovalState) (limit : Nat) : List ApprovalSummary :=
  listRows config db.entries stateFilter limit

def claimedRow (row : SqliteRow) (operatorId claimToken : String) (now : Clock) : SqliteRow :=
  { row with
    toStoredFields := row.toStoredFields.setClaim operatorId claimToken now.utc.rfc3339
      (now.utc.timestamp + config.claimTtlSecs) }

def claim (db : SqliteDb) (approvalId operatorId claimToken : String) (now : Clock) :
    SqliteDb × Except ApprovalError ClaimedApproval :=
  match db.lookup approvalId with
  | none => (db, .error (.notFound approvalId))
  | some row =>
    if row.expiresAtUnix > now.utc.timestamp - max (config.ttlSecs : Int) 0 then
      match ApprovalState.fromDbStr row.state with
      | none => (db, .error (.dataCorrupted ("unknown state: " ++ row.state)))
      | some state =>
        match validateClaimTransition state row.terminalOutcomeKind.isSome row.claimExpiresAtUnix
            now.utc.timestamp approvalId with
        | .error e => (db, .error e)
        | .ok () =>
          (db.insert approvalId (claimedRow config row operatorId claimToken now),
            match config.readPayload row.payload with
            | .ok pending =>
              .ok { pending, claimToken, claimedAt := now.utc.rfc3339, claimedBy := operatorId }
            | .error e => .error e)
    else (db, .error (.notFound approvalId))

def completedRow (row : SqliteRow) (terminalState traceId detailKey detailValue : String) (now : Clock) :
    SqliteRow :=
  { row with
    toStoredFields := row.toStoredFields.setCompletion terminalState now.utc.rfc3339 traceId detailKey
      (some detailValue) }

def complete (db : SqliteDb) (approvalId claimToken terminalState traceId detailKey detailValue : String)
    (now : Clock) : SqliteDb × Except ApprovalError Unit :=
  match db.lookup approvalId with
  | none => (db, .error (.notFound approvalId))
  | some row =>
    match ApprovalState.fromDbStr row.state with
    | none => (db, .error (.dataCorrupted ("unknown approval state in database: " ++ row.state)))
    | some state =>
      match requireClaimedWithToken state row.claimToken claimToken approvalId with
      | .error e => (db, .error e)
      | .ok () =>
        (db.insert approvalId (completedRow row terminalState traceId detailKey detailValue now), .ok ())

def markedRow (row : SqliteRow) (outcomeKind outcomeDetail : String) (now : Clock) : SqliteRow :=
  { row with toStoredFields := row.toStoredFields.setOutcome outcomeKind outcomeDetail now.utc.rfc3339 }

def writeOutcome (db : SqliteDb) (approvalId claimToken outcomeKind outcomeDetail : String) (now : Clock) :
    SqliteDb × Except ApprovalError Unit :=
  match db.lookup approvalId with
  | none => (db, .error (.notFound approvalId))
  | some row =>
    if row.terminalOutcomeKind.isSome then (db, .ok ())
    else
      match ApprovalState.fromDbStr row.state with
      | none => (db, .error (.dataCorrupted ("unknown approval state in database: " ++ row.state)))
      | some state =>
        match requireClaimedWithToken state row.claimToken claimToken approvalId with
        | .error e => (db, .error e)
        | .ok () => (db.insert approvalId (markedRow row outcomeKind outcomeDetail now), .ok ())

/-- The store with the SQLite backend. -/
def step (db : SqliteDb) (call : ApprovalCall) : SqliteDb × ApprovalAnswer :=
  let now := call.clock
  match call.op with
  | .createPending pending =>
    let (next, result) := create config db (.newPending pending) now
    (next, .done result)
  | .getPending id => (db, .payload (getPending config db id now))
  | .getStatus id =>
    (db, .status ((getRecord config db id).map fun found => found.map ApprovalRecord.toStatus))
  | .listApprovals filter limit => (db, .summaries (.ok (list config db filter (min limit listCap))))
  | .claimPending id operator token =>
    let (next, result) := claim config db id operator token now
    (next, .claim result)
  | .writeOutcomeMarker id token kind detail =>
    let (next, result) := writeOutcome db id token kind detail now
    (next, .done result)
  | .complete kind id token traceId detail =>
    let (next, result) := complete db id token kind.state.asStr traceId kind.detailKey detail now
    (next, .done result)

def machine : Machine SqliteDb ApprovalCall ApprovalAnswer where
  step := step config

def traits : Traits where
  now := fun clock => clock.utc.timestamp
  lease := config.claimTtlSecs
  forgets := false

def Laid (db : SqliteDb) : Prop :=
  Table.Laid SqliteRow.toStoredFields db

/-- The record that a row of the table holds. -/
def view (db : SqliteDb) (id : String) : Option ApprovalRecord :=
  Table.view SqliteRow.toStoredFields db id

variable {config}

theorem state_ofRecord (r : ApprovalRecord) :
    ApprovalState.fromDbStr (StoredFields.ofRecord r).state = some r.state :=
  ApprovalState.fromDbStr_asStr r.state

/-- A call leaves the table well laid and is a step of every record. -/
def Steps (config : StoreConfig) (db : SqliteDb) (call : ApprovalCall) : Prop :=
  Laid (step config db call).1 ∧ ∀ id, RecordStep (traits config) id call (step config db call).2
    (view db id) (view (step config db call).1 id)

theorem create_steps {db : SqliteDb} (laid : Laid db) (now : Clock) (pending : PendingApproval) :
    Steps config db ⟨now, .createPending pending⟩ := by
  unfold Steps
  cases stored : db.lookup pending.approvalId with
  | some row =>
    simp only [step, create, ApprovalRecord.newPending, stored]
    exact Table.idle_step laid (by simp) (by simp)
  | none =>
    simp only [step, create, ApprovalRecord.newPending, stored]
    refine Table.insert_step laid (StoredFields.ofRecord_newPending pending).symm rfl ?_
    exact .create rfl rfl (.inl (by simp [Table.view, stored])) rfl

theorem claim_steps {db : SqliteDb} (laid : Laid db) (now : Clock) (id operator token : String) :
    Steps config db ⟨now, .claimPending id operator token⟩ := by
  unfold Steps
  cases stored : db.lookup id with
  | none =>
    simp only [step, claim, stored]
    exact Table.idle_step laid (by simp) (by simp)
  | some row =>
    obtain ⟨fields, createdAt, expires⟩ := row
    obtain ⟨r, rfl, formed, named⟩ := laid id _ stored
    simp only [step, claim, stored, state_ofRecord]
    split_ifs with visible
    · split
      · exact Table.idle_step laid (by simp) (by simp)
      · rename_i valid
        have transition : validateClaimTransition r.state r.outcomeMarker.isSome
            (r.claim.map ClaimInfo.claimExpiresAtUnix) now.utc.timestamp id = .ok () := by
          simpa [StoredFields.ofRecord] using valid
        refine Table.insert_step laid (StoredFields.ofRecord_setClaim r operator token _ _) rfl ?_
        rw [Table.view_of_lookup stored rfl]
        exact .claim rfl (claimable_of_valid transition)
    · exact Table.idle_step laid (by simp) (by simp)

theorem writeOutcome_steps {db : SqliteDb} (laid : Laid db) (now : Clock) (id token kind detail : String) :
    Steps config db ⟨now, .writeOutcomeMarker id token kind detail⟩ := by
  unfold Steps
  cases stored : db.lookup id with
  | none =>
    simp only [step, writeOutcome, stored]
    exact Table.idle_step laid (by simp) (by simp)
  | some row =>
    obtain ⟨fields, createdAt, expires⟩ := row
    obtain ⟨r, rfl, formed, named⟩ := laid id _ stored
    have found : Table.view SqliteRow.toStoredFields db id = some r := Table.view_of_lookup stored rfl
    simp only [step, writeOutcome, stored, state_ofRecord]
    split_ifs with present
    · have marked : r.outcomeMarker.isSome := by simpa [StoredFields.ofRecord] using present
      exact Table.idle_step laid (by simp) (fun _ => ⟨id, token, kind, detail, r, rfl, found, marked⟩)
    · split
      · exact Table.idle_step laid (by simp) (by simp)
      · rename_i valid
        obtain ⟨claimed, holder⟩ := requireClaimedWithToken_ok.1 valid
        have unmarked : r.outcomeMarker = none := by simpa [StoredFields.ofRecord] using present
        refine Table.insert_step laid (StoredFields.ofRecord_setOutcome r kind detail _) rfl ?_
        rw [found]
        exact .mark rfl claimed unmarked holder rfl

theorem complete_steps {db : SqliteDb} (laid : Laid db) (now : Clock) (kind : TerminalKind)
    (id token traceId detail : String) : Steps config db ⟨now, .complete kind id token traceId detail⟩ := by
  unfold Steps
  cases stored : db.lookup id with
  | none =>
    simp only [step, complete, stored]
    exact Table.idle_step laid (by simp) (by simp)
  | some row =>
    obtain ⟨fields, createdAt, expires⟩ := row
    obtain ⟨r, rfl, formed, named⟩ := laid id _ stored
    simp only [step, complete, stored, state_ofRecord]
    split
    · exact Table.idle_step laid (by simp) (by simp)
    · rename_i valid
      obtain ⟨claimed, holder⟩ := requireClaimedWithToken_ok.1 valid
      refine Table.insert_step laid
        (StoredFields.ofRecord_setCompletion (formed.incomplete claimed) kind _ traceId _) rfl ?_
      rw [Table.view_of_lookup stored rfl]
      exact .complete rfl claimed holder rfl (.inl rfl)

/-- Every row of the table goes on holding a record, and the records change
as calls may change them. -/
theorem step_record {db : SqliteDb} (laid : Laid db) (call : ApprovalCall) :
    Laid (step config db call).1 ∧ ∀ id, RecordStep (traits config) id call (step config db call).2
      (view db id) (view (step config db call).1 id) := by
  obtain ⟨now, op⟩ := call
  cases op with
  | getPending id => exact Table.idle_step laid (by simp [step]) (by simp [step])
  | getStatus id => exact Table.idle_step laid (by simp [step]) (by simp [step])
  | listApprovals filter limit => exact Table.idle_step laid (by simp [step]) (by simp [step])
  | createPending pending => exact create_steps laid now pending
  | claimPending id operator token => exact claim_steps laid now id operator token
  | writeOutcomeMarker id token kind detail => exact writeOutcome_steps laid now id token kind detail
  | complete kind id token traceId detail => exact complete_steps laid now kind id token traceId detail

end Sqlite
end Latchgate
