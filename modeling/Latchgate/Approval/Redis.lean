import Latchgate.Approval.Record

namespace Latchgate

/-- The hash under the key of an approval, with the time at which the key expires. -/
structure RedisHash extends StoredFields where
  expireAtMillis : Int

abbrev RedisDb := AList fun _ : String => RedisHash

namespace Redis
variable (config : StoreConfig)

/-- An expired key is gone for every command. -/
def find (db : RedisDb) (approvalId : String) (now : Clock) : Option RedisHash :=
  (db.lookup approvalId).filter fun hash => now.redisMillis ≤ hash.expireAtMillis

/-- The claim token is left out on the reading paths. -/
def recordFromHash (state : ApprovalState) (payload : PendingApproval) (fields : StoredFields) :
    ApprovalRecord where
  state := state
  payload := payload
  claim :=
    match fields.claimedBy, fields.claimedAt with
    | some by_, some at_ => some ⟨by_, at_, "", fields.claimExpiresAtUnix.getD 0⟩
    | _, _ => none
  outcomeMarker :=
    match fields.terminalOutcomeKind, fields.terminalOutcomeAt, fields.terminalOutcomeDetail with
    | some kind, some at_, some detail => some ⟨kind, at_, detail⟩
    | _, _, _ => none
  completion := fields.completedAt.map fun completedAt =>
    ⟨completedAt, fields.terminalTraceId.getD "", fields.receiptId, fields.denyReason, fields.errorCode⟩

/-- `LUA_CREATE`. -/
def create (db : RedisDb) (record : ApprovalRecord) (now : Clock) : RedisDb × Except ApprovalError Unit :=
  let id := record.payload.approvalId
  match find db id now with
  | some _ => (db, .error (.alreadyExists id))
  | none =>
    (db.insert id
      { state := record.state.asStr, payload := record.payload
        expireAtMillis := now.redisMillis + (max config.ttlSecs 1 : Nat) * 1000 }, .ok ())

def getPending (db : RedisDb) (approvalId : String) (now : Clock) :
    Except ApprovalError (Option PendingApproval) :=
  match find db approvalId now with
  | none => .ok none
  | some hash =>
    if hash.state ≠ "pending" then .ok none
    else match config.readPayload hash.payload with
      | .ok payload => .ok (some payload)
      | .error e => .error e

def getRecord (db : RedisDb) (approvalId : String) (now : Clock) :
    Except ApprovalError (Option ApprovalRecord) :=
  match find db approvalId now with
  | none => .ok none
  | some hash =>
    match ApprovalState.fromDbStr hash.state with
    | none => .error (.dataCorrupted ("unknown state: " ++ hash.state))
    | some state =>
      match config.readPayload hash.payload with
      | .ok payload => .ok (some (recordFromHash state payload hash.toStoredFields))
      | .error e => .error e

/-- One fetched hash of the listing, or nothing when it is skipped. The filter
looks at the stored state. -/
def summarize (stateFilter : Option ApprovalState) (hash : RedisHash) : Option ApprovalSummary :=
  match ApprovalState.fromDbStr hash.state with
  | none => none
  | some state =>
    let skipped := match stateFilter with
      | some filter => decide (state ≠ filter)
      | none => false
    if skipped then none
    else match config.readPayload hash.payload with
      | .ok pending => some (recordFromHash state pending hash.toStoredFields).toSummary
      | .error _ => none

def maxScanIterations : Nat := 50

/-- The listing over the batches of keys that the scan yields. -/
def list (db : RedisDb) (batches : List (List String)) (stateFilter : Option ApprovalState) (limit : Nat)
    (now : Clock) : List ApprovalSummary :=
  let keys := (batches.take maxScanIterations).flatten
  let summaries := keys.filterMap fun id => (find db id now).bind (summarize config stateFilter)
  (sortByCreatedAt summaries).take limit

def claimedHash (hash : RedisHash) (operatorId claimToken : String) (now : Clock) : RedisHash :=
  { hash with
    toStoredFields := hash.toStoredFields.setClaim operatorId claimToken now.utc.rfc3339
      (now.utc.timestamp + config.claimTtlSecs) }

/-- `LUA_CLAIM`: the outcome marker is looked at before the state, and a claim
without an expiry can be taken over. -/
def luaClaim (hash : RedisHash) (approvalId : String) (now : Int) : Except ApprovalError Unit :=
  if hash.terminalOutcomeKind.isSome then .error (.alreadyCompleted approvalId)
  else if hash.state = "pending" then .ok ()
  else if hash.state = "claimed" then
    match hash.claimExpiresAtUnix with
    | some expires => if now < expires then .error (.alreadyClaimed approvalId) else .ok ()
    | none => .ok ()
  else .error (.alreadyCompleted approvalId)

def claim (db : RedisDb) (approvalId operatorId claimToken : String) (now : Clock) :
    RedisDb × Except ApprovalError ClaimedApproval :=
  match find db approvalId now with
  | none => (db, .error (.notFound approvalId))
  | some hash =>
    match luaClaim hash approvalId now.utc.timestamp with
    | .error e => (db, .error e)
    | .ok () =>
      (db.insert approvalId (claimedHash config hash operatorId claimToken now),
        match config.readPayload hash.payload with
        | .ok pending => .ok { pending, claimToken, claimedAt := now.utc.rfc3339, claimedBy := operatorId }
        | .error e => .error e)

/-- The test that `LUA_COMPLETE` and `LUA_WRITE_OUTCOME` share. -/
def luaRequireClaimed (hash : RedisHash) (approvalId claimToken : String) : Except ApprovalError Unit :=
  if hash.state ≠ "claimed" then
    if hash.state = "approved" ∨ hash.state = "denied" ∨ hash.state = "failed" then
      .error (.alreadyCompleted approvalId)
    else .error (.notClaimed approvalId)
  else if hash.claimToken ≠ some claimToken then .error (.tokenMismatch approvalId)
  else .ok ()

/-- The detail is written only when it is not empty, and the key lives on for
the forensics time. -/
def completedHash (hash : RedisHash) (terminalState traceId detailKey detailValue : String)
    (now : Clock) : RedisHash where
  toStoredFields := hash.toStoredFields.setCompletion terminalState now.utc.rfc3339 traceId detailKey
    (if detailKey ≠ "" ∧ detailValue ≠ "" then some detailValue else none)
  expireAtMillis := now.redisMillis + config.forensicsTtlSecs * 1000

/-- `LUA_COMPLETE`. -/
def complete (db : RedisDb) (approvalId claimToken terminalState traceId detailKey detailValue : String)
    (now : Clock) : RedisDb × Except ApprovalError Unit :=
  match find db approvalId now with
  | none => (db, .error (.notFound approvalId))
  | some hash =>
    match luaRequireClaimed hash approvalId claimToken with
    | .error e => (db, .error e)
    | .ok () =>
      (db.insert approvalId (completedHash config hash terminalState traceId detailKey detailValue now), .ok ())

def markedHash (hash : RedisHash) (outcomeKind outcomeDetail : String) (now : Clock) : RedisHash :=
  { hash with toStoredFields := hash.toStoredFields.setOutcome outcomeKind outcomeDetail now.utc.rfc3339 }

/-- `LUA_WRITE_OUTCOME`. -/
def writeOutcome (db : RedisDb) (approvalId claimToken outcomeKind outcomeDetail : String) (now : Clock) :
    RedisDb × Except ApprovalError Unit :=
  match find db approvalId now with
  | none => (db, .error (.notFound approvalId))
  | some hash =>
    if hash.terminalOutcomeKind.isSome then (db, .ok ())
    else match luaRequireClaimed hash approvalId claimToken with
      | .error e => (db, .error e)
      | .ok () => (db.insert approvalId (markedHash hash outcomeKind outcomeDetail now), .ok ())

/-- The store with the Redis backend. A scan that meets every key once, in one batch. -/
def step (db : RedisDb) (call : ApprovalCall) : RedisDb × ApprovalAnswer :=
  let now := call.clock
  match call.op with
  | .createPending pending =>
    let (next, result) := create config db (.newPending pending) now
    (next, .done result)
  | .getPending id => (db, .payload (getPending config db id now))
  | .getStatus id =>
    (db, .status ((getRecord config db id now).map fun found => found.map ApprovalRecord.toStatus))
  | .listApprovals filter limit =>
    (db, .summaries (.ok (list config db [db.keys] filter (min limit listCap) now)))
  | .claimPending id operator token =>
    let (next, result) := claim config db id operator token now
    (next, .claim result)
  | .writeOutcomeMarker id token kind detail =>
    let (next, result) := writeOutcome db id token kind detail now
    (next, .done result)
  | .complete kind id token traceId detail =>
    let (next, result) := complete config db id token kind.state.asStr traceId kind.detailKey detail now
    (next, .done result)

def machine : Machine RedisDb ApprovalCall ApprovalAnswer where
  step := step config

def traits : Traits where
  now := fun clock => clock.utc.timestamp
  lease := config.claimTtlSecs
  forgets := true

def Laid (db : RedisDb) : Prop :=
  Table.Laid RedisHash.toStoredFields db

/-- The record that a key holds, or held until it expired. -/
def view (db : RedisDb) (id : String) : Option ApprovalRecord :=
  Table.view RedisHash.toStoredFields db id

variable {config}

theorem lookup_of_find {db : RedisDb} {id : String} {now : Clock} {hash : RedisHash}
    (found : find db id now = some hash) : db.lookup id = some hash :=
  (Option.filter_eq_some_iff.mp found).1

/-- On a hash that holds a record the script decides as the shared transition
check does. -/
theorem luaClaim_eq {hash : RedisHash} {r : ApprovalRecord} (id : String) (now : Int)
    (holds : hash.toStoredFields = .ofRecord r) (formed : r.WellFormed) :
    luaClaim hash id now = validateClaimTransition r.state r.outcomeMarker.isSome
      (r.claim.map ClaimInfo.claimExpiresAtUnix) now id := by
  obtain ⟨fields, expireAt⟩ := hash
  obtain rfl : fields = .ofRecord r := holds
  cases state : r.state with
  | pending =>
    obtain ⟨-, unmarked⟩ := formed.unclaimed state
    simp [luaClaim, validateClaimTransition, StoredFields.ofRecord, state, unmarked, ApprovalState.asStr]
  | claimed =>
    obtain ⟨claim, present⟩ := Option.isSome_iff_exists.mp (formed.claimed state)
    cases marker : r.outcomeMarker <;>
      simp [luaClaim, validateClaimTransition, StoredFields.ofRecord, state, marker, present, ApprovalState.asStr]
  | approved => simp [luaClaim, validateClaimTransition, StoredFields.ofRecord, state, ApprovalState.asStr]
  | denied => simp [luaClaim, validateClaimTransition, StoredFields.ofRecord, state, ApprovalState.asStr]
  | failed => simp [luaClaim, validateClaimTransition, StoredFields.ofRecord, state, ApprovalState.asStr]

theorem luaRequireClaimed_eq {hash : RedisHash} {r : ApprovalRecord} (id token : String)
    (holds : hash.toStoredFields = .ofRecord r) :
    luaRequireClaimed hash id token =
      requireClaimedWithToken r.state (r.claim.map ClaimInfo.claimToken) token id := by
  obtain ⟨fields, expireAt⟩ := hash
  obtain rfl : fields = .ofRecord r := holds
  cases state : r.state with
  | claimed =>
    cases claim : r.claim <;>
      simp [luaRequireClaimed, requireClaimedWithToken, StoredFields.ofRecord, state, claim, ApprovalState.asStr]
  | pending => simp [luaRequireClaimed, requireClaimedWithToken, StoredFields.ofRecord, state,
      ApprovalState.asStr, ApprovalState.isTerminal]
  | approved => simp [luaRequireClaimed, requireClaimedWithToken, StoredFields.ofRecord, state,
      ApprovalState.asStr, ApprovalState.isTerminal]
  | denied => simp [luaRequireClaimed, requireClaimedWithToken, StoredFields.ofRecord, state,
      ApprovalState.asStr, ApprovalState.isTerminal]
  | failed => simp [luaRequireClaimed, requireClaimedWithToken, StoredFields.ofRecord, state,
      ApprovalState.asStr, ApprovalState.isTerminal]

/-- A call leaves the table well laid and is a step of every record. -/
def Steps (config : StoreConfig) (db : RedisDb) (call : ApprovalCall) : Prop :=
  Laid (step config db call).1 ∧ ∀ id, RecordStep (traits config) id call (step config db call).2
    (view db id) (view (step config db call).1 id)

theorem create_steps {db : RedisDb} (laid : Laid db) (now : Clock) (pending : PendingApproval) :
    Steps config db ⟨now, .createPending pending⟩ := by
  unfold Steps
  cases stored : find db pending.approvalId now with
  | some row =>
    simp only [step, create, ApprovalRecord.newPending, stored]
    exact Table.idle_step laid (by simp) (by simp)
  | none =>
    simp only [step, create, ApprovalRecord.newPending, stored]
    refine Table.insert_step laid (StoredFields.ofRecord_newPending pending).symm rfl ?_
    exact .create rfl rfl (.inr rfl) rfl

theorem claim_steps {db : RedisDb} (laid : Laid db) (now : Clock) (id operator token : String) :
    Steps config db ⟨now, .claimPending id operator token⟩ := by
  unfold Steps
  cases stored : find db id now with
  | none =>
    simp only [step, claim, stored]
    exact Table.idle_step laid (by simp) (by simp)
  | some hash =>
    obtain ⟨r, holds, formed, named⟩ := laid id hash (lookup_of_find stored)
    simp only [step, claim, stored, luaClaim_eq id now.utc.timestamp holds formed]
    split
    · exact Table.idle_step laid (by simp) (by simp)
    · rename_i valid
      refine Table.insert_step laid (by rw [claimedHash, holds, StoredFields.ofRecord_setClaim]) rfl ?_
      rw [Table.view_of_lookup (lookup_of_find stored) holds]
      exact .claim rfl (claimable_of_valid valid)

theorem writeOutcome_steps {db : RedisDb} (laid : Laid db) (now : Clock) (id token kind detail : String) :
    Steps config db ⟨now, .writeOutcomeMarker id token kind detail⟩ := by
  unfold Steps
  cases stored : find db id now with
  | none =>
    simp only [step, writeOutcome, stored]
    exact Table.idle_step laid (by simp) (by simp)
  | some hash =>
    obtain ⟨r, holds, formed, named⟩ := laid id hash (lookup_of_find stored)
    have found := Table.view_of_lookup (lookup_of_find stored) holds
    have kinds : hash.terminalOutcomeKind = r.outcomeMarker.map OutcomeMarker.kind :=
      congrArg StoredFields.terminalOutcomeKind holds
    simp only [step, writeOutcome, stored, luaRequireClaimed_eq id token holds]
    split_ifs with present
    · have marked : r.outcomeMarker.isSome := by simpa [kinds] using present
      exact Table.idle_step laid (by simp) (fun _ => ⟨id, token, kind, detail, r, rfl, found, marked⟩)
    · split
      · exact Table.idle_step laid (by simp) (by simp)
      · rename_i valid
        obtain ⟨claimed, holder⟩ := requireClaimedWithToken_ok.1 valid
        have unmarked : r.outcomeMarker = none := by simpa [kinds] using present
        refine Table.insert_step laid (by rw [markedHash, holds, StoredFields.ofRecord_setOutcome]) rfl ?_
        rw [found]
        exact .mark rfl claimed unmarked holder rfl

theorem complete_steps {db : RedisDb} (laid : Laid db) (now : Clock) (kind : TerminalKind)
    (id token traceId detail : String) : Steps config db ⟨now, .complete kind id token traceId detail⟩ := by
  unfold Steps
  cases stored : find db id now with
  | none =>
    simp only [step, complete, stored]
    exact Table.idle_step laid (by simp) (by simp)
  | some hash =>
    obtain ⟨r, holds, formed, named⟩ := laid id hash (lookup_of_find stored)
    simp only [step, complete, stored, luaRequireClaimed_eq id token holds]
    split
    · exact Table.idle_step laid (by simp) (by simp)
    · rename_i valid
      obtain ⟨claimed, holder⟩ := requireClaimedWithToken_ok.1 valid
      refine Table.insert_step laid (by
        rw [completedHash, holds, StoredFields.ofRecord_setCompletion (formed.incomplete claimed)]) rfl ?_
      rw [Table.view_of_lookup (lookup_of_find stored) holds]
      refine .complete rfl claimed holder rfl ?_
      have key : kind.detailKey ≠ "" := by cases kind <;> decide
      by_cases empty : detail = "" <;> simp [key, empty]

/-- Every key goes on holding a record, and the records change as calls may
change them. -/
theorem step_record {db : RedisDb} (laid : Laid db) (call : ApprovalCall) :
    Laid (step config db call).1 ∧ ∀ id, RecordStep (traits config) id call (step config db call).2
      (view db id) (view (step config db call).1 id) := by
  obtain ⟨now, op⟩ := call
  cases op with
  | getPending id => exact Table.idle_step laid (by simp [step]) (by simp [step])
  | getStatus id => exact Table.idle_step laid (by simp [step]) (by simp [step])
  | listApprovals filter limit => exact Table.idle_step laid (by simp [step]) (by simp [step])
  | createPending pending => exact create_steps laid now pending
  | claimPending id operator token => exact claim_steps laid now id operator token
  | writeOutcomeMarker id token kind detail => exact writeOutcome_steps laid now id token kind detail
  | complete kind id token traceId detail => exact complete_steps laid now kind id token traceId detail

end Redis
end Latchgate
