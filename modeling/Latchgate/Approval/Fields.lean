import Latchgate.Approval.Store

namespace Latchgate

/-- The flat columns in which the SQLite row and the Redis hash of an approval
keep its record. The payload is kept as the value whose JSON text is stored. -/
structure StoredFields where
  state : String
  payload : PendingApproval
  claimedBy : Option String := none
  claimedAt : Option String := none
  claimToken : Option String := none
  claimExpiresAtUnix : Option Int := none
  completedAt : Option String := none
  terminalTraceId : Option String := none
  receiptId : Option String := none
  denyReason : Option String := none
  errorCode : Option String := none
  terminalOutcomeKind : Option String := none
  terminalOutcomeAt : Option String := none
  terminalOutcomeDetail : Option String := none

namespace StoredFields

def setClaim (f : StoredFields) (operatorId claimToken claimedAt : String) (expiresAt : Int) : StoredFields :=
  { f with
    state := "claimed"
    claimedBy := some operatorId
    claimedAt := some claimedAt
    claimToken := some claimToken
    claimExpiresAtUnix := some expiresAt }

def setOutcome (f : StoredFields) (outcomeKind outcomeDetail outcomeAt : String) : StoredFields :=
  { f with
    terminalOutcomeKind := some outcomeKind
    terminalOutcomeAt := some outcomeAt
    terminalOutcomeDetail := some outcomeDetail }

/-- The detail goes into the column that its key names; the other columns keep
what they have. -/
def setCompletion (f : StoredFields) (terminalState completedAt traceId detailKey : String)
    (detail : Option String) : StoredFields :=
  let detailFor (key : String) : Option String := if detailKey = key then detail else none
  { f with
    state := terminalState
    completedAt := some completedAt
    terminalTraceId := some traceId
    receiptId := (detailFor "receipt_id").or f.receiptId
    denyReason := (detailFor "deny_reason").or f.denyReason
    errorCode := (detailFor "error_code").or f.errorCode }

/-- How a record is laid out in the columns. -/
def ofRecord (r : ApprovalRecord) : StoredFields where
  state := r.state.asStr
  payload := r.payload
  claimedBy := r.claim.map ClaimInfo.claimedBy
  claimedAt := r.claim.map ClaimInfo.claimedAt
  claimToken := r.claim.map ClaimInfo.claimToken
  claimExpiresAtUnix := r.claim.map ClaimInfo.claimExpiresAtUnix
  completedAt := r.completion.map CompletionInfo.completedAt
  terminalTraceId := r.completion.map CompletionInfo.traceId
  receiptId := r.completion.bind CompletionInfo.receiptId
  denyReason := r.completion.bind CompletionInfo.denyReason
  errorCode := r.completion.bind CompletionInfo.errorCode
  terminalOutcomeKind := r.outcomeMarker.map OutcomeMarker.kind
  terminalOutcomeAt := r.outcomeMarker.map OutcomeMarker.outcomeAt
  terminalOutcomeDetail := r.outcomeMarker.map OutcomeMarker.detail

end StoredFields

namespace Sqlite

/-- Reads a record back from the columns of its row. -/
def recordFromRow (state : ApprovalState) (payload : PendingApproval) (row : StoredFields) :
    ApprovalRecord where
  state := state
  payload := payload
  claim :=
    match row.claimedBy, row.claimedAt, row.claimToken, row.claimExpiresAtUnix with
    | some by_, some at_, some token, some expiry => some ⟨by_, at_, token, expiry⟩
    | _, _, _, _ => none
  outcomeMarker :=
    match row.terminalOutcomeKind, row.terminalOutcomeAt, row.terminalOutcomeDetail with
    | some kind, some at_, some detail => some ⟨kind, at_, detail⟩
    | _, _, _ => none
  completion :=
    match row.completedAt, row.terminalTraceId with
    | some completedAt, some traceId =>
      some ⟨completedAt, traceId, row.receiptId, row.denyReason, row.errorCode⟩
    | _, _ => none

end Sqlite

/-- The record that the columns hold. -/
def StoredFields.toRecord (f : StoredFields) : Option ApprovalRecord :=
  (ApprovalState.fromDbStr f.state).map fun state => Sqlite.recordFromRow state f.payload f

/-- The completion of a kind; the detail belongs to the field of that kind. -/
def TerminalKind.completion (kind : TerminalKind) (completedAt traceId : String) (detail : Option String) :
    CompletionInfo where
  completedAt := completedAt
  traceId := traceId
  receiptId := if kind = .approved then detail else none
  denyReason := if kind = .denied then detail else none
  errorCode := if kind = .failed then detail else none

theorem buildCompletionInfo_eq (kind : TerminalKind) (completedAt traceId detail : String) :
    buildCompletionInfo completedAt traceId kind.detailKey detail =
      kind.completion completedAt traceId (if detail = "" then none else some detail) := by
  by_cases empty : detail = ""
  · cases kind <;> simp [buildCompletionInfo, TerminalKind.completion, empty]
  · cases kind <;> simp [buildCompletionInfo, TerminalKind.completion, TerminalKind.detailKey, empty]

namespace StoredFields

theorem recordFromRow_ofRecord (r : ApprovalRecord) (payload : PendingApproval) :
    Sqlite.recordFromRow r.state payload (ofRecord r) = { r with payload } := by
  obtain ⟨state, original, claim, marker, completion⟩ := r
  cases claim <;> cases marker <;> cases completion <;> rfl

@[simp] theorem toRecord_ofRecord (r : ApprovalRecord) : (ofRecord r).toRecord = some r := by
  have state : ApprovalState.fromDbStr (ofRecord r).state = some r.state := ApprovalState.fromDbStr_asStr r.state
  rw [toRecord, state, Option.map_some]
  exact congrArg some (recordFromRow_ofRecord r r.payload)

@[simp] theorem ofRecord_newPending (payload : PendingApproval) :
    ofRecord (.newPending payload) = { state := "pending", payload } := rfl

theorem ofRecord_setClaim (r : ApprovalRecord) (operatorId claimToken claimedAt : String) (expiresAt : Int) :
    (ofRecord r).setClaim operatorId claimToken claimedAt expiresAt =
      ofRecord { r with state := .claimed, claim := some ⟨operatorId, claimedAt, claimToken, expiresAt⟩ } :=
  rfl

theorem ofRecord_setOutcome (r : ApprovalRecord) (kind detail outcomeAt : String) :
    (ofRecord r).setOutcome kind detail outcomeAt =
      ofRecord { r with outcomeMarker := some ⟨kind, outcomeAt, detail⟩ } :=
  rfl

theorem ofRecord_setCompletion {r : ApprovalRecord} (incomplete : r.completion = none) (kind : TerminalKind)
    (completedAt traceId : String) (detail : Option String) :
    (ofRecord r).setCompletion kind.state.asStr completedAt traceId kind.detailKey detail =
      ofRecord { r with
        state := kind.state
        completion := some (kind.completion completedAt traceId detail) } := by
  cases kind <;>
    simp [setCompletion, ofRecord, incomplete, TerminalKind.detailKey, TerminalKind.completion, TerminalKind.state]

end StoredFields
end Latchgate
