import Latchgate.Ledger.Error
import Latchgate.Ledger.Event
import Latchgate.Machine.Run
import Mathlib.Data.List.Sort

namespace Latchgate

/-- A row of `audit_events`: the event as text, and the columns that are
searched by. -/
structure EventRow where
  traceId : String
  timestamp : String
  eventType : String
  principal : String
  sessionId : String
  actionId : String
  decision : String
  eventJson : String
  deriving DecidableEq

def AuditEvent.row (e : AuditEvent) : EventRow where
  traceId := e.traceId
  timestamp := e.timestamp
  eventType := e.eventType.asStr
  principal := e.subject.principal
  sessionId := e.subject.sessionId
  actionId := e.action.actionId
  decision := e.policy.decision.asStr
  eventJson := e.toText

/-- What the ledger keeps of a receipt. -/
structure ReceiptRow where
  receiptId : String
  grantId : String
  receiptJson : String
  deriving DecidableEq

structure ExecutionIntent where
  traceId : String
  grantId : String
  actionId : String
  principal : String
  providerModuleDigest : String
  requestHash : String
  approvedBy : Option String
  startedAt : String
  deriving DecidableEq

structure ConsumedGrant where
  grantId : String
  actionId : String
  principal : String
  consumedAt : String
  deriving DecidableEq

/-- The tables, each in the order of its rows. -/
structure Tables where
  auditEvents : List EventRow := []
  receipts : List ReceiptRow := []
  executionIntents : List ExecutionIntent := []
  consumedGrants : List ConsumedGrant := []
  deriving DecidableEq

namespace Tables

def insertEvent (row : EventRow) (t : Tables) : Except SqlError Tables :=
  if t.auditEvents.any fun old => old.traceId = row.traceId then
    .error (.constraintViolation "UNIQUE constraint failed: audit_events.trace_id")
  else .ok { t with auditEvents := t.auditEvents ++ [row] }

def insertOrIgnoreReceipt (row : ReceiptRow) (t : Tables) : Except SqlError Tables :=
  if t.receipts.any fun old => old.receiptId = row.receiptId then .ok t
  else .ok { t with receipts := t.receipts ++ [row] }

def insertOrIgnoreIntent (intent : ExecutionIntent) (t : Tables) : Except SqlError Tables :=
  if t.executionIntents.any fun old => old.grantId = intent.grantId then .ok t
  else .ok { t with executionIntents := t.executionIntents ++ [intent] }

def insertConsumedGrant (row : ConsumedGrant) (t : Tables) : Except SqlError Tables :=
  if t.consumedGrants.any fun old => old.grantId = row.grantId then
    .error (.constraintViolation "UNIQUE constraint failed: consumed_grants.grant_id")
  else .ok { t with consumedGrants := t.consumedGrants ++ [row] }

/-- The intents without a receipt of their grant, oldest first. -/
def unresolvedIntents (t : Tables) : List ExecutionIntent :=
  (t.executionIntents.filter fun intent => t.receipts.all fun receipt => receipt.grantId ≠ intent.grantId).insertionSort
    fun a b => a.startedAt ≤ b.startedAt

end Tables

/-- How `COMMIT` fails: the database has given the transaction up, or it is
still active and could be committed later. -/
structure CommitFault where
  message : String
  stillActive : Bool := false

/-- What goes wrong outside the store's own logic during a call. -/
structure LedgerIo where
  lockPoisoned : Bool := false
  beginTransaction : Option String := none
  insertReceipt : Option String := none
  insertEvent : Option String := none
  insertIntent : Option String := none
  insertGrant : Option String := none
  commit : Option CommitFault := none
  sink : Option String := none

/-- The database file, and what the writer holds: its open transaction, the
head of the chain and whether there is a JSONL sink. -/
structure LedgerStore where
  committed : Tables := {}
  transaction : Option Tables := none
  chainHead : Option String := none
  jsonlSink : Bool := false

structure ChainVerification where
  totalEvents : Nat
  verifiedLinks : Nat
  brokenAt : Option String
  deriving DecidableEq

def ChainVerification.isIntact (report : ChainVerification) : Bool :=
  report.brokenAt.isNone

def eventChainLimits : Limits where
  maxBytes := 256 * 1024
  maxDepth := 64

namespace Codec
variable (codec : Codec)

def computeEventHash (event : Json) : Except LedgerError String :=
  (codec.canonicalHash event eventChainLimits).mapError .canonicalization

/-- The hash of a stored event, from its text. -/
def hashText (eventJson : String) : Except LedgerError String := do
  let value ← (codec.fromStr eventJson).mapError .serialization
  codec.computeEventHash value

/-- The typed reading of a stored event. -/
def readEvent (eventJson : String) : Except LedgerError AuditEvent := do
  let value ← (codec.fromStr eventJson).mapError fun message => .sqlite (.failure message)
  match AuditEvent.decode value with
  | some event => .ok event
  | none => .error (.sqlite (.failure "event_json is not an audit event"))

/-- The loop of `verify_chain`. -/
def verifyFrom (expectedPrevHash : Option String) (total verified : Nat) :
    List EventRow → Except LedgerError ChainVerification
  | [] => .ok ⟨total, verified, none⟩
  | row :: rest => do
    let event ← codec.readEvent row.eventJson
    if event.prevHash ≠ expectedPrevHash then .ok ⟨total + 1, verified, some event.traceId⟩
    else
      let hash ← codec.hashText row.eventJson
      verifyFrom (some hash) (total + 1) (verified + 1) rest

def recoverChainHead (t : Tables) : Except LedgerError (Option String) :=
  match t.auditEvents.getLast? with
  | none => .ok none
  | some row => (codec.hashText row.eventJson).map some

end Codec

namespace LedgerStore

/-- The tables as the writer's connection sees them. -/
def view (s : LedgerStore) : Tables :=
  s.transaction.getD s.committed

def put (s : LedgerStore) (t : Tables) : LedgerStore :=
  match s.transaction with
  | some _ => { s with transaction := some t }
  | none => { s with committed := t }

/-- One statement, in the open transaction or on its own. -/
def execute (s : LedgerStore) (fault : Option String) (statement : Tables → Except SqlError Tables) :
    Except SqlError LedgerStore :=
  match fault with
  | some message => .error (.failure message)
  | none => (statement s.view).map s.put

def beginImmediate (s : LedgerStore) (fault : Option String) : Except SqlError LedgerStore :=
  match fault, s.transaction with
  | some message, _ => .error (.failure message)
  | none, some _ => .error (.failure "cannot start a transaction within a transaction")
  | none, none => .ok { s with transaction := some s.committed }

/-- `COMMIT`: what it leaves when it fails is its second part. -/
def commit (s : LedgerStore) (fault : Option CommitFault) : Except (SqlError × LedgerStore) LedgerStore :=
  match fault with
  | none => .ok { s with committed := s.view, transaction := none }
  | some ⟨message, true⟩ => .error (.failure message, s)
  | some ⟨message, false⟩ => .error (.failure message, { s with transaction := none })

def rollback (s : LedgerStore) : LedgerStore :=
  { s with transaction := none }

/-- The end of a write: the head moves to the event that was inserted. -/
def moveHead (codec : Codec) (s : LedgerStore) (eventJson : String) : LedgerStore × Except LedgerError Unit :=
  match codec.hashText eventJson with
  | .error e => (s, .error e)
  | .ok hash => ({ s with chainHead := some hash }, .ok ())

/-- The event as it is stored: chained to the head. -/
def chained (s : LedgerStore) (event : AuditEvent) : AuditEvent :=
  { event with prevHash := s.chainHead }

def writeEvent (codec : Codec) (s : LedgerStore) (event : AuditEvent) (io : LedgerIo) :
    LedgerStore × Except LedgerError Unit :=
  if io.lockPoisoned then (s, .error .lockPoisoned)
  else
    let row := (s.chained event).row
    match s.execute io.insertEvent (Tables.insertEvent row) with
    | .error e => (s, .error (.sqlite e))
    | .ok inserted =>
      match moveHead codec inserted row.eventJson, inserted.jsonlSink, io.sink with
      | (s, .ok ()), true, some message => (s, .error (.io message))
      | outcome, _, _ => outcome

def tryConsumeGrant (s : LedgerStore) (grant : ConsumedGrant) (io : LedgerIo) : LedgerStore × Except LedgerError Unit :=
  if io.lockPoisoned then (s, .error .lockPoisoned)
  else match s.execute io.insertGrant (Tables.insertConsumedGrant grant) with
    | .ok inserted => (inserted, .ok ())
    | .error (.constraintViolation _) => (s, .error (.grantAlreadyConsumed grant.grantId))
    | .error e => (s, .error (.sqlite e))

/-- The statements of `write_intent_and_consume_grant` within its transaction. -/
def intentStatements (s : LedgerStore) (intent : ExecutionIntent) (grant : ConsumedGrant) (io : LedgerIo) :
    Except LedgerError LedgerStore := do
  let written ← (s.execute io.insertIntent (Tables.insertOrIgnoreIntent intent)).mapError .sqlite
  match written.execute io.insertGrant (Tables.insertConsumedGrant grant) with
  | .ok consumed => .ok consumed
  | .error (.constraintViolation _) => .error (.grantAlreadyConsumed intent.grantId)
  | .error e => .error (.sqlite e)

/-- The grant that is consumed is the one of the intent. A `COMMIT` that fails
is not followed by a `ROLLBACK`. -/
def writeIntentAndConsumeGrant (s : LedgerStore) (intent : ExecutionIntent) (actionId principal consumedAt : String)
    (io : LedgerIo) : LedgerStore × Except LedgerError Unit :=
  if io.lockPoisoned then (s, .error .lockPoisoned)
  else match s.beginImmediate io.beginTransaction with
    | .error e => (s, .error (.sqlite e))
    | .ok opened =>
      match intentStatements opened intent ⟨intent.grantId, actionId, principal, consumedAt⟩ io with
      | .error e => (opened.rollback, .error e)
      | .ok written =>
        match written.commit io.commit with
        | .ok done => (done, .ok ())
        | .error (e, left) => (left, .error (.sqlite e))

/-- The statements of `finalize_evidence` within its transaction. -/
def evidenceStatements (s : LedgerStore) (receipt : ReceiptRow) (row : EventRow) (io : LedgerIo) :
    Except SqlError LedgerStore := do
  let stored ← s.execute io.insertReceipt (Tables.insertOrIgnoreReceipt receipt)
  let written ← stored.execute io.insertEvent (Tables.insertEvent row)
  (written.commit io.commit).mapError Prod.fst

/-- A sink that fails after the commit is only logged. -/
def finalizeEvidence (codec : Codec) (s : LedgerStore) (receipt : ReceiptRow) (event : AuditEvent) (io : LedgerIo) :
    LedgerStore × Except LedgerError Unit :=
  if io.lockPoisoned then (s, .error .lockPoisoned)
  else match s.beginImmediate io.beginTransaction with
    | .error e => (s, .error (.sqlite e))
    | .ok opened =>
      match evidenceStatements opened receipt (s.chained event).row io with
      | .error e => (opened.rollback, .error (.sqlite e))
      | .ok done => moveHead codec done (s.chained event).row.eventJson

/-- Readers have connections of their own and see what is committed. -/
def verifyChain (codec : Codec) (s : LedgerStore) : Except LedgerError ChainVerification :=
  codec.verifyFrom none 0 0 s.committed.auditEvents

def getUnresolvedIntents (s : LedgerStore) (fault : Option String) : Except LedgerError (List ExecutionIntent) :=
  match fault with
  | some message => .error (.sqlite (.failure message))
  | none => .ok s.committed.unresolvedIntents

/-- `open` on the file of a store that was dropped. Locking, migrating and
opening the sink fail as `fault` says. -/
def reopen (codec : Codec) (s : LedgerStore) (fault : Option LedgerError) : Except LedgerError LedgerStore :=
  match fault with
  | some e => .error e
  | none => do
    let chainHead ← codec.recoverChainHead s.committed
    .ok { s with transaction := none, chainHead }

end LedgerStore
end Latchgate
