import Mathlib.Data.List.Sort

namespace Latchgate

inductive EventKind where
  | approvalPending
  | approvalGranted
  | approvalDenied
  | approvalExpired
  | actionDenied
  | actionExecuted
  | actionFailed
  | revocation
  | budgetExhausted
  | budgetRollbackFailed
  deriving DecidableEq

/-- The settings of an endpoint that decide what is sent to it and how often. -/
structure WebhookEndpointConfig where
  name : String
  events : List EventKind
  timeoutSeconds : Nat := 5
  maxRetries : Nat := 3
  retryBackoffSeconds : List Nat := [1, 5, 30]
  disable : Bool := false
  deriving DecidableEq

/-- A row of the table. Times are texts, as they are stored and compared. -/
structure OutboxRow where
  id : Nat
  eventId : String
  endpointName : String
  payloadJson : String
  createdAt : String
  attempts : Nat
  nextAttemptAt : String
  deliveredAt : Option String
  deadLetteredAt : Option String
  lastError : Option String
  claimedBy : Option String
  claimedAt : Option String
  deriving DecidableEq

/-- The table with the number that the next row gets. -/
structure WebhookOutbox where
  rows : List OutboxRow := []
  nextId : Nat := 1

namespace WebhookOutbox

/-- A pair that is there already is ignored. -/
def enqueue (eventId endpointName payloadJson now : String) (o : WebhookOutbox) : WebhookOutbox :=
  if o.rows.any fun r => r.eventId = eventId ∧ r.endpointName = endpointName then o
  else
    let row := OutboxRow.mk o.nextId eventId endpointName payloadJson now 0 now none none none none none
    { rows := o.rows ++ [row], nextId := o.nextId + 1 }

def updateRow (id : Nat) (f : OutboxRow → OutboxRow) (o : WebhookOutbox) : WebhookOutbox :=
  { o with rows := o.rows.map fun r => if r.id = id then f r else r }

def claimable (now : String) (r : OutboxRow) : Bool :=
  r.deliveredAt = none ∧ r.deadLetteredAt = none ∧ r.claimedBy = none ∧ r.nextAttemptAt ≤ now

/-- `threshold` is the text that SQLite computes for the time at which a claim
of now is stale. -/
def releaseStale (threshold : String) (r : OutboxRow) : OutboxRow :=
  match r.claimedBy, r.claimedAt with
  | some _, some claimedAt => if claimedAt < threshold then { r with claimedBy := none, claimedAt := none } else r
  | _, _ => r

def earliestFirst (rows : List OutboxRow) : List OutboxRow :=
  rows.insertionSort fun a b => a.nextAttemptAt ≤ b.nextAttemptAt

/-- Stale claims are released, and the rows that are due get the claim of the
poller. -/
def pollPending (limit : Nat) (pollerId now threshold : String) (o : WebhookOutbox) : List OutboxRow × WebhookOutbox :=
  let released := o.rows.map (releaseStale threshold)
  let due := ((earliestFirst (released.filter (claimable now))).take limit).map (·.id)
  let claim (r : OutboxRow) : OutboxRow :=
    if r.id ∈ due then { r with claimedBy := some pollerId, claimedAt := some now } else r
  let rows := released.map claim
  (rows.filter (·.id ∈ due), { o with rows })

def markDelivered (id : Nat) (now : String) (o : WebhookOutbox) : WebhookOutbox :=
  o.updateRow id fun r => { r with deliveredAt := some now, claimedBy := none, claimedAt := none }

/-- `later` is the text of the time so many seconds from now. -/
def recordFailure (id : Nat) (error : String) (maxAttempts : Nat) (backoffSeconds : List Nat) (now : String)
    (later : Nat → String) (o : WebhookOutbox) : WebhookOutbox :=
  o.updateRow id fun r =>
    let newAttempts := r.attempts + 1
    if maxAttempts ≤ newAttempts then
      { r with
        attempts := newAttempts
        lastError := some error
        deadLetteredAt := some now
        claimedBy := none
        claimedAt := none }
    else
      let backoff := (backoffSeconds[min newAttempts (backoffSeconds.length - 1)]?).getD 60
      { r with
        attempts := newAttempts
        lastError := some error
        nextAttemptAt := later backoff
        claimedBy := none
        claimedAt := none }

/-- Whatever the state of the row is. -/
def retryDeadLetter (id : Nat) (now : String) (o : WebhookOutbox) : WebhookOutbox :=
  o.updateRow id fun r =>
    { r with
      deadLetteredAt := none
      lastError := none
      attempts := 0
      nextAttemptAt := now
      claimedBy := none
      claimedAt := none }

/-- Which event a row is for does not change. -/
theorem mem_eventId_of_updateRow {id : Nat} {f : OutboxRow → OutboxRow} {o : WebhookOutbox} {r : OutboxRow}
    (keeps : ∀ r, (f r).eventId = r.eventId) (member : r ∈ (o.updateRow id f).rows) :
    ∃ old ∈ o.rows, old.eventId = r.eventId := by
  obtain ⟨old, listed, rfl⟩ := List.mem_map.mp member
  refine ⟨old, listed, ?_⟩
  split
  · exact (keeps old).symm
  · rfl

theorem mem_eventId_of_markDelivered {id : Nat} {now : String} {o : WebhookOutbox} {r : OutboxRow}
    (member : r ∈ (o.markDelivered id now).rows) : ∃ old ∈ o.rows, old.eventId = r.eventId :=
  mem_eventId_of_updateRow (fun _ => by rfl) member

theorem mem_eventId_of_recordFailure {id maxAttempts : Nat} {error now : String} {backoffSeconds : List Nat}
    {later : Nat → String} {o : WebhookOutbox} {r : OutboxRow}
    (member : r ∈ (o.recordFailure id error maxAttempts backoffSeconds now later).rows) :
    ∃ old ∈ o.rows, old.eventId = r.eventId := by
  refine mem_eventId_of_updateRow (fun r => ?_) member
  dsimp only
  split <;> rfl

theorem releaseStale_eventId (threshold : String) (r : OutboxRow) : (releaseStale threshold r).eventId = r.eventId := by
  unfold releaseStale
  split
  · split <;> rfl
  · rfl

theorem mem_eventId_of_pollPending {limit : Nat} {pollerId now threshold : String} {o : WebhookOutbox} {r : OutboxRow}
    (member : r ∈ (o.pollPending limit pollerId now threshold).2.rows) : ∃ old ∈ o.rows, old.eventId = r.eventId := by
  obtain ⟨claimed, released, rfl⟩ := List.mem_map.mp member
  obtain ⟨old, listed, rfl⟩ := List.mem_map.mp released
  refine ⟨old, listed, ?_⟩
  split <;> exact (releaseStale_eventId threshold old).symm

theorem polled_mem {limit : Nat} {pollerId now threshold : String} {o : WebhookOutbox} {r : OutboxRow}
    (member : r ∈ (o.pollPending limit pollerId now threshold).1) :
    r ∈ (o.pollPending limit pollerId now threshold).2.rows :=
  (List.mem_filter.mp member).1

end WebhookOutbox

end Latchgate
