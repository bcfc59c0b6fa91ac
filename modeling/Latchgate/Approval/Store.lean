import Latchgate.Approval.Types
import Latchgate.Machine.Run
import Mathlib.Data.List.Sort

namespace Latchgate

/-- The public operations of the approval store. The claim token is drawn at
random by the store, so every token is possible. -/
inductive ApprovalOp where
  | createPending (pending : PendingApproval)
  | getPending (approvalId : String)
  | getStatus (approvalId : String)
  | listApprovals (stateFilter : Option ApprovalState) (limit : Nat)
  | claimPending (approvalId operatorId claimToken : String)
  | writeOutcomeMarker (approvalId claimToken outcomeKind outcomeDetail : String)
  | complete (kind : TerminalKind) (approvalId claimToken traceId detail : String)

inductive ApprovalAnswer where
  | done (result : Except ApprovalError Unit)
  | payload (result : Except ApprovalError (Option PendingApproval))
  | status (result : Except ApprovalError (Option ApprovalStatus))
  | summaries (result : Except ApprovalError (List ApprovalSummary))
  | claim (result : Except ApprovalError ClaimedApproval)

/-- An operation together with the clocks at which it runs. -/
structure ApprovalCall where
  clock : Clock
  op : ApprovalOp

/-- No clock runs backwards. -/
def NonDecreasing (calls : List ApprovalCall) : Prop :=
  calls.Pairwise fun earlier later =>
    earlier.clock.instant ≤ later.clock.instant ∧ earlier.clock.utc.unixNanos ≤ later.clock.utc.unixNanos

/-- All clocks at a whole second after the start of their counting. -/
def Clock.atSecond (seconds : Nat) (rfc3339 : String) : Clock where
  instant := seconds * nanosPerSecond
  utc := ⟨seconds * nanosPerSecond, rfc3339⟩
  redisMillis := seconds * 1000

/-- How a call of the state backend can fail: before it does anything, or after
it has done everything, with the answer lost. -/
inductive StoreFault where
  | refused (message : String)
  | answerLost (message : String)

/-- When a call of the store is made, and whether the backend fails on it. -/
structure StoreIo where
  clock : Clock
  fault : Option StoreFault := none

/-- The hard cap of a listing. -/
def listCap : Nat := 1000

/-- Newest first; entries made at the same time stay in the order they were found in. -/
def sortByCreatedAt (summaries : List ApprovalSummary) : List ApprovalSummary :=
  summaries.insertionSort fun a b => b.createdAt ≤ a.createdAt

def defaultConfig : StoreConfig where
  defaultTtl := 300 * nanosPerSecond
  readFloat := .ok

/-- A run in which an approval is made and claimed. -/
def claimedRun : List ApprovalCall :=
  [⟨.atSecond 0 "1970-01-01T00:00:00+00:00", .createPending (.testDefault "a1")⟩,
    ⟨.atSecond 1 "1970-01-01T00:00:01+00:00", .claimPending "a1" "op:alice" "t1"⟩]

def markApproved : ApprovalCall :=
  ⟨.atSecond 2 "1970-01-01T00:00:02+00:00", .writeOutcomeMarker "a1" "t1" "approved" "rcpt-1"⟩

end Latchgate
