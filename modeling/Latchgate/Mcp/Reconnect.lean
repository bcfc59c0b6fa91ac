import Latchgate.Machine.Run
import Mathlib.Algebra.Group.Nat.Defs
import Mathlib.Logic.Function.Basic

namespace Latchgate.Mcp

/-! Times are in milliseconds; the expiry of a lease is in seconds. -/

def toolCacheTtl : Nat := 300 * 1000

def backoffMaxSeconds : Nat := 30

def renewThresholdSeconds : Nat := 60

/-- The jitter is taken from the nanoseconds of the clock. -/
def backoffDuration (attempt entropy : Nat) : Nat :=
  let base := min (if attempt - 1 < 64 then 2 ^ (attempt - 1) else 2 ^ 64 - 1) backoffMaxSeconds
  let jitterRange := max (base / 4) 1
  let jitter := entropy % (2 * jitterRange + 1)
  max (base - jitterRange + jitter) 1 * 1000

structure ReconnectState where
  healthy : Bool
  attempt : Nat
  nextRetryAt : Nat

namespace ReconnectState

def newHealthy (now : Nat) : ReconnectState where
  healthy := true
  attempt := 0
  nextRetryAt := now

def enterReconnecting (now entropy : Nat) (_ : ReconnectState) : ReconnectState where
  healthy := false
  attempt := 1
  nextRetryAt := now + backoffDuration 1 entropy

def advanceBackoff (now entropy : Nat) (state : ReconnectState) : ReconnectState where
  healthy := state.healthy
  attempt := min (state.attempt + 1) (2 ^ 32 - 1)
  nextRetryAt := now + backoffDuration (min (state.attempt + 1) (2 ^ 32 - 1)) entropy

def restoreHealthy (state : ReconnectState) : ReconnectState where
  healthy := true
  attempt := 0
  nextRetryAt := state.nextRetryAt

def canRetryNow (now : Nat) (state : ReconnectState) : Bool :=
  state.nextRetryAt ≤ now

/-- A request may be sent: the gate is held to be healthy, or the next attempt
is due. -/
def Ready (now : Nat) (state : ReconnectState) : Prop :=
  state.healthy = true ∨ state.nextRetryAt ≤ now

end ReconnectState

/-- A lease with the signing key of the gate that issued it. -/
structure LeaseState where
  key : Nat
  expiresAt : Nat
  deriving DecidableEq

/-- What the handlers and the background task do. The arguments of a tool call
are valid for the schema of the tool or not. -/
inductive Op where
  | startup
  | toolsList
  | toolCall (name : String) (valid : Bool)
  | myPending
  | readActions
  | operatorRead
  | refreshTick
  deriving DecidableEq

/-- The operations that look at the health of the gate before anything else. -/
def Op.checked : Op → Bool
  | toolsList | toolCall _ _ | myPending | refreshTick => true
  | startup | readActions | operatorRead => false

/-- The cache is refreshed behind a reconnection, or for the operation itself. -/
inductive FetchFor where
  | reconnect
  | own

inductive LeaseFor where
  | reconnect
  | own
  | poll

inductive Request where
  | health
  | lease (why : LeaseFor)
  | actions (why : FetchFor)
  | detail (why : FetchFor) (names : List String) (left : Nat)
  | act
  | poll
  | operator

inductive Reply where
  | done
  | pending
  | tools (names : List String)
  | lease (lease : LeaseState)
  | garbled
  | rejected

/-- A request on its way: not sent, sent, or answered and not received. -/
inductive Stage where
  | unsent
  | sent
  | answered (reply : Reply)

/-- Where a task is between two of its steps. -/
inductive Position where
  | idle
  | check
  | lookup
  | needLease (why : LeaseFor)
  | request (request : Request) (stage : Stage)
  | backoff
  | restore
  | returned
  | note (cached polls : Bool)
  | fail

/-- A task is stale when another one has recorded a failure since its check,
outdated when that was since its last response. -/
structure Task where
  op : Op
  position : Position
  stale : Bool
  outdated : Bool

/-- The adapter with its tasks, and the signing key of the gate that runs. -/
structure Adapter where
  now : Nat
  reconnect : ReconnectState
  tools : Option (List String × Nat)
  lease : Option LeaseState
  gateKey : Nat
  heard : Bool
  task : Nat → Task

/-- What a step shows: a request with the state in which it is sent, the way
back to health, and the return from a reconnection. -/
inductive Event where
  | quiet
  | sends (state : ReconnectState) (now : Nat)
  | restores (heard : Bool)
  | reconnected (lease : Option LeaseState) (gateKey unixNow : Nat)

inductive Input where
  | start (p : Nat) (op : Op)
  | advance (p entropy : Nat)
  | serve (p : Nat) (reply : Reply)
  | lost (p : Nat)
  | stopPolling (p : Nat)
  | pass (time : Nat)
  | restart

/-- The gate that runs accepts the lease. -/
def LeaseState.Accepted (gateKey unixNow : Nat) (lease : LeaseState) : Prop :=
  lease.key = gateKey ∧ unixNow < lease.expiresAt

namespace Adapter

def unixNow (s : Adapter) : Nat :=
  s.now / 1000

def put (p : Nat) (position : Position) (s : Adapter) : Adapter :=
  { s with task := Function.update s.task p { s.task p with position } }

/-- A failure is on record; the other tasks know nothing of it. -/
def record (p : Nat) (s : Adapter) : Adapter :=
  { s with
    heard := false
    task := fun q => if q = p then s.task q else { s.task q with stale := true, outdated := true } }

/-- A response has come. -/
def hear (p : Nat) (s : Adapter) : Adapter :=
  { s with heard := true, task := Function.update s.task p { s.task p with outdated := false } }

def needsRenewal (s : Adapter) : Bool :=
  s.lease.all fun lease => lease.expiresAt < s.unixNow + renewThresholdSeconds

/-- The fresher lease is kept. -/
def storeLease (lease : LeaseState) (s : Adapter) : Adapter :=
  if s.lease.any fun existing => lease.expiresAt ≤ existing.expiresAt then s else { s with lease := some lease }

def onTransportFailure (p entropy : Nat) (s : Adapter) : Adapter :=
  if s.reconnect.healthy then { s.record p with reconnect := s.reconnect.enterReconnecting s.now entropy } else s

def restored (s : Adapter) : Adapter × Event :=
  ({ s with reconnect := s.reconnect.restoreHealthy },
    if s.reconnect.healthy then .quiet else .restores s.heard)

def onGateSuccess (s : Adapter) : Adapter × Event :=
  if s.reconnect.healthy then (s, .quiet) else s.restored

end Adapter

/-! Where an operation goes on. -/

def afterLease (op : Op) : LeaseFor → Position
  | .reconnect => .restore
  | .own => if op = .startup then .request (.actions .own) .unsent else .request .act .unsent
  | .poll => .request .poll .unsent

def afterFetch (op : Op) (names : List String) : FetchFor → Position
  | .reconnect => .returned
  | .own =>
    match op with
    | .toolsList | .readActions | .refreshTick => .note false false
    | .toolCall name valid => if name ∈ names ∧ valid then .needLease .own else .idle
    | .startup | .myPending | .operatorRead => .idle

def failedFetch : FetchFor → Position
  | .reconnect => .returned
  | .own => .idle

/-- `tools/list` and the resource take a fresh cache as it is. A call looks for
its tool in the cache, however old it is. -/
def lookupPosition (op : Op) (s : Adapter) : Position :=
  match op with
  | .toolsList | .readActions =>
    match s.tools with
    | some (_, fetchedAt) =>
      if s.now < fetchedAt + toolCacheTtl then .note true false else .request (.actions .own) .unsent
    | none => .request (.actions .own) .unsent
  | .toolCall name valid =>
    match s.tools with
    | some (names, _) =>
      if name ∈ names then if valid then .needLease .own else .idle else .request (.actions .own) .unsent
    | none => .needLease .own
  | .myPending | .startup => .needLease .own
  | .operatorRead => .request .operator .unsent
  | .refreshTick => .idle

def checkPosition (op : Op) (s : Adapter) : Position :=
  if s.reconnect.healthy then if op = .refreshTick then .request (.actions .own) .unsent else .lookup
  else if op = .refreshTick then .idle
  else if s.reconnect.canRetryNow s.now then .request .health .unsent else .idle

/-- The tool list is stored once its details are there, or have failed. -/
def nextDetail (p : Nat) (op : Op) (why : FetchFor) (names : List String) (left : Nat) (s : Adapter) : Adapter :=
  if left = 0 then { s with tools := some (names, s.now) }.put p (afterFetch op names why)
  else s.put p (.request (.detail why names left) .unsent)

def Adapter.receive (p : Nat) (op : Op) (request : Request) (reply : Reply) (s : Adapter) : Adapter :=
  match request, reply with
  | .health, .tools _ => s.put p (.needLease .reconnect)
  | .health, _ => s.put p .backoff
  | .lease why, .lease lease => (s.storeLease lease).put p (afterLease op why)
  | .lease .reconnect, _ => s.put p .backoff
  -- an answer that is not JSON counts as a transport error
  | .lease _, .garbled => s.put p (if op = .startup then .idle else .fail)
  | .lease _, _ => s.put p .idle
  | .actions why, .tools names => nextDetail p op why names (2 * names.length) s
  | .actions why, _ => s.put p (failedFetch why)
  | .detail why names left, _ => nextDetail p op why names (left - 1) s
  | .act, .done => s.put p (.note false false)
  | .act, .pending => s.put p (.note false (op ≠ .myPending))
  | .act, _ => s.put p .idle
  | .poll, .pending => s.put p (.needLease .poll)
  | .poll, _ => s.put p .idle
  | .operator, _ => s.put p .idle

def Adapter.transportError (p : Nat) (op : Op) (request : Request) (s : Adapter) : Adapter :=
  match request with
  | .health | .lease .reconnect => s.put p .backoff
  | .lease _ => s.put p (if op = .startup then .idle else .fail)
  | .actions .reconnect => s.put p .returned
  | .actions .own => s.put p (if op = .startup ∨ op = .readActions then .idle else .fail)
  | .detail why names left => nextDetail p op why names (left - 1) s
  | .act | .poll => s.put p .fail
  | .operator => s.put p .idle

/-- One step of a task up to its next await, lock or report. -/
def Adapter.advance (p entropy : Nat) (s : Adapter) : Adapter × Event :=
  let op := (s.task p).op
  match (s.task p).position with
  | .idle => (s, .quiet)
  | .check =>
    ({ s with task := Function.update s.task p { s.task p with position := checkPosition op s, stale := false } }, .quiet)
  | .lookup => (s.put p (lookupPosition op s), .quiet)
  | .needLease why => (s.put p (if s.needsRenewal then .request (.lease why) .unsent else afterLease op why), .quiet)
  | .request request .unsent => (s.put p (.request request .sent), .sends s.reconnect s.now)
  | .request _ .sent => (s, .quiet)
  | .request request (.answered reply) => ((s.hear p).receive p op request reply, .quiet)
  | .backoff =>
    ({ s.record p with reconnect := s.reconnect.advanceBackoff s.now entropy }.put p .idle, .quiet)
  | .restore => (s.restored.1.put p (.request (.actions .reconnect) .unsent), s.restored.2)
  | .returned => (s.put p .lookup, .reconnected s.lease s.gateKey s.unixNow)
  | .note _ polls =>
    (s.onGateSuccess.1.put p (if polls then .needLease .poll else .idle), s.onGateSuccess.2)
  | .fail => ((s.onTransportFailure p entropy).put p .idle, .quiet)

/-- The gate signs a lease with its own key. -/
def Adapter.answer (s : Adapter) : Reply → Reply
  | .lease lease => .lease { lease with key := s.gateKey }
  | reply => reply

def adapter : Machine Adapter Input Event where
  step s input :=
    match input with
    | .start p op =>
      match (s.task p).position with
      | .idle =>
        ({ s with task := Function.update s.task p ⟨op, if op.checked then .check else .lookup, false, false⟩ }, .quiet)
      | _ => (s, .quiet)
    | .advance p entropy => s.advance p entropy
    | .serve p reply =>
      match (s.task p).position with
      | .request request .sent => (s.put p (.request request (.answered (s.answer reply))), .quiet)
      | _ => (s, .quiet)
    | .lost p =>
      match (s.task p).position with
      | .request _ .unsent => (s, .quiet)
      | .request request _ => (s.transportError p (s.task p).op request, .quiet)
      | _ => (s, .quiet)
    | .stopPolling p =>
      match (s.task p).position with
      | .needLease .poll => (s.put p .idle, .quiet)
      | _ => (s, .quiet)
    | .pass time => ({ s with now := s.now + time }, .quiet)
    | .restart => ({ s with gateKey := s.gateKey + 1 }, .quiet)

/-- The adapter as it starts, with all tasks at rest. -/
def Adapter.start (now gateKey : Nat) : Adapter where
  now := now
  reconnect := .newHealthy now
  tools := none
  lease := none
  gateKey := gateKey
  heard := false
  task _ := ⟨.startup, .idle, false, false⟩

/-- What is asked of the adapter. -/
def Event.Kept : Event → Prop
  | quiet => True
  | sends state now => state.Ready now
  | restores heard => heard = true
  | reconnected lease gateKey unixNow => ∃ l, lease = some l ∧ l.Accepted gateKey unixNow

instance : DecidablePred Event.Kept
  | .quiet => isTrue trivial
  | .sends state now => inferInstanceAs (Decidable (state.healthy = true ∨ state.nextRetryAt ≤ now))
  | .restores heard => inferInstanceAs (Decidable (heard = true))
  | .reconnected none _ _ => isFalse fun ⟨_, held, _⟩ => nomatch held
  | .reconnected (some lease) gateKey unixNow =>
    decidable_of_iff (lease.key = gateKey ∧ unixNow < lease.expiresAt)
      ⟨fun accepted => ⟨lease, rfl, accepted⟩, fun ⟨_, held, accepted⟩ => Option.some.inj held ▸ accepted⟩

/-! The condition on a run, and what holds in the runs that meet it. -/

namespace Position

/-- Past its check, with requests or a report ahead. -/
def active : Position → Bool
  | idle | check | backoff | fail => false
  | lookup | needLease _ | request _ _ | restore | returned | note _ _ => true

/-- A response has come since the operation began. -/
def responded : Position → Bool
  | needLease .reconnect | request (.lease .reconnect) _ | request (.detail _ _ _) _ | restore | note false _ => true
  | _ => false

/-- In a reconnection past its lease. -/
def secured : Position → Bool
  | restore | request (.actions .reconnect) _ | request (.detail .reconnect _ _) _ | returned => true
  | _ => false

end Position

def Adapter.LeaseAccepted (s : Adapter) : Prop :=
  ∃ lease, s.lease = some lease ∧ lease.Accepted s.gateKey s.unixNow

/-- While the gate is held to be down, nobody sends a request without having
looked, or on the strength of an older look, and success is not reported for
an answer from the cache or from before the failure. The gate restarts only
while the lease is about to be renewed and no lease is in use for a
reconnection, whose lease is new and lasts until it returns. -/
def Adapter.Orderly (s : Adapter) : Input → Prop
  | .advance p _ =>
    match (s.task p).position with
    | .request _ .unsent => (s.task p).op.checked = false ∨ (s.task p).stale = true → s.reconnect.healthy = true
    | .note cached _ => cached = true ∨ (s.task p).outdated = true → s.reconnect.healthy = true
    | .restore => (s.task p).outdated = true → s.reconnect.healthy = true
    | .request (.lease .reconnect) (.answered (.lease lease)) =>
      s.unixNow < lease.expiresAt ∧
        ∀ existing ∈ s.lease, existing.key = lease.key ∨ existing.expiresAt < lease.expiresAt
    | _ => True
  | .pass time => (∃ p, (s.task p).position.secured = true) → ∀ lease ∈ s.lease, (s.now + time) / 1000 < lease.expiresAt
  | .restart =>
    s.needsRenewal = true ∧
      ∀ p, (s.task p).position.secured = false ∧ ∀ why lease, (s.task p).position ≠ .request (.lease why) (.answered (.lease lease))
  | _ => True

/-- What a task may rely on. -/
structure Task.Sound (s : Adapter) (t : Task) : Prop where
  ready : t.position.active = true → t.op.checked = true → t.stale = false → s.reconnect.Ready s.now
  heard : t.position.responded = true → t.outdated = false → s.heard = true
  secured : t.position.secured = true → s.LeaseAccepted
  lease : ∀ why lease, t.position = .request (.lease why) (.answered (.lease lease)) → lease.key = s.gateKey

structure Adapter.Sound (s : Adapter) : Prop where
  fresh : ∀ lease ∈ s.lease, s.unixNow + renewThresholdSeconds ≤ lease.expiresAt → lease.key = s.gateKey
  tasks : ∀ p, (s.task p).Sound s

theorem request_stage (request : Request) (stage other : Stage) :
    (Position.request request stage).responded = (Position.request request other).responded ∧
      (Position.request request stage).secured = (Position.request request other).secured := by
  cases request with
  | lease why => cases why <;> exact ⟨rfl, rfl⟩
  | actions why => cases why <;> exact ⟨rfl, rfl⟩
  | detail why names left => cases why <;> exact ⟨rfl, rfl⟩
  | _ => exact ⟨rfl, rfl⟩

theorem Task.Sound.of_inactive {s : Adapter} {t : Task} (rest : t.position.active = false) : t.Sound s := by
  constructor
  · intro active
    rw [rest] at active
    cases active
  · intro responded
    revert rest responded
    cases t.position <;> exact nofun
  · intro secured
    revert rest secured
    cases t.position <;> exact nofun
  · intro why lease at_
    rw [at_] at rest
    cases rest

namespace Adapter
variable {s : Adapter} {p : Nat}

theorem Sound.update {t : Task} (sound : s.Sound) (own : t.Sound s) :
    { s with task := Function.update s.task p t }.Sound where
  fresh := sound.fresh
  tasks q := by
    change (Function.update s.task p t q).Sound _
    by_cases same : q = p
    · subst same
      rw [Function.update_self]
      exact ⟨own.ready, own.heard, own.secured, own.lease⟩
    · rw [Function.update_of_ne same]
      exact ⟨(sound.tasks q).ready, (sound.tasks q).heard, (sound.tasks q).secured, (sound.tasks q).lease⟩

theorem Sound.rest {position : Position} (sound : s.Sound) (inactive : position.active = false) : (s.put p position).Sound :=
  sound.update (.of_inactive inactive)

/-- An active task goes on. -/
theorem Sound.move {position : Position} (sound : s.Sound) (was : (s.task p).position.active = true)
    (heard : position.responded = true → (s.task p).outdated = false → s.heard = true)
    (secured : position.secured = true → s.LeaseAccepted)
    (lease : ∀ why lease, position ≠ .request (.lease why) (.answered (.lease lease))) : (s.put p position).Sound :=
  sound.update ⟨fun _ checked current => (sound.tasks p).ready was checked current, heard, secured,
    fun why l here => absurd here (lease why l)⟩

theorem Sound.hear (sound : s.Sound) : (s.hear p).Sound where
  fresh := sound.fresh
  tasks q := by
    change (Function.update s.task p { s.task p with outdated := false } q).Sound _
    by_cases same : q = p
    · subst same
      rw [Function.update_self]
      exact ⟨(sound.tasks q).ready, fun _ _ => rfl, (sound.tasks q).secured, (sound.tasks q).lease⟩
    · rw [Function.update_of_ne same]
      exact ⟨(sound.tasks q).ready, fun _ _ => rfl, (sound.tasks q).secured, (sound.tasks q).lease⟩

@[simp] theorem hear_position : ((s.hear p).task p).position = (s.task p).position := by
  simp [Adapter.hear]

@[simp] theorem hear_op : ((s.hear p).task p).op = (s.task p).op := by
  simp [Adapter.hear]

/-- Whatever becomes of the reconnection, the others are told apart from those
who know of it. -/
theorem Sound.record {reconnect : ReconnectState} (sound : s.Sound) :
    ({ s.record p with reconnect }.put p .idle).Sound where
  fresh := sound.fresh
  tasks q := by
    by_cases same : q = p
    · subst same
      refine .of_inactive ?_
      simp [Adapter.put, Position.active]
    · have task : (({ s.record p with reconnect }.put p .idle).task q) = { s.task q with stale := true, outdated := true } := by
        simp [Adapter.put, Adapter.record, same]
      rw [task]
      exact ⟨nofun, nofun, (sound.tasks q).secured, (sound.tasks q).lease⟩

theorem Sound.restored (sound : s.Sound) : s.restored.1.Sound where
  fresh := sound.fresh
  tasks q := ⟨fun _ _ _ => .inl rfl, (sound.tasks q).heard, (sound.tasks q).secured, (sound.tasks q).lease⟩

theorem Sound.onGateSuccess (sound : s.Sound) : s.onGateSuccess.1.Sound := by
  unfold Adapter.onGateSuccess
  split
  · exact sound
  · exact sound.restored

theorem Sound.stored (tools : Option (List String × Nat)) (sound : s.Sound) : { s with tools }.Sound where
  fresh := sound.fresh
  tasks q := ⟨(sound.tasks q).ready, (sound.tasks q).heard, (sound.tasks q).secured, (sound.tasks q).lease⟩

/-- The lease that is kept is no older than the one that was held. -/
theorem LeaseAccepted.storeLease {lease : LeaseState} (accepted : s.LeaseAccepted) (issued : lease.key = s.gateKey) :
    (s.storeLease lease).LeaseAccepted := by
  obtain ⟨held, some, key, alive⟩ := accepted
  unfold Adapter.storeLease
  split
  · exact ⟨held, some, key, alive⟩
  · rename_i fresher
    simp only [some, Option.any_some, decide_eq_true_eq, Nat.not_le] at fresher
    exact ⟨lease, rfl, issued, Nat.lt_trans alive fresher⟩

/-- A new lease is in force once it is stored, unless one of another gate is
kept in its place. -/
theorem storeLease_accepted {lease : LeaseState} (issued : lease.key = s.gateKey) (alive : s.unixNow < lease.expiresAt)
    (fresher : ∀ existing ∈ s.lease, existing.key = lease.key ∨ existing.expiresAt < lease.expiresAt) :
    (s.storeLease lease).LeaseAccepted := by
  unfold Adapter.storeLease
  split
  · rename_i kept
    obtain ⟨existing, held, later⟩ := Option.any_eq_true _ _ |>.mp kept
    rw [decide_eq_true_eq] at later
    rcases fresher existing held with same | older
    · exact ⟨existing, held, same.trans issued, Nat.lt_of_lt_of_le alive later⟩
    · omega
  · exact ⟨lease, rfl, issued, alive⟩

@[simp] theorem storeLease_task (lease : LeaseState) : (s.storeLease lease).task = s.task := by
  unfold Adapter.storeLease
  split <;> rfl

@[simp] theorem storeLease_heard (lease : LeaseState) : (s.storeLease lease).heard = s.heard := by
  unfold Adapter.storeLease
  split <;> rfl

theorem Sound.storeLease {lease : LeaseState} (sound : s.Sound) (issued : lease.key = s.gateKey) :
    (s.storeLease lease).Sound := by
  have accepted : s.LeaseAccepted → (s.storeLease lease).LeaseAccepted := fun held => held.storeLease issued
  revert accepted
  unfold Adapter.storeLease
  split
  · exact fun _ => sound
  · intro accepted
    refine ⟨?_, fun q => ⟨(sound.tasks q).ready, (sound.tasks q).heard, fun secured => accepted ((sound.tasks q).secured secured),
      (sound.tasks q).lease⟩⟩
    intro held some _
    cases some
    exact issued

theorem afterFetch_free (op : Op) (names : List String) (why : FetchFor) :
    ((afterFetch op names why).secured = true → why = .reconnect) ∧
      ∀ other lease, afterFetch op names why ≠ .request (.lease other) (.answered (.lease lease)) := by
  cases why with
  | reconnect => exact ⟨fun _ => rfl, nofun⟩
  | own =>
    cases op with
    | toolCall name valid =>
      simp only [afterFetch]
      split
      · exact ⟨nofun, nofun⟩
      · exact ⟨nofun, nofun⟩
    | _ => exact ⟨nofun, nofun⟩

theorem afterLease_free (op : Op) (why : LeaseFor) :
    ((afterLease op why).secured = true → why = .reconnect) ∧
      ∀ other lease, afterLease op why ≠ .request (.lease other) (.answered (.lease lease)) := by
  cases why with
  | reconnect => exact ⟨fun _ => rfl, nofun⟩
  | poll => exact ⟨nofun, nofun⟩
  | own =>
    simp only [afterLease]
    split
    · exact ⟨nofun, nofun⟩
    · exact ⟨nofun, nofun⟩

/-- The details go on as they began, and so does what follows them. -/
theorem Sound.nextDetail {op : Op} {why : FetchFor} {names : List String} {left : Nat} (sound : s.Sound)
    (was : (s.task p).position.active = true) (heard : (s.task p).outdated = false → s.heard = true)
    (secured : why = .reconnect → s.LeaseAccepted) : (nextDetail p op why names left s).Sound := by
  unfold Mcp.nextDetail
  split
  · exact (sound.stored _).move was (fun _ => heard) (fun later => secured ((afterFetch_free op names why).1 later))
      (afterFetch_free op names why).2
  · refine sound.move was (fun _ => heard) ?_ nofun
    cases why with
    | reconnect => exact fun _ => secured rfl
    | own => exact nofun

theorem Sound.receive {request : Request} {reply : Reply} {op : Op} (sound : s.Sound) (heard : s.heard = true)
    (here : (s.task p).position = .request request (.answered reply))
    (orderly : ∀ lease, request = .lease .reconnect → reply = .lease lease →
      s.unixNow < lease.expiresAt ∧ ∀ existing ∈ s.lease, existing.key = lease.key ∨ existing.expiresAt < lease.expiresAt) :
    (s.receive p op request reply).Sound := by
  have was : (s.task p).position.active = true := by rw [here]; rfl
  have secured := (sound.tasks p).secured
  rw [here] at secured
  cases request with
  | health =>
    cases reply with
    | tools names => exact sound.move was (fun _ _ => heard) nofun nofun
    | _ => exact sound.rest rfl
  | lease why =>
    cases reply with
    | lease lease =>
      have issued := (sound.tasks p).lease why lease here
      have stored := sound.storeLease issued
      refine stored.move (by rw [storeLease_task]; exact was) (fun _ _ => by rw [storeLease_heard]; exact heard) ?_
        (afterLease_free op why).2
      intro later
      obtain rfl := (afterLease_free op why).1 later
      obtain ⟨alive, fresher⟩ := orderly lease rfl rfl
      exact storeLease_accepted issued alive fresher
    | _ =>
      cases why with
      | reconnect => exact sound.rest rfl
      | _ => first | exact sound.rest rfl | exact sound.rest (by split <;> rfl)
  | actions why =>
    cases reply with
    | tools names => exact sound.nextDetail was (fun _ => heard) (by rintro rfl; exact secured rfl)
    | _ =>
      cases why with
      | reconnect => exact sound.move was nofun (fun _ => secured rfl) nofun
      | own => exact sound.rest rfl
  | detail why names left => exact sound.nextDetail was (fun _ => heard) (by rintro rfl; exact secured rfl)
  | act =>
    cases reply with
    | done => exact sound.move was (fun _ _ => heard) nofun nofun
    | pending => exact sound.move was (fun _ _ => heard) nofun nofun
    | _ => exact sound.rest rfl
  | poll =>
    cases reply with
    | pending => exact sound.move was nofun nofun nofun
    | _ => exact sound.rest rfl
  | operator => exact sound.rest rfl

theorem Sound.transportError {request : Request} {stage : Stage} {op : Op} (sound : s.Sound)
    (here : (s.task p).position = .request request stage) : (s.transportError p op request).Sound := by
  have was : (s.task p).position.active = true := by rw [here]; rfl
  have secured := (sound.tasks p).secured
  have heard := (sound.tasks p).heard
  rw [here] at secured heard
  cases request with
  | health => exact sound.rest rfl
  | lease why =>
    cases why with
    | reconnect => exact sound.rest rfl
    | _ => exact sound.rest (by split <;> rfl)
  | actions why =>
    cases why with
    | reconnect => exact sound.move was nofun (fun _ => secured rfl) nofun
    | own => exact sound.rest (by split <;> rfl)
  | detail why names left => exact sound.nextDetail was (heard rfl) (by rintro rfl; exact secured rfl)
  | act => exact sound.rest rfl
  | poll => exact sound.rest rfl
  | operator => exact sound.rest rfl

/-- The lease is not renewed as long as the gate that runs accepts it. -/
theorem Sound.accepted_of_fresh (sound : s.Sound) (fresh : s.needsRenewal = false) : s.LeaseAccepted := by
  unfold needsRenewal at fresh
  cases held : s.lease with
  | none => simp [held] at fresh
  | some lease =>
    simp only [held, Option.all_some, decide_eq_false_iff_not, Nat.not_lt] at fresh
    refine ⟨lease, held, sound.fresh lease held fresh, ?_⟩
    have margin : 0 < renewThresholdSeconds := by decide
    omega

theorem lookupPosition_free (op : Op) (s : Adapter) :
    (lookupPosition op s).responded = false ∧ (lookupPosition op s).secured = false ∧
      ∀ why lease, lookupPosition op s ≠ .request (.lease why) (.answered (.lease lease)) := by
  unfold lookupPosition
  repeat' split
  all_goals exact ⟨rfl, rfl, nofun⟩

/-- The first step of an operation that looks at the health of the gate. -/
theorem Sound.check (sound : s.Sound) :
    { s with task := Function.update s.task p { s.task p with position := checkPosition (s.task p).op s, stale := false } }.Sound := by
  refine sound.update ?_
  unfold checkPosition
  split
  · rename_i healthy
    split
    · exact ⟨fun _ _ _ => .inl healthy, nofun, nofun, nofun⟩
    · exact ⟨fun _ _ _ => .inl healthy, nofun, nofun, nofun⟩
  · split
    · exact .of_inactive rfl
    · split
      · rename_i due
        exact ⟨fun _ _ _ => .inr (of_decide_eq_true due), nofun, nofun, nofun⟩
      · exact .of_inactive rfl

theorem restored_kept {outdated : Bool} (heard : outdated = false → s.heard = true)
    (healthy : outdated = true → s.reconnect.healthy = true) : s.restored.2.Kept := by
  unfold Adapter.restored
  cases up : s.reconnect.healthy with
  | true => trivial
  | false =>
    cases outdated with
    | true => exact absurd ((healthy rfl).symm.trans up) nofun
    | false => exact heard rfl

theorem Sound.advance {entropy : Nat} (sound : s.Sound) (orderly : s.Orderly (.advance p entropy)) :
    (s.advance p entropy).1.Sound := by
  unfold Adapter.advance
  have own := sound.tasks p
  cases here : (s.task p).position with
  | idle => exact sound
  | check => exact sound.check
  | lookup =>
    obtain ⟨responded, secured, lease⟩ := lookupPosition_free (s.task p).op s
    exact sound.move (by rw [here]; rfl) (by rw [responded]; exact nofun) (by rw [secured]; exact nofun) lease
  | needLease why =>
    have was : (s.task p).position.active = true := by rw [here]; rfl
    have heard := own.heard
    rw [here] at heard
    change (s.put p (if s.needsRenewal = true then _ else _)).Sound
    split
    · refine sound.move was ?_ nofun nofun
      cases why with
      | reconnect => exact fun _ => heard rfl
      | _ => exact nofun
    · rename_i kept
      have accepted := sound.accepted_of_fresh (Bool.eq_false_iff.mpr kept)
      refine sound.move was ?_ (fun _ => accepted) (afterLease_free _ why).2
      cases why with
      | reconnect => exact fun _ => heard rfl
      | poll => exact nofun
      | own =>
        simp only [afterLease]
        split <;> exact nofun
  | request request stage =>
    cases stage with
    | unsent =>
      have heard := own.heard
      have secured := own.secured
      rw [here] at heard secured
      rw [(request_stage request .unsent .sent).1] at heard
      rw [(request_stage request .unsent .sent).2] at secured
      exact sound.move (by rw [here]; rfl) heard secured nofun
    | sent => exact sound
    | answered reply =>
      refine Sound.receive sound.hear rfl (by rw [hear_position, here]) ?_
      rintro lease rfl rfl
      simp only [Orderly, here] at orderly
      exact orderly
  | backoff => exact sound.record
  | restore =>
    have secured := own.secured
    rw [here] at secured
    exact sound.restored.move (by change (s.task p).position.active = true; rw [here]; rfl) nofun (fun _ => secured rfl) nofun
  | returned => exact sound.move (by rw [here]; rfl) nofun nofun nofun
  | note cached polls =>
    have task : s.onGateSuccess.1.task = s.task := by
      unfold Adapter.onGateSuccess
      split <;> rfl
    change (s.onGateSuccess.1.put p (if polls = true then _ else _)).Sound
    split
    · exact sound.onGateSuccess.move (by rw [task, here]; rfl) nofun nofun nofun
    · exact sound.onGateSuccess.rest rfl
  | fail =>
    change ((s.onTransportFailure p entropy).put p .idle).Sound
    unfold Adapter.onTransportFailure
    split
    · exact sound.record
    · exact sound.rest rfl

/-- A step of a task shows only what is asked of the adapter. -/
theorem Sound.kept {entropy : Nat} (sound : s.Sound) (orderly : s.Orderly (.advance p entropy)) :
    (s.advance p entropy).2.Kept := by
  unfold Adapter.advance
  have own := sound.tasks p
  cases here : (s.task p).position with
  | request request stage =>
    cases stage with
    | unsent =>
      simp only [Orderly, here] at orderly
      change s.reconnect.Ready s.now
      by_cases blind : (s.task p).op.checked = false ∨ (s.task p).stale = true
      · exact .inl (orderly blind)
      · rw [not_or, Bool.not_eq_false, Bool.not_eq_true] at blind
        exact own.ready (by rw [here]; rfl) blind.1 blind.2
    | sent => trivial
    | answered reply => trivial
  | restore =>
    simp only [Orderly, here] at orderly
    have heard := own.heard
    rw [here] at heard
    exact restored_kept (fun current => heard rfl current) orderly
  | note cached polls =>
    simp only [Orderly, here] at orderly
    change s.onGateSuccess.2.Kept
    unfold Adapter.onGateSuccess
    split
    · trivial
    · rename_i down
      cases cached with
      | true => exact absurd (orderly (.inl rfl)) down
      | false =>
        have heard := own.heard
        rw [here] at heard
        exact restored_kept (heard rfl) fun late => orderly (.inr late)
  | returned =>
    obtain ⟨lease, held, accepted⟩ := own.secured (by rw [here]; rfl)
    exact ⟨lease, held, accepted⟩
  | _ => trivial

theorem answer_key {reply : Reply} {lease : LeaseState} (same : s.answer reply = .lease lease) : lease.key = s.gateKey := by
  cases reply with
  | lease offered =>
    cases same
    rfl
  | _ => cases same

/-- What is due stays due, and leases in use do not run out. -/
theorem Sound.pass {time : Nat} (sound : s.Sound) (orderly : s.Orderly (.pass time)) : { s with now := s.now + time }.Sound where
  fresh lease held fresh := by
    refine sound.fresh lease held (Nat.le_trans (Nat.add_le_add_right ?_ _) fresh)
    exact Nat.div_le_div_right (Nat.le_add_right _ _)
  tasks p := by
    refine ⟨?_, (sound.tasks p).heard, ?_, (sound.tasks p).lease⟩
    · intro active checked current
      rcases (sound.tasks p).ready active checked current with healthy | due
      · exact .inl healthy
      · exact .inr (Nat.le_trans due (Nat.le_add_right _ _))
    · intro secured
      obtain ⟨lease, held, key, -⟩ := (sound.tasks p).secured secured
      exact ⟨lease, held, key, orderly ⟨p, secured⟩ lease held⟩

theorem Sound.step {input : Input} (sound : s.Sound) (orderly : s.Orderly input) : (adapter.step s input).1.Sound := by
  cases input with
  | start p op =>
    simp only [adapter]
    split
    · refine sound.update ?_
      cases checked : op.checked with
      | true => exact .of_inactive rfl
      | false => exact ⟨fun _ looks => absurd (checked.symm.trans looks) nofun, nofun, nofun, nofun⟩
    · exact sound
  | advance p entropy => exact sound.advance orderly
  | serve p reply =>
    simp only [adapter]
    split
    · rename_i request here
      have own := sound.tasks p
      refine sound.update ⟨?_, ?_, ?_, ?_⟩
      · exact fun _ => own.ready (by rw [here]; rfl)
      · intro responded
        rw [(request_stage request _ .sent).1, ← here] at responded
        exact own.heard responded
      · intro secured
        rw [(request_stage request _ .sent).2, ← here] at secured
        exact own.secured secured
      · intro why lease same
        simp only [Position.request.injEq, Stage.answered.injEq] at same
        exact answer_key same.2
    · exact sound
  | lost p =>
    simp only [adapter]
    split
    · exact sound
    · rename_i request stage _ here
      exact sound.transportError here
    · exact sound
  | stopPolling p =>
    simp only [adapter]
    split
    · exact sound.rest rfl
    · exact sound
  | pass time => exact sound.pass orderly
  | restart =>
    obtain ⟨renewing, idle⟩ := orderly
    refine ⟨?_, fun p => ⟨(sound.tasks p).ready, (sound.tasks p).heard, ?_, ?_⟩⟩
    · intro lease held fresh
      have held : s.lease = some lease := held
      simp only [needsRenewal, held, Option.all_some, decide_eq_true_eq] at renewing
      exact absurd renewing (Nat.not_lt.mpr fresh)
    · intro secured
      exact absurd ((idle p).1.symm.trans secured) nofun
    · exact fun why lease here => absurd here ((idle p).2 why lease)

theorem start_sound (now gateKey : Nat) : (start now gateKey).Sound :=
  ⟨nofun, fun _ => .of_inactive rfl⟩

end Adapter

/-- In every orderly run, whatever the order of handlers, refreshes, answers
and losses: a request is sent only to a gate that is held to be healthy or when
the next attempt is due, health comes back only after a response since the last
failure, and a reconnection ends with a lease that the gate accepts. -/
theorem reconnections_kept {now gateKey : Nat} {inputs : List Input}
    (orderly : adapter.Meets Adapter.Orderly (Adapter.start now gateKey) inputs) :
    ∀ entry ∈ adapter.trace (Adapter.start now gateKey) inputs, entry.2.Kept := by
  have kept : ∀ s input, s.Orderly input → s.Sound → (adapter.step s input).2.Kept := by
    intro s input orderly sound
    cases input with
    | advance p entropy => exact sound.kept orderly
    | start p op =>
      simp only [adapter]
      split <;> trivial
    | serve p reply =>
      simp only [adapter]
      split <;> trivial
    | lost p =>
      simp only [adapter]
      split <;> trivial
    | stopPolling p =>
      simp only [adapter]
      split <;> trivial
    | pass time => trivial
    | restart => trivial
  exact (@Machine.Meets.trace_all _ _ _ adapter Adapter.Orderly Adapter.Sound (fun _ event => event.Kept)
    (fun s input orderly sound => sound.step orderly) kept _ (Adapter.start_sound now gateKey) _ orderly).2

/-- The steps of a task, with what it is answered in between. -/
def answering (p : Nat) (reply : Reply) : List Input :=
  [.advance p 0, .serve p reply, .advance p 0]

/-- The handlers are task 0, the background refresh is task 1. The adapter
starts, gets a lease of five minutes and fills its cache. -/
def warmedUp : List Input :=
  [.start 0 .startup, .advance 0 0, .advance 0 0] ++ answering 0 (.lease ⟨0, 5000300⟩) ++ answering 0 (.tools [])

/-- A background refresh finds the gate gone. -/
def gateLost : List Input :=
  [.start 1 .refreshTick, .advance 1 0, .advance 1 0, .lost 1, .advance 1 0]

/-- The resource is read from the cache, which is then taken for a sign of
life, and a call goes out at once. -/
def cachedRead : List Input :=
  warmedUp ++ gateLost ++ [.start 0 .readActions, .advance 0 0, .advance 0 0]

/-- The resource is read when the cache has expired. -/
def expiredRead : List Input :=
  warmedUp ++ [.pass 310000] ++ gateLost ++ [.start 0 .readActions, .advance 0 0, .advance 0 0]

/-- The gate comes back with a new key, and the lease of the old one is kept. -/
def restartedGate : List Input :=
  warmedUp ++ gateLost ++ [.restart, .pass 1000, .start 0 .myPending, .advance 0 0] ++ answering 0 (.tools []) ++
    [.advance 0 0, .advance 0 0] ++ answering 0 (.tools []) ++ [.advance 0 0]

/-- Health comes back without a response, a request goes out before it is due,
and a reconnection ends with a lease of the gate that was there before. -/
theorem gate_not_asked :
    (∃ entry ∈ adapter.trace (Adapter.start 5000000000 0) cachedRead, ¬entry.2.Kept) ∧
      (∃ entry ∈ adapter.trace (Adapter.start 5000000000 0) expiredRead, ¬entry.2.Kept) ∧
      ∃ entry ∈ adapter.trace (Adapter.start 5000000000 0) restartedGate, ¬entry.2.Kept := by
  refine ⟨?_, ?_, ?_⟩
  · decide
  · decide
  · decide

/-- The gate comes back as it was, and the handler asks for its pending
approvals. -/
def gateBack : List Input :=
  warmedUp ++ gateLost ++ [.pass 2000, .start 0 .myPending, .advance 0 0] ++ answering 0 (.tools []) ++
    [.advance 0 0, .advance 0 0] ++ answering 0 (.tools []) ++ [.advance 0 0]

theorem reconnections_kept_sample : adapter.Meets Adapter.Orderly (Adapter.start 5000000000 0) gateBack ∧
    ∀ entry ∈ adapter.trace (Adapter.start 5000000000 0) gateBack, entry.2.Kept := by
  suffices orderly : adapter.Meets Adapter.Orderly (Adapter.start 5000000000 0) gateBack from
    ⟨orderly, reconnections_kept orderly⟩
  -- the adapter starts and warms its cache
  refine ⟨trivial, trivial, trivial, fun _ => rfl, trivial, trivial, fun _ => rfl, trivial, trivial, ?_⟩
  -- the refresh loses the gate
  refine ⟨trivial, trivial, fun _ => rfl, trivial, trivial, ?_⟩
  refine ⟨fun _ lease held => ?_, ?_⟩
  · cases held
    decide
  -- the handler looks, is answered, and goes on with the lease it has
  refine ⟨trivial, trivial, fun blind => blind.elim nofun nofun, trivial, trivial, trivial, nofun, ?_⟩
  exact ⟨fun _ => rfl, trivial, trivial, trivial, trivial⟩

end Latchgate.Mcp
