import Latchgate.Json.Value
import Latchgate.Machine.Run
import Latchgate.Webhooks.Outbox

namespace Latchgate

/-- An event of the kernel: its kind, and the data of its payload. -/
structure DomainEvent where
  kind : EventKind
  data : Json

inductive WebhookMode where
  | async
  | outbox
  deriving DecidableEq

inductive EventSink where
  | dispatcher
  deriving DecidableEq

/-- What the startup makes of the webhook settings: the sink of the kernel,
the endpoints of the dispatch loop, and the endpoints of the outbox poller if
that runs. -/
structure ServerContext where
  eventSink : Option EventSink
  active : List WebhookEndpointConfig
  poller : Option (List WebhookEndpointConfig)

/-- The sink is the dispatcher in either mode. -/
def initSubsystems (mode : WebhookMode) (configs : List WebhookEndpointConfig) : ServerContext where
  eventSink := if configs = [] then none else some .dispatcher
  active := configs.filter fun c => c.disable = false
  poller := if mode ≠ .outbox ∨ configs = [] then none else some (configs.filter fun c => c.disable = false)

def channelCapacity : Nat := 1024

/-- How far the dispatch loop has come. While it waits for deliveries it takes
nothing from its channel, and when it ends the channel is closed. -/
inductive DispatchPhase where
  | running
  | draining
  | waiting
  | ended
  deriving DecidableEq

/-- The parts of a gate that events pass through. An event is known by its
number. `emitted` and the two lists of deliveries, from the dispatcher and from
the outbox, are history. -/
structure WebhookState where
  alive : Bool := true
  phase : DispatchPhase := .running
  channel : List (Nat × DomainEvent) := []
  inFlight : List (Nat × String) := []
  outbox : WebhookOutbox
  batch : List OutboxRow := []
  emitted : List DomainEvent := []
  dispatched : List (Nat × String) := []
  polled : List (String × String) := []

/-- A gate with webhooks. `eventId` is the identifier that the formatter draws
for the payload of an event, a fresh UUID that no row of the table has when the
gate starts. `decodes` tells the payloads that the poller can read. -/
structure WebhookGate where
  mode : WebhookMode
  configs : List WebhookEndpointConfig
  table : WebhookOutbox
  eventId : Nat → String
  drawn : ∀ r ∈ table.rows, ∀ n, r.eventId ≠ eventId n
  decodes : String → Except String Unit

inductive WebhookInput where
  | emit (event : DomainEvent)
  | receive
  | finish (event : Nat) (endpoint : String) (outcome : Except String Unit)
  | shutdown
  | drained
  | joined
  | deadline
  | poll (pollerId now threshold : String)
  | settle (now : String) (later : Nat → String) (outcome : Except String Unit)
  | crash

def pollBatchSize : Nat := 50

namespace WebhookGate
variable (gate : WebhookGate)

def context : ServerContext :=
  initSubsystems gate.mode gate.configs

def start : WebhookState where
  outbox := gate.table

/-- The endpoints that an event goes to. -/
def subscribed (event : DomainEvent) : List String :=
  (gate.context.active.filter fun c => event.kind ∈ c.events).map (·.name)

/-- An event that finds no room in the channel, or the channel closed, is
dropped. -/
def emit (event : DomainEvent) (s : WebhookState) : WebhookState :=
  let s' := { s with emitted := s.emitted ++ [event] }
  match gate.context.eventSink with
  | none => s'
  | some .dispatcher =>
    if s.phase = .ended then s'
    else if channelCapacity ≤ s.channel.length then s'
    else { s' with channel := s.channel ++ [(s.emitted.length, event)] }

/-- One delivery is begun for every endpoint of the event. -/
def dispatchEvent (entry : Nat × DomainEvent) (s : WebhookState) : WebhookState :=
  { s with inFlight := s.inFlight ++ (gate.subscribed entry.2).map fun name => (entry.1, name) }

/-- The next row that was claimed is delivered, or fails and is kept for later
or for good. -/
def settle (now : String) (later : Nat → String) (outcome : Except String Unit) (endpoints : List WebhookEndpointConfig)
    (s : WebhookState) : WebhookState :=
  match s.batch with
  | [] => s
  | entry :: rest =>
    let failed (error : String) (maxAttempts : Nat) (backoff : List Nat) : WebhookState :=
      { s with
        batch := rest
        outbox := s.outbox.recordFailure entry.id error maxAttempts backoff now later }
    match endpoints.find? (·.name = entry.endpointName) with
    | none => failed "endpoint removed from config" 0 []
    | some endpoint =>
      match gate.decodes entry.payloadJson with
      | .error e => failed ("payload deserialization failed: " ++ e) 0 []
      | .ok () =>
        match outcome with
        | .ok () =>
          { s with
            batch := rest
            outbox := s.outbox.markDelivered entry.id now
            polled := s.polled ++ [(entry.eventId, entry.endpointName)] }
        | .error e => failed e endpoint.maxRetries endpoint.retryBackoffSeconds

/-- What a running gate does. A step that is not enabled changes nothing. -/
def advance (s : WebhookState) : WebhookInput → WebhookState
  | .emit event => gate.emit event s
  | .receive =>
    match s.phase, s.channel with
    | .running, entry :: rest | .draining, entry :: rest => gate.dispatchEvent entry { s with channel := rest }
    | _, _ => s
  | .finish event endpoint outcome =>
    if (event, endpoint) ∈ s.inFlight then
      let s' := { s with inFlight := s.inFlight.erase (event, endpoint) }
      match outcome with
      | .ok () => { s' with dispatched := s.dispatched ++ [(event, endpoint)] }
      | .error _ => s'
    else s
  | .shutdown => if s.phase = .running then { s with phase := .draining } else s
  | .drained => if s.phase = .draining ∧ s.channel = [] then { s with phase := .waiting } else s
  | .joined => if s.phase = .waiting ∧ s.inFlight = [] then { s with phase := .ended, channel := [] } else s
  | .deadline => if s.phase = .waiting then { s with phase := .ended, channel := [], inFlight := [] } else s
  | .poll pollerId now threshold =>
    match gate.context.poller with
    | none => s
    | some _ =>
      let (entries, outbox) := s.outbox.pollPending pollBatchSize pollerId now threshold
      { s with outbox, batch := s.batch ++ entries }
  | .settle now later outcome =>
    match gate.context.poller with
    | none => s
    | some endpoints => gate.settle now later outcome endpoints s
  | .crash => { s with alive := false, channel := [], inFlight := [], batch := [] }

/-- A gate that has crashed does nothing more. -/
def machine : Machine WebhookState WebhookInput Unit where
  step s input := (if s.alive then gate.advance s input else s, ())

/-- Every event has been delivered to each of its endpoints, or has a row for
it. -/
def NoneLost (s : WebhookState) : Prop :=
  ∀ n event, s.emitted[n]? = some event → ∀ endpoint ∈ gate.configs, endpoint.disable = false →
    event.kind ∈ endpoint.events →
      (n, endpoint.name) ∈ s.dispatched ∨
        ∃ r ∈ s.outbox.rows, r.eventId = gate.eventId n ∧ r.endpointName = endpoint.name

/-- No event has gone out both from the dispatcher and from the table. -/
def NoneTwice (s : WebhookState) : Prop :=
  ∀ n endpoint, (n, endpoint) ∈ s.dispatched → (gate.eventId n, endpoint) ∉ s.polled

/-- What has to hold of a step. An event with endpoints finds the loop taking
events and room in the channel, no delivery fails or is cut off, and a gate
stops with nothing under way. -/
def Undisturbed (s : WebhookState) : WebhookInput → Prop
  | .emit event => gate.subscribed event = [] ∨
      (s.phase = .running ∨ s.phase = .draining) ∧ s.channel.length < channelCapacity
  | .finish _ _ outcome => outcome = .ok ()
  | .deadline => s.inFlight = []
  | .crash => (∀ entry ∈ s.channel, gate.subscribed entry.2 = []) ∧ s.inFlight = []
  | _ => True

variable {gate}

/-- Nothing that has to do with the table belongs to an event of this run. -/
structure Foreign (gate : WebhookGate) (s : WebhookState) : Prop where
  rows : ∀ r ∈ s.outbox.rows, ∀ n, r.eventId ≠ gate.eventId n
  batch : ∀ r ∈ s.batch, ∀ n, r.eventId ≠ gate.eventId n
  polled : ∀ entry ∈ s.polled, ∀ n, entry.1 ≠ gate.eventId n

theorem foreign_start : gate.Foreign gate.start where
  rows := gate.drawn
  batch := by simp [start]
  polled := by simp [start]

/-- A table whose rows are for events of the old one stays foreign. -/
theorem Foreign.withOutbox {s : WebhookState} {outbox : WebhookOutbox} (foreign : gate.Foreign s)
    (old : ∀ r ∈ outbox.rows, ∃ before ∈ s.outbox.rows, before.eventId = r.eventId) :
    ∀ r ∈ outbox.rows, ∀ n, r.eventId ≠ gate.eventId n := by
  intro r member n
  obtain ⟨before, listed, same⟩ := old r member
  exact same ▸ foreign.rows before listed n

theorem Foreign.settle {s : WebhookState} (now : String) (later : Nat → String) (outcome : Except String Unit)
    (endpoints : List WebhookEndpointConfig) (foreign : gate.Foreign s) :
    gate.Foreign (gate.settle now later outcome endpoints s) := by
  unfold WebhookGate.settle
  split
  · exact foreign
  · rename_i entry rest taken
    have tail : ∀ r ∈ rest, ∀ n, r.eventId ≠ gate.eventId n := fun r member =>
      foreign.batch r (taken ▸ List.mem_cons_of_mem _ member)
    have failed : ∀ error maxAttempts backoff, gate.Foreign
        { s with
          batch := rest
          outbox := s.outbox.recordFailure entry.id error maxAttempts backoff now later } := by
      intro error maxAttempts backoff
      exact ⟨foreign.withOutbox fun r member => WebhookOutbox.mem_eventId_of_recordFailure member, tail, foreign.polled⟩
    split
    · exact failed _ _ _
    · split
      · exact failed _ _ _
      · split
        · refine ⟨foreign.withOutbox fun r member => WebhookOutbox.mem_eventId_of_markDelivered member, tail, ?_⟩
          intro sent member
          rcases List.mem_append.mp member with old | new
          · exact foreign.polled sent old
          · rw [List.mem_singleton.mp new]
            exact foreign.batch entry (taken ▸ List.mem_cons_self ..)
        · exact failed _ _ _

theorem Foreign.advance {s : WebhookState} (input : WebhookInput) (foreign : gate.Foreign s) :
    gate.Foreign (gate.advance s input) := by
  cases input with
  | emit event =>
    simp only [WebhookGate.advance, emit]
    split
    · exact { foreign with }
    · split
      · exact { foreign with }
      · split <;> exact { foreign with }
  | receive =>
    simp only [WebhookGate.advance]
    split <;> exact { foreign with }
  | finish event endpoint outcome =>
    simp only [WebhookGate.advance]
    split
    · split <;> exact { foreign with }
    · exact foreign
  | shutdown | drained | joined | deadline =>
    simp only [WebhookGate.advance]
    split <;> exact { foreign with }
  | poll pollerId now threshold =>
    simp only [WebhookGate.advance]
    split
    · exact foreign
    · have rows := foreign.withOutbox fun r member =>
        @WebhookOutbox.mem_eventId_of_pollPending pollBatchSize pollerId now threshold _ r member
      refine ⟨rows, ?_, foreign.polled⟩
      intro r member
      rcases List.mem_append.mp member with old | new
      · exact foreign.batch r old
      · exact rows r (WebhookOutbox.polled_mem new)
  | settle now later outcome =>
    simp only [WebhookGate.advance]
    split
    · exact foreign
    · exact foreign.settle now later outcome _
  | crash => exact ⟨foreign.rows, by simp [WebhookGate.advance], foreign.polled⟩

theorem Foreign.noneTwice {s : WebhookState} (foreign : gate.Foreign s) : gate.NoneTwice s :=
  fun n _ _ sent => foreign.polled _ sent n rfl

/-- Where each event of an undisturbed run is. -/
structure Accounted (gate : WebhookGate) (s : WebhookState) : Prop where
  known : ∀ n event, s.emitted[n]? = some event → ∀ name ∈ gate.subscribed event,
    (n, name) ∈ s.dispatched ∨ (n, name) ∈ s.inFlight ∨ (n, event) ∈ s.channel
  calm : s.phase = .waiting ∨ s.phase = .ended → ∀ entry ∈ s.channel, gate.subscribed entry.2 = []
  crashed : s.alive = false → s.channel = [] ∧ s.inFlight = []

theorem accounted_start : gate.Accounted gate.start where
  known := by simp [start]
  calm := by simp [start]
  crashed := by simp [start]

theorem emit_eq (event : DomainEvent) (s : WebhookState) :
    (gate.emit event s).emitted = s.emitted ++ [event] ∧ (gate.emit event s).alive = s.alive ∧
      (gate.emit event s).phase = s.phase ∧ (gate.emit event s).dispatched = s.dispatched ∧
      (gate.emit event s).inFlight = s.inFlight ∧
      ((gate.emit event s).channel = s.channel ∨
        (gate.emit event s).channel = s.channel ++ [(s.emitted.length, event)]) ∧
      (gate.subscribed event ≠ [] → s.phase ≠ .ended → s.channel.length < channelCapacity →
        (gate.emit event s).channel = s.channel ++ [(s.emitted.length, event)]) := by
  unfold emit
  cases sink : gate.context.eventSink with
  | none =>
    have unset : gate.configs = [] := by simpa [context, initSubsystems] using sink
    simp [subscribed, context, initSubsystems, unset]
  | some sink =>
    dsimp only
    split
    · rename_i ended
      simp [ended]
    · split
      · rename_i full
        simp [full]
      · simp

theorem Accounted.emit {s : WebhookState} {event : DomainEvent} (accounted : gate.Accounted s) (alive : s.alive = true)
    (guarded : gate.Undisturbed s (.emit event)) : gate.Accounted (gate.emit event s) := by
  obtain ⟨emitted, lives, phase, dispatched, inFlight, channel, room⟩ := @emit_eq gate event s
  have longer : ∀ entry ∈ s.channel, entry ∈ (gate.emit event s).channel := by
    intro entry member
    rcases channel with same | added
    · exact same ▸ member
    · exact added ▸ List.mem_append_left _ member
  constructor
  case known =>
    intro n e given name takes
    rw [dispatched, inFlight]
    rw [emitted] at given
    rcases lt_or_ge n s.emitted.length with old | new
    · rw [List.getElem?_append_left old] at given
      rcases accounted.known n e given name takes with sent | going | queued
      · exact .inl sent
      · exact .inr (.inl going)
      · exact .inr (.inr (longer _ queued))
    · have bound := (List.getElem?_eq_some_iff.mp given).1
      have last : n = s.emitted.length := by
        simp only [List.length_append, List.length_singleton] at bound
        omega
      subst last
      have same : event = e := by simpa using given
      subst same
      have some : gate.subscribed event ≠ [] := List.ne_nil_of_mem takes
      rcases guarded with void | ⟨taking, space⟩
      · exact absurd void some
      · have unended : s.phase ≠ .ended := by rcases taking with running | draining <;> simp [*]
        exact .inr (.inr (by simp [room some unended space]))
  case calm =>
    intro quiet entry member
    rw [phase] at quiet
    rcases channel with same | added
    · exact accounted.calm quiet entry (same ▸ member)
    · rw [added] at member
      rcases List.mem_append.mp member with old | new
      · exact accounted.calm quiet entry old
      · rw [List.mem_singleton.mp new]
        rcases guarded with void | ⟨taking, -⟩
        · exact void
        · rcases taking with running | draining
          · simp [running] at quiet
          · simp [draining] at quiet
  case crashed =>
    intro dead
    rw [lives, alive] at dead
    cases dead

/-- Steps that leave the events where they are keep the account. -/
theorem Accounted.frame {s s' : WebhookState} (accounted : gate.Accounted s) (emitted : s'.emitted = s.emitted)
    (dispatched : s'.dispatched = s.dispatched) (inFlight : s'.inFlight = s.inFlight) (channel : s'.channel = s.channel)
    (phase : s'.phase = s.phase) (alive : s'.alive = s.alive) : gate.Accounted s' := by
  refine ⟨?_, ?_, ?_⟩
  · rw [emitted, dispatched, inFlight, channel]
    exact accounted.known
  · rw [phase, channel]
    exact accounted.calm
  · rw [alive, inFlight, channel]
    exact accounted.crashed

theorem settle_frame (now : String) (later : Nat → String) (outcome : Except String Unit)
    (endpoints : List WebhookEndpointConfig) (s : WebhookState) :
    let s' := gate.settle now later outcome endpoints s
    s'.emitted = s.emitted ∧ s'.dispatched = s.dispatched ∧ s'.inFlight = s.inFlight ∧ s'.channel = s.channel ∧
      s'.phase = s.phase ∧ s'.alive = s.alive := by
  simp only [settle]
  split
  · simp
  · split
    · simp
    · split
      · simp
      · split <;> simp

/-- When the channel has only events without endpoints and nothing is under
way, every event is delivered. -/
theorem Accounted.settled {s : WebhookState} (accounted : gate.Accounted s)
    (quiet : ∀ entry ∈ s.channel, gate.subscribed entry.2 = []) (idle : s.inFlight = []) :
    ∀ n event, s.emitted[n]? = some event → ∀ name ∈ gate.subscribed event, (n, name) ∈ s.dispatched := by
  intro n event given name takes
  rcases accounted.known n event given name takes with sent | going | queued
  · exact sent
  · simp [idle] at going
  · simp [quiet _ queued] at takes

theorem Accounted.receive {s : WebhookState} (accounted : gate.Accounted s) (alive : s.alive = true) :
    gate.Accounted (gate.advance s .receive) := by
  have taken : ∀ entry rest, s.phase = .running ∨ s.phase = .draining → s.channel = entry :: rest →
      gate.Accounted (gate.dispatchEvent entry { s with channel := rest }) := by
    intro entry rest taking queue
    constructor
    case known =>
      intro n event given name takes
      simp only [dispatchEvent, List.mem_append, List.mem_map]
      rcases accounted.known n event given name takes with sent | going | queued
      · exact .inl sent
      · exact .inr (.inl (.inl going))
      · rw [queue] at queued
        rcases List.mem_cons.mp queued with first | later
        · subst first
          exact .inr (.inl (.inr ⟨name, takes, rfl⟩))
        · exact .inr (.inr later)
    case calm =>
      intro quiet
      simp only [dispatchEvent] at quiet
      rcases taking with running | draining
      · simp [running] at quiet
      · simp [draining] at quiet
    case crashed =>
      intro dead
      rw [dispatchEvent, alive] at dead
      cases dead
  simp only [WebhookGate.advance]
  split
  · rename_i entry rest running queue
    exact taken entry rest (.inl running) queue
  · rename_i entry rest draining queue
    exact taken entry rest (.inr draining) queue
  · exact accounted

theorem Accounted.finish {s : WebhookState} {event : Nat} {endpoint : String} (accounted : gate.Accounted s)
    (alive : s.alive = true) : gate.Accounted (gate.advance s (.finish event endpoint (.ok ()))) := by
  simp only [WebhookGate.advance]
  split
  · refine ⟨?_, accounted.calm, fun dead => absurd (alive.symm.trans dead) (by simp)⟩
    intro n e given name takes
    rcases accounted.known n e given name takes with sent | going | queued
    · exact .inl (List.mem_append_left _ sent)
    · by_cases same : (n, name) = (event, endpoint)
      · exact .inl (List.mem_append_right _ (List.mem_singleton.mpr same))
      · exact .inr (.inl ((List.mem_erase_of_ne same).mpr going))
    · exact .inr (.inr queued)
  · exact accounted

theorem Accounted.advance {s : WebhookState} {input : WebhookInput} (accounted : gate.Accounted s)
    (alive : s.alive = true) (guarded : gate.Undisturbed s input) : gate.Accounted (gate.advance s input) := by
  have lives : ∀ {P : Prop}, s.alive = false → P := fun dead => absurd (alive.symm.trans dead) (by simp)
  cases input with
  | emit event => exact accounted.emit alive guarded
  | receive => exact accounted.receive alive
  | finish event endpoint outcome =>
    obtain rfl : outcome = .ok () := guarded
    exact accounted.finish alive
  | shutdown =>
    simp only [WebhookGate.advance]
    split
    · exact ⟨accounted.known, by simp, accounted.crashed⟩
    · exact accounted
  | drained =>
    simp only [WebhookGate.advance]
    split
    · rename_i enabled
      exact ⟨accounted.known, by simp [enabled.2], accounted.crashed⟩
    · exact accounted
  | joined =>
    simp only [WebhookGate.advance]
    split
    · rename_i enabled
      have sent := accounted.settled (accounted.calm (.inl enabled.1)) enabled.2
      exact ⟨fun n event given name takes => .inl (sent n event given name takes), by simp, lives⟩
    · exact accounted
  | deadline =>
    simp only [WebhookGate.advance]
    split
    · rename_i waiting
      have sent := accounted.settled (accounted.calm (.inl waiting)) guarded
      exact ⟨fun n event given name takes => .inl (sent n event given name takes), by simp, lives⟩
    · exact accounted
  | poll pollerId now threshold =>
    simp only [WebhookGate.advance]
    split
    · exact accounted
    · exact accounted.frame rfl rfl rfl rfl rfl rfl
  | settle now later outcome =>
    simp only [WebhookGate.advance]
    split
    · exact accounted
    · obtain ⟨emitted, dispatched, inFlight, channel, phase, alive⟩ := settle_frame now later outcome _ s
      exact accounted.frame emitted dispatched inFlight channel phase alive
  | crash =>
    have sent := accounted.settled guarded.1 guarded.2
    exact ⟨fun n event given name takes => .inl (sent n event given name takes), by simp [WebhookGate.advance],
      by simp [WebhookGate.advance]⟩

theorem Accounted.noneLost {s : WebhookState} (accounted : gate.Accounted s) (dead : s.alive = false) :
    gate.NoneLost s := by
  intro n event given endpoint listed enabled takes
  obtain ⟨drained, idle⟩ := accounted.crashed dead
  have named : endpoint.name ∈ gate.subscribed event := by
    refine List.mem_map.mpr ⟨endpoint, List.mem_filter.mpr ⟨?_, by simpa using takes⟩, rfl⟩
    exact List.mem_filter.mpr ⟨listed, by simpa using enabled⟩
  exact .inl (accounted.settled (by simp [drained]) idle n event given endpoint.name named)

/-- In every run nothing goes out twice. In a run that is not disturbed
nothing is lost when the gate stops. -/
theorem webhook_events_kept (gate : WebhookGate) (inputs : List WebhookInput) :
    gate.NoneTwice (gate.machine.run gate.start inputs) ∧
      (gate.machine.Meets gate.Undisturbed gate.start inputs →
        (gate.machine.run gate.start inputs).alive = false → gate.NoneLost (gate.machine.run gate.start inputs)) := by
  constructor
  · have foreign : gate.Foreign (gate.machine.run gate.start inputs) := by
      refine Machine.run_invariant (fun s input foreign => ?_) foreign_start inputs
      simp only [machine]
      split
      · exact foreign.advance input
      · exact foreign
    exact foreign.noneTwice
  · intro meets dead
    have accounted : gate.Accounted (gate.machine.run gate.start inputs) := by
      refine meets.run_invariant (fun s input guarded accounted => ?_) accounted_start
      simp only [machine]
      split
      · rename_i alive
        exact accounted.advance alive guarded
      · exact accounted
    exact accounted.noneLost dead

def siem : WebhookEndpointConfig where
  name := "siem"
  events := [.actionDenied]

/-- A gate with one endpoint, in the mode in which nothing is to be lost. -/
def outboxGate : WebhookGate where
  mode := .outbox
  configs := [siem]
  table := {}
  eventId n := "evt_" ++ toString n
  drawn := by simp
  decodes _ := .ok ()

def denial : DomainEvent where
  kind := .actionDenied
  data := .object [("action_id", .string "http_fetch")]

theorem webhook_events_kept_delivered :
    outboxGate.NoneLost (outboxGate.machine.run outboxGate.start
      [.emit denial, .receive, .finish 0 "siem" (.ok ()), .crash]) := by
  refine (webhook_events_kept outboxGate _).2 ?_ rfl
  refine ⟨.inr ⟨.inl rfl, ?_⟩, trivial, rfl, ⟨?_, rfl⟩, trivial⟩
  · show 0 < channelCapacity
    decide
  · intro entry member
    cases member

/-- A crash right after the event was taken in: it is neither delivered nor in
the table. -/
theorem event_lost_in_channel :
    outboxGate.mode = .outbox ∧
      ¬outboxGate.NoneLost (outboxGate.machine.run outboxGate.start [.emit denial, .crash]) := by
  refine ⟨rfl, ?_⟩
  intro kept
  rcases kept 0 denial rfl siem (List.mem_singleton.mpr rfl) rfl (List.mem_singleton.mpr rfl) with sent | ⟨r, stored, -⟩
  · cases sent
  · cases stored

end WebhookGate

end Latchgate
