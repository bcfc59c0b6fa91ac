import Latchgate.Ledger.Store

namespace Latchgate

/-- Conditions on audit events. One that is not given is met by all of them. -/
structure EventFilter where
  traceId : Option String := none
  eventType : Option String := none
  actionId : Option String := none
  principal : Option String := none
  sessionId : Option String := none
  decision : Option String := none
  after : Option String := none
  before : Option String := none
  limit : Option Nat := none

namespace EventFilter
variable (filter : EventFilter)

/-- The conditions of the `WHERE` clause. -/
def admits (row : EventRow) : Bool :=
  filter.traceId.all (row.traceId = ·) && filter.eventType.all (row.eventType = ·) &&
    filter.actionId.all (row.actionId = ·) && filter.principal.all (row.principal = ·) &&
    filter.sessionId.all (row.sessionId = ·) && filter.decision.all (row.decision = ·) &&
    filter.after.all (· < row.timestamp) && filter.before.all (row.timestamp < ·)

def rowLimit : Nat :=
  max 1 (min (filter.limit.getD 100) 1000)

/-- The limits in time are exclusive, and they are conditions like the others. -/
theorem admits_after {row : EventRow} {cursor : String} :
    { filter with after := some cursor }.admits row = true ↔
      { filter with after := none }.admits row = true ∧ cursor < row.timestamp := by
  simp only [admits, Option.all_some, Option.all_none, Bool.and_true, Bool.and_eq_true, decide_eq_true_eq]
  tauto

theorem admits_before {row : EventRow} {cursor : String} :
    { filter with before := some cursor }.admits row = true ↔
      { filter with before := none }.admits row = true ∧ row.timestamp < cursor := by
  simp only [admits, Option.all_some, Option.all_none, Bool.and_true, Bool.and_eq_true, decide_eq_true_eq]

end EventFilter

namespace AuditEvent

/-- The document that an event is answered as. -/
def toJson (e : AuditEvent) : Json :=
  .object e.fields

theorem get?_toJson (e : AuditEvent) (name : String) : e.toJson.get? name = (e.members.lookup name).join :=
  lookup_filterMap e.names_nodup name

end AuditEvent

/-- What `ORDER BY timestamp DESC` makes of a result. The order of events with
the same timestamp is left open. -/
structure TimestampOrder where
  sort : List AuditEvent → List AuditEvent
  perm : ∀ events, (sort events).Perm events
  newest : ∀ events, (sort events).Pairwise fun a b => b.timestamp ≤ a.timestamp

/-- The events in the order of their rows. -/
structure AuditLog where
  events : List AuditEvent
  traces : (events.map AuditEvent.traceId).Nodup

namespace AuditLog
variable (log : AuditLog)

def empty : AuditLog where
  events := []
  traces := List.nodup_nil

/-- A second event of a trace is refused. -/
def write (event : AuditEvent) : AuditLog :=
  if known : event.traceId ∈ log.events.map AuditEvent.traceId then log
  else
    { events := log.events ++ [event]
      traces := by
        rw [List.map_append, List.map_singleton]
        exact List.nodup_append.mpr ⟨log.traces, List.nodup_singleton _, fun a old b new same =>
          known ((List.mem_singleton.mp new) ▸ same ▸ old)⟩ }

def queryEvents (order : TimestampOrder) (filter : EventFilter) : List AuditEvent :=
  (order.sort (log.events.filter fun event => filter.admits event.row)).take filter.rowLimit

def tables : Tables :=
  { auditEvents := log.events.map AuditEvent.row }

/-- A write is the insertion of a row, which fails exactly where the log stays
as it is. -/
theorem insertEvent_row (event : AuditEvent) :
    (event.traceId ∉ log.events.map AuditEvent.traceId → log.tables.insertEvent event.row = .ok (log.write event).tables) ∧
      (event.traceId ∈ log.events.map AuditEvent.traceId →
        log.write event = log ∧ (log.tables.insertEvent event.row).toOption = none) := by
  have known : (log.tables.auditEvents.any fun old => old.traceId = event.row.traceId) = true ↔
      event.traceId ∈ log.events.map AuditEvent.traceId := by
    simp only [tables, List.any_eq_true, List.mem_map, exists_exists_and_eq_and, decide_eq_true_eq]
    rfl
  constructor
  · intro fresh
    rw [Tables.insertEvent, if_neg fun old => fresh (known.mp old), write, dif_neg fresh]
    simp only [tables, List.map_append, List.map_singleton]
  · intro old
    rw [write, dif_pos old, Tables.insertEvent, if_pos (known.mpr old)]
    exact ⟨rfl, rfl⟩

theorem nodup : log.events.Nodup :=
  List.Nodup.of_map _ log.traces

theorem eq_of_traceId {a b : AuditEvent} (first : a ∈ log.events) (second : b ∈ log.events)
    (same : a.traceId = b.traceId) : a = b :=
  List.inj_on_of_nodup_map log.traces first second same

variable {log} {order : TimestampOrder} {filter : EventFilter}

theorem mem_write {event e : AuditEvent} :
    e ∈ (log.write event).events ↔
      e ∈ log.events ∨ e = event ∧ event.traceId ∉ log.events.map AuditEvent.traceId := by
  unfold write
  split_ifs with known
  · simp only [known, not_true_eq_false, and_false, or_false]
  · simp only [List.mem_append, List.mem_singleton, known, not_false_eq_true, and_true]

theorem mem_sort {event : AuditEvent} :
    event ∈ order.sort (log.events.filter fun event => filter.admits event.row) ↔
      event ∈ log.events ∧ filter.admits event.row = true := by
  rw [(order.perm _).mem_iff, List.mem_filter]

theorem nodup_sort : (order.sort (log.events.filter fun event => filter.admits event.row)).Nodup :=
  (order.perm _).nodup_iff.mpr (log.nodup.filter _)

end AuditLog
end Latchgate
