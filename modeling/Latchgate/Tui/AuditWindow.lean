import Latchgate.Feed.Window
import Latchgate.Tui.Activity
import Mathlib.Data.String.Basic

namespace Latchgate.Tui
open Calendar

/-! The documents of events. -/

section Documents
variable (e : AuditEvent)

theorem textField_toJson (key : String) : textField key e.toJson = (e.members.lookup key).join.bind Json.asStr? := by
  rw [textField, AuditEvent.get?_toJson]

theorem timestamp_toJson : textField "timestamp" e.toJson = some e.timestamp :=
  textField_toJson e _

theorem key_toJson : EventKey.of e.toJson = ⟨e.traceId, e.eventType.asStr, e.timestamp⟩ := by
  rw [EventKey.of, timestamp_toJson, textField_toJson, textField_toJson]
  rfl

theorem eq_of_key {log : AuditLog} {a b : AuditEvent} (first : a ∈ log.events) (second : b ∈ log.events)
    (same : EventKey.of a.toJson = EventKey.of b.toJson) : a = b := by
  rw [key_toJson, key_toJson] at same
  exact log.eq_of_traceId first second (EventKey.mk.inj same).1

end Documents

/-! The queries. -/

def ActivityFilter.matches (filter : ActivityFilter) (e : AuditEvent) : Bool :=
  (filter.apply {}).admits e.row

/-- What the screen is about. -/
def Logged (view : AuditView) (e : AuditEvent) : Prop :=
  e ∈ view.log.events ∧ view.screen.filter.matches e = true

section Queries
variable {s : ActivityScreen} {e : AuditEvent}

theorem rowLimit_headParams : s.headParams.rowLimit = fetchLimit := by
  unfold ActivityScreen.headParams
  cases s.filter <;> rfl

theorem rowLimit_olderParams (oldest : String) : (s.olderParams oldest).rowLimit = fetchLimit := by
  unfold ActivityScreen.olderParams
  cases s.filter <;> rfl

theorem admits_headParams : s.headParams.admits e.row = true ↔
    s.filter.matches e = true ∧ ∀ cursor, s.headAfterCursor = some cursor → cursor < e.timestamp := by
  have same : { s.filter.apply { limit := some fetchLimit } with after := none }.admits e.row = s.filter.matches e := by
    unfold ActivityFilter.matches
    cases s.filter <;> rfl
  cases after : s.headAfterCursor with
  | none =>
    rw [ActivityScreen.headParams, after, same]
    simp only [reduceCtorEq, false_implies, implies_true, and_true]
  | some cursor =>
    rw [ActivityScreen.headParams, after, EventFilter.admits_after, same]
    simp only [Option.some.injEq, forall_eq']
    rfl

theorem admits_olderParams {oldest : String} : (s.olderParams oldest).admits e.row = true ↔
    s.filter.matches e = true ∧ e.timestamp < ActivityScreen.beforeCursor oldest := by
  have same : s.olderParams oldest =
      { s.filter.apply { limit := some fetchLimit } with before := some (ActivityScreen.beforeCursor oldest) } := by
    unfold ActivityScreen.olderParams
    cases s.filter <;> rfl
  have matching : { s.filter.apply { limit := some fetchLimit } with before := none }.admits e.row = s.filter.matches e := by
    unfold ActivityFilter.matches
    cases s.filter <;> rfl
  rw [same, EventFilter.admits_before, matching]
  rfl

end Queries

/-! The cursors. -/

theorem ofList_millis_lt {m n : Nat} (less : m < n) (last : n < lastMillis) :
    String.ofList (millis m) < String.ofList (millis n) := by
  rw [String.lt_iff_toList_lt, String.toList_ofList, String.toList_ofList]
  exact (millis_lt (less.trans last) last).2 less

theorem headAfterCursor_lt {s : ActivityScreen} {newest : AuditEvent} (stamped : Stamped newest)
    (held : s.newestTimestamp = some newest.timestamp) :
    ∃ cursor, s.headAfterCursor = some cursor ∧ cursor < newest.timestamp := by
  obtain ⟨n, late, early, text⟩ := stamped
  have last : n < lastMillis := by omega
  refine ⟨String.ofList (millis (n - headOverlapMs)), ?_, ?_⟩
  · simp only [ActivityScreen.headAfterCursor, held, text, String.toList_ofList, readMillis_millis last, Option.bind_eq_bind,
      Option.bind_some, Option.pure_def]
  · rw [text]
    exact ofList_millis_lt (by unfold headOverlapMs at late ⊢; omega) last

theorem lt_beforeCursor {oldest : AuditEvent} (stamped : Stamped oldest) :
    oldest.timestamp < ActivityScreen.beforeCursor oldest.timestamp := by
  obtain ⟨n, late, early, text⟩ := stamped
  have last : n < lastMillis := by omega
  rw [text, ActivityScreen.beforeCursor, String.toList_ofList, readMillis_millis last, Option.map_some, Option.getD_some]
  exact ofList_millis_lt (by unfold headOverlapMs; omega) early

/-! What a step can do to what is held. -/

structure SameList (s t : ActivityScreen) : Prop where
  events : t.events = s.events
  newest : t.newestTimestamp = s.newestTimestamp
  oldest : t.oldestTimestamp = s.oldestTimestamp
  filter : t.filter = s.filter

structure Cleared (t : ActivityScreen) : Prop where
  events : t.events = []
  newest : t.newestTimestamp = none
  oldest : t.oldestTimestamp = none

/-- A list of events with the cursors at its ends. -/
structure Relisted (s : ActivityScreen) (list : List Json) (t : ActivityScreen) : Prop where
  events : t.events = list
  newest : t.newestTimestamp = (list.head?.bind (textField "timestamp")).orElse fun _ => s.newestTimestamp
  oldest : t.oldestTimestamp = (list.getLast?.bind (textField "timestamp")).orElse fun _ => s.oldestTimestamp
  filter : t.filter = s.filter

def answer (log : AuditLog) (order : TimestampOrder) (params : EventFilter) : List Json :=
  (log.queryEvents order params).map AuditEvent.toJson

inductive Change (view : AuditView) : AuditStep → AuditView → Prop where
  | written (event : { event : AuditEvent // Stamped event }) : Change view (.write event) { view with log := view.log.write event }
  | kept {step : AuditStep} {screen : ActivityScreen} (same : SameList view.screen screen) : Change view step { view with screen }
  | cleared {step : AuditStep} {screen : ActivityScreen} (cleared : Cleared screen) : Change view step { view with screen }
  | refreshed {order : TimestampOrder} {screen : ActivityScreen}
      (relisted : Relisted view.screen
        ((view.screen.unheld (answer view.log order view.screen.headParams) ++ view.screen.events).take maxEvents) screen) :
      Change view (.tick (.answered order)) { view with screen }
  | extended {key : KeyEvent} {order : TimestampOrder} {oldest : String} {screen : ActivityScreen}
      (free : view.screen.inputMode = none) (pressed : key.code = .char 'o') (held : view.screen.oldestTimestamp = some oldest)
      (events : screen.events =
        (view.screen.events ++ view.screen.unheld (answer view.log order (view.screen.olderParams oldest))).take maxEvents)
      (newest : screen.newestTimestamp = view.screen.newestTimestamp)
      (last : screen.oldestTimestamp = (screen.events.getLast?.bind (textField "timestamp")).orElse fun _ => some oldest)
      (filter : screen.filter = view.screen.filter) : Change view (.key key (.answered order)) { view with screen }

section Steps
variable (toLowercase : String → String) {s : ActivityScreen}

theorem SameList.of_ite {c : Prop} [Decidable c] {t : ActivityScreen} (same : SameList s t) : SameList s (if c then t else s) := by
  split_ifs
  · exact same
  · exact ⟨rfl, rfl, rfl, rfl⟩

theorem unheld_of_empty (empty : s.events = []) (fetched : List Json) : s.unheld fetched = fetched := by
  rw [ActivityScreen.unheld, empty]
  exact List.filter_eq_self.mpr fun _ _ => by simp

variable (s)

theorem reanchor_relisted (anchor : Option EventKey) (events : List Json) :
    Relisted s events ({ s with events }.refreshCursors.reanchor toLowercase anchor) := by
  unfold ActivityScreen.reanchor
  split <;> exact ⟨rfl, rfl, rfl, rfl⟩

theorem mergeHead_cases (fetched : List Json) : s.mergeHead toLowercase fetched = s ∨
    Relisted s ((s.unheld fetched ++ s.events).take maxEvents) (s.mergeHead toLowercase fetched) := by
  have fresh : (if s.events.isEmpty then fetched else s.unheld fetched) = s.unheld fetched := by
    split_ifs with empty
    · exact (unheld_of_empty (List.isEmpty_iff.mp empty) fetched).symm
    · rfl
  rw [ActivityScreen.mergeHead, fresh]
  dsimp only
  split_ifs
  · exact .inl rfl
  · exact .inl rfl
  · exact .inr (reanchor_relisted _ _ _ _)

theorem handleCommand_cases (key : KeyCode) :
    (SameList s (s.handleCommand toLowercase key).1 ∨ Cleared (s.handleCommand toLowercase key).1) ∧
        (s.handleCommand toLowercase key).2 ≠ .asyncAction ∨
      key = .char 'o' ∧ s.handleCommand toLowercase key = ({ s with loadOlder := true }, .asyncAction) := by
  unfold ActivityScreen.handleCommand
  split
  case h_1 | h_2 => exact .inl ⟨.inl (SameList.of_ite ⟨rfl, rfl, rfl, rfl⟩), nofun⟩
  case h_3 | h_4 =>
    refine .inl ⟨.inl ?_, nofun⟩
    unfold ActivityScreen.moveDown
    dsimp only
    split_ifs <;> exact ⟨rfl, rfl, rfl, rfl⟩
  case h_5 => exact .inl ⟨.inl (SameList.of_ite ⟨rfl, rfl, rfl, rfl⟩), nofun⟩
  case h_6 => exact .inl ⟨.inl (SameList.of_ite ⟨rfl, rfl, rfl, rfl⟩), nofun⟩
  case h_7 => exact .inl ⟨.inl (SameList.of_ite ⟨rfl, rfl, rfl, rfl⟩), nofun⟩
  case h_8 => exact .inl ⟨.inl (SameList.of_ite ⟨rfl, rfl, rfl, rfl⟩), nofun⟩
  case h_9 | h_10 => exact .inl ⟨.inl (SameList.of_ite ⟨rfl, rfl, rfl, rfl⟩), nofun⟩
  case h_11 => exact .inl ⟨.inl (SameList.of_ite ⟨rfl, rfl, rfl, rfl⟩), nofun⟩
  case h_12 =>
    split
    · exact .inl ⟨.inl ⟨rfl, rfl, rfl, rfl⟩, nofun⟩
    · exact .inl ⟨.inr ⟨rfl, rfl, rfl⟩, nofun⟩
  case h_13 => exact .inl ⟨.inl ⟨rfl, rfl, rfl, rfl⟩, nofun⟩
  case h_14 => exact .inl ⟨.inr ⟨rfl, rfl, rfl⟩, nofun⟩
  case h_15 =>
    split_ifs
    · exact .inr ⟨rfl, rfl⟩
    · exact .inl ⟨.inl ⟨rfl, rfl, rfl, rfl⟩, nofun⟩
  case h_16 => exact .inl ⟨.inl ⟨rfl, rfl, rfl, rfl⟩, nofun⟩

theorem handleKey_cases (key : KeyEvent) :
    (SameList s (s.handleKey toLowercase key).1 ∨ Cleared (s.handleKey toLowercase key).1) ∧
        (s.handleKey toLowercase key).2 ≠ .asyncAction ∨
      s.inputMode = none ∧ key.code = .char 'o' ∧ s.handleKey toLowercase key = ({ s with loadOlder := true }, .asyncAction) := by
  unfold ActivityScreen.handleKey
  split
  · split
    · exact .inl ⟨.inr ⟨rfl, rfl, rfl⟩, nofun⟩
    · exact .inl ⟨.inl ⟨rfl, rfl, rfl, rfl⟩, nofun⟩
    · exact .inl ⟨.inl ⟨rfl, rfl, rfl, rfl⟩, nofun⟩
  · split <;> exact .inl ⟨.inl ⟨rfl, rfl, rfl, rfl⟩, nofun⟩
  · rename_i free
    exact (handleCommand_cases toLowercase s key.code).imp_right fun pressed => ⟨free, pressed⟩

/-- Without an answer nothing is held that was not. -/
theorem tick_cases (fetch : EventFilter → Option (Except ClientError (List Json))) :
    SameList s (s.tick toLowercase fetch) ∨
      ∃ fetched, fetch s.headParams = some (.ok fetched) ∧
        Relisted s ((s.unheld fetched ++ s.events).take maxEvents) (s.tick toLowercase fetch) := by
  unfold ActivityScreen.tick
  split
  · exact .inl ⟨rfl, rfl, rfl, rfl⟩
  · rename_i fetched replied
    rcases mergeHead_cases toLowercase { s with error := none } fetched with same | relisted
    · rw [same]
      exact .inl ⟨rfl, rfl, rfl, rfl⟩
    · exact .inr ⟨fetched, replied, relisted.events, relisted.newest, relisted.oldest, relisted.filter⟩
  all_goals exact .inl ⟨rfl, rfl, rfl, rfl⟩

theorem handleAction_cases (fetch : EventFilter → Option (Except ClientError (List Json))) :
    SameList s (s.handleAction fetch).1 ∨ ∃ oldest older, s.oldestTimestamp = some oldest ∧
      fetch (s.olderParams oldest) = some (.ok older) ∧
      (s.handleAction fetch).1 = { s with loadOlder := false }.appendOlder (s.unheld older) := by
  unfold ActivityScreen.handleAction
  split_ifs
  · dsimp only
    split
    · exact .inl ⟨rfl, rfl, rfl, rfl⟩
    · rename_i oldest held
      split
      · exact .inl ⟨rfl, rfl, rfl, rfl⟩
      · rename_i older replied
        split_ifs
        · exact .inl ⟨rfl, rfl, rfl, rfl⟩
        · exact .inr ⟨oldest, older, held, replied, rfl⟩
      · exact .inl ⟨rfl, rfl, rfl, rfl⟩
  · exact .inl ⟨rfl, rfl, rfl, rfl⟩

theorem fetch_eq_ok {log : AuditLog} {params : EventFilter} {reply : Reply} {fetched : List Json}
    (replied : reply.fetch log params = some (.ok fetched)) :
    ∃ order, reply = .answered order ∧ fetched = answer log order params := by
  cases reply with
  | answered order =>
    cases replied
    exact ⟨order, rfl, rfl⟩
  | failed e => cases replied
  | cutOff => cases replied

theorem change_of_step (view : AuditView) (step : AuditStep) :
    Change view step (handleStep toLowercase view step).1 := by
  cases step with
  | write event => exact .written event
  | tick reply =>
    rcases tick_cases toLowercase view.screen fun params => reply.fetch view.log params with
      same | ⟨fetched, replied, relisted⟩
    · exact .kept same
    · obtain ⟨order, rfl, rfl⟩ := fetch_eq_ok replied
      exact .refreshed relisted
  | key key reply =>
    rcases handleKey_cases toLowercase view.screen key with ⟨outcome, quiet⟩ | ⟨free, pressed, asked⟩
    · have stopped : (handleStep toLowercase view (.key key reply)).1 =
          { view with screen := (view.screen.handleKey toLowercase key).1 } := by
        unfold handleStep
        dsimp only
        split
        · rename_i action
          rw [action] at quiet
          exact absurd rfl quiet
        · rename_i action
          rw [action]
      rw [stopped]
      rcases outcome with same | cleared
      · exact .kept same
      · exact .cleared cleared
    · have started : (handleStep toLowercase view (.key key reply)).1 =
          { view with
            screen := ({ view.screen with loadOlder := true }.handleAction fun params => reply.fetch view.log params).1 } := by
        simp only [handleStep, asked]
      rw [started]
      rcases handleAction_cases { view.screen with loadOlder := true } fun params => reply.fetch view.log params with
        same | ⟨oldest, older, held, replied, appended⟩
      · exact .kept ⟨same.events, same.newest, same.oldest, same.filter⟩
      · obtain ⟨order, rfl, rfl⟩ := fetch_eq_ok replied
        rw [appended]
        refine .extended free pressed held rfl rfl ?_ rfl
        rw [← held]
        rfl

end Steps

/-! What is held, as events. -/

/-- The screen holds events of the log that its filter admits, each once, and its
cursors are the times of the first and the last one. -/
structure Holds (view : AuditView) (held : List AuditEvent) : Prop where
  events : view.screen.events = held.map AuditEvent.toJson
  nodup : held.Nodup
  known : ∀ e ∈ held, Logged view e
  bound : held.length ≤ maxEvents
  newest : view.screen.newestTimestamp = held.head?.map AuditEvent.timestamp
  oldest : view.screen.oldestTimestamp = held.getLast?.map AuditEvent.timestamp
  stamped : ∀ e ∈ view.log.events, Stamped e

/-- The events of an answer that are not held. -/
def newEvents (held fetched : List AuditEvent) : List AuditEvent :=
  fetched.filter fun e => EventKey.of e.toJson ∉ (held.map AuditEvent.toJson).map EventKey.of

section Held
variable {view : AuditView} {held fetched : List AuditEvent} {order : TimestampOrder} {params : EventFilter}

theorem unheld_map (events : view.screen.events = held.map AuditEvent.toJson) (fetched : List AuditEvent) :
    view.screen.unheld (fetched.map AuditEvent.toJson) = (newEvents held fetched).map AuditEvent.toJson := by
  rw [ActivityScreen.unheld, events, List.filter_map]
  rfl

theorem mem_newEvents {log : AuditLog} (known : ∀ e ∈ held, e ∈ log.events) (answered : ∀ e ∈ fetched, e ∈ log.events)
    (e : AuditEvent) : e ∈ newEvents held fetched ↔ e ∈ fetched ∧ e ∉ held := by
  rw [newEvents, List.mem_filter, decide_eq_true_eq, List.map_map]
  refine and_congr_right fun member => not_congr ⟨fun listed => ?_, fun old => List.mem_map.mpr ⟨e, old, rfl⟩⟩
  obtain ⟨old, inside, same⟩ := List.mem_map.mp listed
  rwa [← eq_of_key (known old inside) (answered e member) same]

theorem mem_queryEvents {log : AuditLog} {e : AuditEvent} (member : e ∈ log.queryEvents order params) :
    e ∈ log.events ∧ params.admits e.row = true :=
  AuditLog.mem_sort.1 (List.mem_of_mem_take member)

theorem nodup_queryEvents (log : AuditLog) : (log.queryEvents order params).Nodup :=
  AuditLog.nodup_sort.sublist (List.take_sublist _ _)

theorem newest_queryEvents (log : AuditLog) : Feed.Newest AuditEvent.timestamp (log.queryEvents order params) :=
  List.Pairwise.sublist (List.take_sublist _ _) (order.newest _)

theorem head_timestamp (list : List AuditEvent) :
    (list.map AuditEvent.toJson).head?.bind (textField "timestamp") = list.head?.map AuditEvent.timestamp := by
  cases list with
  | nil => rfl
  | cons e rest => exact timestamp_toJson e

theorem last_timestamp (list : List AuditEvent) :
    (list.map AuditEvent.toJson).getLast?.bind (textField "timestamp") = list.getLast?.map AuditEvent.timestamp := by
  rw [List.getLast?_map]
  cases list.getLast? with
  | none => rfl
  | some e => exact timestamp_toJson e

theorem Holds.relist (holds : Holds view held) {list : List AuditEvent} {screen : ActivityScreen}
    (relisted : Relisted view.screen (list.map AuditEvent.toJson) screen) (nodup : list.Nodup)
    (known : ∀ e ∈ list, Logged view e) (bound : list.length ≤ maxEvents) (more : list = [] → held = []) :
    Holds { view with screen } list where
  events := relisted.events
  nodup := nodup
  known e member := ⟨(known e member).1, by rw [relisted.filter]; exact (known e member).2⟩
  bound := bound
  newest := by
    rw [relisted.newest, head_timestamp]
    cases list with
    | nil =>
      rw [holds.newest, more rfl]
      rfl
    | cons e rest => rfl
  oldest := by
    rw [relisted.oldest, last_timestamp]
    cases last : list.getLast? with
    | none =>
      rw [holds.oldest, more (List.getLast?_eq_none_iff.mp last)]
      rfl
    | some e => rfl
  stamped := holds.stamped

end Held

/-! Steps that keep up with the log. -/

/-- A written event that the filter admits is not older than what is held. A
refresh can fetch all events that are as new as the newest one, and where the events
held are within its overlap, it finds none beside the oldest one. When older events
are fetched, none is missing in the overlap. -/
def Orderly (view : AuditView) : AuditStep → Prop
  | .write event => view.screen.filter.matches event = true →
    ∀ newest, view.screen.newestTimestamp = some newest → newest ≤ event.val.timestamp
  | .tick (.answered _) => ∀ newest oldest, view.screen.newestTimestamp = some newest →
    view.screen.oldestTimestamp = some oldest →
    view.log.events.countP (fun e => view.screen.filter.matches e && newest ≤ e.timestamp) ≤ fetchLimit ∧
    ∀ e, Logged view e → (∀ cursor, view.screen.headAfterCursor = some cursor → cursor < e.timestamp) →
      e.timestamp < newest → e.timestamp = oldest → e.toJson ∈ view.screen.events
  | .key key (.answered _) => view.screen.inputMode = none → key.code = .char 'o' →
    ∀ oldest, view.screen.oldestTimestamp = some oldest →
    ∀ e, Logged view e → oldest < e.timestamp → e.timestamp < ActivityScreen.beforeCursor oldest →
      e.toJson ∈ view.screen.events
  | _ => True

def KeepsUp (view : AuditView) (held : List AuditEvent) : Prop :=
  Feed.Window AuditEvent.timestamp fetchLimit (Logged view) held

section Steps
variable {view : AuditView} {held : List AuditEvent}

theorem Holds.mem_held (holds : Holds view held) {e : AuditEvent} (logged : e ∈ view.log.events)
    (member : e.toJson ∈ view.screen.events) : e ∈ held := by
  rw [holds.events] at member
  obtain ⟨old, inside, same⟩ := List.mem_map.mp member
  rwa [← eq_of_key (holds.known old inside).1 logged (congrArg EventKey.of same)]

theorem Holds.write (holds : Holds view held) (event : { event : AuditEvent // Stamped event }) :
    Holds { view with log := view.log.write event } held where
  events := holds.events
  nodup := holds.nodup
  known e member := ⟨AuditLog.mem_write.2 (.inl (holds.known e member).1), (holds.known e member).2⟩
  bound := holds.bound
  newest := holds.newest
  oldest := holds.oldest
  stamped e member := by
    rcases AuditLog.mem_write.1 member with old | ⟨rfl, -⟩
    · exact holds.stamped e old
    · exact event.property

theorem KeepsUp.write (keepsUp : KeepsUp view held) (holds : Holds view held) (event : { event : AuditEvent // Stamped event })
    (orderly : Orderly view (.write event)) : KeepsUp { view with log := view.log.write event } held := by
  by_cases comes : event.val.traceId ∉ view.log.events.map AuditEvent.traceId ∧ view.screen.filter.matches event = true
  · have grown : ∀ a, Logged { view with log := view.log.write event } a ↔ Logged view a ∨ a = event.val := by
      intro a
      simp only [Logged, AuditLog.mem_write, comes.1, not_false_eq_true, and_true]
      constructor
      · rintro ⟨old | rfl, matching⟩
        · exact .inl ⟨old, matching⟩
        · exact .inr rfl
      · rintro (⟨old, matching⟩ | rfl)
        · exact ⟨.inl old, matching⟩
        · exact ⟨.inr rfl, comes.2⟩
    refine Feed.Window.grow keepsUp grown fun first head => orderly comes.2 first.timestamp ?_
    rw [holds.newest, head]
    rfl
  · refine Feed.Window.congr keepsUp fun a => ?_
    refine ⟨fun ⟨member, matching⟩ => ?_, fun ⟨old, matching⟩ => ⟨AuditLog.mem_write.2 (.inl old), matching⟩⟩
    rcases AuditLog.mem_write.1 member with old | ⟨rfl, fresh⟩
    · exact ⟨old, matching⟩
    · exact absurd ⟨fresh, matching⟩ comes

theorem Holds.nodup_append (holds : Holds view held) {order : TimestampOrder} {params : EventFilter} :
    (newEvents held (view.log.queryEvents order params) ++ held).Nodup := by
  have mem := mem_newEvents (fun e member => (holds.known e member).1)
    fun e (member : e ∈ view.log.queryEvents order params) => (mem_queryEvents member).1
  refine List.nodup_append.mpr ⟨(nodup_queryEvents _).filter _, holds.nodup, fun a new b old same => ?_⟩
  exact ((mem a).mp new).2 (same ▸ old)

section Refresh
variable {order : TimestampOrder}

theorem logged_of_headParams (holds : Holds view held) {e : AuditEvent}
    (member : e ∈ newEvents held (view.log.queryEvents order view.screen.headParams) ++ held) : Logged view e := by
  rcases List.mem_append.mp member with new | old
  · obtain ⟨logged, admitted⟩ := mem_queryEvents (List.mem_of_mem_filter new)
    exact ⟨logged, (admits_headParams.1 admitted).1⟩
  · exact holds.known e old

theorem Holds.refresh (holds : Holds view held) {screen : ActivityScreen}
    (relisted : Relisted view.screen
      ((view.screen.unheld (answer view.log order view.screen.headParams) ++ view.screen.events).take maxEvents) screen) :
    Holds { view with screen }
      ((newEvents held (view.log.queryEvents order view.screen.headParams) ++ held).take maxEvents) := by
  rw [answer, unheld_map holds.events, holds.events, ← List.map_append, ← List.map_take] at relisted
  refine holds.relist relisted (holds.nodup_append.sublist (List.take_sublist _ _))
    (fun e member => logged_of_headParams holds (List.mem_of_mem_take member)) (List.length_take_le _ _) fun none_ => ?_
  rcases List.take_eq_nil_iff.mp none_ with zero | none_
  · cases zero
  · exact (List.append_eq_nil_iff.mp none_).2

/-- All that is to be fetched, before it is cut. -/
theorem listing_head {cursor : String} (after : view.screen.headAfterCursor = some cursor) :
    Feed.Listing AuditEvent.timestamp (fun e => Logged view e ∧ cursor < e.timestamp)
      (order.sort (view.log.events.filter fun e => view.screen.headParams.admits e.row)) where
  nodup := AuditLog.nodup_sort
  mem e := by
    rw [AuditLog.mem_sort, admits_headParams, after]
    simp only [Option.some.injEq, forall_eq', Logged, and_assoc]
  newest := order.newest _

theorem listing_first (after : view.screen.headAfterCursor = none) :
    Feed.Listing AuditEvent.timestamp (Logged view)
      (order.sort (view.log.events.filter fun e => view.screen.headParams.admits e.row)) where
  nodup := AuditLog.nodup_sort
  mem e := by
    rw [AuditLog.mem_sort, admits_headParams, after]
    simp only [reduceCtorEq, false_implies, implies_true, and_true]
    rfl
  newest := order.newest _

theorem queryEvents_head : view.log.queryEvents order view.screen.headParams =
    (order.sort (view.log.events.filter fun e => view.screen.headParams.admits e.row)).take fetchLimit := by
  rw [AuditLog.queryEvents, rowLimit_headParams]

/-- What is as new as the newest event held is in the answer, if it is not too
much for one. -/
theorem reached_head {first : AuditEvent} {cursor : String} (after : view.screen.headAfterCursor = some cursor)
    (below : cursor < first.timestamp)
    (fits : view.log.events.countP (fun e => view.screen.filter.matches e && first.timestamp ≤ e.timestamp) ≤ fetchLimit)
    {e : AuditEvent} (logged : Logged view e) (recent : first.timestamp ≤ e.timestamp) :
    e ∈ (order.sort (view.log.events.filter fun e => view.screen.headParams.admits e.row)).take fetchLimit := by
  have listing := @listing_head view order cursor after
  refine listing.newest.mem_take_of_count ((listing.mem e).mpr ⟨logged, lt_of_lt_of_le below recent⟩) recent ?_
  rw [(order.perm _).countP_eq, List.countP_filter]
  refine (List.countP_mono_left fun a _ counted => ?_).trans fits
  obtain ⟨newer, admitted⟩ := (Bool.and_eq_true _ _).mp counted
  rw [(admits_headParams.1 admitted).1, Bool.true_and]
  exact newer

theorem KeepsUp.refresh (keepsUp : KeepsUp view held) (holds : Holds view held) {screen : ActivityScreen}
    (filter : screen.filter = view.screen.filter) (orderly : Orderly view (.tick (.answered order))) :
    KeepsUp { view with screen }
      ((newEvents held (view.log.queryEvents order view.screen.headParams) ++ held).take maxEvents) := by
  have mem := mem_newEvents (fun e member => (holds.known e member).1)
    fun e (member : e ∈ view.log.queryEvents order view.screen.headParams) => (mem_queryEvents member).1
  have same : ∀ e, Logged { view with screen } e ↔ Logged view e := by
    intro e
    rw [Logged, Logged, filter]
  have whole : Feed.Window AuditEvent.timestamp fetchLimit (Logged view)
      (newEvents held (view.log.queryEvents order view.screen.headParams) ++ held) := by
    cases held with
    | nil =>
      have none_ : view.screen.headAfterCursor = none := by
        rw [ActivityScreen.headAfterCursor, holds.newest]
        rfl
      have all : newEvents [] (view.log.queryEvents order view.screen.headParams) ++ [] =
          view.log.queryEvents order view.screen.headParams := by
        rw [List.append_nil]
        exact List.filter_eq_self.mpr fun _ _ => by simp
      rw [all, queryEvents_head]
      exact (listing_first none_).window
    | cons first rest =>
      obtain ⟨last, tail⟩ : ∃ last, (first :: rest).getLast? = some last :=
        ⟨_, List.getLast?_eq_some_getLast (List.cons_ne_nil _ _)⟩
      have newest : view.screen.newestTimestamp = some first.timestamp := holds.newest
      have oldest : view.screen.oldestTimestamp = some last.timestamp := by
        rw [holds.oldest, tail]
        rfl
      obtain ⟨cursor, after, below⟩ :=
        headAfterCursor_lt (holds.stamped first (holds.known first List.mem_cons_self).1) newest
      obtain ⟨fits, beside⟩ := orderly first.timestamp last.timestamp newest oldest
      refine Feed.Window.prepend keepsUp rfl tail (@listing_head view order cursor after)
        (fun e logged recent => reached_head after below fits logged recent) (fun e logged above older level => ?_)
        ((nodup_queryEvents _).filter _) (fun e => ?_) ((newest_queryEvents _).sublist List.filter_sublist)
      · refine holds.mem_held logged.1 (beside e logged (fun mark held => ?_) older level)
        exact Option.some.inj (after.symm.trans held) ▸ above
      · rw [mem e, queryEvents_head]
  exact (Feed.Window.congr whole same).take (by decide)

end Refresh

section Older
variable {order : TimestampOrder} {oldest : String}

theorem logged_of_olderParams (holds : Holds view held) {e : AuditEvent}
    (member : e ∈ held ++ newEvents held (view.log.queryEvents order (view.screen.olderParams oldest))) : Logged view e := by
  rcases List.mem_append.mp member with old | new
  · exact holds.known e old
  · obtain ⟨logged, admitted⟩ := mem_queryEvents (List.mem_of_mem_filter new)
    exact ⟨logged, (admits_olderParams.1 admitted).1⟩

theorem Holds.extend (holds : Holds view held) {screen : ActivityScreen}
    (begun : view.screen.oldestTimestamp = some oldest)
    (events : screen.events =
      (view.screen.events ++ view.screen.unheld (answer view.log order (view.screen.olderParams oldest))).take maxEvents)
    (newest : screen.newestTimestamp = view.screen.newestTimestamp)
    (last : screen.oldestTimestamp = (screen.events.getLast?.bind (textField "timestamp")).orElse fun _ => some oldest)
    (filter : screen.filter = view.screen.filter) :
    Holds { view with screen }
      ((held ++ newEvents held (view.log.queryEvents order (view.screen.olderParams oldest))).take maxEvents) := by
  rw [answer, unheld_map holds.events, holds.events, ← List.map_append, ← List.map_take] at events
  cases held with
  | nil =>
    rw [holds.oldest] at begun
    cases begun
  | cons first rest =>
    have relisted : Relisted view.screen (((first :: rest) ++
        newEvents (first :: rest) (view.log.queryEvents order (view.screen.olderParams oldest))).take maxEvents |>.map
          AuditEvent.toJson) screen := by
      refine ⟨events, ?_, ?_, filter⟩
      · rw [newest, head_timestamp, holds.newest]
        rfl
      · rw [last, events, begun]
    refine holds.relist relisted ?_ (fun e member => logged_of_olderParams holds (List.mem_of_mem_take member))
      (List.length_take_le _ _) nofun
    exact (List.perm_append_comm.nodup_iff.mpr holds.nodup_append).sublist (List.take_sublist _ _)

theorem KeepsUp.extend (keepsUp : KeepsUp view held) (holds : Holds view held) {screen : ActivityScreen} {key : KeyEvent}
    (free : view.screen.inputMode = none) (pressed : key.code = .char 'o')
    (begun : view.screen.oldestTimestamp = some oldest) (filter : screen.filter = view.screen.filter)
    (orderly : Orderly view (.key key (.answered order))) :
    KeepsUp { view with screen }
      ((held ++ newEvents held (view.log.queryEvents order (view.screen.olderParams oldest))).take maxEvents) := by
  have mem := mem_newEvents (fun e member => (holds.known e member).1)
    fun e (member : e ∈ view.log.queryEvents order (view.screen.olderParams oldest)) => (mem_queryEvents member).1
  have same : ∀ e, Logged { view with screen } e ↔ Logged view e := by
    intro e
    rw [Logged, Logged, filter]
  have listing : Feed.Listing AuditEvent.timestamp
      (fun e => Logged view e ∧ e.timestamp < ActivityScreen.beforeCursor oldest)
      (order.sort (view.log.events.filter fun e => (view.screen.olderParams oldest).admits e.row)) := by
    refine ⟨AuditLog.nodup_sort, fun e => ?_, order.newest _⟩
    rw [AuditLog.mem_sort, admits_olderParams, Logged, and_assoc]
  have ends := begun.symm.trans holds.oldest
  obtain ⟨last, tail, rfl⟩ : ∃ last, held.getLast? = some last ∧ last.timestamp = oldest := by
    cases tail : held.getLast? with
    | none =>
      rw [tail] at ends
      cases ends
    | some last =>
      rw [tail] at ends
      exact ⟨last, rfl, (Option.some.inj ends).symm⟩
  obtain ⟨first, head⟩ : ∃ first, held.head? = some first := by
    cases held with
    | nil => cases tail
    | cons first rest => exact ⟨first, rfl⟩
  have member := List.mem_of_getLast? tail
  have answered : ∀ e, e ∈ newEvents held (view.log.queryEvents order (view.screen.olderParams last.timestamp)) ↔
      e ∈ (order.sort (view.log.events.filter fun e => (view.screen.olderParams last.timestamp).admits e.row)).take fetchLimit ∧
        e ∉ held := by
    intro e
    rw [mem e, AuditLog.queryEvents, rowLimit_olderParams]
  refine Feed.Window.take (Feed.Window.congr ?_ same) (by decide)
  exact Feed.Window.extend keepsUp head tail (lt_beforeCursor (holds.stamped last (holds.known last member).1))
    (fun e logged newer older => holds.mem_held logged.1 (orderly free pressed _ begun e logged newer older)) listing
    ((nodup_queryEvents _).filter _) answered ((newest_queryEvents _).sublist List.filter_sublist)

end Older

/-- What a step does to what is held. An orderly one keeps up with the log. -/
theorem Holds.step (holds : Holds view held) {step : AuditStep} {next : AuditView} (change : Change view step next) :
    ∃ held', Holds next held' ∧ (Orderly view step → KeepsUp view held → KeepsUp next held') := by
  cases change with
  | written event =>
    exact ⟨held, holds.write event, fun orderly keepsUp => keepsUp.write holds event orderly⟩
  | kept same =>
    refine ⟨held, ⟨same.events.trans holds.events, holds.nodup, ?_, holds.bound, same.newest.trans holds.newest,
      same.oldest.trans holds.oldest, holds.stamped⟩, fun _ keepsUp => ?_⟩
    · intro e member
      rw [Logged, same.filter]
      exact holds.known e member
    · refine Feed.Window.congr keepsUp fun e => ?_
      rw [Logged, Logged, same.filter]
  | cleared cleared =>
    exact ⟨[], ⟨cleared.events, List.nodup_nil, List.forall_mem_nil _, Nat.zero_le _, cleared.newest, cleared.oldest,
      holds.stamped⟩, fun _ _ => Feed.Window.nil⟩
  | refreshed relisted =>
    exact ⟨_, holds.refresh relisted, fun orderly keepsUp => keepsUp.refresh holds relisted.filter orderly⟩
  | extended free pressed begun events newest last filter =>
    exact ⟨_, holds.extend begun events newest last filter,
      fun orderly keepsUp => keepsUp.extend holds free pressed begun filter orderly⟩

end Steps

end Latchgate.Tui
