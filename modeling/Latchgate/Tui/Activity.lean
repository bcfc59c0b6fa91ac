import Latchgate.Calendar.Millis
import Latchgate.Ledger.AuditQuery
import Latchgate.Machine.Run
import Latchgate.Tui.Client
import Latchgate.Tui.Input
import Mathlib.Data.List.Infix

namespace Latchgate.Tui
open Calendar

/-! The screen with the audit log. -/

def maxEvents : Nat :=
  500

def fetchLimit : Nat :=
  100

def headOverlapMs : Nat :=
  1000

structure EventKey where
  traceId : String
  eventType : String
  timestamp : String
  deriving DecidableEq

def EventKey.of (event : Json) : EventKey where
  traceId := (textField "trace_id" event).getD ""
  eventType := (textField "event_type" event).getD ""
  timestamp := (textField "timestamp" event).getD ""

inductive ActivityFilter where
  | all
  | decision (value : String)
  | action (value : String)
  | principal (value : String)
  | eventType (value : String)
  deriving DecidableEq

def ActivityFilter.apply (params : EventFilter) : ActivityFilter → EventFilter
  | all => params
  | decision value => { params with decision := some value }
  | action value => { params with actionId := some value }
  | principal value => { params with principal := some value }
  | eventType value => { params with eventType := some value }

inductive FilterKind where
  | decision
  | action
  | principal
  | eventType
  deriving DecidableEq

namespace FilterKind

def label : FilterKind → String
  | decision => "decision"
  | action => "action"
  | principal => "principal"
  | eventType => "event_type"

def filter (value : String) : FilterKind → ActivityFilter
  | decision => .decision value
  | action => .action value
  | principal => .principal value
  | eventType => .eventType value

end FilterKind

/-- The kind that is asked for next. There is none after the last one. -/
def ActivityFilter.next : ActivityFilter → Option FilterKind
  | all => some .decision
  | decision _ => some .action
  | action _ => some .principal
  | principal _ => some .eventType
  | eventType _ => none

inductive InputMode where
  | filter (kind : FilterKind) (input : TextInput)
  | search (input : TextInput)

structure ActivityScreen where
  events : List Json := []
  newestTimestamp : Option String := none
  oldestTimestamp : Option String := none
  selected : Nat := 0
  filter : ActivityFilter := .all
  inputMode : Option InputMode := none
  searchTerm : Option String := none
  error : Option String := none
  loadOlder : Bool := false
  showDetail : Bool := false
  detailScroll : Nat := 0

def matchesSearch (toLowercase : String → String) (term : String) (event : Json) : Bool :=
  ["timestamp", "decision", "action_id", "principal", "trace_id"].any fun key =>
    (toLowercase term).toList <:+: (toLowercase ((textField key event).getD "")).toList

/-- The approvals about which there is more than that they are pending. -/
def resolvedApprovals (events : List Json) : List String :=
  (events.filter fun event => (textField "decision" event).getD "" ≠ "pending_approval").filterMap (textField "approval_id")

def superseded (resolved : List String) (event : Json) : Bool :=
  textField "decision" event = some "pending_approval" && (textField "approval_id" event).any (· ∈ resolved)

namespace ActivityScreen
variable (toLowercase : String → String) (s : ActivityScreen)

def searchedEvents : List Json :=
  match s.searchTerm with
  | some term => if term = "" then s.events else s.events.filter (matchesSearch toLowercase term)
  | none => s.events

def visibleEvents : List Json :=
  (s.searchedEvents toLowercase).filter fun event => !superseded (resolvedApprovals (s.searchedEvents toLowercase)) event

def resetForFilterChange : ActivityScreen :=
  { s with events := [], newestTimestamp := none, oldestTimestamp := none, selected := 0 }

/-- The cursor of a refresh, which is before the newest event. -/
def headAfterCursor : Option String := do
  let newest ← s.newestTimestamp
  let parsed ← readMillis newest.toList
  return String.ofList (millis (parsed - headOverlapMs))

/-- The cursor for older events, which is after the oldest one. -/
def beforeCursor (oldest : String) : String :=
  ((readMillis oldest.toList).map fun parsed => String.ofList (millis (parsed + headOverlapMs))).getD oldest

def unheld (fetched : List Json) : List Json :=
  fetched.filter fun event => EventKey.of event ∉ s.events.map EventKey.of

def refreshCursors : ActivityScreen :=
  { s with
    newestTimestamp := ((s.events.head?).bind (textField "timestamp")).orElse fun _ => s.newestTimestamp
    oldestTimestamp := ((s.events.getLast?).bind (textField "timestamp")).orElse fun _ => s.oldestTimestamp }

/-- The selection goes back to the event that was selected, if this is still
visible. -/
def reanchor (anchor : Option EventKey) : ActivityScreen :=
  match anchor with
  | none => s
  | some key =>
    let visible := s.visibleEvents toLowercase
    { s with
      selected := (visible.findIdx? fun event => EventKey.of event = key).getD (min s.selected (visible.length - 1)) }

def anchor : Option EventKey :=
  ((s.visibleEvents toLowercase)[s.selected]?).map EventKey.of

def mergeHead (fetched : List Json) : ActivityScreen :=
  if fetched.isEmpty then s
  else
    let fresh := if s.events.isEmpty then fetched else s.unheld fetched
    if fresh.isEmpty then s
    else
      let merged := { s with events := (fresh ++ s.events).take maxEvents }
      merged.refreshCursors.reanchor toLowercase (s.anchor toLowercase)

def headParams : EventFilter :=
  { s.filter.apply { limit := some fetchLimit } with after := s.headAfterCursor }

def olderParams (oldest : String) : EventFilter :=
  s.filter.apply { limit := some fetchLimit, before := some (beforeCursor oldest) }

/-- A refresh. It is cut off where there is no reply. -/
def tick (fetch : EventFilter → Option (Except ClientError (List Json))) : ActivityScreen :=
  match fetch s.headParams with
  | none => s
  | some (.ok fetched) => { s with error := none }.mergeHead toLowercase fetched
  | some (.error (.notReachable message)) => { s with error := some ("Gate unreachable: " ++ message) }
  | some (.error (.http 404 _)) => { s with error := none }
  | some (.error e) => { s with error := some ("Error: " ++ e.display) }

def appendOlder (fresh : List Json) : ActivityScreen :=
  let events := (s.events ++ fresh).take maxEvents
  { s with events, oldestTimestamp := (events.getLast?.bind (textField "timestamp")).orElse fun _ => s.oldestTimestamp }

/-- The fetch of older events. There is no message if it is cut off. -/
def handleAction (fetch : EventFilter → Option (Except ClientError (List Json))) :
    ActivityScreen × Option (Option FlashMessage) :=
  if s.loadOlder then
    let s := { s with loadOlder := false }
    match s.oldestTimestamp with
    | none => (s, some none)
    | some oldest =>
      match fetch (s.olderParams oldest) with
      | none => (s, none)
      | some (.ok older) =>
        let fresh := s.unheld older
        if fresh.isEmpty then (s, some (some (.info "No older events."))) else (s.appendOlder fresh, some none)
      | some (.error e) => (s, some (some (.error ("Load older: " ++ e.display))))
  else (s, some none)

/-! The keys. -/

def select (selected : Nat) : ActivityScreen :=
  { s with selected, detailScroll := 0 }

def moveUp : ActivityScreen :=
  if 0 < (s.visibleEvents toLowercase).length ∧ 0 < s.selected then s.select (s.selected - 1) else s

def moveDown : ActivityScreen :=
  if 0 < (s.visibleEvents toLowercase).length then
    let next := min (s.selected + 1) ((s.visibleEvents toLowercase).length - 1)
    if next ≠ s.selected then s.select next else s
  else s

def moveHome : ActivityScreen :=
  if 0 < (s.visibleEvents toLowercase).length then s.select 0 else s

def moveEnd : ActivityScreen :=
  if 0 < (s.visibleEvents toLowercase).length then s.select ((s.visibleEvents toLowercase).length - 1) else s

def toggleDetail : ActivityScreen :=
  if 0 < (s.visibleEvents toLowercase).length then { s with showDetail := !s.showDetail, detailScroll := 0 } else s

def closeDetail : ActivityScreen :=
  if s.showDetail then { s with showDetail := false, detailScroll := 0 } else s

def scrollDown : ActivityScreen :=
  if s.showDetail ∧ s.detailScroll < 200 then { s with detailScroll := s.detailScroll + 1 } else s

def scrollUp : ActivityScreen :=
  if s.showDetail then { s with detailScroll := s.detailScroll - 1 } else s

def beginFilter (kind : FilterKind) : ActivityScreen :=
  { s with
    inputMode := some (.filter kind (.new (" Filter by " ++ kind.label ++ " (Enter to apply, Esc to cancel) ") 128)) }

def beginSearch : ActivityScreen :=
  { s with inputMode := some (.search (.new " Search (Enter to apply, Esc to cancel) " 128)) }

/-- Another filter, or none. The events are fetched anew. -/
def setFilter (filter : ActivityFilter) : ActivityScreen :=
  { s with filter, inputMode := none }.resetForFilterChange

/-- A key when nothing is typed. -/
def handleCommand (key : KeyCode) : ActivityScreen × ScreenAction :=
  match key with
  | .up | .char 'k' => (s.moveUp toLowercase, .noop)
  | .down | .char 'j' => (s.moveDown toLowercase, .noop)
  | .home => (s.moveHome toLowercase, .noop)
  | .end_ => (s.moveEnd toLowercase, .noop)
  | .enter => (s.toggleDetail toLowercase, .noop)
  | .esc => (s.closeDetail, .noop)
  | .char '+' | .char '=' => (s.scrollDown, .noop)
  | .char '-' => (s.scrollUp, .noop)
  | .char 'f' =>
    match s.filter.next with
    | some kind => (s.beginFilter kind, .beginInput)
    | none => (s.setFilter .all, .noop)
  | .char '/' => (s.beginSearch, .beginInput)
  | .char 'r' => (s.resetForFilterChange, .noop)
  | .char 'o' => if s.oldestTimestamp.isSome then ({ s with loadOlder := true }, .asyncAction) else (s, .noop)
  | _ => (s, .noop)

def handleKey (key : KeyEvent) : ActivityScreen × ScreenAction :=
  match s.inputMode with
  | some (.filter kind input) =>
    match input.handleKey key with
    | (_, .submit value) => (s.setFilter (if value = "" then .all else kind.filter value), .endInput)
    | (_, .cancel) => ({ s with inputMode := none }, .endInput)
    | (input, .continue_) => ({ s with inputMode := some (.filter kind input) }, .noop)
  | some (.search input) =>
    match input.handleKey key with
    | (_, .submit value) =>
      ({ s with searchTerm := if value = "" then none else some value, selected := 0, inputMode := none }, .endInput)
    | (_, .cancel) => ({ s with inputMode := none }, .endInput)
    | (input, .continue_) => ({ s with inputMode := some (.search input) }, .noop)
  | none => s.handleCommand toLowercase key.code

end ActivityScreen

/-! The screen beside a log that is written to. -/

/-- The time of an event in milliseconds. Within a second of the ends of the
years of four digits a cursor would have another form. -/
def Stamped (event : AuditEvent) : Prop :=
  ∃ n, headOverlapMs ≤ n ∧ n + headOverlapMs < lastMillis ∧ event.timestamp = String.ofList (millis n)

/-- How a request ends. -/
inductive Reply where
  | answered (order : TimestampOrder)
  | failed (e : ClientError)
  | cutOff

def Reply.fetch (log : AuditLog) (params : EventFilter) : Reply → Option (Except ClientError (List Json))
  | answered order => some (.ok ((log.queryEvents order params).map AuditEvent.toJson))
  | failed e => some (.error e)
  | cutOff => none

structure AuditView where
  log : AuditLog := .empty
  screen : ActivityScreen := {}

inductive AuditStep where
  | write (event : { event : AuditEvent // Stamped event })
  | key (key : KeyEvent) (reply : Reply)
  | tick (reply : Reply)

/-- A key that asks for it has the action of the screen run at once. -/
def handleStep (toLowercase : String → String) (view : AuditView) : AuditStep → AuditView × Option FlashMessage
  | .write event => ({ view with log := view.log.write event }, none)
  | .tick reply => ({ view with screen := view.screen.tick toLowercase fun params => reply.fetch view.log params }, none)
  | .key key reply =>
    match view.screen.handleKey toLowercase key with
    | (screen, .asyncAction) =>
      let (screen, flash) := screen.handleAction fun params => reply.fetch view.log params
      ({ view with screen }, flash.getD (some actionTimedOut))
    | (screen, _) => ({ view with screen }, none)

def auditView (toLowercase : String → String) : Machine AuditView AuditStep (Option FlashMessage) where
  step := handleStep toLowercase

end Latchgate.Tui
