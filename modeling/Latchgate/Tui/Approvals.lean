import Latchgate.Tui.Client
import Latchgate.Tui.Input
import Latchgate.Machine.Run
import Mathlib.Algebra.Order.Group.Nat
import Mathlib.Data.List.Sort

namespace Latchgate.Tui

/-! The screen on which an operator decides about approvals. -/

inductive StatusFilter where
  | all
  | pending
  | approved
  | denied
  deriving DecidableEq

namespace StatusFilter

def apiParam : StatusFilter → Option String
  | all => none
  | pending => some "pending"
  | approved => some "approved"
  | denied => some "denied"

def next : StatusFilter → StatusFilter
  | all => pending
  | pending => approved
  | approved => denied
  | denied => all

end StatusFilter

/-- What is to be done when the event loop runs the action of the screen. -/
inductive PendingAction where
  | approve (approvalId : String)
  | approveAndLearn (approvalId : String) (learnDomain learnPath : Option String)
  | deny (approvalId reason : String)

/-- What waits for a confirmation. -/
inductive ConfirmAction where
  | approve (approvalId : String)
  | learnApprove (approvalId : String) (learnDomain learnPath : Option String)

structure DenyInput where
  approvalId : String
  input : TextInput

structure ApprovalsScreen where
  approvals : List Json := []
  selected : Nat := 0
  detail : Option Json := none
  denyInput : Option DenyInput := none
  confirmAction : Option ConfirmAction := none
  pendingAction : Option PendingAction := none
  error : Option String := none
  statusFilter : StatusFilter := .all
  tickCount : Nat := 0

def ConfirmAction.confirmed : ConfirmAction → PendingAction
  | approve approvalId => .approve approvalId
  | learnApprove approvalId learnDomain learnPath => .approveAndLearn approvalId learnDomain learnPath

namespace PendingAction

def request : PendingAction → ClientRequest
  | approve approvalId => approveApproval approvalId none none
  | approveAndLearn approvalId learnDomain learnPath => approveApproval approvalId learnDomain learnPath
  | deny approvalId reason => denyApproval approvalId (if reason = "" then none else some reason)

def flash (reply : Except ClientError Json) : PendingAction → FlashMessage
  | approve _ => match reply with
    | .ok _ => .success "✓ Approved"
    | .error e => .error ("Approve failed: " ++ e.display)
  | approveAndLearn _ learnDomain learnPath => match reply with
    | .ok _ => .success ("✓ Approved" ++ (learnDomain.map (" +domain:" ++ ·)).getD "" ++ (learnPath.map (" +path:" ++ ·)).getD "")
    | .error e => .error ("Approve failed: " ++ e.display)
  | deny _ reason => match reply with
    | .ok _ => .success (if reason = "" then "✗ Denied" else "✗ Denied: " ++ reason)
    | .error e => .error ("Deny failed: " ++ e.display)

end PendingAction

/-! What a record has that no allowlist has. -/

def anyUnresolved (key : String) (detail : Json) : Bool :=
  ((listField key detail).map fun items => !items.isEmpty).getD false

def firstUnresolved (key : String) (detail : Json) : Option String :=
  ((listField key detail).bind List.head?).bind Json.asStr?

def firstUnresolvedDomain : Json → Option String :=
  firstUnresolved "unresolved_domains"

def firstUnresolvedPath : Json → Option String :=
  firstUnresolved "unresolved_paths"

def hasUnresolved (detail : Json) : Bool :=
  anyUnresolved "unresolved_domains" detail || anyUnresolved "unresolved_paths" detail

def isPending (approval : Json) : Bool :=
  textField "status" approval = some "pending"

namespace ApprovalsScreen
variable (s : ApprovalsScreen)

def selectedId : Option String :=
  (s.approvals[s.selected]?).bind (textField "approval_id")

def selectedIsPending : Bool :=
  (s.approvals[s.selected]?).any isPending

/-- A question or an input about the approval that is selected, if it is pending
and its record is there. -/
def beginWith (start : String → Json → ApprovalsScreen) : ApprovalsScreen × ScreenAction :=
  match s.detail, s.selectedId with
  | some detail, some approvalId => if s.selectedIsPending then (start approvalId detail, .beginInput) else (s, .noop)
  | _, _ => (s, .noop)

def moveUp : ApprovalsScreen :=
  if !s.approvals.isEmpty && 0 < s.selected then { s with selected := s.selected - 1, detail := none } else s

def moveDown : ApprovalsScreen :=
  if s.selected + 1 < s.approvals.length then { s with selected := s.selected + 1, detail := none } else s

def askLearn (approvalId : String) (detail : Json) : ApprovalsScreen :=
  { s with
    confirmAction := some (.learnApprove approvalId (firstUnresolvedDomain detail) (firstUnresolvedPath detail)) }

/-- Learning is part of it as soon as there is something to learn. -/
def askApprove (approvalId : String) (detail : Json) : ApprovalsScreen :=
  if hasUnresolved detail then s.askLearn approvalId detail else { s with confirmAction := some (.approve approvalId) }

def askReason (approvalId : String) : ApprovalsScreen :=
  { s with denyInput := some { approvalId, input := .new " Deny reason (Enter to submit, Esc to cancel) " 256 } }

/-- A key when no input and no question is open. -/
def handleCommand (key : KeyCode) : ApprovalsScreen × ScreenAction :=
  match key with
  | .up | .char 'k' => (s.moveUp, .noop)
  | .down | .char 'j' => (s.moveDown, .noop)
  | .char 'a' => s.beginWith s.askApprove
  | .char 'l' => if s.detail.any hasUnresolved then s.beginWith s.askLearn else (s, .noop)
  | .char 'd' => s.beginWith fun approvalId _ => s.askReason approvalId
  | .char 'f' =>
    ({ s with statusFilter := s.statusFilter.next, approvals := [], selected := 0, detail := none }, .noop)
  | .enter => (s, if s.approvals.isEmpty then .navigate 0 else .noop)
  | _ => (s, .noop)

def handleKey (key : KeyEvent) : ApprovalsScreen × ScreenAction :=
  match s.denyInput with
  | some deny =>
    let (input, action) := deny.input.handleKey key
    match action with
    | .submit reason =>
      ({ s with denyInput := none, pendingAction := some (.deny deny.approvalId reason) }, .asyncAction)
    | .cancel => ({ s with denyInput := none }, .endInput)
    | .continue_ => ({ s with denyInput := some { deny with input } }, .noop)
  | none =>
    match s.confirmAction with
    | some action =>
      if key.code = .char 'y' then
        ({ s with confirmAction := none, pendingAction := some action.confirmed }, .asyncAction)
      else ({ s with confirmAction := none }, .endInput)
    | none => s.handleCommand key.code

/-- The action of the screen with the requests it sends. There is no message if
it is cut off while it waits for the reply. -/
def handleAction (reply : ClientRequest → Option (Except ClientError Json)) :
    ApprovalsScreen × List ClientRequest × Option (Option FlashMessage) :=
  match s.pendingAction with
  | none => (s, [], some none)
  | some action =>
    ({ s with pendingAction := none, detail := none }, [action.request],
      (reply action.request).map fun result => some (action.flash result))

/-- What the gate replies to the two requests of a refresh. There is none where
the refresh is cut off. -/
structure Gate where
  listApprovals : Option String → Nat → Option (Except ClientError (List Json))
  getApproval : String → Option (Except ClientError Json)

/-- Pending ones first. -/
def arrange (list : List Json) : List Json :=
  if s.statusFilter = .all then list.mergeSort fun a b => !isPending b || isPending a else list

/-- The list that was fetched takes the place of the one that is held, and the
selection stays with its approval where that is in both. -/
def replaceList (list : List Json) : ApprovalsScreen :=
  let approvals := s.arrange list
  if approvals.isEmpty then { s with error := none, approvals, selected := 0, detail := none }
  else match s.selectedId with
    | some approvalId =>
      match approvals.findIdx? fun approval => textField "approval_id" approval = some approvalId with
      | some selected => { s with error := none, approvals, selected }
      | none => { s with error := none, approvals, selected := min s.selected (approvals.length - 1), detail := none }
    | none => { s with error := none, approvals, selected := min s.selected (approvals.length - 1) }

def fetchDetail (gate : Gate) : ApprovalsScreen :=
  match s.detail, s.selectedId with
  | some _, _ => { s with error := s.error.filter fun e => !"Detail:".toList.isPrefixOf e.toList }
  | none, none => s
  | none, some approvalId =>
    match gate.getApproval approvalId with
    | none => s
    | some (.ok detail) => { s with detail := some detail, error := none }
    | some (.error e) => { s with error := some ("Detail: " ++ e.display) }

/-- A refresh, which ends at the request that has no reply. -/
def tick (gate : Gate) : ApprovalsScreen :=
  let s := { s with tickCount := (s.tickCount + 1) % 2 ^ 64 }
  match gate.listApprovals s.statusFilter.apiParam 50 with
  | none => s
  | some (.ok list) =>
    let s := s.replaceList list
    if s.approvals.isEmpty then s else s.fetchDetail gate
  | some (.error (.notReachable message)) => { s with error := some ("Gate unreachable: " ++ message) }
  | some (.error (.http 404 _)) => { s with approvals := [], selected := 0, detail := none, error := none }
  | some (.error e) => { s with error := some ("Error: " ++ e.display) }

end ApprovalsScreen

/-! The event loop with this screen open. -/

inductive Event where
  | key (key : KeyEvent) (reply : ClientRequest → Option (Except ClientError Json))
  | tick (gate : ApprovalsScreen.Gate)

structure Effect where
  sent : List ClientRequest
  flash : Option FlashMessage

/-- A key that asks for it has the action run at once. -/
def handleEvent (s : ApprovalsScreen) : Event → ApprovalsScreen × Effect
  | .tick gate => (s.tick gate, ⟨[], none⟩)
  | .key key reply =>
    match s.handleKey key with
    | (s, .asyncAction) =>
      let (s, sent, flash) := s.handleAction reply
      (s, ⟨sent, flash.getD (some actionTimedOut)⟩)
    | (s, _) => (s, ⟨[], none⟩)

def approvalsScreen : Machine ApprovalsScreen Event Effect where
  step := handleEvent

end Latchgate.Tui
