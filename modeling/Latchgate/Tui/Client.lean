import Latchgate.Json.Value

namespace Latchgate.Tui

/-! The client of the gate. -/

/-- `value[key].as_str()` -/
def textField (key : String) (value : Json) : Option String :=
  (value.get? key).bind Json.asStr?

def listField (key : String) (value : Json) : Option (List Json) :=
  (value.get? key).bind Json.asArray?

inductive ClientError where
  | notReachable (message : String)
  | http (status : Nat) (body : String)
  | invalidResponse (message : String)
  | transport (message : String)
  | dpopSigningFailed (message : String)
  deriving DecidableEq

def ClientError.display : ClientError → String
  | notReachable message => "gate not reachable: " ++ message
  | http status body => "HTTP error " ++ toString status ++ ": " ++ body
  | invalidResponse message => "invalid response: " ++ message
  | transport message => "transport error: " ++ message
  | dpopSigningFailed message => "DPoP proof signing failed: " ++ message

/-- A request before its parameters are encoded. -/
structure ClientRequest where
  method : String
  path : String
  params : List (String × String) := []
  body : Option Json := none

def approvePath (approvalId : String) : String :=
  "/v1/approvals/" ++ approvalId ++ "/approve"

def denyPath (approvalId : String) : String :=
  "/v1/approvals/" ++ approvalId ++ "/deny"

def approveApproval (approvalId : String) (learnDomain learnPath : Option String) : ClientRequest where
  method := "POST"
  path := approvePath approvalId
  params := learnDomain.toList.map (Prod.mk "learn_domain") ++ learnPath.toList.map (Prod.mk "learn_path")

def denyApproval (approvalId : String) (reason : Option String) : ClientRequest where
  method := "POST"
  path := denyPath approvalId
  body := reason.map fun reason => .object [("reason", .string reason)]

/-- The approval that a request decides. -/
def ClientRequest.Names (request : ClientRequest) (approvalId : String) : Prop :=
  request.path = approvePath approvalId ∨ request.path = denyPath approvalId

theorem approvePath_inj {first second : String} : approvePath first = approvePath second ↔ first = second := by
  refine ⟨fun same => ?_, fun same => same ▸ rfl⟩
  have texts := congrArg String.toList same
  simp only [approvePath, String.toList_append, List.append_assoc, List.append_cancel_left_eq, List.append_cancel_right_eq] at texts
  exact String.toList_inj.mp texts

theorem denyPath_inj {first second : String} : denyPath first = denyPath second ↔ first = second := by
  refine ⟨fun same => ?_, fun same => same ▸ rfl⟩
  have texts := congrArg String.toList same
  simp only [denyPath, String.toList_append, List.append_assoc, List.append_cancel_left_eq, List.append_cancel_right_eq] at texts
  exact String.toList_inj.mp texts

theorem approvePath_ne_denyPath (first second : String) : approvePath first ≠ denyPath second := by
  intro same
  have last := congrArg (fun path => path.toList.getLast?) same
  have approve : "/approve".toList = ['/', 'a', 'p', 'p', 'r', 'o', 'v', 'e'] := rfl
  have deny : "/deny".toList = ['/', 'd', 'e', 'n', 'y'] := rfl
  simp only [approvePath, denyPath, String.toList_append, approve, deny, List.getLast?_append, List.getLast?_cons_cons,
    List.getLast?_singleton, Option.some_or] at last
  exact absurd (Option.some.inj last) (by decide)

theorem approveApproval_names {approvalId : String} {learnDomain learnPath : Option String} {other : String} :
    (approveApproval approvalId learnDomain learnPath).Names other ↔ other = approvalId := by
  refine ⟨?_, fun same => .inl (same ▸ rfl)⟩
  rintro (approve | deny)
  · exact (approvePath_inj.1 approve).symm
  · exact absurd deny (approvePath_ne_denyPath _ _)

theorem denyApproval_names {approvalId : String} {reason : Option String} {other : String} :
    (denyApproval approvalId reason).Names other ↔ other = approvalId := by
  refine ⟨?_, fun same => .inr (same ▸ rfl)⟩
  rintro (approve | deny)
  · exact absurd approve.symm (approvePath_ne_denyPath _ _)
  · exact (denyPath_inj.1 deny).symm

end Latchgate.Tui
