import Latchgate.Mcp.Session

namespace Latchgate.Mcp.Stdio

theorem toolResult_inj {id : Option RequestId} {text other : String} {isError isOther : Bool}
    (same : toolResult id text isError = toolResult id other isOther) : text = other ∧ isError = isOther := by
  have contents := Option.some.inj (congrArg JsonRpcResponse.result same)
  have order : ("isError" : String) ≠ "content" ∧ ¬("isError" : String) < "content" ∧ ("text" : String) ≠ "type" ∧
      ("text" : String) < "type" := by decide
  simpa [Json.ofFields, Json.insertField, order] using contents

namespace Server
variable {server : Server} {call : CallContext}

theorem mapGateError_isError (id : Option RequestId) (actionId traceId : String) (e : GateError) :
    ∃ text, server.mapGateError id actionId traceId e = toolResult id text true := by
  cases e <;> exact ⟨_, rfl⟩

theorem error_ne_success {id : Option RequestId} {message text : String} :
    toolResult id message true ≠ toolSuccess id text := by
  intro same
  exact absurd (toolResult_inj same).2 (by decide)

/-- The gate executed the action at once. -/
theorem executeVerdict_success {answer : Except GateError Json} {text : String} :
    server.executeVerdict call answer = .inl (toolSuccess call.id text) ↔
      ∃ body, answer = .ok body ∧ (field body "decision").asStr? = some "executed" ∧ server.executedText body = text := by
  constructor
  · intro verdict
    cases answer with
    | error e =>
      obtain ⟨message, error⟩ := server.mapGateError_isError call.id call.actionId call.traceId e
      have same := Sum.inl.inj verdict
      rw [error] at same
      exact absurd same error_ne_success
    | ok body =>
      simp only [executeVerdict] at verdict
      split_ifs at verdict with executed waiting
      · exact ⟨body, rfl, executed, (toolResult_inj (Sum.inl.inj verdict)).1⟩
      · split at verdict
        · cases verdict
        · exact absurd (Sum.inl.inj verdict) error_ne_success
      · exact absurd (Sum.inl.inj verdict) error_ne_success
  · rintro ⟨body, rfl, executed, rfl⟩
    simp only [executeVerdict, executed, if_true]

theorem executeVerdict_waits {answer : Except GateError Json} {approvalId : String} :
    server.executeVerdict call answer = .inr approvalId ↔ ∃ body, answer = .ok body ∧
      (field body "decision").asStr? = some "pending_approval" ∧ (field body "approval_id").asStr? = some approvalId := by
  constructor
  · intro verdict
    cases answer with
    | error e => cases verdict
    | ok body =>
      simp only [executeVerdict] at verdict
      split_ifs at verdict with executed waiting
      split at verdict
      · next found =>
        obtain rfl := Sum.inr.inj verdict
        exact ⟨body, rfl, waiting, found⟩
      · cases verdict
  · rintro ⟨body, rfl, waiting, found⟩
    have other : (some "pending_approval" : Option String) ≠ some "executed" := by decide
    simp only [executeVerdict, waiting, found, if_neg other, if_true]

theorem pollVerdict_success {approvalId text : String} {answer : Except GateError (ApprovalOutcome × Option Nat)} :
    server.pollVerdict call approvalId answer = some (toolSuccess call.id text) ↔
      ∃ body retry, answer = .ok (.approved body, retry) ∧ server.approvedText body = text := by
  constructor
  · intro verdict
    unfold pollVerdict at verdict
    split at verdict
    · cases verdict
    · next body retry => exact ⟨body, retry, rfl, (toolResult_inj (Option.some.inj verdict)).1⟩
    · exact absurd (Option.some.inj verdict) error_ne_success
    · exact absurd (Option.some.inj verdict) error_ne_success
    · exact absurd (Option.some.inj verdict) error_ne_success
  · rintro ⟨body, retry, rfl, rfl⟩
    rfl

theorem pollVerdict_none {approvalId : String} {answer : Except GateError (ApprovalOutcome × Option Nat)} :
    server.pollVerdict call approvalId answer = none ↔ ∃ retry, answer = .ok (.pending, retry) := by
  constructor
  · intro verdict
    unfold pollVerdict at verdict
    split at verdict
    · exact ⟨_, rfl⟩
    all_goals cases verdict
  · rintro ⟨retry, rfl⟩
    rfl

/-- Polls that were all answered with pending. -/
def AllPending (server : Server) (approvalId : String) (seen : List Exchange) : Prop :=
  ∀ x ∈ seen, ∃ reply retry, x = pollExchange approvalId reply ∧
    GateClient.polled server.lib approvalId reply = .ok (.pending, retry)

/-- The gate says that the action was done: with the answer to its dispatch, or
with the answer to the last of the polls for its approval. -/
inductive Granted (server : Server) (call : ToolCallParams) : List Exchange → String → Prop
  | executed {reply body} : GateClient.executed server.lib reply = .ok body →
      (field body "decision").asStr? = some "executed" →
      Granted server call [executeExchange call.name call.arguments reply] (server.executedText body)
  | approved {reply body approvalId polls last granted retry} : GateClient.executed server.lib reply = .ok body →
      (field body "decision").asStr? = some "pending_approval" →
      (field body "approval_id").asStr? = some approvalId → server.AllPending approvalId polls →
      GateClient.polled server.lib approvalId last = .ok (.approved granted, retry) →
      Granted server call (executeExchange call.name call.arguments reply :: (polls ++ [pollExchange approvalId last]))
        (server.approvedText granted)

theorem PollStory.success {approvalId text : String} {seen : List Exchange} {result : Option JsonRpcResponse}
    (story : server.PollStory call approvalId seen result) (success : result = some (toolSuccess call.id text)) :
    ∃ polls last granted retry, seen = polls ++ [pollExchange approvalId last] ∧ server.AllPending approvalId polls ∧
      GateClient.polled server.lib approvalId last = .ok (.approved granted, retry) ∧ server.approvedText granted = text := by
  induction story with
  | cut => cases success
  | late => exact absurd (Option.some.inj success) error_ne_success
  | told => cases success
  | @ended reply resp verdict =>
    rw [success] at verdict
    obtain ⟨granted, retry, answer, shown⟩ := pollVerdict_success.1 verdict
    exact ⟨[], reply, granted, retry, rfl, by simp [AllPending], answer, shown⟩
  | @pending reply seen result verdict _ ih =>
    obtain ⟨polls, last, granted, retry, rfl, waiting, answer, shown⟩ := ih success
    obtain ⟨other, pending⟩ := pollVerdict_none.1 verdict
    refine ⟨pollExchange approvalId reply :: polls, last, granted, retry, rfl, ?_, answer, shown⟩
    intro x member
    rcases List.mem_cons.mp member with rfl | later
    · exact ⟨reply, other, rfl, pending⟩
    · exact waiting x later

theorem pollExchange_inj {approvalId : String} {reply other : Except LinkError (Nat × String)}
    (same : pollExchange approvalId reply = pollExchange approvalId other) : reply = other := by
  simpa [pollExchange] using same

theorem PollStory.granted {approvalId : String} {polls : List Exchange} {last : Except LinkError (Nat × String)}
    {resp : JsonRpcResponse} {granted : Json} {retry : Option Nat}
    (story : server.PollStory call approvalId (polls ++ [pollExchange approvalId last]) (some resp))
    (waiting : server.AllPending approvalId polls)
    (answer : GateClient.polled server.lib approvalId last = .ok (.approved granted, retry)) :
    resp = toolSuccess call.id (server.approvedText granted) := by
  induction polls with
  | nil =>
    generalize shape : [] ++ [pollExchange approvalId last] = seen at story
    cases story with
    | late => cases shape
    | ended verdict =>
      obtain rfl := pollExchange_inj (List.cons.inj shape).1
      rw [answer] at verdict
      exact (Option.some.inj verdict).symm
    | pending verdict =>
      obtain rfl := pollExchange_inj (List.cons.inj shape).1
      rw [answer] at verdict
      cases verdict
  | cons x rest ih =>
    obtain ⟨reply, later, rfl, pending⟩ := waiting x List.mem_cons_self
    generalize shape : pollExchange approvalId reply :: rest ++ [pollExchange approvalId last] = seen at story
    cases story with
    | late => cases shape
    | ended verdict =>
      obtain rfl := pollExchange_inj (List.cons.inj shape).1
      rw [pending] at verdict
      cases verdict
    | pending verdict inner =>
      obtain ⟨-, rfl⟩ := List.cons.inj shape
      exact ih inner fun y member => waiting y (List.mem_cons_of_mem _ member)

theorem executeExchange_inj {name : String} {arguments : Json} {reply other : Except LinkError (Nat × String)}
    (same : executeExchange name arguments reply = executeExchange name arguments other) : reply = other := by
  simpa [executeExchange] using same

theorem CallStory.success_iff {id : Option RequestId} {call : ToolCallParams} {seen : List Exchange}
    {resp : JsonRpcResponse} (story : server.CallStory id call seen (some resp)) (text : String) :
    resp = toolSuccess id text ↔ server.Granted call seen text := by
  constructor
  · rintro rfl
    cases story with
    | refused errors =>
      obtain ⟨message, error⟩ := errors _ rfl
      exact absurd error.symm error_ne_success
    | ended _ verdict =>
      obtain ⟨body, answer, executed, rfl⟩ := executeVerdict_success.1 verdict
      exact .executed answer executed
    | waits _ verdict polls =>
      obtain ⟨body, answer, waiting, found⟩ := executeVerdict_waits.1 verdict
      obtain ⟨polls, last, granted, retry, rfl, pending, approved, rfl⟩ := polls.success rfl
      exact .approved answer waiting found pending approved
  · intro granted
    cases granted with
    | @executed reply body answer executed =>
      generalize shape : [executeExchange call.name call.arguments reply] = seen at story
      cases story with
      | refused => cases shape
      | ended _ verdict =>
        obtain rfl := executeExchange_inj (List.cons.inj shape).1
        rw [executeVerdict_success.2 ⟨body, answer, executed, rfl⟩] at verdict
        exact (Sum.inl.inj verdict).symm
      | waits _ verdict =>
        obtain rfl := executeExchange_inj (List.cons.inj shape).1
        rw [executeVerdict_success.2 ⟨body, answer, executed, rfl⟩] at verdict
        cases verdict
    | @approved reply body approvalId polls last granted retry answer waiting found pending approved =>
      generalize shape : executeExchange call.name call.arguments reply :: (polls ++ [pollExchange approvalId last]) =
        seen at story
      cases story with
      | refused => cases shape
      | ended _ verdict =>
        obtain ⟨-, none_⟩ := List.cons.inj shape
        simp at none_
      | waits _ verdict inner =>
        obtain ⟨same, rfl⟩ := List.cons.inj shape
        obtain rfl := executeExchange_inj same
        rw [executeVerdict_waits.2 ⟨body, answer, waiting, found⟩] at verdict
        obtain rfl := Sum.inr.inj verdict
        exact inner.granted pending approved

end Server
end Latchgate.Mcp.Stdio
