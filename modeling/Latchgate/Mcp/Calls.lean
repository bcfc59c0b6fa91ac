import Latchgate.Mcp.Server

namespace Latchgate.Mcp.Stdio

/-- What others see of the adapter: a request to the gate with the gate's
answer, or a response to the client, and whether it could be written. -/
inductive Exchange where
  | request (method path body : String) (reply : Except LinkError (Nat × String))
  | respond (resp : JsonRpcResponse) (written : Bool)

namespace Exchange

def ofSeen : Seen → Option Exchange
  | ⟨.exchange method path body, reply⟩ => some (request method path body reply)
  | ⟨.write (.response resp), written⟩ => some (respond resp written)
  | _ => none

/-- A request that changes nothing at the gate. -/
def Reads : Exchange → Prop
  | request method _ _ _ => method = "GET"
  | respond _ _ => False

end Exchange

def exchanges (events : List Seen) : List Exchange :=
  events.filterMap Exchange.ofSeen

@[simp] theorem exchanges_nil : exchanges [] = [] := rfl

@[simp] theorem exchanges_append (before after : List Seen) :
    exchanges (before ++ after) = exchanges before ++ exchanges after :=
  List.filterMap_append

/-- What a program shows, at every point of it, whatever is replied. -/
def Shows {α : Type} (d : Talk α) (post : List Exchange → Option α → Prop) : Prop :=
  Dialogue.Ensures d fun events result => post (exchanges events) result

/-- A program that shows nothing, with what holds of its result. -/
def Silent {α : Type} (d : Talk α) (holds : α → Prop) : Prop :=
  Shows d fun seen result => seen = [] ∧ ∀ a, result = some a → holds a

section Rules
variable {α β : Type} {post : List Exchange → Option α → Prop} {holds : α → Prop}

theorem Shows.weaken {mid : List Exchange → Option α → Prop} {d : Talk α} (shows_ : Shows d mid)
    (weaker : ∀ seen result, mid seen result → post seen result) : Shows d post :=
  Dialogue.Ensures.weaken shows_ fun events result => weaker (exchanges events) result

theorem shows_pure {a : α} (start : post [] none) (stop : post [] (some a)) : Shows (pure a : Talk α) post :=
  Dialogue.ensures_done start stop

theorem shows_bind {mid : List Exchange → Option α → Prop} {last : List Exchange → Option β → Prop} {d : Talk α}
    {f : α → Talk β} (first : Shows d mid) (stopped : ∀ seen, mid seen none → last seen none)
    (continues : ∀ seen a, mid seen (some a) → Shows (f a) fun later => last (seen ++ later)) :
    Shows (d >>= f) last := by
  refine Dialogue.ensures_bind first (fun events => stopped (exchanges events)) fun events a here => ?_
  refine Dialogue.Ensures.weaken (continues (exchanges events) a here) fun later result shown => ?_
  rwa [exchanges_append]

theorem silent_pure {a : α} (here : holds a) : Silent (pure a : Talk α) holds :=
  shows_pure ⟨rfl, by simp⟩ ⟨rfl, fun _ same => Option.some.inj same ▸ here⟩

theorem Silent.bind {other : β → Prop} {d : Talk α} {f : α → Talk β} (first : Silent d holds)
    (continues : ∀ a, holds a → Silent (f a) other) : Silent (d >>= f) other := by
  refine shows_bind first ?_ ?_
  · rintro seen ⟨rfl, -⟩
    exact ⟨rfl, by simp⟩
  · rintro seen a ⟨rfl, here⟩
    exact continues a (here a rfl)

theorem Silent.weaken {other : α → Prop} {d : Talk α} (silent : Silent d holds) (weaker : ∀ a, holds a → other a) :
    Silent d other :=
  Shows.weaken silent fun _ _ shown => ⟨shown.1, fun a same => weaker a (shown.2 a same)⟩

/-- What comes after a program that shows nothing. -/
theorem Silent.then_shows {last : List Exchange → Option β → Prop} {d : Talk α} {f : α → Talk β}
    (first : Silent d holds) (start : last [] none) (continues : ∀ a, holds a → Shows (f a) last) :
    Shows (d >>= f) last := by
  refine shows_bind first ?_ ?_
  · rintro seen ⟨rfl, -⟩
    exact start
  · rintro seen a ⟨rfl, here⟩
    exact continues a (here a rfl)

theorem Silent.toShows {d : Talk α} (silent : Silent d holds) (start : post [] none)
    (stop : ∀ a, holds a → post [] (some a)) : Shows d post := by
  refine Shows.weaken silent ?_
  rintro seen (_ | a) ⟨rfl, here⟩
  · exact start
  · exact stop a (here a rfl)

/-- A question that nobody else sees. -/
theorem silent_asks {question : Question} (inner : ∀ reply, Exchange.ofSeen ⟨question, reply⟩ = none) :
    Silent (Talk.asks question) fun _ => True := by
  refine Dialogue.ensures_ask ⟨rfl, by simp⟩ fun reply => Dialogue.ensures_done ?_ ?_
  · exact ⟨by simp [exchanges, inner reply], by simp⟩
  · exact ⟨by simp [exchanges, inner reply], by simp⟩

theorem shows_exchange (method path body : String) :
    Shows (Talk.exchange method path body) fun seen result =>
      (seen = [] ∧ result = none) ∨ ∃ reply, seen = [.request method path body reply] ∧ (result = none ∨ result = some reply) := by
  refine Dialogue.ensures_ask (.inl ⟨rfl, rfl⟩) fun reply => Dialogue.ensures_done ?_ ?_
  · exact .inr ⟨reply, rfl, .inl rfl⟩
  · exact .inr ⟨reply, rfl, .inr rfl⟩

end Rules

section Silence

theorem silent_sendNotification (n : JsonRpcNotification) : Silent (sendNotification n) fun _ => True :=
  (silent_asks fun _ => rfl).bind fun _ _ => silent_pure trivial

theorem silent_noteFailure (e : GateError) : Silent (noteFailure e) fun _ => True := by
  unfold noteFailure
  split_ifs
  · exact silent_asks fun _ => rfl
  · exact silent_pure trivial

theorem silent_warmToolCache : Silent warmToolCache fun _ => True := by
  refine (silent_asks fun _ => rfl).bind fun fetched _ => ?_
  cases fetched with
  | error e => exact silent_pure trivial
  | ok tools =>
    refine (silent_asks fun _ => rfl).bind fun previous _ => ?_
    dsimp only
    split_ifs
    · refine (silent_asks fun _ => rfl).bind fun ready _ => ?_
      cases (ready : Bool) with
      | true => exact (silent_sendNotification _).bind fun _ _ => silent_pure trivial
      | false => exact silent_pure trivial
    · exact silent_pure trivial

theorem silent_getOrFetchTools : Silent getOrFetchTools fun _ => True := by
  refine (silent_asks fun _ => rfl).bind fun cached _ => ?_
  match (cached : Option (List McpTool × Bool)) with
  | none => exact silent_warmToolCache
  | some (_, true) => exact silent_pure trivial
  | some (_, false) => exact silent_warmToolCache

theorem silent_ensureGateReachable : Silent ensureGateReachable fun _ => True := by
  refine (silent_asks fun _ => rfl).bind fun health _ => ?_
  split_ifs
  · exact silent_pure trivial
  · exact silent_pure trivial
  · refine (silent_asks fun _ => rfl).bind fun checked _ => ?_
    cases checked with
    | error e => exact (silent_asks fun _ => rfl).bind fun _ _ => silent_pure trivial
    | ok _ =>
      refine (silent_asks fun _ => rfl).bind fun connected _ => ?_
      cases connected with
      | error e => exact (silent_asks fun _ => rfl).bind fun _ _ => silent_pure trivial
      | ok _ =>
        refine (silent_asks fun _ => rfl).bind fun _ _ => ?_
        exact silent_warmToolCache.bind fun _ _ => silent_pure trivial

end Silence

namespace Server
variable (server : Server)

/-- What a poll ends a call with; nothing while the approval is pending. -/
def pollVerdict (call : CallContext) (approvalId : String) :
    Except GateError (ApprovalOutcome × Option Nat) → Option JsonRpcResponse
  | .ok (.pending, _) => none
  | .ok (.approved body, _) => some (toolSuccess call.id (server.approvedText body))
  | .ok (.denied reason, _) => some (structuredToolError call.id ToolErrorCodes.policyDenied
      ("Action '" ++ call.actionId ++ "' was denied: " ++ reason) (some call.actionId) call.traceId none)
  | .ok (.expired, _) => some (structuredToolError call.id ToolErrorCodes.leaseExpired
      ("Approval for '" ++ call.actionId ++ "' expired.") (some call.actionId) call.traceId none)
  | .error _ => some (pendingApprovalFallback call.id call.actionId approvalId call.traceId)

def pollExchange (approvalId : String) (reply : Except LinkError (Nat × String)) : Exchange :=
  .request "GET" (GateClient.pollPath approvalId) "" reply

/-- Polls for one approval, each but the last answered with pending, and what
the call is answered with: what the last poll says, or that it still waits. -/
inductive PollStory (call : CallContext) (approvalId : String) : List Exchange → Option JsonRpcResponse → Prop
  | cut : PollStory call approvalId [] none
  | late : PollStory call approvalId [] (some (pendingApprovalFallback call.id call.actionId approvalId call.traceId))
  | told (reply) : PollStory call approvalId [pollExchange approvalId reply] none
  | ended {reply resp} :
      server.pollVerdict call approvalId (GateClient.polled server.lib approvalId reply) = some resp →
      PollStory call approvalId [pollExchange approvalId reply] (some resp)
  | pending {reply seen result} :
      server.pollVerdict call approvalId (GateClient.polled server.lib approvalId reply) = none →
      PollStory call approvalId seen result → PollStory call approvalId (pollExchange approvalId reply :: seen) result

theorem shows_pollApproval (approvalId : String) :
    Shows (GateClient.pollApproval server.lib approvalId) fun seen result =>
      (seen = [] ∧ (result = none ∨ ∃ e, result = some (.error e))) ∨
        ∃ reply, seen = [pollExchange approvalId reply] ∧
          (result = none ∨ result = some (GateClient.polled server.lib approvalId reply)) := by
  unfold GateClient.pollApproval
  split
  · exact shows_pure (.inl ⟨rfl, .inl rfl⟩) (.inl ⟨rfl, .inr ⟨_, rfl⟩⟩)
  · refine shows_bind (shows_exchange _ _ _) ?_ ?_
    · rintro seen (⟨rfl, -⟩ | ⟨reply, rfl, -⟩)
      · exact .inl ⟨rfl, .inl rfl⟩
      · exact .inr ⟨reply, rfl, .inl rfl⟩
    · rintro seen a (⟨rfl, none_⟩ | ⟨reply, rfl, same⟩)
      · cases none_
      · obtain rfl : a = reply := by simpa using same
        exact shows_pure (.inr ⟨a, rfl, .inl rfl⟩) (.inr ⟨a, rfl, .inr rfl⟩)

theorem silent_sendProgress (call : CallContext) (count : Nat) : Silent (sendProgress call count) fun _ => True := by
  unfold sendProgress
  split
  · exact silent_sendNotification _
  · exact silent_pure trivial

theorem silent_remindWaiting (call : CallContext) (approvalId : String) (count : Nat) :
    Silent (remindWaiting call approvalId count) fun _ => True := by
  unfold remindWaiting
  split
  · exact silent_sendNotification _
  · exact silent_pure trivial

theorem shows_pollLoop (call : CallContext) (approvalId : String) (interval : Interval) (pollCount elapsed : Nat) :
    Shows (server.pollLoop call approvalId interval pollCount elapsed) (server.PollStory call approvalId) := by
  induction left : approvalPollTimeout - elapsed using Nat.strong_induction_on generalizing interval pollCount elapsed with
  | _ left ih =>
  subst left
  rw [pollLoop]
  split_ifs with late
  · exact shows_pure .cut .late
  · refine shows_bind (server.shows_pollApproval approvalId) ?_ ?_
    · rintro seen (⟨rfl, -⟩ | ⟨reply, rfl, -⟩)
      · exact .cut
      · exact .told reply
    · rintro seen polled (⟨rfl, none_ | ⟨e, refused⟩⟩ | ⟨reply, rfl, none_ | same⟩)
      · cases none_
      · cases refused
        exact (silent_noteFailure e).then_shows .cut fun _ _ => shows_pure .cut .late
      · cases none_
      · obtain rfl : polled = GateClient.polled server.lib approvalId reply := by simpa using same
        have told : server.PollStory call approvalId [pollExchange approvalId reply] none := .told reply
        cases verdict : GateClient.polled server.lib approvalId reply with
        | error e =>
          have ended : server.PollStory call approvalId [pollExchange approvalId reply] (some _) :=
            .ended (by rw [verdict]; rfl)
          exact (silent_noteFailure e).then_shows told fun _ _ => shows_pure told ended
        | ok answer =>
          obtain ⟨outcome, retryAfter⟩ := answer
          cases outcome with
          | approved body =>
            have ended : server.PollStory call approvalId [pollExchange approvalId reply] (some _) :=
              .ended (by rw [verdict]; rfl)
            exact (silent_sendNotification _).then_shows told fun _ _ => shows_pure told ended
          | denied reason =>
            have ended : server.PollStory call approvalId [pollExchange approvalId reply] (some _) :=
              .ended (by rw [verdict]; rfl)
            exact (silent_sendNotification _).then_shows told fun _ _ => shows_pure told ended
          | expired =>
            have ended : server.PollStory call approvalId [pollExchange approvalId reply] (some _) :=
              .ended (by rw [verdict]; rfl)
            exact shows_pure told ended
          | pending =>
            have waiting : server.pollVerdict call approvalId (GateClient.polled server.lib approvalId reply) = none := by
              rw [verdict]
              rfl
            refine (silent_sendProgress call _).then_shows told fun _ _ => ?_
            refine (silent_remindWaiting call approvalId _).then_shows told fun _ _ => ?_
            refine Dialogue.ensures_ask told ?_
            intro (beyond : Nat)
            have positive := ((retryAfter.map Interval.clamp).getD interval).2
            have sooner : approvalPollTimeout - (elapsed + ((retryAfter.map Interval.clamp).getD interval).1 + beyond) <
                approvalPollTimeout - elapsed := by omega
            have later := ih _ sooner ((retryAfter.map Interval.clamp).getD interval) (pollCount + 1) _ rfl
            exact Dialogue.Ensures.weaken later fun _ _ story => PollStory.pending waiting story

/-- What the answer of the gate to a dispatched action ends the call with, or
the approval it has to wait for. -/
def executeVerdict (call : CallContext) : Except GateError Json → JsonRpcResponse ⊕ String
  | .error e => .inl (server.mapGateError call.id call.actionId call.traceId e)
  | .ok resp =>
    let decision := (field resp "decision").asStr?
    if decision = some "executed" then .inl (toolSuccess call.id (server.executedText resp))
    else if decision = some "pending_approval" then
      match (field resp "approval_id").asStr? with
      | some approvalId => .inr approvalId
      | none => .inl (pendingApprovalFallback call.id call.actionId "unknown" call.traceId)
    else .inl (structuredToolError call.id ToolErrorCodes.gateUnavailable
      ("Unexpected gate response for action '" ++ call.actionId ++ "'.") (some call.actionId) call.traceId none)

def executeExchange (name : String) (arguments : Json) (reply : Except LinkError (Nat × String)) : Exchange :=
  .request "POST" (GateClient.executePath name) arguments.toCompactString reply

/-- A call of a tool of the gate. It is refused without asking the gate, or it
is dispatched once, under its own name and with its own arguments; then the
answer is what the gate says, at once or through the polls for the approval. -/
inductive CallStory (id : Option RequestId) (call : ToolCallParams) : List Exchange → Option JsonRpcResponse → Prop
  | refused {result} : (∀ resp, result = some resp → ∃ text, resp = toolResult id text true) → CallStory id call [] result
  | told (reply) : validateIdentifier call.name "action_id" = .ok () →
      CallStory id call [executeExchange call.name call.arguments reply] none
  | ended {traceId reply resp} : validateIdentifier call.name "action_id" = .ok () →
      server.executeVerdict ⟨id, call.name, traceId, call.progressToken⟩ (GateClient.executed server.lib reply) = .inl resp →
      CallStory id call [executeExchange call.name call.arguments reply] (some resp)
  | waits {traceId reply approvalId seen result} : validateIdentifier call.name "action_id" = .ok () →
      server.executeVerdict ⟨id, call.name, traceId, call.progressToken⟩ (GateClient.executed server.lib reply) =
        .inr approvalId →
      server.PollStory ⟨id, call.name, traceId, call.progressToken⟩ approvalId seen result →
      CallStory id call (executeExchange call.name call.arguments reply :: seen) result

theorem shows_execute (name : String) (arguments : Json) :
    Shows (GateClient.execute server.lib name arguments) fun seen result =>
      (seen = [] ∧ (result = none ∨ ∃ message, result = some (.error (.invalidInput message)))) ∨
        ∃ reply, validateIdentifier name "action_id" = .ok () ∧ seen = [executeExchange name arguments reply] ∧
          (result = none ∨ result = some (GateClient.executed server.lib reply)) := by
  unfold GateClient.execute
  cases valid : validateIdentifier name "action_id" with
  | error e =>
    have shape : ∃ message, e = .invalidInput message := by
      unfold validateIdentifier at valid
      split_ifs at valid
      all_goals exact ⟨_, (Except.error.inj valid).symm⟩
    obtain ⟨message, rfl⟩ := shape
    exact shows_pure (.inl ⟨rfl, .inl rfl⟩) (.inl ⟨rfl, .inr ⟨message, rfl⟩⟩)
  | ok =>
    refine shows_bind (shows_exchange _ _ _) ?_ ?_
    · rintro seen (⟨rfl, -⟩ | ⟨reply, rfl, -⟩)
      · exact .inl ⟨rfl, .inl rfl⟩
      · exact .inr ⟨reply, rfl, rfl, .inl rfl⟩
    · rintro seen a (⟨rfl, none_⟩ | ⟨reply, rfl, same⟩)
      · cases none_
      · obtain rfl : a = reply := by simpa using same
        exact shows_pure (.inr ⟨a, rfl, rfl, .inl rfl⟩) (.inr ⟨a, rfl, rfl, .inr rfl⟩)

theorem shows_pollForApproval (call : CallContext) (approvalId : String) :
    Shows (server.pollForApproval call approvalId) (server.PollStory call approvalId) := by
  refine (silent_sendNotification _).then_shows .cut fun _ _ => ?_
  refine (silent_sendProgress call 0).then_shows .cut fun _ _ => ?_
  exact server.shows_pollLoop call approvalId _ _ _

theorem shows_mapExecuteResponse (call : CallContext) (resp : Json) :
    Shows (server.mapExecuteResponse call resp) fun seen result =>
      (∃ r, server.executeVerdict call (.ok resp) = .inl r ∧ seen = [] ∧ (result = none ∨ result = some r)) ∨
        ∃ approvalId, server.executeVerdict call (.ok resp) = .inr approvalId ∧
          server.PollStory call approvalId seen result := by
  unfold mapExecuteResponse executeVerdict
  dsimp only
  split_ifs with executed waiting
  · exact shows_pure (.inl ⟨_, rfl, rfl, .inl rfl⟩) (.inl ⟨_, rfl, rfl, .inr rfl⟩)
  · cases (field resp "approval_id").asStr? with
    | none => exact shows_pure (.inl ⟨_, rfl, rfl, .inl rfl⟩) (.inl ⟨_, rfl, rfl, .inr rfl⟩)
    | some approvalId =>
      exact (server.shows_pollForApproval call approvalId).weaken fun seen result story => .inr ⟨approvalId, rfl, story⟩
  · exact shows_pure (.inl ⟨_, rfl, rfl, .inl rfl⟩) (.inl ⟨_, rfl, rfl, .inr rfl⟩)

theorem shows_executeGateTool (id : Option RequestId) (call : ToolCallParams) (traceId : String) :
    Shows (server.executeGateTool ⟨id, call.name, traceId, call.progressToken⟩ call.arguments)
      (server.CallStory id call) := by
  have start : server.CallStory id call [] none := .refused (by simp)
  refine shows_bind (server.shows_execute call.name call.arguments) ?_ ?_
  · rintro seen (⟨rfl, -⟩ | ⟨reply, valid, rfl, -⟩)
    · exact start
    · exact .told reply valid
  · rintro seen executed (⟨rfl, none_ | ⟨message, refused⟩⟩ | ⟨reply, valid, rfl, none_ | same⟩)
    · cases none_
    · cases refused
      refine (silent_noteFailure _).then_shows start fun _ _ => shows_pure start (.refused ?_)
      rintro resp ⟨⟩
      exact ⟨_, rfl⟩
    · cases none_
    · obtain rfl : executed = GateClient.executed server.lib reply := by simpa using same
      have told : server.CallStory id call [executeExchange call.name call.arguments reply] none := .told reply valid
      cases answer : GateClient.executed server.lib reply with
      | error e =>
        have verdict : server.executeVerdict ⟨id, call.name, traceId, call.progressToken⟩
            (GateClient.executed server.lib reply) = .inl (server.mapGateError id call.name traceId e) := by
          rw [answer]
          rfl
        exact (silent_noteFailure e).then_shows told fun _ _ => shows_pure told (.ended valid verdict)
      | ok resp =>
        refine (silent_asks fun _ => rfl).then_shows told fun _ _ => ?_
        refine (server.shows_mapExecuteResponse _ resp).weaken fun seen result story => ?_
        rw [← answer] at story
        rcases story with ⟨r, verdict, rfl, rfl | rfl⟩ | ⟨approvalId, verdict, polls⟩
        · exact told
        · exact .ended valid verdict
        · exact .waits valid verdict polls

theorem silent_validateToolCall (id : Option RequestId) (call : ToolCallParams) (traceId : String) :
    Silent (server.validateToolCall id call traceId) fun checked =>
      ∀ resp, checked = .error resp → ∃ text, resp = toolResult id text true := by
  have checks : ∀ tools checked, server.checkAgainst id call traceId tools = some checked →
      ∀ resp, checked = .error resp → ∃ text, resp = toolResult id text true := by
    intro tools checked found resp refused
    obtain ⟨tool, -, rfl⟩ := Option.map_eq_some_iff.mp found
    split at refused
    · obtain rfl := Except.error.inj refused
      exact ⟨_, rfl⟩
    · cases refused
  refine silent_ensureGateReachable.bind fun reachable _ => ?_
  cases reachable with
  | error msg =>
    refine silent_pure ?_
    rintro resp ⟨⟩
    exact ⟨_, rfl⟩
  | ok _ =>
    refine (silent_asks fun _ => rfl).bind fun cached _ => ?_
    match (cached : Option (List McpTool × Bool)) with
    | none => exact silent_pure (by simp)
    | some (tools, fresh) =>
      dsimp only
      cases found : server.checkAgainst id call traceId tools with
      | some checked => exact silent_pure (checks tools checked found)
      | none =>
        refine silent_warmToolCache.bind fun fetched _ => ?_
        cases fetched with
        | error e =>
          refine (silent_noteFailure e).bind fun _ _ => silent_pure ?_
          rintro resp ⟨⟩
          exact ⟨_, rfl⟩
        | ok fresh =>
          refine silent_pure fun resp refused => ?_
          cases again : server.checkAgainst id call traceId fresh with
          | some checked =>
            rw [again, Option.getD_some] at refused
            exact checks fresh checked again resp refused
          | none =>
            rw [again, Option.getD_none] at refused
            obtain rfl := Except.error.inj refused
            exact ⟨_, rfl⟩

/-- Reading is all that an agent does about its own pending approvals. -/
theorem shows_handleMyPending (id : Option RequestId) (traceId : String) :
    Shows (server.handleMyPending id traceId) fun seen result =>
      (∀ x ∈ seen, x.Reads) ∧ ∀ resp, result = some resp → resp.id = id := by
  have start : (∀ x ∈ ([] : List Exchange), x.Reads) ∧
      ∀ resp : JsonRpcResponse, none = some resp → resp.id = id := ⟨by simp, by simp⟩
  refine silent_ensureGateReachable.then_shows start fun reachable _ => ?_
  cases reachable with
  | error msg =>
    refine shows_pure start ⟨by simp, ?_⟩
    rintro resp ⟨⟩
    rfl
  | ok _ =>
    have reads : Shows (GateClient.myPending server.lib server.agentId server.sessionId) fun seen _ =>
        ∀ x ∈ seen, x.Reads := by
      refine shows_bind (shows_exchange _ _ _) ?_ ?_
      · rintro seen (⟨rfl, -⟩ | ⟨reply, rfl, -⟩)
        · simp
        · simp [Exchange.Reads]
      · rintro seen a (⟨rfl, none_⟩ | ⟨reply, rfl, same⟩)
        · cases none_
        · split
          · exact shows_pure (by simp [Exchange.Reads]) (by simp [Exchange.Reads])
          · split_ifs
            · exact shows_pure (by simp [Exchange.Reads]) (by simp [Exchange.Reads])
            · exact shows_pure (by simp [Exchange.Reads]) (by simp [Exchange.Reads])
    refine shows_bind reads (fun seen gets => ⟨gets, by simp⟩) fun seen pending gets => ?_
    have read : (∀ x ∈ seen ++ [], x.Reads) ∧
        ∀ resp : JsonRpcResponse, none = some resp → resp.id = id := ⟨by simpa using gets, by simp⟩
    have answered : ∀ text isError, (∀ x ∈ seen ++ [], x.Reads) ∧
        ∀ resp, some (toolResult id text isError) = some resp → resp.id = id := by
      refine fun text isError => ⟨by simpa using gets, ?_⟩
      rintro resp ⟨⟩
      rfl
    cases pending with
    | ok body => exact (silent_asks fun _ => rfl).then_shows read fun _ _ => shows_pure read (answered _ _)
    | error e =>
      dsimp only
      split_ifs
      · exact (silent_asks fun _ => rfl).then_shows read fun _ _ => shows_pure read (answered _ _)
      · exact shows_pure read (answered _ _)

end Server
end Latchgate.Mcp.Stdio
