import Latchgate.Mcp.Calls

namespace Latchgate.Mcp.Stdio
namespace Server
variable (server : Server)

/-- The call of a tool of the gate that a line asks for. -/
def callOf (line : String) : Option (Option RequestId × ToolCallParams) :=
  match server.parseRequest line with
  | .error _ => none
  | .ok req =>
    if req.jsonrpc = "2.0" ∧ req.method = "tools/call" then
      ((ToolCallParams.decode req.params).filter fun call => call.name ≠ "latchgate_my_pending").map (req.id, ·)
    else none

/-- The id of the answer to a line, where the line gets one: the id of the
request, and none for what is no request. -/
def owed (line : String) : Option (Option RequestId) :=
  match server.parseRequest line with
  | .error _ => some none
  | .ok req => if req.jsonrpc = "2.0" ∧ req.method = "notifications/initialized" then none else some req.id

theorem PollStory.answer_id {server : Server} {call : CallContext} {approvalId : String} {seen : List Exchange}
    {result : Option JsonRpcResponse} (story : server.PollStory call approvalId seen result) :
    ∀ resp, result = some resp → resp.id = call.id := by
  induction story with
  | cut => simp
  | late =>
    rintro resp ⟨⟩
    rfl
  | told => simp
  | ended verdict =>
    rintro resp ⟨⟩
    unfold pollVerdict at verdict
    split at verdict
    · cases verdict
    all_goals
      obtain rfl := Option.some.inj verdict
      rfl
  | pending _ _ ih => exact ih

theorem mapGateError_id (id : Option RequestId) (actionId traceId : String) (e : GateError) :
    (server.mapGateError id actionId traceId e).id = id := by
  cases e <;> rfl

theorem executeVerdict_id {server : Server} {call : CallContext} {answer : Except GateError Json} {resp : JsonRpcResponse}
    (verdict : server.executeVerdict call answer = .inl resp) : resp.id = call.id := by
  cases answer with
  | error e =>
    obtain rfl := Sum.inl.inj verdict
    exact server.mapGateError_id _ _ _ e
  | ok body =>
    simp only [executeVerdict] at verdict
    split_ifs at verdict
    · obtain rfl := Sum.inl.inj verdict
      rfl
    · split at verdict
      · cases verdict
      · obtain rfl := Sum.inl.inj verdict
        rfl
    · obtain rfl := Sum.inl.inj verdict
      rfl

theorem CallStory.answer_id {server : Server} {id : Option RequestId} {call : ToolCallParams} {seen : List Exchange}
    {result : Option JsonRpcResponse} (story : server.CallStory id call seen result) :
    ∀ resp, result = some resp → resp.id = id := by
  intro resp same
  cases story with
  | refused errors =>
    obtain ⟨text, rfl⟩ := errors resp same
    rfl
  | told => cases same
  | ended _ verdict =>
    cases same
    exact executeVerdict_id verdict
  | waits _ _ polls => exact polls.answer_id resp same

/-- Exactly one exchange of a call can be a dispatch. -/
theorem PollStory.gets {server : Server} {call : CallContext} {approvalId : String} {seen : List Exchange}
    {result : Option JsonRpcResponse} (story : server.PollStory call approvalId seen result) :
    ∀ x ∈ seen, x.Reads := by
  induction story with
  | cut => simp
  | late => simp
  | told => simp [pollExchange, Exchange.Reads]
  | ended => simp [pollExchange, Exchange.Reads]
  | pending _ _ ih =>
    intro x member
    rcases List.mem_cons.mp member with rfl | later
    · rfl
    · exact ih x later

/-- What a line leads to. -/
structure LineStory (line : String) (seen : List Exchange) (result : Option (Option JsonRpcResponse)) : Prop where
  call : ∀ id call, server.callOf line = some (id, call) → ∃ inner, server.CallStory id call seen inner ∧
    result = inner.map some
  other : server.callOf line = none → ∀ x ∈ seen, x.Reads
  answer : ∀ answer, result = some answer → answer.map JsonRpcResponse.id = server.owed line

theorem shows_some {d : Talk JsonRpcResponse} {post : List Exchange → Option (Option JsonRpcResponse) → Prop}
    (shows_ : Shows d fun seen result => post seen (result.map some)) : Shows (some <$> d) post := by
  have both : Shows d fun seen result => post seen (result.map some) ∧ post seen none :=
    Dialogue.Ensures.cut_short shows_
  have mapped : Shows (d >>= fun resp => pure (some resp)) post := by
    refine shows_bind both (fun seen shown => shown.2) fun seen resp shown => ?_
    exact shows_pure (by simpa using shown.2) (by simpa using shown.1)
  exact mapped

theorem shows_handleToolsCall (id : Option RequestId) (params : Json) :
    Shows (server.handleToolsCall id params) fun seen result =>
      (∀ call, (ToolCallParams.decode params).filter (fun call => call.name ≠ "latchgate_my_pending") = some call →
        server.CallStory id call seen result) ∧
      ((ToolCallParams.decode params).filter (fun call => call.name ≠ "latchgate_my_pending") = none →
        ∀ x ∈ seen, x.Reads) ∧
      ∀ resp, result = some resp → resp.id = id := by
  unfold handleToolsCall
  cases ToolCallParams.decode params with
  | none =>
    refine shows_pure (by simp) ⟨by simp, by simp, ?_⟩
    rintro resp ⟨⟩
    rfl
  | some call =>
    have start : server.CallStory id call [] none := .refused (by simp)
    by_cases mine : call.name = "latchgate_my_pending"
    · have left : (some call).filter (fun call => call.name ≠ "latchgate_my_pending") = none := by simp [mine]
      rw [left]
      refine (silent_asks fun _ => rfl).then_shows (by simp) fun traceId _ => ?_
      rw [if_pos mine]
      exact (server.shows_handleMyPending id traceId).weaken fun seen result shown => ⟨by simp, fun _ => shown.1, shown.2⟩
    · have kept : (some call).filter (fun call => call.name ≠ "latchgate_my_pending") = some call := by simp [mine]
      rw [kept]
      refine Dialogue.Ensures.weaken (?_ : Shows _ (server.CallStory id call)) fun seen result story =>
        ⟨?_, by simp, story.answer_id⟩
      · refine (silent_asks fun _ => rfl).then_shows start fun traceId _ => ?_
        rw [if_neg mine]
        refine (server.silent_validateToolCall id call traceId).then_shows start fun checked refused => ?_
        cases checked with
        | error refusal =>
          refine shows_pure start (.refused ?_)
          rintro resp ⟨⟩
          exact refused refusal rfl
        | ok _ => exact server.shows_executeGateTool id call traceId
      · rintro other ⟨⟩
        exact story

theorem silent_handleInitialize (id : Option RequestId) :
    Silent (server.handleInitialize id) fun resp => resp.id = id :=
  (silent_asks fun _ => rfl).bind fun _ _ => silent_pure rfl

theorem silent_handleToolsList (id : Option RequestId) : Silent (handleToolsList id) fun resp => resp.id = id := by
  refine silent_ensureGateReachable.bind fun reachable _ => ?_
  cases reachable with
  | error msg => exact silent_pure rfl
  | ok _ =>
    refine silent_getOrFetchTools.bind fun fetched _ => ?_
    cases fetched with
    | ok tools => exact (silent_asks fun _ => rfl).bind fun _ _ => silent_pure rfl
    | error e => exact (silent_noteFailure e).bind fun _ _ => silent_pure rfl

theorem silent_handleResourcesRead (id : Option RequestId) (params : Json) :
    Silent (server.handleResourcesRead id params) fun resp => resp.id = id := by
  unfold handleResourcesRead
  split
  · exact silent_pure rfl
  · split_ifs
    · refine silent_getOrFetchTools.bind fun fetched _ => ?_
      cases fetched with
      | ok tools => exact (silent_asks fun _ => rfl).bind fun _ _ => silent_pure rfl
      | error e => exact silent_pure rfl
    · exact (silent_asks fun _ => rfl).bind fun _ _ => silent_pure rfl
    · exact silent_pure rfl

theorem silent_handlePromptsGet (id : Option RequestId) (params : Json) :
    Silent (handlePromptsGet id params) fun resp => resp.id = id := by
  unfold handlePromptsGet
  split
  · exact silent_pure rfl
  · exact silent_pure rfl

/-- A line that is no call of a tool of the gate. -/
theorem LineStory.ofSilent {server : Server} {line : String} {d : Talk JsonRpcResponse} {id : Option RequestId}
    (silent : Silent d fun resp => resp.id = id) (noCall : server.callOf line = none)
    (expected : server.owed line = some id) : Shows (some <$> d) (server.LineStory line) := by
  refine shows_some (silent.toShows ⟨by simp [noCall], by simp, by simp⟩ fun resp same => ⟨by simp [noCall], by simp, ?_⟩)
  rintro answer ⟨⟩
  rw [expected, ← same]
  rfl

theorem LineStory.ofPure {server : Server} {line : String} {answer : Option JsonRpcResponse}
    (noCall : server.callOf line = none) (expected : server.owed line = answer.map JsonRpcResponse.id) :
    Shows (pure answer : Talk (Option JsonRpcResponse)) (server.LineStory line) := by
  refine shows_pure ⟨by simp [noCall], by simp, by simp⟩ ⟨by simp [noCall], by simp, ?_⟩
  rintro other ⟨⟩
  exact expected.symm

theorem shows_dispatch {line : String} {req : JsonRpcRequest} (parsed : server.parseRequest line = .ok req)
    (version : req.jsonrpc = "2.0") : Shows (server.dispatch req) (server.LineStory line) := by
  have expected : req.method ≠ "notifications/initialized" → server.owed line = some req.id := by
    intro other
    simp [owed, parsed, other]
  have noCall : req.method ≠ "tools/call" → server.callOf line = none := by
    intro other
    simp [callOf, parsed, other]
  unfold dispatch
  split_ifs with hello initialized list call resources read prompts get ping
  · exact .ofSilent (server.silent_handleInitialize req.id) (noCall (by simp [hello])) (expected (by simp [hello]))
  · refine .ofPure (noCall (by simp [initialized])) ?_
    simp [owed, parsed, version, initialized]
  · exact .ofSilent (silent_handleToolsList req.id) (noCall (by simp [list])) (expected (by simp [list]))
  · have tool : server.callOf line =
        ((ToolCallParams.decode req.params).filter fun call => call.name ≠ "latchgate_my_pending").map (req.id, ·) := by
      simp [callOf, parsed, version, call]
    have due := expected (by simp [call])
    refine shows_some ((server.shows_handleToolsCall req.id req.params).weaken fun seen result shown => ?_)
    obtain ⟨called, gets, answered⟩ := shown
    refine ⟨?_, ?_, ?_⟩
    · intro id wanted found
      rw [tool, Option.map_eq_some_iff] at found
      obtain ⟨params, kept, same⟩ := found
      cases same
      exact ⟨result, called _ kept, rfl⟩
    · intro none_
      rw [tool, Option.map_eq_none_iff] at none_
      exact gets none_
    · intro answer same
      obtain ⟨resp, rfl, rfl⟩ := Option.map_eq_some_iff.mp same
      rw [due, ← answered resp rfl]
      rfl
  · exact .ofPure (noCall (by simp [resources])) (expected (by simp [resources]))
  · exact .ofSilent (server.silent_handleResourcesRead req.id req.params) (noCall (by simp [read])) (expected (by simp [read]))
  · exact .ofPure (noCall (by simp [prompts])) (expected (by simp [prompts]))
  · exact .ofSilent (silent_handlePromptsGet req.id req.params) (noCall (by simp [get])) (expected (by simp [get]))
  · exact .ofPure (noCall (by simp [ping])) (expected (by simp [ping]))
  · exact .ofPure (noCall call) (expected initialized)

theorem shows_handleLine (line : String) : Shows (server.handleLine line) (server.LineStory line) := by
  unfold handleLine
  cases parsed : server.parseRequest line with
  | error e => exact .ofPure (by simp [callOf, parsed]) (by simp [owed, parsed, JsonRpcResponse.err])
  | ok req =>
    dsimp only
    split_ifs with version
    · exact .ofPure (by simp [callOf, parsed, version]) (by simp [owed, parsed, version, JsonRpcResponse.err])
    · exact server.shows_dispatch parsed (not_not.mp version)

theorem shows_write (resp : JsonRpcResponse) :
    Shows (Talk.write (.response resp)) fun seen result =>
      (seen = [] ∧ result = none) ∨ ∃ written, seen = [.respond resp written] ∧ (result = none ∨ result = some written) := by
  refine Dialogue.ensures_ask (.inl ⟨rfl, rfl⟩) fun written => Dialogue.ensures_done ?_ ?_
  · exact .inr ⟨written, rfl, .inl rfl⟩
  · exact .inr ⟨written, rfl, .inr rfl⟩

end Server

namespace Exchange

/-- An action that is handed to the gate: its path and its arguments. -/
def dispatched : Exchange → Option (String × String)
  | request method path body _ => if method = "POST" then some (path, body) else none
  | respond _ _ => none

/-- A response that the client gets. -/
def answered : Exchange → Option JsonRpcResponse
  | respond resp true => some resp
  | _ => none

theorem dispatched_of_reads {seen : List Exchange} (reads : ∀ x ∈ seen, x.Reads) : seen.filterMap dispatched = [] := by
  refine List.filterMap_eq_nil_iff.mpr fun x member => ?_
  have gets := reads x member
  cases x with
  | request method =>
    obtain rfl : method = "GET" := gets
    rfl
  | respond => exact absurd gets id

/-- Nothing among them goes to the client. -/
def Unanswered (seen : List Exchange) : Prop :=
  ∀ resp written, respond resp written ∉ seen

theorem Unanswered.ofReads {seen : List Exchange} (reads : ∀ x ∈ seen, x.Reads) : Unanswered seen :=
  fun _ _ member => reads _ member

theorem Unanswered.answered {seen : List Exchange} (none_ : Unanswered seen) : seen.filterMap answered = [] := by
  refine List.filterMap_eq_nil_iff.mpr fun x member => ?_
  cases x with
  | request => rfl
  | respond resp written => exact absurd member (none_ resp written)

end Exchange

namespace Server
variable (server : Server)

/-- What a call of a tool hands to the gate. -/
def wanted (line : String) : Option (String × String) :=
  (server.callOf line).map fun call => (GateClient.executePath call.2.name, call.2.arguments.toCompactString)

theorem CallStory.dispatched {server : Server} {id : Option RequestId} {call : ToolCallParams} {seen : List Exchange}
    {result : Option JsonRpcResponse} (story : server.CallStory id call seen result) :
    (seen.filterMap Exchange.dispatched).Sublist [(GateClient.executePath call.name, call.arguments.toCompactString)] ∧
      Exchange.Unanswered seen := by
  have single : ∀ reply, Exchange.Unanswered [executeExchange call.name call.arguments reply] := by
    intro reply resp written member
    simp [executeExchange] at member
  cases story with
  | refused => exact ⟨List.nil_sublist _, by simp [Exchange.Unanswered]⟩
  | told reply => exact ⟨List.Sublist.refl _, single reply⟩
  | ended => exact ⟨List.Sublist.refl _, single _⟩
  | waits _ _ polls =>
    have reads := polls.gets
    constructor
    · simp only [executeExchange, List.filterMap_cons, Exchange.dispatched, if_true, Exchange.dispatched_of_reads reads,
        List.Sublist.refl]
    · intro resp written member
      rcases List.mem_cons.mp member with same | later
      · cases same
      · exact reads _ later

theorem LineStory.dispatched {server : Server} {line : String} {seen : List Exchange}
    {result : Option (Option JsonRpcResponse)} (story : server.LineStory line seen result) :
    (seen.filterMap Exchange.dispatched).Sublist (server.wanted line).toList ∧ Exchange.Unanswered seen := by
  cases found : server.callOf line with
  | none =>
    have reads := story.other found
    rw [Exchange.dispatched_of_reads reads]
    exact ⟨List.nil_sublist _, .ofReads reads⟩
  | some asked =>
    obtain ⟨id, call⟩ := asked
    obtain ⟨inner, called, -⟩ := story.call id call found
    simpa [wanted, found] using called.dispatched

/-- What the results of reading the lines hand to the gate, at most. -/
def wantedOf : Line → Option (String × String)
  | .ok (_, line) => if trim line.toList = [] then none else server.wanted (.ofList (trim line.toList))
  | .error _ => none

/-- The ids of the responses that the lines get, up to the end of the input. -/
def due : List Line → List (Option RequestId)
  | [] => []
  | .ok (n, line) :: rest =>
    if n = 0 then []
    else if trim line.toList = [] then due rest
    else (server.owed (.ofList (trim line.toList))).toList ++ due rest
  | .error e :: rest => if e.kind = .invalidData then none :: due rest else []

/-- What a session shows: the actions that its lines ask for, each once at most
and in their order, and the responses in the order of the lines. -/
structure SessionStory (lines : List Line) (seen : List Exchange) (result : Option Unit) : Prop where
  once : (seen.filterMap Exchange.dispatched).Sublist (lines.filterMap server.wantedOf)
  order : (seen.filterMap Exchange.answered).map JsonRpcResponse.id <+: server.due lines
  every : result = some () → (∀ resp, .respond resp false ∉ seen) →
    (seen.filterMap Exchange.answered).map JsonRpcResponse.id = server.due lines

theorem SessionStory.start {server : Server} (lines : List Line) : server.SessionStory lines [] none :=
  ⟨List.nil_sublist _, List.nil_prefix, by simp⟩

/-- Nothing more is shown once the input has ended. -/
theorem SessionStory.stop {server : Server} {lines : List Line} (ended : server.due lines = []) (result : Option Unit) :
    server.SessionStory lines [] result :=
  ⟨List.nil_sublist _, List.nil_prefix, fun _ _ => ended.symm⟩

section Step
variable {server} {item : Line} {rest : List Line} {before : List Exchange}

theorem filterMap_cons_eq (item : Line) (rest : List Line) :
    (item :: rest).filterMap server.wantedOf = (server.wantedOf item).toList ++ rest.filterMap server.wantedOf := by
  cases found : server.wantedOf item <;> simp [found]

/-- A line that has no response, or none yet. -/
theorem SessionStory.quiet (order : (before.filterMap Exchange.dispatched).Sublist (server.wantedOf item).toList)
    (unanswered : Exchange.Unanswered before) : server.SessionStory (item :: rest) before none := by
  refine ⟨?_, ?_, by simp⟩
  · rw [filterMap_cons_eq]
    exact order.trans (List.sublist_append_left _ _)
  · rw [unanswered.answered]
    exact List.nil_prefix

theorem SessionStory.next {later : List Exchange} {result : Option Unit} (story : server.SessionStory rest later result)
    (order : (before.filterMap Exchange.dispatched).Sublist (server.wantedOf item).toList)
    (unanswered : Exchange.Unanswered before) (next : server.due (item :: rest) = server.due rest) :
    server.SessionStory (item :: rest) (before ++ later) result := by
  refine ⟨?_, ?_, ?_⟩
  · rw [filterMap_cons_eq, List.filterMap_append]
    exact order.append story.once
  · rw [List.filterMap_append, unanswered.answered, List.nil_append, next]
    exact story.order
  · intro done written
    rw [List.filterMap_append, unanswered.answered, List.nil_append, next]
    exact story.every done fun resp member => written resp (List.mem_append_right _ member)

/-- A response that is not written is the last one. -/
theorem SessionStory.respond {resp : JsonRpcResponse} (ih : Shows (server.run rest) (server.SessionStory rest))
    (order : (before.filterMap Exchange.dispatched).Sublist (server.wantedOf item).toList)
    (unanswered : Exchange.Unanswered before) (next : server.due (item :: rest) = resp.id :: server.due rest) :
    Shows (do if ← Talk.write (.response resp) then server.run rest else pure ()) fun later result =>
      server.SessionStory (item :: rest) (before ++ later) result := by
  have start : server.SessionStory (item :: rest) (before ++ []) none := by
    rw [List.append_nil]
    exact .quiet order unanswered
  have dropped : ∀ written, (before ++ [Exchange.respond resp written]).filterMap Exchange.dispatched =
      before.filterMap Exchange.dispatched := by
    intro written
    simp [List.filterMap_append, Exchange.dispatched]
  have lost : ∀ result, server.SessionStory (item :: rest) (before ++ [Exchange.respond resp false]) result := by
    refine fun result => ⟨?_, ?_, ?_⟩
    · rw [dropped]
      exact (@SessionStory.quiet server item rest before order unanswered).once
    · rw [List.filterMap_append, unanswered.answered]
      exact List.nil_prefix
    · intro _ written
      exact absurd (List.mem_append_right _ List.mem_cons_self) (written resp)
  have told : ∀ later result, server.SessionStory rest later result →
      server.SessionStory (item :: rest) (before ++ ([Exchange.respond resp true] ++ later)) result := by
    intro later result story
    have first : (before ++ ([Exchange.respond resp true] ++ later)).filterMap Exchange.answered =
        resp :: later.filterMap Exchange.answered := by
      simp [List.filterMap_append, unanswered.answered, Exchange.answered]
    refine ⟨?_, ?_, ?_⟩
    · rw [filterMap_cons_eq, ← List.append_assoc, List.filterMap_append, dropped]
      exact order.append story.once
    · rw [first, next, List.map_cons]
      exact List.cons_prefix_cons.mpr ⟨rfl, story.order⟩
    · intro done written
      rw [first, next, List.map_cons, story.every done fun other member => written other (by simp [member])]
  refine shows_bind (shows_write resp) ?_ ?_
  · rintro seen (⟨rfl, -⟩ | ⟨written, rfl, -⟩)
    · exact start
    · cases written with
      | true => exact told [] none (.start rest)
      | false => exact lost none
  · rintro seen a (⟨rfl, none_⟩ | ⟨written, rfl, same⟩)
    · cases none_
    · obtain rfl : a = written := by simpa using same
      cases a with
      | false => exact shows_pure (by simpa using lost none) (by simpa using lost (some ()))
      | true =>
        refine ih.weaken fun later result story => ?_
        exact told later result story

end Step

/-- The session, from its first line on. -/
theorem shows_run (lines : List Line) : Shows (server.run lines) (server.SessionStory lines) := by
  induction lines with
  | nil => exact shows_pure (.start []) (.stop rfl _)
  | cons item rest ih =>
    rcases item with e | ⟨n, line⟩
    · rw [run]
      split_ifs with invalid
      · have told := @SessionStory.respond server (.error e) rest [] (.err none ErrorCodes.parseError e.message) ih
          (List.Sublist.refl _) (fun _ _ => List.not_mem_nil) (by simp [due, invalid, JsonRpcResponse.err])
        simpa using told
      · exact shows_pure (.start _) (.stop (by simp [due, invalid]) _)
    · rw [run]
      split_ifs with ended
      · exact shows_pure (.start _) (.stop (by simp [due, ended]) _)
      · dsimp only
        split_ifs with blank
        · refine ih.weaken fun later result story => ?_
          have skipped := @SessionStory.next server (.ok (n, line)) rest [] later result story (List.nil_sublist _)
            (fun _ _ => List.not_mem_nil) (by simp [due, ended, blank])
          simpa using skipped
        · have wanted : server.wantedOf (.ok (n, line)) = server.wanted (.ofList (trim line.toList)) := by
            simp [wantedOf, blank]
          refine shows_bind (server.shows_handleLine _) ?_ ?_
          · intro seen story
            obtain ⟨order, unanswered⟩ := story.dispatched
            exact .quiet (by rwa [wanted]) unanswered
          · intro seen answer story
            obtain ⟨order, unanswered⟩ := story.dispatched
            rw [← wanted] at order
            have expected := story.answer answer rfl
            cases answer with
            | none =>
              refine ih.weaken fun later result after => after.next order unanswered ?_
              simp [due, ended, blank, ← expected]
            | some resp => exact .respond ih order unanswered (by simp [due, ended, blank, ← expected])

/-- Whatever the gate answers, and whatever the other tasks of the adapter do
meanwhile, the actions handed to the gate are among those that the lines ask for,
in their order, each once at most and with its own arguments: nothing is
repeated, not even where an answer is lost. -/
theorem actions_once (lines : List Line) : Dialogue.Ensures (server.run lines) fun events _ =>
    ((exchanges events).filterMap Exchange.dispatched).Sublist (lines.filterMap server.wantedOf) :=
  Dialogue.Ensures.weaken (server.shows_run lines) fun _ _ story => story.once

end Server
end Latchgate.Mcp.Stdio
