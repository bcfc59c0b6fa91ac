import Latchgate.Mcp.BoundedLine
import Latchgate.Mcp.GateClient
import Mathlib.Data.List.Sort

namespace Latchgate.Mcp.Stdio

/-! The adapter of an agent session. Times are in milliseconds. -/

def approvalPollInterval : Nat := 2000
def approvalPollTimeout : Nat := 300000
def retryAfterMin : Nat := 1000
def retryAfterMax : Nat := 30000

/-- The time between two polls. -/
abbrev Interval := { millis : Nat // 0 < millis }

def Interval.start : Interval :=
  ⟨approvalPollInterval, by decide⟩

def Interval.clamp (retryAfterSeconds : Nat) : Interval :=
  ⟨max retryAfterMin (min (retryAfterSeconds * 1000) retryAfterMax), by unfold retryAfterMin; omega⟩

structure Server where
  lib : Libraries
  agentId : String
  sessionId : String
  version : String

def toolNames (tools : List McpTool) : List String :=
  (tools.map McpTool.name).insertionSort (· ≤ ·)

def toolsListChanged : JsonRpcNotification where
  method := "notifications/tools/list_changed"
  params := none

/-- A notification that cannot be written is dropped. -/
def sendNotification (n : JsonRpcNotification) : Talk Unit := do
  let _ ← Talk.write (.notification n)
  pure ()

def warmToolCache : Talk (Except GateError (List McpTool)) := do
  match ← Talk.listTools with
  | .error e => pure (.error e)
  | .ok tools =>
    let previous ← Talk.storeTools tools
    let changed := previous.any fun prev => decide (toolNames prev ≠ toolNames tools)
    if changed then
      if ← Talk.isInitialized then sendNotification toolsListChanged
      pure (.ok tools)
    else pure (.ok tools)

def getOrFetchTools : Talk (Except GateError (List McpTool)) := do
  match ← Talk.cachedTools with
  | some (tools, true) => pure (.ok tools)
  | _ => warmToolCache

/-- Nothing is sent to a gate that is known to be down before the next attempt is due. -/
def ensureGateReachable : Talk (Except String Unit) := do
  let health ← Talk.reconnect
  if health.healthy then pure (.ok ())
  else if !health.canRetry then
    pure (.error ("Gate unavailable, next reconnection attempt in " ++ health.secsUntilRetry.repr ++ "s."))
  else match ← Talk.healthCheck with
    | .error e =>
      let secs ← Talk.advanceBackoff
      pure (.error ("Gate unreachable: " ++ e.display ++ ". Next retry in " ++ secs.repr ++ "s."))
    | .ok () => match ← Talk.ensureConnected with
      | .error e =>
        let secs ← Talk.advanceBackoff
        pure (.error ("Gate reachable but auth failed: " ++ e.display ++ ". Next retry in " ++ secs.repr ++ "s."))
      | .ok () =>
        Talk.restoreHealthy
        let _ ← warmToolCache
        pure (.ok ())

/-- The gate has answered, or could not be reached. -/
def noteFailure (e : GateError) : Talk Unit :=
  if e.isTransportFailure then Talk.transportFailure else pure ()

namespace Server
variable (server : Server)

def handleInitialize (id : Option RequestId) : Talk JsonRpcResponse := do
  Talk.markInitialized
  pure (.ok id (.ofFields [("protocolVersion", .string protocolVersion),
    ("capabilities", .ofFields [("tools", .ofFields [("listChanged", .bool true)]),
      ("resources", .ofFields [("listChanged", .bool true)])]),
    ("serverInfo", .ofFields [("name", .string "latchgate-mcp"), ("version", .string server.version),
      ("description", .string "LatchGate MCP adapter — action authorization + effect verification")])]))

def toolMyPending : McpTool where
  name := "latchgate_my_pending"
  description := "List your own pending approvals. Read-only — cannot approve or deny. " ++
    "Use after reconnect to discover in-flight approvals from a previous session."
  inputSchema := .ofFields [("type", .string "object"), ("properties", .ofFields []), ("additionalProperties", .bool false)]
  annotations := some ⟨some true, some false, some true, some false⟩

def handleToolsList (id : Option RequestId) : Talk JsonRpcResponse := do
  match ← ensureGateReachable with
  | .error msg => pure (.err id ErrorCodes.internalError ("Cannot fetch action list: " ++ msg))
  | .ok () => match ← getOrFetchTools with
    | .ok tools =>
      Talk.gateSuccess
      pure (.ok id (.ofFields [("tools", .array ((tools ++ [toolMyPending]).map fun tool => tool.toJson.sorted))]))
    | .error e =>
      noteFailure e
      pure (.err id ErrorCodes.internalError ("failed to fetch action list from LatchGate: " ++ e.display))

def mapGateError (id : Option RequestId) (actionId traceId : String) : GateError → JsonRpcResponse
  | .invalidInput msg => structuredToolError id ToolErrorCodes.schemaValidation
      ("Invalid input for '" ++ actionId ++ "': " ++ msg) (some actionId) traceId none
  | .gateHttp status body =>
    let parsed := (server.lib.parseValue body).toOption
    let gateCode := (parsed.bind fun j => (field j "error").asStr?).getD ""
    let errorCode := mapGateErrorCode gateCode status
    let message := (parsed.bind fun j => (field j "message").asStr?.or (field j "deny_reason").asStr?).getD
      ("Action '" ++ actionId ++ "' failed: " ++ errorCode ++ " (HTTP " ++ status.repr ++ ").")
    structuredToolError id errorCode message (some actionId) traceId
      (parsed.bind fun j => (field j "remediation").asStr?)
  | .auth _ _ => structuredToolError id ToolErrorCodes.authFailed
      ("Authentication failed for '" ++ actionId ++ "'. Check DPoP configuration.") (some actionId) traceId none
  | .transport _ => structuredToolError id ToolErrorCodes.gateUnavailable
      ("Cannot reach LatchGate for '" ++ actionId ++ "'. Verify the gate is running.") (some actionId) traceId none
  | .json _ | .unexpectedResponse _ => structuredToolError id ToolErrorCodes.gateUnavailable
      ("Unexpected error for '" ++ actionId ++ "'. Contact the operator with trace_id.") (some actionId) traceId none

def formatSuccessOutput (output : Json) (receiptId : String) (isFullySuccessful : Bool) : String :=
  let text := match output with
    | .string s => s
    | .null => "(no output)"
    | other => server.lib.pretty other
  text ++ "\n\n[receipt_id: " ++ receiptId ++ "]" ++
    if isFullySuccessful then "" else "\n⚠️  Note: action executed but outcome verification was inconclusive."

def asBool? : Json → Option Bool
  | .bool b => some b
  | _ => none

/-- The text for an action that the gate has executed. -/
def executedText (resp : Json) : String :=
  server.formatSuccessOutput (field resp "output") ((field resp "receipt_id").asStr?.getD "unknown")
    ((asBool? (field (field resp "verification") "is_fully_successful")).getD false)

/-- The text for an approval that was granted; the result may lie one level deeper. -/
def approvedText (body : Json) : String :=
  let inner := field body "execution"
  let output := match field body "output" with
    | .null => field inner "output"
    | output => output
  server.formatSuccessOutput output
    (((field body "receipt_id").asStr?.or (field inner "receipt_id").asStr?).getD "unknown")
    (((asBool? (field (field body "verification") "is_fully_successful")).or
      (asBool? (field (field inner "verification") "is_fully_successful"))).getD false)

def pendingApprovalFallback (id : Option RequestId) (actionId approvalId traceId : String) : JsonRpcResponse :=
  toolErrorStructured id
    { code := ToolErrorCodes.pendingApproval
      message := "Action '" ++ actionId ++ "' is waiting for operator approval. Approve via 'latchgate tui' or " ++
        "'latchgate approvals approve " ++ approvalId ++ "'."
      actionId := some actionId, traceId := some traceId, approvalId := some approvalId }

/-- What a call of a tool is about, for its answers. -/
structure CallContext where
  id : Option RequestId
  actionId : String
  traceId : String
  progressToken : Option Json

def sendProgress (call : CallContext) (count : Nat) : Talk Unit :=
  match call.progressToken with
  | some token => sendNotification (.progress token count)
  | none => pure ()

def remindWaiting (call : CallContext) (approvalId : String) (count : Nat) : Talk Unit :=
  if count % 5 = 0 then
    sendNotification (.logMessage "info"
      ("Still waiting for approval on '" ++ call.actionId ++ "' (" ++ approvalId ++ ")..."))
  else pure ()

/-- The loop of `poll_for_approval`, with the time since its start. Sleeping
and polling take time, so that the loop ends. -/
def pollLoop (call : CallContext) (approvalId : String) (interval : Interval) (pollCount elapsed : Nat) :
    Talk JsonRpcResponse :=
  let count := pollCount + 1
  if _late : approvalPollTimeout ≤ elapsed then
    pure (pendingApprovalFallback call.id call.actionId approvalId call.traceId)
  else do
    match ← GateClient.pollApproval server.lib approvalId with
    | .ok (.pending, retryAfter) =>
      let next := (retryAfter.map Interval.clamp).getD interval
      sendProgress call count
      remindWaiting call approvalId count
      .ask (.wait next.1) fun (beyond : Nat) => pollLoop call approvalId next count (elapsed + next.1 + beyond)
    | .ok (.approved body, _) =>
      sendNotification (.logMessage "info" ("Action '" ++ call.actionId ++ "' approved."))
      pure (toolSuccess call.id (server.approvedText body))
    | .ok (.denied reason, _) =>
      sendNotification (.logMessage "warning" ("Action '" ++ call.actionId ++ "' denied: " ++ reason))
      pure (structuredToolError call.id ToolErrorCodes.policyDenied
        ("Action '" ++ call.actionId ++ "' was denied: " ++ reason) (some call.actionId) call.traceId none)
    | .ok (.expired, _) =>
      pure (structuredToolError call.id ToolErrorCodes.leaseExpired
        ("Approval for '" ++ call.actionId ++ "' expired.") (some call.actionId) call.traceId none)
    | .error e =>
      noteFailure e
      pure (pendingApprovalFallback call.id call.actionId approvalId call.traceId)
  termination_by approvalPollTimeout - elapsed
  decreasing_by
    have positive := ((retryAfter.map Interval.clamp).getD interval).2
    omega

def pollForApproval (call : CallContext) (approvalId : String) : Talk JsonRpcResponse := do
  sendNotification (.logMessage "info" ("Action '" ++ call.actionId ++ "' is waiting for operator approval (ID: " ++
    approvalId ++ "). Approve via 'latchgate tui' or 'latchgate approvals approve " ++ approvalId ++ "'."))
  sendProgress call 0
  server.pollLoop call approvalId .start 0 0

def mapExecuteResponse (call : CallContext) (resp : Json) : Talk JsonRpcResponse :=
  let decision := (field resp "decision").asStr?
  if decision = some "executed" then pure (toolSuccess call.id (server.executedText resp))
  else if decision = some "pending_approval" then
    match (field resp "approval_id").asStr? with
    | some approvalId => server.pollForApproval call approvalId
    | none => pure (pendingApprovalFallback call.id call.actionId "unknown" call.traceId)
  else pure (structuredToolError call.id ToolErrorCodes.gateUnavailable
    ("Unexpected gate response for action '" ++ call.actionId ++ "'.") (some call.actionId) call.traceId none)

def executeGateTool (call : CallContext) (arguments : Json) : Talk JsonRpcResponse := do
  match ← GateClient.execute server.lib call.actionId arguments with
  | .ok resp =>
    Talk.gateSuccess
    server.mapExecuteResponse call resp
  | .error e =>
    noteFailure e
    pure (server.mapGateError call.id call.actionId call.traceId e)

def schemaRefusal (id : Option RequestId) (name traceId detail : String) : JsonRpcResponse :=
  structuredToolError id ToolErrorCodes.schemaValidation
    ("Input validation failed for '" ++ name ++ "': " ++ detail) (some name) traceId none

def actionNotFound (id : Option RequestId) (name traceId : String) : JsonRpcResponse :=
  structuredToolError id ToolErrorCodes.actionNotFound ("Action '" ++ name ++ "' not found in registry.") (some name)
    traceId none

/-- The permissive schemas are not handed to the validator. -/
def validateInputSchema (schema input : Json) : Option String :=
  let plain := Json.ofFields [("type", .string "object")]
  let fallback := Json.ofFields [("type", .string "object"), ("additionalProperties", .bool true)]
  if schema.toCompactString = plain.toCompactString ∨ schema.toCompactString = fallback.toCompactString then none
  else server.lib.schemaError schema input

def checkAgainst (id : Option RequestId) (call : ToolCallParams) (traceId : String) (tools : List McpTool) :
    Option (Except JsonRpcResponse Unit) :=
  (tools.find? fun tool => tool.name = call.name).map fun tool =>
    match server.validateInputSchema tool.inputSchema call.arguments with
    | some detail => .error (schemaRefusal id call.name traceId detail)
    | none => .ok ()

/-- A tool that is not in the cache may have been deployed since it was filled;
without a cache the gate alone decides. -/
def validateToolCall (id : Option RequestId) (call : ToolCallParams) (traceId : String) :
    Talk (Except JsonRpcResponse Unit) := do
  match ← ensureGateReachable with
  | .error msg => pure (.error (structuredToolError id ToolErrorCodes.gateUnavailable msg (some call.name) traceId none))
  | .ok () => match ← Talk.cachedTools with
    | none => pure (.ok ())
    | some (tools, _) => match server.checkAgainst id call traceId tools with
      | some checked => pure checked
      | none => match ← warmToolCache with
        | .ok fresh => pure ((server.checkAgainst id call traceId fresh).getD (.error (actionNotFound id call.name traceId)))
        | .error e =>
          noteFailure e
          pure (.error (actionNotFound id call.name traceId))

def myPendingRefusal (id : Option RequestId) (traceId message : String) : JsonRpcResponse :=
  structuredToolError id ToolErrorCodes.gateUnavailable message (some "latchgate_my_pending") traceId none

def handleMyPending (id : Option RequestId) (traceId : String) : Talk JsonRpcResponse := do
  match ← ensureGateReachable with
  | .error msg => pure (myPendingRefusal id traceId msg)
  | .ok () => match ← GateClient.myPending server.lib server.agentId server.sessionId with
    | .ok body =>
      Talk.gateSuccess
      pure (toolSuccess id (server.lib.pretty body))
    | .error e =>
      if e.isTransportFailure then
        Talk.transportFailure
        pure (myPendingRefusal id traceId ("Cannot reach LatchGate for pending approvals: " ++ e.display))
      else pure (myPendingRefusal id traceId ("Failed to fetch pending approvals: " ++ e.display))

def handleToolsCall (id : Option RequestId) (params : Json) : Talk JsonRpcResponse :=
  match ToolCallParams.decode params with
  | none => pure (.err id ErrorCodes.invalidParams ("invalid tools/call params: " ++ server.lib.complainCall params))
  | some call => do
    let traceId ← Talk.traceId
    if call.name = "latchgate_my_pending" then server.handleMyPending id traceId
    else match ← server.validateToolCall id call traceId with
      | .error refusal => pure refusal
      | .ok () => server.executeGateTool ⟨id, call.name, traceId, call.progressToken⟩ call.arguments

def agentResourceList : List Json :=
  [.ofFields [("uri", .string "latchgate://actions"), ("name", .string "Registered Actions"),
      ("description", .string "All registered LatchGate actions with schemas, risk levels, and annotations."),
      ("mimeType", .string "application/json")],
    .ofFields [("uri", .string "latchgate://status"), ("name", .string "Gate Status"),
      ("description", .string "Gate health, session metadata, and adapter version."),
      ("mimeType", .string "application/json")]]

def resourceContent (id : Option RequestId) (uri text : String) : JsonRpcResponse :=
  .ok id (.ofFields [("contents", .array [.ofFields [("uri", .string uri), ("mimeType", .string "application/json"),
    ("text", .string text)]])])

def handleResourcesRead (id : Option RequestId) (params : Json) : Talk JsonRpcResponse :=
  match (field params "uri").asStr? with
  | none => pure (.err id ErrorCodes.invalidParams "missing required field 'uri'")
  | some uri =>
    if uri = "latchgate://actions" then do
      match ← getOrFetchTools with
      | .ok tools =>
        Talk.gateSuccess
        pure (resourceContent id uri (server.lib.pretty (.array (tools.map McpTool.toJson))))
      | .error e => pure (.err id ErrorCodes.internalError ("cannot fetch actions: " ++ e.display))
    else if uri = "latchgate://status" then do
      let health ← Talk.reconnect
      pure (resourceContent id uri (server.lib.pretty (.ofFields [("session_id", .string server.sessionId),
        ("agent_id", .string server.agentId), ("gate_healthy", .bool health.healthy),
        ("adapter_version", .string server.version), ("protocol_version", .string protocolVersion)])))
    else pure (.err id ErrorCodes.invalidParams ("unknown resource: " ++ uri))

/-- An agent has no prompts. -/
def handlePromptsGet (id : Option RequestId) (params : Json) : Talk JsonRpcResponse :=
  match (field params "name").asStr? with
  | none => pure (.err id ErrorCodes.invalidParams "missing required field 'name'")
  | some name => pure (.err id ErrorCodes.invalidParams ("unknown prompt: " ++ name))

/-- What is done with a request, by its method. -/
def dispatch (req : JsonRpcRequest) : Talk (Option JsonRpcResponse) :=
  if req.method = "initialize" then some <$> server.handleInitialize req.id
  else if req.method = "notifications/initialized" then pure none
  else if req.method = "tools/list" then some <$> handleToolsList req.id
  else if req.method = "tools/call" then some <$> server.handleToolsCall req.id req.params
  else if req.method = "resources/list" then pure (some (.ok req.id (.ofFields [("resources", .array agentResourceList)])))
  else if req.method = "resources/read" then some <$> server.handleResourcesRead req.id req.params
  else if req.method = "prompts/list" then pure (some (.ok req.id (.ofFields [("prompts", .array [])])))
  else if req.method = "prompts/get" then some <$> handlePromptsGet req.id req.params
  else if req.method = "ping" then pure (some (.ok req.id (.ofFields [])))
  else pure (some (.err req.id ErrorCodes.methodNotFound ("method not found: " ++ req.method)))

/-- A line as a request, or the text of the error. -/
def parseRequest (line : String) : Except String JsonRpcRequest :=
  match server.lib.parse line with
  | .error e => .error e
  | .ok doc => match JsonRpcRequest.decode doc with
    | none => .error (server.lib.complainRequest line)
    | some req => .ok req

def handleLine (line : String) : Talk (Option JsonRpcResponse) :=
  match server.parseRequest line with
  | .error e => pure (some (.err none ErrorCodes.parseError ("parse error: " ++ e)))
  | .ok req =>
    if req.jsonrpc ≠ "2.0" then
      pure (some (.err req.id ErrorCodes.invalidRequest "jsonrpc must be \"2.0\""))
    else server.dispatch req

/-- The loop over the results of reading one line after the other. -/
def run : List Line → Talk Unit
  | [] => pure ()
  | .ok (n, line) :: rest =>
    if n = 0 then pure ()
    else
      let trimmed := trim line.toList
      if trimmed = [] then run rest
      else do
        match ← server.handleLine (.ofList trimmed) with
        | none => run rest
        | some resp => if ← Talk.write (.response resp) then run rest else pure ()
  | .error e :: rest =>
    if e.kind = .invalidData then do
      if ← Talk.write (.response (.err none ErrorCodes.parseError e.message)) then run rest else pure ()
    else pure ()

end Server
end Latchgate.Mcp.Stdio
