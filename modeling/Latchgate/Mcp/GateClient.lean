import Latchgate.Core.Text
import Latchgate.Machine.Dialogue
import Latchgate.Mcp.Protocol

namespace Latchgate.Mcp.Stdio

inductive GateError where
  | auth (http : Bool) (message : String)
  | gateHttp (status : Nat) (body : String)
  | transport (message : String)
  | json (message : String)
  | unexpectedResponse (message : String)
  | invalidInput (message : String)

namespace GateError

def display : GateError → String
  | auth _ message => "authentication error: " ++ message
  | gateHttp status body => "gate returned HTTP " ++ status.repr ++ ": " ++ body
  | transport message => "HTTP transport error: " ++ message
  | json message => "JSON decode error: " ++ message
  | unexpectedResponse message => "unexpected gate response shape: " ++ message
  | invalidInput message => "invalid input: " ++ message

/-- The gate cannot be reached, for the request or for the lease before it. -/
def isTransportFailure : GateError → Bool
  | transport _ => true
  | auth http _ => http
  | _ => false

end GateError

/-- Why an authenticated request has no answer. -/
inductive LinkError where
  | auth (http : Bool) (message : String)
  | transport (message : String)

def LinkError.toGateError : LinkError → GateError
  | auth http message => .auth http message
  | transport message => .transport message

/-- What the adapter asks of its surroundings: of the gate, of the state that
its tasks share, of the clock and of the client it writes to. -/
inductive Question where
  | reconnect
  | healthCheck
  | ensureConnected
  | listTools
  | cachedTools
  | storeTools (tools : List McpTool)
  | isInitialized
  | markInitialized
  | advanceBackoff
  | restoreHealthy
  | gateSuccess
  | transportFailure
  | traceId
  | exchange (method path body : String)
  | wait (interval : Nat)
  | write (message : Message)

/-- The health of the gate as it is known. -/
structure Health where
  healthy : Bool
  canRetry : Bool
  secsUntilRetry : Nat

/-- A request is answered with a status and a text; the cache with its tools
and whether they are fresh, or with what it held before; a wait with the time
beyond its interval that has passed since the clock was read. -/
def Reply : Question → Type
  | .reconnect => Health
  | .healthCheck | .ensureConnected => Except GateError Unit
  | .listTools => Except GateError (List McpTool)
  | .cachedTools => Option (List McpTool × Bool)
  | .storeTools _ => Option (List McpTool)
  | .isInitialized => Bool
  | .advanceBackoff | .wait _ => Nat
  | .markInitialized | .restoreHealthy | .gateSuccess | .transportFailure => Unit
  | .traceId => String
  | .exchange _ _ _ => Except LinkError (Nat × String)
  | .write _ => Bool

abbrev Talk := Dialogue Question Reply

abbrev Seen := Dialogue.Event Reply

namespace Talk

def asks (question : Question) : Talk (Reply question) :=
  Dialogue.put question

def reconnect : Talk Health := asks .reconnect
def healthCheck : Talk (Except GateError Unit) := asks .healthCheck
def ensureConnected : Talk (Except GateError Unit) := asks .ensureConnected
def listTools : Talk (Except GateError (List McpTool)) := asks .listTools
def cachedTools : Talk (Option (List McpTool × Bool)) := asks .cachedTools
def storeTools (tools : List McpTool) : Talk (Option (List McpTool)) := asks (.storeTools tools)
def isInitialized : Talk Bool := asks .isInitialized
def markInitialized : Talk Unit := asks .markInitialized
def advanceBackoff : Talk Nat := asks .advanceBackoff
def restoreHealthy : Talk Unit := asks .restoreHealthy
def gateSuccess : Talk Unit := asks .gateSuccess
def transportFailure : Talk Unit := asks .transportFailure
def traceId : Talk String := asks .traceId
def exchange (method path body : String) : Talk (Except LinkError (Nat × String)) :=
  asks (.exchange method path body)
def write (message : Message) : Talk Bool := asks (.write message)

end Talk

/-- The libraries: reading a JSON text, the complaints about a document that is
no record of the expected form, indented printing, and schema validation, with
the error of an instance that a schema does not admit. -/
structure Libraries where
  parse : String → Except String Json
  complainRequest : String → String
  complainCall : Json → String
  pretty : Json → String
  schemaError : Json → Json → Option String

/-- A document as a map that a parser fills. -/
def Libraries.parseValue (lib : Libraries) (text : String) : Except String Json :=
  (lib.parse text).map Json.sorted

def validateIdentifier (id label : String) : Except GateError Unit :=
  if id = "" then .error (.invalidInput (label ++ " must not be empty"))
  else if 256 < id.utf8ByteSize then .error (.invalidInput (label ++ " exceeds maximum length (256)"))
  else if id.toList.all (fun c => c.isAlphanum || c = '-' || c = '_' || c = '.') = false then
    .error (.invalidInput (label ++ " contains invalid characters"))
  else if id.toList.all (· = '.') then .error (.invalidInput (label ++ " must not be a dot-only sequence"))
  else .ok ()

inductive ApprovalOutcome where
  | pending
  | approved (body : Json)
  | denied (reason : String)
  | expired

/-- Indexing of a document by a name. -/
def field (v : Json) (key : String) : Json :=
  (v.get? key).getD .null

namespace GateClient
variable (lib : Libraries)

def executePath (actionId : String) : String :=
  "/v1/actions/" ++ actionId ++ "/execute"

def pollPath (approvalId : String) : String :=
  "/v1/approvals/" ++ approvalId ++ "/poll"

/-- What the answer to a dispatched action says. -/
def executed (reply : Except LinkError (Nat × String)) : Except GateError Json :=
  match reply with
  | .error e => .error e.toGateError
  | .ok (status, text) => match lib.parseValue text with
    | .error e => .error (.unexpectedResponse ("non-JSON response from execute (HTTP " ++ status.repr ++ "): " ++ e))
    | .ok body => if status = 200 ∨ status = 202 then .ok body else .error (.gateHttp status text)

def execute (actionId : String) (args : Json) : Talk (Except GateError Json) :=
  match validateIdentifier actionId "action_id" with
  | .error e => pure (.error e)
  | .ok () => do
    let reply ← Talk.exchange "POST" (executePath actionId) args.toCompactString
    pure (executed lib reply)

/-- What the answer to an authenticated read says. -/
def received (path : String) (reply : Except LinkError (Nat × String)) : Except GateError (Nat × Json) :=
  match reply with
  | .error e => .error e.toGateError
  | .ok (status, text) => match lib.parseValue text with
    | .error e => .error (.unexpectedResponse
        ("non-JSON response from " ++ path ++ " (HTTP " ++ status.repr ++ "): " ++ e))
    | .ok body => .ok (status, body)

/-- A status that is not known counts as pending. -/
def approvalOutcome (body : Json) : Except GateError ApprovalOutcome :=
  match (field body "status").asStr? with
  | some status =>
    if status = "approved" ∨ status = "executed" then .ok (.approved body)
    else if status = "denied" then .ok (.denied ((field body "reason").asStr?.getD "no reason provided"))
    else if status = "expired" then .ok .expired
    else .ok .pending
  | none => .error (.unexpectedResponse "approval response missing 'status' field")

def polled (approvalId : String) (reply : Except LinkError (Nat × String)) :
    Except GateError (ApprovalOutcome × Option Nat) :=
  match received lib (pollPath approvalId) reply with
  | .error e => .error e
  | .ok (status, body) =>
    if status = 404 then .error (.unexpectedResponse "approval endpoint returned 404")
    else match approvalOutcome body with
      | .error e => .error e
      | .ok outcome => .ok (outcome, (Json.decodeU64 (field body "retry_after_seconds")).map UInt64.toNat)

def pollApproval (approvalId : String) : Talk (Except GateError (ApprovalOutcome × Option Nat)) :=
  match validateIdentifier approvalId "approval_id" with
  | .error e => pure (.error e)
  | .ok () => do
    let reply ← Talk.exchange "GET" (pollPath approvalId) ""
    pure (polled lib approvalId reply)

def pendingPath (agentId sessionId : String) : String :=
  "/v1/approvals?status=pending&agent_id=" ++ agentId ++ "&session_id=" ++ sessionId

def myPending (agentId sessionId : String) : Talk (Except GateError Json) := do
  let reply ← Talk.exchange "GET" (pendingPath agentId sessionId) ""
  match received lib (pendingPath agentId sessionId) reply with
  | .error e => pure (.error e)
  | .ok (status, body) =>
    if 400 ≤ status then pure (.error (.gateHttp status body.toCompactString)) else pure (.ok body)

end GateClient
end Latchgate.Mcp.Stdio
