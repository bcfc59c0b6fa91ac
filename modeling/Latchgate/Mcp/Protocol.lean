import Latchgate.Json.Once
import Latchgate.Json.Sorted
import Mathlib.Algebra.Group.Int.Defs

namespace Latchgate.Mcp

def protocolVersion : String := "2024-11-05"

inductive RequestId where
  | number (n : Int)
  | string (s : String)
  deriving DecidableEq

namespace RequestId

/-- An id is an integer of 64 bits or a string, and nothing else. -/
def decode : Json → Option RequestId
  | .number (.int z) => if -2 ^ 63 ≤ z ∧ z < 2 ^ 63 then some (number z) else none
  | .string s => some (string s)
  | _ => none

def toJson : RequestId → Json
  | number n => .number (.int n)
  | string s => .string s

end RequestId

/-- A member that may be missing, and that counts as missing when it is null. -/
def decodeOptional {α : Type} (decode : Json → Option α) : Option Json → Option (Option α) :=
  Json.decodeOr none (Json.decodeNullable decode)

structure JsonRpcRequest where
  jsonrpc : String
  id : Option RequestId
  method : String
  params : Json

namespace JsonRpcRequest

def names : List String :=
  ["jsonrpc", "id", "method", "params"]

def ofMembers (get : String → Option Json) : Option JsonRpcRequest := do
  let jsonrpc ← Json.decodeRequired Json.asStr? (get "jsonrpc")
  let id ← decodeOptional RequestId.decode (get "id")
  let method ← Json.decodeRequired Json.asStr? (get "method")
  some { jsonrpc, id, method, params := ((get "params").getD .null).sorted }

def decode (v : Json) : Option JsonRpcRequest :=
  (v.membersOnce names).bind ofMembers

end JsonRpcRequest

structure RpcError where
  code : Int
  message : String

structure JsonRpcResponse where
  id : Option RequestId
  result : Option Json
  error : Option RpcError

namespace ErrorCodes

def parseError : Int := -32700
def invalidRequest : Int := -32600
def methodNotFound : Int := -32601
def invalidParams : Int := -32602
def internalError : Int := -32603

end ErrorCodes

def RpcError.toJson (e : RpcError) : Json :=
  .object [("code", .number (.int e.code)), ("message", .string e.message)]

namespace JsonRpcResponse

def ok (id : Option RequestId) (result : Json) : JsonRpcResponse where
  id := id
  result := some result
  error := none

def err (id : Option RequestId) (code : Int) (message : String) : JsonRpcResponse where
  id := id
  result := none
  error := some ⟨code, message⟩

/-- The members stand in the order of the fields; what is missing is left out. -/
def toJson (r : JsonRpcResponse) : Json :=
  .object ([("jsonrpc", .string "2.0")] ++ (r.id.map fun id => ("id", id.toJson)).toList ++
    (r.result.map fun v => ("result", v)).toList ++ (r.error.map fun e => ("error", e.toJson)).toList)

end JsonRpcResponse

structure JsonRpcNotification where
  method : String
  params : Option Json

namespace JsonRpcNotification

def toJson (n : JsonRpcNotification) : Json :=
  .object ([("jsonrpc", .string "2.0"), ("method", .string n.method)] ++
    (n.params.map fun v => ("params", v)).toList)

/-- The gate gives no total. -/
def progress (token : Json) (done : Nat) : JsonRpcNotification where
  method := "notifications/progress"
  params := some (.ofFields [("progressToken", token), ("progress", .number (.int done))])

def logMessage (level message : String) : JsonRpcNotification where
  method := "notifications/message"
  params := some (.ofFields [("level", .string level), ("logger", .string "latchgate-mcp"), ("data", .string message)])

end JsonRpcNotification

/-- What is written to the client. -/
inductive Message where
  | response (r : JsonRpcResponse)
  | notification (n : JsonRpcNotification)

def Message.toJson : Message → Json
  | response r => r.toJson
  | notification n => n.toJson

structure McpToolAnnotations where
  readOnlyHint : Option Bool := none
  destructiveHint : Option Bool := none
  idempotentHint : Option Bool := none
  openWorldHint : Option Bool := none

structure McpTool where
  name : String
  description : String
  inputSchema : Json
  annotations : Option McpToolAnnotations

def McpToolAnnotations.toJson (a : McpToolAnnotations) : Json :=
  .object ([("readOnlyHint", a.readOnlyHint), ("destructiveHint", a.destructiveHint),
    ("idempotentHint", a.idempotentHint), ("openWorldHint", a.openWorldHint)].filterMap fun hint =>
      hint.2.map fun b => (hint.1, .bool b))

def McpTool.toJson (t : McpTool) : Json :=
  .object ([("name", .string t.name), ("description", .string t.description), ("inputSchema", t.inputSchema)] ++
    (t.annotations.map fun a => ("annotations", a.toJson)).toList)

structure ToolCallParams where
  name : String
  arguments : Json
  progressToken : Option Json

namespace ToolCallParams

def names : List String :=
  ["name", "arguments", "_meta"]

/-- The token is a member of the metadata, where these are an object. -/
def ofMembers (get : String → Option Json) : Option ToolCallParams := do
  let name ← Json.decodeRequired Json.asStr? (get "name")
  some { name, arguments := (get "arguments").getD .null
         progressToken := (get "_meta").bind (Json.get? "progressToken") }

def decode (v : Json) : Option ToolCallParams :=
  (v.members names).bind ofMembers

end ToolCallParams

namespace ToolErrorCodes

def policyDenied : String := "policy_denied"
def pendingApproval : String := "pending_approval"
def budgetExhausted : String := "budget_exhausted"
def actionNotFound : String := "action_not_found"
def schemaValidation : String := "schema_validation"
def egressBlocked : String := "egress_blocked"
def leaseExpired : String := "lease_expired"
def revoked : String := "revoked"
def gateUnavailable : String := "gate_unavailable"
def sandboxError : String := "sandbox_error"
def authFailed : String := "auth_failed"

end ToolErrorCodes

structure StructuredToolError where
  code : String
  message : String
  actionId : Option String := none
  traceId : Option String := none
  approvalId : Option String := none
  remediation : Option String := none

def StructuredToolError.toJson (e : StructuredToolError) : Json :=
  .object ([("code", .string e.code), ("message", .string e.message)] ++
    [("action_id", e.actionId), ("trace_id", e.traceId), ("approval_id", e.approvalId),
      ("remediation", e.remediation)].filterMap fun field => field.2.map fun s => (field.1, .string s))

def mapGateErrorCode (gateCode : String) (httpStatus : Nat) : String :=
  if gateCode ∈ ["policy_denied", "acl_denied", "not_allowed"] then ToolErrorCodes.policyDenied
  else if gateCode = "pending_approval" then ToolErrorCodes.pendingApproval
  else if gateCode ∈ ["budget_exhausted", "budget_exceeded"] then ToolErrorCodes.budgetExhausted
  else if gateCode ∈ ["action_not_found", "not_found"] then ToolErrorCodes.actionNotFound
  else if gateCode ∈ ["schema_validation", "validation_error"] then ToolErrorCodes.schemaValidation
  else if gateCode ∈ ["egress_blocked", "domain_blocked"] then ToolErrorCodes.egressBlocked
  else if gateCode ∈ ["lease_expired", "grant_expired"] then ToolErrorCodes.leaseExpired
  else if gateCode ∈ ["revoked", "epoch_advanced"] then ToolErrorCodes.revoked
  else if gateCode ∈ ["sandbox_error", "wasm_error", "provider_error"] then ToolErrorCodes.sandboxError
  else if gateCode ∈ ["auth_failed", "dpop_invalid", "lease_invalid"] then ToolErrorCodes.authFailed
  else if httpStatus = 404 then ToolErrorCodes.actionNotFound
  else if httpStatus = 401 ∨ httpStatus = 403 then ToolErrorCodes.authFailed
  else if httpStatus = 429 then ToolErrorCodes.budgetExhausted
  else if 400 ≤ httpStatus ∧ httpStatus < 500 then ToolErrorCodes.policyDenied
  else ToolErrorCodes.gateUnavailable

/-- A content block of text as the result of a tool call. -/
def toolResult (id : Option RequestId) (text : String) (isError : Bool) : JsonRpcResponse :=
  .ok id (.ofFields [("content", .array [.ofFields [("type", .string "text"), ("text", .string text)]]),
    ("isError", .bool isError)])

def toolSuccess (id : Option RequestId) (text : String) : JsonRpcResponse :=
  toolResult id text false

def toolErrorStructured (id : Option RequestId) (error : StructuredToolError) : JsonRpcResponse :=
  toolResult id error.toJson.toCompactString true

def structuredToolError (id : Option RequestId) (code message : String) (actionId : Option String) (traceId : String)
    (remediation : Option String) : JsonRpcResponse :=
  toolErrorStructured id { code, message, actionId, traceId := some traceId, remediation }

end Latchgate.Mcp
