import Latchgate.Core.Sanitize
import Latchgate.Json.Once
import Latchgate.Ledger.Event
import Latchgate.Policy.Decision

namespace Latchgate

/-! What the gate makes of the answer of the policy. -/

inductive PolicyDecision where
  | allow (budgetsAfter : Int64) (allowedSinks approvedSecrets : List String) (approvedEgress : EgressProfile)
      (policyVersion : Option String)
  | deny (reason : String)
  | pendingApproval (approvalId : String) (allowedSinks approvedSecrets : List String) (approvedEgress : EgressProfile)
      (budgetsAfter : Int64) (policyVersion : Option String)
  deriving DecidableEq

inductive PolicyError where
  | denied (reason principal actionId : String)
  | opaUnavailable (detail : String)
  | opaTimeout
  | opaResponseInvalid (detail : String)
  deriving DecidableEq

def denyReasonMaxBytes : Nat :=
  500

/-- A denial; its reason may quote the agent. -/
def PolicyInput.denied (input : PolicyInput) (reason : String) : PolicyError :=
  .denied (sanitizeForLog reason denyReasonMaxBytes).text input.principal input.actionId

structure OpaDecisionResult where
  allow : Bool
  denyReason : Option String
  requiresApproval : Bool
  budgetsAfter : Option Int64
  allowedSinks : Option (List String)
  approvedSecrets : Option (List String)
  approvedEgress : Option EgressProfile
  policyVersion : Option String

namespace OpaDecisionResult
open AuditEvent (decodeBool decodeI64 optional required)

def decodeBudget (v : Json) : Option Int64 := do
  let get ← v.membersOnce ["calls_remaining"]
  required decodeI64 (get "calls_remaining")

def decodeUnit : Json → Option Unit
  | .null => some ()
  | _ => none

def decodeAllowlist (v : Json) : Option EgressProfile := do
  let get ← v.membersOnce ["allowed_domains"]
  let domains ← required (Json.decodeList Json.asStr?) (get "allowed_domains")
  some (.proxyAllowlist domains)

def decodeEgress : Json → Option EgressProfile
  | .string name => if name = "none" then some .none else none
  | .object [(name, body)] =>
    if name = "none" then (decodeUnit body).map fun _ => .none
    else if name = "proxy_allowlist" then decodeAllowlist body
    else none
  | _ => none

def names : List String :=
  ["allow", "deny_reason", "requires_approval", "budgets_after", "allowed_sinks", "approved_secrets", "approved_egress",
    "policy_version"]

def ofMembers (get : String → Option Json) : Option OpaDecisionResult := do
  let allow ← required decodeBool (get "allow")
  let denyReason ← optional Json.asStr? (get "deny_reason")
  let requiresApproval ← Json.decodeOr false decodeBool (get "requires_approval")
  let budgetsAfter ← optional decodeBudget (get "budgets_after")
  let allowedSinks ← optional (Json.decodeList Json.asStr?) (get "allowed_sinks")
  let approvedSecrets ← optional (Json.decodeList Json.asStr?) (get "approved_secrets")
  let approvedEgress ← optional decodeEgress (get "approved_egress")
  let policyVersion ← optional Json.asStr? (get "policy_version")
  some { allow, denyReason, requiresApproval, budgetsAfter, allowedSinks, approvedSecrets, approvedEgress, policyVersion }

def decode (v : Json) : Option OpaDecisionResult :=
  (v.membersOnce names).bind ofMembers

end OpaDecisionResult

/-- The fields without which a decision to wait for an approval is none. -/
def interpretApproval (result : OpaDecisionResult) (input : PolicyInput) (approvalId : String) :
    Except PolicyError PolicyDecision :=
  match result.allowedSinks with
  | none => .error (input.denied "policy contract violation: requires_approval without allowed_sinks")
  | some allowedSinks =>
    match result.approvedSecrets with
    | none => .error (input.denied "policy contract violation: requires_approval without approved_secrets")
    | some approvedSecrets =>
      match result.approvedEgress with
      | none => .error (input.denied "policy contract violation: requires_approval without approved_egress")
      | some approvedEgress =>
        .ok (.pendingApproval approvalId allowedSinks approvedSecrets approvedEgress
          (result.budgetsAfter.getD (.ofInt input.callsRemaining)) result.policyVersion)

def interpretDecision (result : OpaDecisionResult) (input : PolicyInput) (approvalId : String) :
    Except PolicyError PolicyDecision :=
  if !result.allow then .error (input.denied (result.denyReason.getD "denied by policy (no reason provided)"))
  else if result.requiresApproval then interpretApproval result input approvalId
  else .ok (.allow (result.budgetsAfter.getD 0) (result.allowedSinks.getD [])
    (result.approvedSecrets.getD input.requestedSecrets) (result.approvedEgress.getD input.egressProfile) result.policyVersion)

/-- The reading of texts: the document as it is written or a complaint, and the
complaint about a document that is no record of the expected form. -/
structure Serde where
  parse : String → Except String Json
  complain : Json → String

variable (serde : Serde)

def parseDecisionStr (json : String) (input : PolicyInput) (approvalId : String) : Except PolicyError PolicyDecision :=
  match serde.parse json with
  | .error e => .error (.opaResponseInvalid ("malformed decision JSON: " ++ e))
  | .ok doc =>
    match OpaDecisionResult.decode doc with
    | none => .error (.opaResponseInvalid ("malformed decision JSON: " ++ serde.complain doc))
    | some result => interpretDecision result input approvalId

/-- What comes back from the server of the policy. -/
inductive OpaReply where
  | timedOut
  | unreachable (error : String)
  | failed (error : String)
  | answered (status : Nat) (shown : String) (body : Except String String)

/-- The member `result`, if it is there and not null. -/
def decodeResponse (doc : Json) : Option (Option OpaDecisionResult) := do
  let get ← doc.membersOnce ["result"]
  AuditEvent.optional OpaDecisionResult.decode (get "result")

def opaEvaluate (reply : OpaReply) (input : PolicyInput) (approvalId : String) : Except PolicyError PolicyDecision :=
  match reply with
  | .timedOut => .error .opaTimeout
  | .unreachable e => .error (.opaUnavailable ("connection failed: " ++ e))
  | .failed e => .error (.opaUnavailable ("request error: " ++ e))
  | .answered status shown body =>
    if status < 200 ∨ 300 ≤ status then .error (.opaUnavailable ("OPA returned HTTP " ++ shown))
    else
      match body with
      | .error e => .error (.opaResponseInvalid ("failed to read response body: " ++ e))
      | .ok text =>
        match serde.parse text with
        | .error e => .error (.opaResponseInvalid ("malformed JSON: " ++ e))
        | .ok doc =>
          match decodeResponse doc with
          | none => .error (.opaResponseInvalid ("malformed JSON: " ++ serde.complain doc))
          | some none => .error (.opaResponseInvalid
              "missing 'result' in OPA response — is the latchgate policy bundle loaded?")
          | some (some result) => interpretDecision result input approvalId

end Latchgate
