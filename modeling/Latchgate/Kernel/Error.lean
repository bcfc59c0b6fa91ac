import Latchgate.Approval.Types

namespace Latchgate

/-- The errors of the pipeline. The typed errors of its parts are kept as the
texts they print. -/
inductive PipelineError where
  | auth (message : String)
  | schema (message : String)
  | policy (message : String)
  | trust (message : String)
  | provider (message : String)
  | budget (message : String)
  | approval (approvalId requestHash traceId : String)
  | actionNotFound (actionId : String)
  | badRequest (reason : String)
  | internal (message : String)
  | grantIntegrity (reason : String)
  | planIntegrity (reason : String)
  | storeUnavailable (message : String)
  | secretResolution (message : String)
  | canonicalHash (message : String)
  | configConstraint (reason : String)
  | draining
  | evidencePersistenceFailed (traceId grantId : String)
  | grantConsumed (grantId : String)
  | conflict (detail : String)
  | rateLimited
  | throttled (scope : String)
  deriving DecidableEq

def PipelineError.display : PipelineError → String
  | auth message => "auth: " ++ message
  | schema message => "schema: " ++ message
  | policy message => "policy: " ++ message
  | trust message => "trust: " ++ message
  | provider message => "provider: " ++ message
  | budget message => "budget: " ++ message
  | approval approvalId _ _ => "pending approval: " ++ approvalId
  | actionNotFound actionId => "action not found: " ++ actionId
  | badRequest reason => "bad request: " ++ reason
  | internal message => "internal: " ++ message
  | grantIntegrity reason => "grant integrity: " ++ reason
  | planIntegrity reason => "plan integrity: " ++ reason
  | storeUnavailable message => "store unavailable: " ++ message
  | secretResolution message => "secret resolution: " ++ message
  | canonicalHash message => "canonical hash: " ++ message
  | configConstraint reason => "config constraint: " ++ reason
  | draining => "gate is draining — not accepting new requests"
  | evidencePersistenceFailed traceId grantId =>
    "evidence persistence failed: trace_id=" ++ traceId ++ " grant_id=" ++ grantId
  | grantConsumed grantId => "grant already consumed: " ++ grantId
  | conflict detail => "conflict: " ++ detail
  | rateLimited => "execute rate limit exceeded"
  | throttled scope => "operator rate limited: " ++ scope

def mapApprovalErr : ApprovalError → PipelineError
  | .unavailable message => .storeUnavailable ("approval store unavailable: " ++ message)
  | .alreadyExists approvalId => .conflict ("approval already exists: " ++ approvalId)
  | .notFound approvalId => .actionNotFound ("approval:" ++ approvalId)
  | .alreadyClaimed approvalId | .alreadyCompleted approvalId | .tokenMismatch approvalId
  | .notClaimed approvalId => .actionNotFound ("approval:" ++ approvalId)
  | .dataCorrupted message => .internal ("approval data corrupted: " ++ message)

end Latchgate
