import Latchgate.Json.Value

namespace Latchgate

inductive TrustVerdict where
  | digestOk
  | digestMismatch (expected actual : String)
  | notRegistered
  deriving DecidableEq

inductive EgressProfile where
  | none
  | proxyAllowlist (allowedDomains : List String)
  deriving DecidableEq

def EgressProfile.concreteAllowedDomains : EgressProfile → List String
  | none => []
  | proxyAllowlist domains => domains

inductive RiskLevel where
  | low
  | medium
  | high
  | critical
  deriving DecidableEq

structure ResourceLimits where
  fuel : Nat := 1000000
  memoryMb : Nat := 64
  timeoutSeconds : Nat := 30
  maxIoCalls : Nat := 10
  maxHostResponseBytes : Nat := 10 * 1024 * 1024
  deriving DecidableEq

inductive VerifierKind where
  | httpStatus
  | fsHash
  | none
  deriving DecidableEq

def VerifierKind.asStr : VerifierKind → String
  | httpStatus => "http_status"
  | fsHash => "fs_hash"
  | none => "none"

structure SecretDecl where
  name : String
  required : Bool := false
  deriving DecidableEq

inductive FsOperation where
  | read
  | create
  | overwrite
  | delete
  deriving DecidableEq

def FsOperation.asStr : FsOperation → String
  | read => "read"
  | create => "create"
  | overwrite => "overwrite"
  | delete => "delete"

/-- A compiled pattern. What it matches is decided by the glob engine. -/
abbrev GlobPattern := String → Bool

def defaultMaxFileBytes : UInt64 :=
  10 * 1024 * 1024

/-- The compiled patterns are made when the manifest is loaded and are not
part of the serialised form. -/
structure FsConfig where
  allowedOperations : List FsOperation
  allowedPaths : List String := []
  deniedPaths : List String := []
  maxFileBytes : UInt64 := defaultMaxFileBytes
  compiledAllowed : List GlobPattern := []
  compiledDenied : List GlobPattern := []

structure TemplateConfig where
  method : String
  urlTemplate : String
  headers : List (String × String) := []
  bodyTemplate : Option Json := none

/-- A schema file beside the manifest, or the schema itself. -/
inductive IoSchema where
  | path (file : String)
  | inline (schema : Json)

structure IoConfig where
  requestSchema : Option IoSchema := none
  responseSchema : Option IoSchema := none
  maxRequestBytes : Nat := 64 * 1024
  maxResponseBytes : Nat := 1024 * 1024

structure EgressConfig where
  profile : String := "none"
  allowedDomains : List String := []
  allowedMethods : List String := []
  deriving DecidableEq

structure ActionSpec where
  actionId : String
  version : String
  providerModuleDigest : String
  requiredImports : List String := []
  resourceLimits : ResourceLimits := {}
  verifierKind : VerifierKind := .none
  verificationConfig : Option Json := none
  io : IoConfig := {}
  egress : EgressConfig := {}
  secrets : List SecretDecl := []
  riskLevel : RiskLevel := .low
  declaredSideEffects : List String := []
  requiredScopes : List String := ["tools:call"]
  databaseConfig : Option Json := none
  template : Option TemplateConfig := none
  fs : Option FsConfig := none
  contentDigest : String := ""

end Latchgate
