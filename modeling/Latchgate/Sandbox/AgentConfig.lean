import Latchgate.Core.FsPath
import Latchgate.Sandbox.BwrapArgs
import Latchgate.Sandbox.Proxy

namespace Latchgate
namespace Sandbox

def defaultAgentAllowHosts : List String :=
  ["api.anthropic.com", "api.openai.com", "generativelanguage.googleapis.com"]

def defaultAgentPassEnv : List String :=
  ["TERM", "LANG"]

/-- The names that only the sandbox sets. -/
def reservedAgentEnvNames : List String :=
  ["HOME", "PATH", "LATCHGATE_URL", "LATCHGATE_PROXY_TOKEN", "HTTPS_PROXY", "https_proxy", "HTTP_PROXY", "http_proxy"]

structure AgentSandboxConfig where
  workspace : Option String := none
  allowHosts : List String := defaultAgentAllowHosts
  roMounts : List String := []
  passEnv : List String := defaultAgentPassEnv
  gateSocket : String
  credentials : List (String × CredentialRouteConfig) := []
  sandboxUid : Option UInt32 := none
  sandboxGid : Option UInt32 := none
  deriving DecidableEq

namespace AgentSandboxConfig
variable (config : AgentSandboxConfig)

/-- A text that stands inside another one. -/
def holdsText (text part : List Char) : Bool :=
  decide (part <:+: text)

def validateHost (i : Nat) (host : String) : List String :=
  if host = "" then ["allow_hosts[" ++ toString i ++ "] is empty"]
  else if holdsText host.toList "://".toList then
    ["allow_hosts[" ++ toString i ++ "] = \"" ++ host ++
      "\" contains a scheme — use bare hostnames (e.g. \"api.anthropic.com\")"]
  else if '/' ∈ host.toList then
    ["allow_hosts[" ++ toString i ++ "] = \"" ++ host ++
      "\" contains a path — use bare hostnames (e.g. \"api.anthropic.com\")"]
  else if ':' ∈ host.toList then
    ["allow_hosts[" ++ toString i ++ "] = \"" ++ host ++
      "\" contains a port — the proxy enforces port 443 only; use bare hostnames"]
  else []

def validateAbsolute (field path : String) : List String :=
  if FsPath.isAbsolute path then [] else [field ++ " = \"" ++ path ++ "\" is not an absolute path"]

def validatePassEnv (i : Nat) (var : String) : List String :=
  (if var = "" then ["pass_env[" ++ toString i ++ "] is empty"] else []) ++
  (if '=' ∈ var.toList then
    ["pass_env[" ++ toString i ++ "] = \"" ++ var ++ "\" contains '=' — pass variable names only, not assignments"]
    else []) ++
  (if var ∈ reservedAgentEnvNames then
    ["pass_env[" ++ toString i ++ "] = \"" ++ var ++ "\" is reserved by the sandbox — " ++
      "the sandbox sets this variable unconditionally and it cannot be overridden"]
    else [])

/-- The problems of a configuration; none for one that is accepted. -/
def validate : List String :=
  (config.allowHosts.zipIdx.flatMap fun entry => validateHost entry.2 entry.1) ++
  (config.roMounts.zipIdx.flatMap fun entry => validateAbsolute ("ro_mounts[" ++ toString entry.2 ++ "]") entry.1) ++
  validateAbsolute "gate_socket" config.gateSocket ++
  (config.passEnv.zipIdx.flatMap fun entry => validatePassEnv entry.2 entry.1) ++
  (match config.workspace with
    | some ws => validateAbsolute "workspace" ws
    | none => []) ++
  (if config.sandboxUid = some 0 then
    ["sandbox_uid = 0 is rejected — the agent must never run as root inside the namespace (limits blast radius of namespace escape)"]
    else []) ++
  (if config.sandboxGid = some 0 then
    ["sandbox_gid = 0 is rejected — the agent must not run in the root group"] else []) ++
  config.credentials.flatMap fun route => route.2.validate route.1

end AgentSandboxConfig

inductive IoErrorKind where
  | notFound
  | permissionDenied
  | other
  deriving DecidableEq

structure IoError where
  kind : IoErrorKind
  message : String
  deriving DecidableEq

inductive SandboxError where
  | noCommand
  | invalidConfig (problems : List String)
  | credentialResolution (message : String)
  | io (error : IoError)
  deriving DecidableEq

/-- What a launch meets on the host: the environment, the directory it is
started in, the file system, and the owner of a directory. A place below one
that is no directory is none either. -/
structure Host where
  var : String → Option String
  currentDir : Except IoError String
  canonicalize : String → Except IoError String
  present : String → Bool
  isDir : List (List Char) → Bool
  closed : ∀ place rest, isDir (place ++ rest) = true → isDir place = true
  owner : String → Option (UInt32 × UInt32)

structure SandboxLaunchParams where
  workspace : String
  allowHosts : List String
  roMounts : List String
  passEnv : List String
  gateSocket : String
  command : List String
  credentials : List (String × CredentialRouteConfig)
  sandboxUid : Option UInt32
  sandboxGid : Option UInt32

namespace SandboxLaunchParams

def effectiveWorkspace (host : Host) (config : AgentSandboxConfig) : Except IoError String :=
  match config.workspace with
  | some ws => .ok ws
  | none => host.currentDir

def canonicalizeMount (host : Host) (mount : String) : Except SandboxError String :=
  (host.canonicalize mount).mapError fun e =>
    .io { e with message := "cannot canonicalize ro_mount \"" ++ mount ++ "\": " ++ e.message }

def canonicalizeGate (host : Host) (socket : String) : Except SandboxError String :=
  (host.canonicalize socket).mapError fun e =>
    match e.kind with
    | .notFound =>
      .invalidConfig ["gate socket \"" ++ socket ++
        "\" not found — is the gate running?\nStart it first: latchgate up (or latchgate gate)"]
    | .permissionDenied =>
      .invalidConfig ["cannot access gate socket \"" ++ socket ++
        "\": permission denied\nhint: when using sudo, run the gate as root too: sudo latchgate up"]
    | .other => .io { e with message := "cannot access gate socket \"" ++ socket ++ "\": " ++ e.message }

def resolve (host : Host) (config : AgentSandboxConfig) (command : List String) : Except SandboxError SandboxLaunchParams := do
  if command = [] then throw .noCommand
  if config.validate ≠ [] then throw (.invalidConfig config.validate)
  let configured ← (effectiveWorkspace host config).mapError fun e =>
    .io { e with message := "cannot resolve workspace directory: " ++ e.message }
  let workspace ← (host.canonicalize configured).mapError fun e =>
    .io { e with message := "cannot canonicalize workspace \"" ++ configured ++ "\": " ++ e.message }
  let roMounts ← config.roMounts.mapM (canonicalizeMount host)
  let gateSocket ← canonicalizeGate host config.gateSocket
  return {
    workspace, roMounts, gateSocket, command
    allowHosts := config.allowHosts
    passEnv := config.passEnv
    credentials := config.credentials
    sandboxUid := config.sandboxUid
    sandboxGid := config.sandboxGid }

end SandboxLaunchParams

end Sandbox
end Latchgate
