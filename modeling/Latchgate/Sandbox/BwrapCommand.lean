import Latchgate.Json.Reparse
import Latchgate.Sandbox.AgentConfig

namespace Latchgate
namespace Sandbox
open Bwrap

/-! Who runs in the sandbox. -/

def parseU32 (text : String) : Option UInt32 :=
  (parseUnsigned (2 ^ 32) text.toList).map UInt32.ofNat

def nonZero (id : Option UInt32) : Option UInt32 :=
  id.filter fun id => id ≠ 0

def resolveUidGidInner (sudoUid sudoGid : Option String) (configuredUid configuredGid : Option UInt32)
    (owner : Option (UInt32 × UInt32)) : UInt32 × UInt32 :=
  match nonZero (sudoUid.bind parseU32) with
  | some uid => (uid, (nonZero (sudoGid.bind parseU32)).getD uid)
  | none =>
    match nonZero configuredUid with
    | some uid => (uid, (nonZero configuredGid).getD uid)
    | none =>
      match owner with
      | some (uid, gid) => if uid ≠ 0 then (uid, gid) else (65534, 65534)
      | none => (65534, 65534)

def resolveSandboxUidGid (host : Host) (params : SandboxLaunchParams) : UInt32 × UInt32 :=
  resolveUidGidInner (host.var "SUDO_UID") (host.var "SUDO_GID") params.sandboxUid params.sandboxGid (host.owner params.workspace)

/-! The environment. -/

def sandboxPath : List String :=
  ["/usr/local/sbin", "/usr/local/bin", "/usr/sbin", "/usr/bin", "/sbin", "/bin"]

def joinPath (dir name : String) : String :=
  if dir.toList.getLast? = some '/' then dir ++ name else dir ++ "/" ++ name

def buildSandboxPath (host : Host) (roMounts : List String) : String :=
  let subdirs := roMounts.flatMap fun mount => ["bin", "sbin"].map fun sub => joinPath mount sub
  ":".intercalate sandboxPath ++ String.join ((subdirs.filter fun dir => host.isDir (parts dir)).map fun dir => ":" ++ dir)

def envSnapshot (host : Host) (passEnv : List String) : List (String × String) :=
  passEnv.filterMap fun name => (host.var name).map fun value => (name, value)

def buildEnvArgs (host : Host) (params : SandboxLaunchParams) (snapshot : List (String × String)) : List (String × String) :=
  snapshot ++
    [("HOME", "/workspace"), ("LATCHGATE_URL", "unix:///run/latchgate/gate.sock"),
      ("PATH", buildSandboxPath host params.roMounts)]

/-! The command. -/

def etcAllowlist : List String :=
  ["/etc/alternatives", "/etc/ld.so.cache", "/etc/ld.so.conf", "/etc/ld.so.conf.d", "/etc/ssl", "/etc/ca-certificates",
    "/etc/passwd", "/etc/group", "/etc/nsswitch.conf"]

def systemRoBindTry : List String :=
  ["/bin", "/lib", "/lib64", "/sbin"]

structure BwrapMode where
  netnsPath : Option String
  sandboxUid : UInt32
  sandboxGid : UInt32

/-- The arguments that `bwrap` gets. -/
def bwrapArgs (params : SandboxLaunchParams) (proxySocket : String) (configFd : Nat) (latchgateBin : String)
    (envArgs : List (String × String)) (mode : BwrapMode) : List String :=
  ["--unshare-user", "--unshare-pid", "--unshare-uts", "--unshare-ipc", "--unshare-cgroup"] ++
    (if mode.netnsPath.isSome then [] else ["--unshare-net"]) ++
    ["--hostname", "sandbox"] ++
    (if mode.netnsPath.isSome then [] else ["--cap-add", "CAP_NET_ADMIN"]) ++
    ["--uid", toString mode.sandboxUid.toNat] ++
    ["--gid", toString mode.sandboxGid.toNat] ++
    ["--die-with-parent", "--new-session"] ++
    ["--bind", params.workspace, "/workspace"] ++
    ["--ro-bind", "/usr", "/usr"] ++
    (systemRoBindTry.flatMap fun path => ["--ro-bind-try", path, path]) ++
    (etcAllowlist.flatMap fun entry => ["--ro-bind-try", entry, entry]) ++
    ["--tmpfs", "/tmp"] ++
    ["--proc", "/proc"] ++
    ["--dev", "/dev"] ++
    (params.roMounts.flatMap fun mount => ["--ro-bind", mount, mount]) ++
    ["--bind", params.gateSocket, "/run/latchgate/gate.sock"] ++
    ["--bind", proxySocket, "/run/latchgate/proxy.sock"] ++
    ["--ro-bind", latchgateBin, "/sandbox-bin/latchgate"] ++
    ["--clearenv"] ++
    (envArgs.flatMap fun var => ["--setenv", var.1, var.2]) ++
    ["--", "/sandbox-bin/latchgate", "sandbox-init"] ++
    ["--config-fd", toString configFd]

/-- The program with its arguments. -/
def buildBwrapCommand (params : SandboxLaunchParams) (proxySocket : String) (configFd : Nat) (latchgateBin : String)
    (envArgs : List (String × String)) (mode : BwrapMode) : String × List String :=
  let args := bwrapArgs params proxySocket configFd latchgateBin envArgs mode
  match mode.netnsPath with
  | some netns => ("nsenter", ["--net=" ++ netns, "--", "bwrap"] ++ args)
  | none => ("bwrap", args)

/-- What a program makes of its arguments: `nsenter` runs the command that is
behind its own ones. -/
def readCommand : String × List String → Option Invocation
  | ("bwrap", args) => readArgs {} args
  | ("nsenter", _ :: "--" :: "bwrap" :: args) => readArgs {} args
  | _ => none

/-! The shim. -/

/-- Setting a variable is a panic for some names and values. -/
def setVar (vars : List (String × String)) (name value : String) : Option (List (String × String)) :=
  if name = "" ∨ '=' ∈ name.toList ∨ '\x00' ∈ name.toList ∨ '\x00' ∈ value.toList then none else some (vars ++ [(name, value)])

def setVars (vars : List (String × String)) : List (String × String) → Option (List (String × String))
  | [] => some vars
  | var :: rest => (setVar vars var.1 var.2).bind fun vars => setVars vars rest

/-- The address of the loopback forwarder. -/
def proxyUrl (port : Nat) : String :=
  "http://127.0.0.1:" ++ toString port

def proxyVarNames : List String :=
  ["HTTPS_PROXY", "https_proxy", "HTTP_PROXY", "http_proxy"]

/-- What the shim sets. `toUppercase` folds the case of a route name. -/
def shimVars (toUppercase : String → String) (port : Nat) (proxyToken : Option String) (credentialRoutes : List String) :
    List (String × String) :=
  (proxyVarNames.map fun name => (name, proxyUrl port)) ++
    (proxyToken.toList.map fun token => ("LATCHGATE_PROXY_TOKEN", token)) ++
    credentialRoutes.map fun route => (toUppercase route ++ "_BASE_URL", proxyUrl port ++ "/" ++ route)

/-- The variables of the agent, in the order in which they are set. -/
def runSandboxInit (toUppercase : String → String) (port : Nat) (proxyToken : Option String) (credentialRoutes : List String)
    (env : List (String × String)) : Option (List (String × String)) :=
  setVars env (shimVars toUppercase port proxyToken credentialRoutes)

def resolveCredentials (var : String → Option String) :
    List (String × CredentialRouteConfig) → Except String (List ResolvedCredentialRoute × List String)
  | [] => .ok ([], [])
  | (name, config) :: rest =>
    match stripText "env:" config.keySource with
    | none => .error ("route \"" ++ name ++ "\": unsupported key_source \"" ++ config.keySource ++ "\" (only \"env:VAR\" is supported)")
    | some varName =>
      match var varName with
      | none => resolveCredentials var rest
      | some value =>
        match config.resolve name value with
        | .error e => .error e
        | .ok route => (resolveCredentials var rest).map fun later => (route :: later.1, name :: later.2)

/-! What `bwrap` reads. -/

/-- The mounts between the workspace and those of the configuration. -/
def systemMounts : List Mount :=
  .roBind "/usr" "/usr" :: (systemRoBindTry.map fun path => .roBindTry path path) ++
    (etcAllowlist.map fun entry => .roBindTry entry entry) ++ [.tmpfs "/tmp", .proc "/proc", .dev "/dev"]

def socketMounts (gateSocket proxySocket latchgateBin : String) : List Mount :=
  [.bind gateSocket "/run/latchgate/gate.sock", .bind proxySocket "/run/latchgate/proxy.sock",
    .roBind latchgateBin "/sandbox-bin/latchgate"]

def agentMounts (params : SandboxLaunchParams) (proxySocket latchgateBin : String) : List Mount :=
  .bind params.workspace "/workspace" :: (systemMounts ++ (params.roMounts.map fun mount => .roBind mount mount) ++
    socketMounts params.gateSocket proxySocket latchgateBin)

def invocation (params : SandboxLaunchParams) (proxySocket : String) (configFd : Nat) (latchgateBin : String)
    (envArgs : List (String × String)) (mode : BwrapMode) : Invocation where
  unshared := ["user", "pid", "uts", "ipc", "cgroup"] ++ if mode.netnsPath.isSome then [] else ["net"]
  hostname := some "sandbox"
  capabilities := if mode.netnsPath.isSome then [] else ["CAP_NET_ADMIN"]
  uid := some mode.sandboxUid.toNat
  gid := some mode.sandboxGid.toNat
  dieWithParent := true
  newSession := true
  mounts := agentMounts params proxySocket latchgateBin
  clearEnv := true
  env := envArgs
  command := ["/sandbox-bin/latchgate", "sandbox-init", "--config-fd", toString configFd]

section Read
variable {params : SandboxLaunchParams} {proxySocket latchgateBin : String} {configFd : Nat}
  {envArgs : List (String × String)} {mode : BwrapMode}

/-- The options before the mounts. -/
def isolated (mode : BwrapMode) : Invocation where
  unshared := ["user", "pid", "uts", "ipc", "cgroup"] ++ if mode.netnsPath.isSome then [] else ["net"]
  hostname := some "sandbox"
  capabilities := if mode.netnsPath.isSome then [] else ["CAP_NET_ADMIN"]
  uid := some mode.sandboxUid.toNat
  gid := some mode.sandboxGid.toNat
  dieWithParent := true
  newSession := true

theorem readArgs_isolated (rest : List String) :
    readArgs {} (["--unshare-user", "--unshare-pid", "--unshare-uts", "--unshare-ipc", "--unshare-cgroup"] ++
      (if mode.netnsPath.isSome then [] else ["--unshare-net"]) ++ ["--hostname", "sandbox"] ++
      (if mode.netnsPath.isSome then [] else ["--cap-add", "CAP_NET_ADMIN"]) ++ ["--uid", toString mode.sandboxUid.toNat] ++
      ["--gid", toString mode.sandboxGid.toNat] ++ ["--die-with-parent", "--new-session"] ++ rest) = readArgs (isolated mode) rest := by
  obtain ⟨netns, uid, gid⟩ := mode
  have ending (i : Invocation) : readArgs i ("--uid" :: toString uid.toNat :: "--gid" :: toString gid.toNat ::
      "--die-with-parent" :: "--new-session" :: rest) =
      readArgs { i with uid := some uid.toNat, gid := some gid.toNat, dieWithParent := true, newSession := true } rest := by
    rw [readArgs_uid, readArgs_gid]
    exact (readArgs_flag _ _ (by decide) rfl).trans (readArgs_flag _ _ (by decide) rfl)
  have spaces (i : Invocation) (rest : List String) : readArgs i ("--unshare-user" :: "--unshare-pid" :: "--unshare-uts" ::
      "--unshare-ipc" :: "--unshare-cgroup" :: rest) =
      readArgs { i with unshared := i.unshared ++ ["user"] ++ ["pid"] ++ ["uts"] ++ ["ipc"] ++ ["cgroup"] } rest := by
    refine (readArgs_flag _ _ (by decide) rfl).trans ?_
    refine (readArgs_flag _ _ (by decide) rfl).trans ?_
    refine (readArgs_flag _ _ (by decide) rfl).trans ?_
    exact (readArgs_flag _ _ (by decide) rfl).trans (readArgs_flag _ _ (by decide) rfl)
  cases netns with
  | some netns =>
    refine (spaces {} _).trans ?_
    refine (readArgs_unary _ _ (by decide) rfl rfl).trans ?_
    exact ending _
  | none =>
    refine (spaces {} _).trans ?_
    refine (readArgs_flag _ _ (by decide) rfl).trans ?_
    refine (readArgs_unary _ _ (by decide) rfl rfl).trans ?_
    refine (readArgs_unary _ _ (by decide) rfl rfl).trans ?_
    exact ending _

theorem readArgs_bwrapArgs (settable : ∀ var ∈ envArgs, var.1 ≠ "" ∧ '=' ∉ var.1.toList) :
    readArgs {} (bwrapArgs params proxySocket configFd latchgateBin envArgs mode) =
      some (invocation params proxySocket configFd latchgateBin envArgs mode) := by
  unfold bwrapArgs
  have isolates := @readArgs_isolated mode
  simp only [List.append_assoc] at isolates ⊢
  rw [isolates]
  refine (readArgs_bind _ _ params.workspace "/workspace").trans ?_
  refine (readArgs_roBind _ _ "/usr" "/usr").trans ?_
  refine (readArgs_roBindTries _ _ systemRoBindTry).trans ?_
  refine (readArgs_roBindTries _ _ etcAllowlist).trans ?_
  refine (readArgs_unary _ _ (by decide) rfl rfl).trans ?_
  refine (readArgs_unary _ _ (by decide) rfl rfl).trans ?_
  refine (readArgs_unary _ _ (by decide) rfl rfl).trans ?_
  refine (readArgs_roBinds _ _ params.roMounts).trans ?_
  refine (readArgs_bind _ _ params.gateSocket "/run/latchgate/gate.sock").trans ?_
  refine (readArgs_bind _ _ proxySocket "/run/latchgate/proxy.sock").trans ?_
  refine (readArgs_roBind _ _ latchgateBin "/sandbox-bin/latchgate").trans ?_
  refine (readArgs_flag _ _ (by decide) rfl).trans ?_
  refine (readArgs_setEnv _ _ settable).trans ?_
  refine (readArgs_command _ _).trans ?_
  simp [invocation, isolated, agentMounts, systemMounts, socketMounts, Invocation.mount]

end Read

end Sandbox
end Latchgate
