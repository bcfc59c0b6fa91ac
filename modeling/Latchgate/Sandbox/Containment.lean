import Latchgate.Sandbox.BwrapCommand

namespace Latchgate
namespace Sandbox
open Bwrap

/-- What a launch adds to its parameters. The proxy listens on its socket
before. -/
structure Launch (host : Host) where
  netnsPath : Option String
  configFd : Nat
  proxySocket : String
  stagedBin : String
  port : Nat
  listening : host.isDir (parts proxySocket) = false

/-- The variables that are passed to `bwrap`. -/
def launchEnv (host : Host) (params : SandboxLaunchParams) : List (String × String) :=
  buildEnvArgs host params (envSnapshot host params.passEnv)

namespace Launch
variable {host : Host} (launch : Launch host) (params : SandboxLaunchParams)

def mode : BwrapMode :=
  let ids := resolveSandboxUidGid host params
  { netnsPath := launch.netnsPath, sandboxUid := ids.1, sandboxGid := ids.2 }

/-- The command that is run. -/
def command : String × List String :=
  buildBwrapCommand params launch.proxySocket launch.configFd launch.stagedBin (launchEnv host params) (launch.mode params)

end Launch

def workspaceDir : List Char :=
  "workspace".toList

/-- What the agent finds in the sandbox. -/
structure Contained (host : Host) (params : SandboxLaunchParams) (launch : Launch host) (toUppercase : String → String)
    (token : Option String) (routes : List String) (i : Invocation) (vars : List (String × String)) : Prop where
  uid : ∃ uid, i.uid = some uid ∧ uid ≠ 0
  gid : ∃ gid, i.gid = some gid ∧ gid ≠ 0
  workspace : ∀ rest, find host.present (workspaceDir :: rest) i.mounts = some ⟨some (parts params.workspace ++ rest), true⟩
  writable : ∀ path place, find host.present path i.mounts = some ⟨some place, true⟩ → host.isDir place = true →
    parts params.workspace <+: place
  gate : find host.present (parts "/run/latchgate/gate.sock") i.mounts = some ⟨some (parts params.gateSocket), true⟩
  proxy : find host.present (parts "/run/latchgate/proxy.sock") i.mounts = some ⟨some (parts launch.proxySocket), true⟩
  home : valueOf "HOME" vars = some "/workspace"
  path : valueOf "PATH" vars = some (buildSandboxPath host params.roMounts)
  url : valueOf "LATCHGATE_URL" vars = some "unix:///run/latchgate/gate.sock"
  proxyVars : ∀ name ∈ proxyVarNames, valueOf name vars = some (proxyUrl launch.port)
  proxyToken : valueOf "LATCHGATE_PROXY_TOKEN" vars = token
  baseUrls : ∀ route ∈ routes, ∃ other ∈ routes, toUppercase other = toUppercase route ∧
    valueOf (toUppercase route ++ "_BASE_URL") vars = some (proxyUrl launch.port ++ "/" ++ other)

/-- The ids come from the owner of the workspace, and the group is root's. -/
def TakesRootGroup (host : Host) (params : SandboxLaunchParams) : Prop :=
  nonZero ((host.var "SUDO_UID").bind parseU32) = none ∧ nonZero params.sandboxUid = none ∧
    ∃ uid, uid ≠ 0 ∧ host.owner params.workspace = some (uid, 0)

/-- No mount lies at, above or below the workspace, and the gate's socket is no
directory, or one of the workspace. -/
structure Apart (host : Host) (params : SandboxLaunchParams) : Prop where
  mounts : ∀ mount ∈ params.roMounts, ¬parts mount <+: [workspaceDir] ∧ ¬[workspaceDir] <+: parts mount
  gate : host.isDir (parts params.gateSocket) = true → parts params.workspace <+: parts params.gateSocket

/-! Who runs. -/

section Ids
variable {sudoUid sudoGid : Option String} {configuredUid configuredGid : Option UInt32} {owner : Option (UInt32 × UInt32)}

theorem nonZero_ne {id : Option UInt32} {uid : UInt32} (some_ : nonZero id = some uid) : uid ≠ 0 :=
  of_decide_eq_true (Option.filter_eq_some_iff.mp some_).2

theorem nonZero_getD_ne {id : Option UInt32} {uid : UInt32} (other : uid ≠ 0) : (nonZero id).getD uid ≠ 0 := by
  cases given : nonZero id with
  | none => exact other
  | some gid => exact nonZero_ne given

theorem resolveUid_ne_zero : (resolveUidGidInner sudoUid sudoGid configuredUid configuredGid owner).1 ≠ 0 := by
  unfold resolveUidGidInner
  cases behind : nonZero (sudoUid.bind parseU32) with
  | some uid => exact nonZero_ne behind
  | none =>
    cases configured : nonZero configuredUid with
    | some uid => exact nonZero_ne configured
    | none =>
      rcases owner with _ | ⟨uid, gid⟩
      · exact (by decide : (65534 : UInt32) ≠ 0)
      · by_cases root : uid = 0
        · simp only [root, ne_eq, not_true_eq_false, if_false]
          decide
        · simp only [ne_eq, root, not_false_eq_true, if_true]

theorem resolveGid_ne_zero : (resolveUidGidInner sudoUid sudoGid configuredUid configuredGid owner).2 ≠ 0 ↔
    ¬(nonZero (sudoUid.bind parseU32) = none ∧ nonZero configuredUid = none ∧ ∃ uid, uid ≠ 0 ∧ owner = some (uid, 0)) := by
  unfold resolveUidGidInner
  cases behind : nonZero (sudoUid.bind parseU32) with
  | some uid => simp only [nonZero_getD_ne (nonZero_ne behind), ne_eq, not_false_eq_true, reduceCtorEq, false_and]
  | none =>
    cases configured : nonZero configuredUid with
    | some uid => simp only [nonZero_getD_ne (nonZero_ne configured), ne_eq, not_false_eq_true, reduceCtorEq, false_and, and_false]
    | none =>
      rcases owner with _ | ⟨uid, gid⟩
      · simp
      · by_cases root : uid = 0
        · simp [root]
        · simp [root]

end Ids

/-! What is mounted. -/

section Mounts
variable {host : Host} {params : SandboxLaunchParams} {launch : Launch host} {present : String → Bool}

/-- A place whose first part is not the workspace. -/
def aside (dest : String) : Bool :=
  (parts dest).head?.any fun first => first ≠ workspaceDir

theorem aside_beside {dest : String} (away : aside dest = true) (rest : List (List Char)) : ¬parts dest <+: workspaceDir :: rest := by
  unfold aside at away
  generalize parts dest = place at away
  rcases place with _ | ⟨first, more⟩
  · cases away
  · intro prefix_
    obtain ⟨same, -⟩ := List.cons_prefix_cons.mp prefix_
    exact of_decide_eq_true away same

theorem systemMounts_aside : ∀ m ∈ systemMounts, aside m.dest = true :=
  List.all_eq_true.mp (by decide : systemMounts.all (fun m => aside m.dest) = true)

theorem socketMounts_aside {gateSocket proxySocket latchgateBin : String} :
    ∀ m ∈ socketMounts gateSocket proxySocket latchgateBin, aside m.dest = true := by
  have all : ∀ dest ∈ ["/run/latchgate/gate.sock", "/run/latchgate/proxy.sock", "/sandbox-bin/latchgate"], aside dest = true :=
    List.all_eq_true.mp (by decide)
  intro m member
  exact all m.dest (List.mem_map_of_mem (f := Mount.dest) member)

theorem find_roMounts {roMounts : List String} {path : List (List Char)} {seen : Seen}
    (found : find present path (roMounts.map fun mount => .roBind mount mount) = some seen) : seen.writable = false := by
  obtain ⟨m, member, shows_⟩ := exists_of_find found
  obtain ⟨mount, -, rfl⟩ := List.mem_map.mp member
  unfold Mount.showsAt at shows_
  split_ifs at shows_
  rw [← Option.some.inj shows_]
  rfl

theorem find_roMounts_isSome {roMounts : List String} {path : List (List Char)} {mount : String} (listed : mount ∈ roMounts)
    (covers : parts mount <+: path) : find present path (roMounts.map fun mount => .roBind mount mount) ≠ none := by
  intro none_
  induction roMounts with
  | nil => cases listed
  | cons first rest ih =>
    rw [List.map_cons, find, Option.or_eq_none_iff] at none_
    rcases List.mem_cons.mp listed with rfl | later
    · have here := none_.2
      rw [Mount.showsAt, if_pos ⟨rfl, covers⟩] at here
      cases here
    · exact ih later none_.1

/-- Below the workspace only the mounts of the configuration can hide it. -/
theorem find_agentMounts {proxySocket latchgateBin : String} (rest : List (List Char)) :
    find present (workspaceDir :: rest) (agentMounts params proxySocket latchgateBin) =
      (find present (workspaceDir :: rest) (params.roMounts.map fun mount => .roBind mount mount)).or
        (some ⟨some (parts params.workspace ++ rest), true⟩) := by
  have sockets : find present (workspaceDir :: rest) (socketMounts params.gateSocket proxySocket latchgateBin) = none :=
    find_eq_none fun m member => aside_beside (socketMounts_aside m member) rest
  have system : find present (workspaceDir :: rest) systemMounts = none :=
    find_eq_none fun m member => aside_beside (systemMounts_aside m member) rest
  have own : (Mount.bind params.workspace "/workspace").showsAt present (workspaceDir :: rest) =
      some ⟨some (parts params.workspace ++ rest), true⟩ := by
    have place : parts "/workspace" = [workspaceDir] := by decide
    unfold Mount.showsAt
    rw [Mount.dest, place, if_pos ⟨rfl, List.cons_prefix_cons.mpr ⟨rfl, List.nil_prefix⟩⟩]
    rfl
  rw [agentMounts, find, find_append, find_append, sockets, system, own, Option.none_or, Option.or_none]

theorem workspace_visible_iff {proxySocket latchgateBin : String} :
    (∀ rest, find present (workspaceDir :: rest) (agentMounts params proxySocket latchgateBin) =
        some ⟨some (parts params.workspace ++ rest), true⟩) ↔
      ∀ mount ∈ params.roMounts, ¬parts mount <+: [workspaceDir] ∧ ¬[workspaceDir] <+: parts mount := by
  constructor
  · intro visible mount listed
    have hides : ∀ rest, ¬parts mount <+: workspaceDir :: rest := by
      intro rest covers
      obtain ⟨seen, found⟩ := Option.ne_none_iff_exists'.mp (@find_roMounts_isSome present params.roMounts _ _ listed covers)
      have here := visible rest
      rw [find_agentMounts, found, Option.some_or, Option.some.injEq] at here
      have readOnly := find_roMounts found
      rw [here] at readOnly
      cases readOnly
    refine ⟨hides [], fun below => ?_⟩
    obtain ⟨rest, same⟩ := below
    exact hides rest (same ▸ List.prefix_refl _)
  · intro apart rest
    rw [find_agentMounts, find_eq_none, Option.none_or]
    intro m member covers
    obtain ⟨mount, listed, rfl⟩ := List.mem_map.mp member
    obtain ⟨above, below⟩ := apart mount listed
    unfold Mount.dest at covers
    rcases place : parts mount with _ | ⟨first, more⟩
    · exact above (place ▸ List.nil_prefix)
    · rw [place] at covers below
      obtain ⟨rfl, -⟩ := List.cons_prefix_cons.mp covers
      exact below (List.cons_prefix_cons.mpr ⟨rfl, List.nil_prefix⟩)

theorem gate_visible {proxySocket latchgateBin : String} :
    find present (parts "/run/latchgate/gate.sock") (agentMounts params proxySocket latchgateBin) =
      some ⟨some (parts params.gateSocket), true⟩ := by
  have others : ∀ m ∈ [Mount.bind proxySocket "/run/latchgate/proxy.sock", .roBind latchgateBin "/sandbox-bin/latchgate"],
      ¬parts m.dest <+: parts "/run/latchgate/gate.sock" := by
    have beside : ∀ dest ∈ ["/run/latchgate/proxy.sock", "/sandbox-bin/latchgate"], ¬parts dest <+: parts "/run/latchgate/gate.sock" := by
      decide
    intro m member
    exact beside m.dest (List.mem_map_of_mem (f := Mount.dest) member)
  have own : (Mount.bind params.gateSocket "/run/latchgate/gate.sock").showsAt present (parts "/run/latchgate/gate.sock") =
      some ⟨some (parts params.gateSocket), true⟩ := by
    rw [Mount.showsAt, Mount.dest, if_pos ⟨rfl, List.prefix_refl _⟩, List.drop_length, Mount.shows, List.append_nil]
  rw [agentMounts, find, find_append, socketMounts, find_cons (find_eq_none others), own]
  rfl

theorem proxy_visible {proxySocket latchgateBin : String} :
    find present (parts "/run/latchgate/proxy.sock") (agentMounts params proxySocket latchgateBin) =
      some ⟨some (parts proxySocket), true⟩ := by
  have others : ∀ m ∈ [Mount.roBind latchgateBin "/sandbox-bin/latchgate"], ¬parts m.dest <+: parts "/run/latchgate/proxy.sock" := by
    have beside : ∀ dest ∈ ["/sandbox-bin/latchgate"], ¬parts dest <+: parts "/run/latchgate/proxy.sock" := by
      decide
    intro m member
    exact beside m.dest (List.mem_map_of_mem (f := Mount.dest) member)
  have own : (Mount.bind proxySocket "/run/latchgate/proxy.sock").showsAt present (parts "/run/latchgate/proxy.sock") =
      some ⟨some (parts proxySocket), true⟩ := by
    rw [Mount.showsAt, Mount.dest, if_pos ⟨rfl, List.prefix_refl _⟩, List.drop_length, Mount.shows, List.append_nil]
  rw [agentMounts, find, find_append, socketMounts, find, find_cons (find_eq_none others), own]
  rfl

/-- What can be written on the host is the workspace, or one of the sockets. -/
theorem writable_cases {proxySocket latchgateBin : String} {path place : List (List Char)}
    (found : find present path (agentMounts params proxySocket latchgateBin) = some ⟨some place, true⟩) :
    parts params.workspace <+: place ∨ parts params.gateSocket <+: place ∨ parts proxySocket <+: place := by
  obtain ⟨m, member, shows_⟩ := exists_of_find found
  unfold Mount.showsAt at shows_
  split_ifs at shows_
  cases m with
  | bind source dest =>
    obtain rfl : parts source ++ path.drop (parts dest).length = place :=
      Option.some.inj (congrArg Seen.host (Option.some.inj shows_))
    rw [agentMounts, List.mem_cons, List.mem_append, List.mem_append] at member
    rcases member with own | (system | listed) | socket
    · obtain ⟨rfl, rfl⟩ := Mount.bind.inj own
      exact .inl (List.prefix_append _ _)
    · exact absurd system (by simp [systemMounts])
    · obtain ⟨mount, -, same⟩ := List.mem_map.mp listed
      cases same
    · simp only [socketMounts, List.mem_cons, Mount.bind.injEq, reduceCtorEq, List.not_mem_nil, or_false] at socket
      rcases socket with ⟨rfl, rfl⟩ | ⟨rfl, rfl⟩
      · exact .inr (.inl (List.prefix_append _ _))
      · exact .inr (.inr (List.prefix_append _ _))
  | roBind source dest => cases congrArg Seen.writable (Option.some.inj shows_)
  | roBindTry source dest => cases congrArg Seen.writable (Option.some.inj shows_)
  | tmpfs dest => cases congrArg Seen.host (Option.some.inj shows_)
  | proc dest => cases congrArg Seen.host (Option.some.inj shows_)
  | dev dest => cases congrArg Seen.host (Option.some.inj shows_)

theorem dir_of_above {place below : List (List Char)} (inside : place <+: below) (dir : host.isDir below = true) :
    host.isDir place = true := by
  obtain ⟨rest, rfl⟩ := inside
  exact host.closed place rest dir

/-- Nothing else can be written, unless the gate's socket is a directory. -/
theorem writable_iff : (∀ path place,
    find host.present path (agentMounts params launch.proxySocket launch.stagedBin) = some ⟨some place, true⟩ →
      host.isDir place = true → parts params.workspace <+: place) ↔
    (host.isDir (parts params.gateSocket) = true → parts params.workspace <+: parts params.gateSocket) := by
  constructor
  · exact fun only => only _ _ gate_visible
  · intro gate path place found dir
    rcases writable_cases found with workspace | socket | proxy
    · exact workspace
    · exact (gate (dir_of_above socket dir)).trans socket
    · have closed := dir_of_above proxy dir
      rw [launch.listening] at closed
      cases closed

end Mounts

/-! What is set. -/

section Env
variable {host : Host} {params : SandboxLaunchParams} {toUppercase : String → String} {port : Nat} {token : Option String}
  {routes : List String}

theorem setVars_eq {env more vars : List (String × String)} (sets : setVars env more = some vars) : vars = env ++ more := by
  induction more generalizing env with
  | nil => rw [List.append_nil, ← Option.some.inj sets]
  | cons var rest ih =>
    obtain ⟨next, first, later⟩ := Option.bind_eq_some_iff.mp sets
    unfold setVar at first
    split_ifs at first
    rw [ih later, ← Option.some.inj first, List.append_assoc, List.singleton_append]

/-- A name that does not end like those of the routes. -/
theorem ne_baseUrl {name : String} (other : ¬"_BASE_URL".toList <:+ name.toList) (stem : String) : stem ++ "_BASE_URL" ≠ name := by
  rintro rfl
  rw [String.toList_append] at other
  exact other (List.suffix_append _ _)

theorem valueOf_routes {name : String} (other : ¬"_BASE_URL".toList <:+ name.toList) :
    valueOf name (routes.map fun route => (toUppercase route ++ "_BASE_URL", proxyUrl port ++ "/" ++ route)) = none := by
  rw [valueOf_eq_none]
  intro var member
  obtain ⟨route, -, rfl⟩ := List.mem_map.mp member
  exact ne_baseUrl other _

theorem valueOf_token {name : String} (other : "LATCHGATE_PROXY_TOKEN" ≠ name) :
    valueOf name (token.toList.map fun token => ("LATCHGATE_PROXY_TOKEN", token)) = none := by
  rw [valueOf_eq_none]
  intro var member
  obtain ⟨text, -, rfl⟩ := List.mem_map.mp member
  exact other

/-- The shim leaves the other names as they are. -/
theorem valueOf_shimVars {name : String} (route : ¬"_BASE_URL".toList <:+ name.toList) (notToken : "LATCHGATE_PROXY_TOKEN" ≠ name) :
    valueOf name (shimVars toUppercase port token routes) = valueOf name (proxyVarNames.map fun name => (name, proxyUrl port)) := by
  rw [shimVars, valueOf_append, valueOf_append, valueOf_routes route, valueOf_token notToken, Option.none_or, Option.none_or]

theorem proxyVarNames_plain : ∀ name ∈ proxyVarNames, ¬"_BASE_URL".toList <:+ name.toList ∧ "LATCHGATE_PROXY_TOKEN" ≠ name := by
  decide

theorem valueOf_shimVars_proxy {name : String} (listed : name ∈ proxyVarNames) :
    valueOf name (shimVars toUppercase port token routes) = some (proxyUrl port) := by
  obtain ⟨route, notToken⟩ := proxyVarNames_plain name listed
  rw [valueOf_shimVars route notToken]
  cases found : valueOf name (proxyVarNames.map fun name => (name, proxyUrl port)) with
  | none => exact absurd rfl (valueOf_eq_none.1 found _ (List.mem_map_of_mem listed))
  | some value =>
    obtain ⟨_, -, same⟩ := List.mem_map.mp (mem_of_valueOf found)
    rw [← (Prod.mk.inj same).2]

theorem valueOf_shimVars_token : valueOf "LATCHGATE_PROXY_TOKEN" (shimVars toUppercase port token routes) = token := by
  have route : ¬"_BASE_URL".toList <:+ "LATCHGATE_PROXY_TOKEN".toList := by decide
  rw [shimVars, valueOf_append, valueOf_append, valueOf_routes route, Option.none_or]
  cases token with
  | none =>
    refine valueOf_eq_none.2 fun var member => ?_
    obtain ⟨name, listed, rfl⟩ := List.mem_map.mp member
    exact (proxyVarNames_plain name listed).2.symm
  | some text => rfl

theorem valueOf_shimVars_baseUrl {route : String} (listed : route ∈ routes) :
    ∃ other ∈ routes, toUppercase other = toUppercase route ∧
      valueOf (toUppercase route ++ "_BASE_URL") (shimVars toUppercase port token routes) = some (proxyUrl port ++ "/" ++ other) := by
  rw [shimVars, valueOf_append]
  cases found : valueOf (toUppercase route ++ "_BASE_URL")
      (routes.map fun route => (toUppercase route ++ "_BASE_URL", proxyUrl port ++ "/" ++ route)) with
  | none => exact absurd rfl (valueOf_eq_none.1 found _ (List.mem_map_of_mem listed))
  | some value =>
    obtain ⟨other, member, same⟩ := List.mem_map.mp (mem_of_valueOf found)
    obtain ⟨name, rfl⟩ := Prod.mk.inj same
    refine ⟨other, member, ?_, rfl⟩
    exact String.toList_injective (List.append_cancel_right (by rw [← String.toList_append, ← String.toList_append, name]))

/-- What is passed on has a name that the sandbox does not set itself. -/
theorem mem_envSnapshot {passEnv : List String} {var : String × String} (member : var ∈ envSnapshot host passEnv) : var.1 ∈ passEnv := by
  obtain ⟨name, listed, found⟩ := List.mem_filterMap.mp member
  obtain ⟨value, -, rfl⟩ := Option.map_eq_some_iff.mp found
  exact listed

theorem valueOf_envArgs {name : String} {snapshot : List (String × String)} :
    valueOf name (buildEnvArgs host params snapshot) =
      (valueOf name [("HOME", "/workspace"), ("LATCHGATE_URL", "unix:///run/latchgate/gate.sock"),
        ("PATH", buildSandboxPath host params.roMounts)]).or (valueOf name snapshot) := by
  rw [buildEnvArgs, valueOf_append]

end Env

section Accepted
variable {config : AgentSandboxConfig}

theorem passEnv_plain (valid : config.validate = []) {name : String} (listed : name ∈ config.passEnv) :
    name ≠ "" ∧ '=' ∉ name.toList ∧ name ∉ reservedAgentEnvNames := by
  unfold AgentSandboxConfig.validate at valid
  simp only [List.append_eq_nil_iff, List.flatMap_eq_nil_iff, and_assoc] at valid
  obtain ⟨-, -, -, all, -⟩ := valid
  obtain ⟨i, bound, rfl⟩ := List.getElem_of_mem listed
  have here := all (config.passEnv[i], i) (List.mem_zipIdx_iff_getElem?.mpr (List.getElem?_eq_getElem bound))
  unfold AgentSandboxConfig.validatePassEnv at here
  simp only [List.append_eq_nil_iff, ite_eq_right_iff, List.cons_ne_nil, imp_false, and_assoc] at here
  exact here

end Accepted

section Launched
variable {host : Host} {config : AgentSandboxConfig} {command : List String} {params : SandboxLaunchParams}

theorem resolve_valid (resolved : SandboxLaunchParams.resolve host config command = .ok params) :
    config.validate = [] ∧ params.passEnv = config.passEnv := by
  unfold SandboxLaunchParams.resolve at resolved
  by_cases empty : command = []
  · simp only [empty, if_true] at resolved
    cases resolved
  · by_cases valid : config.validate ≠ []
    · simp only [if_neg empty, if_pos valid] at resolved
      cases resolved
    · simp only [if_neg empty, if_neg valid] at resolved
      obtain ⟨_, -, rest⟩ := Except.bind_eq_ok.1 resolved
      obtain ⟨_, -, rest⟩ := Except.bind_eq_ok.1 rest
      obtain ⟨_, -, rest⟩ := Except.bind_eq_ok.1 rest
      obtain ⟨_, -, made⟩ := Except.bind_eq_ok.1 rest
      cases made
      exact ⟨Decidable.of_not_not valid, rfl⟩

variable {launch : Launch host} {toUppercase : String → String} {token : Option String} {routes : List String}
  {vars : List (String × String)}

theorem envArgs_settable (resolved : SandboxLaunchParams.resolve host config command = .ok params) :
    ∀ var ∈ launchEnv host params, var.1 ≠ "" ∧ '=' ∉ var.1.toList := by
  obtain ⟨valid, passEnv⟩ := resolve_valid resolved
  intro var member
  rcases List.mem_append.mp member with passed | own
  · obtain ⟨named, plain, -⟩ := passEnv_plain valid (passEnv ▸ mem_envSnapshot passed)
    exact ⟨named, plain⟩
  · simp only [List.mem_cons, List.not_mem_nil, or_false] at own
    rcases own with rfl | rfl | rfl
    · exact ⟨by decide, by decide⟩
    · exact ⟨by decide, by decide⟩
    · exact ⟨(by decide : "PATH" ≠ ""), (by decide : '=' ∉ "PATH".toList)⟩

theorem valueOf_reserved (resolved : SandboxLaunchParams.resolve host config command = .ok params) {name : String}
    (reserved : name ∈ reservedAgentEnvNames) : valueOf name (envSnapshot host params.passEnv) = none := by
  obtain ⟨valid, passEnv⟩ := resolve_valid resolved
  refine valueOf_eq_none.2 fun var member same => ?_
  have listed := passEnv ▸ mem_envSnapshot member
  exact (passEnv_plain valid listed).2.2 (same ▸ reserved)

theorem readCommand_bwrap (args : List String) : readCommand ("bwrap", args) = readArgs {} args := by
  rw [readCommand]

theorem readCommand_nsenter (net : String) (args : List String) :
    readCommand ("nsenter", [net, "--", "bwrap"] ++ args) = readArgs {} args := by
  rw [List.cons_append, List.cons_append, List.cons_append, List.nil_append, readCommand]

theorem readCommand_command (resolved : SandboxLaunchParams.resolve host config command = .ok params) :
    readCommand (launch.command params) =
      some (invocation params launch.proxySocket launch.configFd launch.stagedBin (launchEnv host params)
        (launch.mode params)) := by
  have reads := @readArgs_bwrapArgs params launch.proxySocket launch.stagedBin launch.configFd _ (launch.mode params)
    (envArgs_settable resolved)
  unfold Launch.command buildBwrapCommand
  generalize launch.mode params = mode at reads ⊢
  cases netns : mode.netnsPath with
  | none => exact (readCommand_bwrap _).trans reads
  | some net => exact (readCommand_nsenter _ _).trans reads

/-- The command is read as it was meant, and the agent is contained in it if no
mount touches the workspace, the gate's socket is no directory outside of it,
and the group of its owner is not root's; and not otherwise. -/
theorem contained_iff (resolved : SandboxLaunchParams.resolve host config command = .ok params)
    (shim : runSandboxInit toUppercase launch.port token routes (launchEnv host params) = some vars) :
    ∃ i, readCommand (launch.command params) = some i ∧
      i.env = launchEnv host params ∧
      (Contained host params launch toUppercase token routes i vars ↔ Apart host params ∧ ¬TakesRootGroup host params) := by
  obtain rfl := setVars_eq shim
  refine ⟨_, readCommand_command resolved, rfl, fun contained => ?_, fun ⟨apart, gid⟩ => ?_⟩
  · refine ⟨⟨workspace_visible_iff.1 contained.workspace, writable_iff.1 contained.writable⟩, ?_⟩
    obtain ⟨gid, same, other⟩ := contained.gid
    have nonzero : (resolveSandboxUidGid host params).2 ≠ 0 := fun root => other ((Option.some.inj same).symm.trans (congrArg UInt32.toNat root))
    exact resolveGid_ne_zero.1 nonzero
  · have toNat_ne {id : UInt32} (other : id ≠ 0) : id.toNat ≠ 0 := fun zero => other (UInt32.toNat_inj.mp zero)
    have kept {name : String} (route : ¬"_BASE_URL".toList <:+ name.toList) (notToken : "LATCHGATE_PROXY_TOKEN" ≠ name)
        (notProxy : name ∉ proxyVarNames) :
        valueOf name (launchEnv host params ++ shimVars toUppercase launch.port token routes) =
          (valueOf name [("HOME", "/workspace"), ("LATCHGATE_URL", "unix:///run/latchgate/gate.sock"),
            ("PATH", buildSandboxPath host params.roMounts)]).or (valueOf name (envSnapshot host params.passEnv)) := by
      have none_ : valueOf name (proxyVarNames.map fun name => (name, proxyUrl launch.port)) = none :=
        valueOf_eq_none.2 fun var member => by
          obtain ⟨listed, other, rfl⟩ := List.mem_map.mp member
          exact fun same => notProxy (same ▸ other)
      rw [valueOf_append, valueOf_shimVars route notToken, none_, Option.none_or]
      exact valueOf_envArgs
    exact {
      uid := ⟨_, rfl, toNat_ne resolveUid_ne_zero⟩
      gid := ⟨_, rfl, toNat_ne (resolveGid_ne_zero.2 gid)⟩
      workspace := workspace_visible_iff.2 apart.mounts
      writable := writable_iff.2 apart.gate
      gate := gate_visible
      proxy := proxy_visible
      home := (kept (by decide) (by decide) (by decide)).trans rfl
      path := (kept (by decide) (by decide) (by decide)).trans rfl
      url := (kept (by decide) (by decide) (by decide)).trans rfl
      proxyVars := fun name listed => by rw [valueOf_append, valueOf_shimVars_proxy listed, Option.some_or]
      proxyToken := by
        have reserved := valueOf_reserved resolved (show "LATCHGATE_PROXY_TOKEN" ∈ reservedAgentEnvNames by decide)
        have own : valueOf "LATCHGATE_PROXY_TOKEN" (launchEnv host params) = none := by
          refine (valueOf_envArgs).trans ?_
          rw [reserved]
          rfl
        rw [valueOf_append, valueOf_shimVars_token, own, Option.or_none]
      baseUrls := fun route listed => by
        obtain ⟨other, member, same, found⟩ := @valueOf_shimVars_baseUrl toUppercase launch.port token _ _ listed
        exact ⟨other, member, same, by rw [valueOf_append, found, Option.some_or]⟩ }

end Launched

/-- A host on which the workspace belongs to a user of a group. -/
def projectHost (gid : UInt32) : Host where
  var name := if name = "TERM" then some "xterm" else none
  currentDir := .ok "/srv/project"
  canonicalize path := .ok path
  present _ := true
  isDir place := decide (place <+: parts "/srv/project")
  closed place rest dir := decide_eq_true ((List.prefix_append place rest).trans (of_decide_eq_true dir))
  owner _ := some (1000, gid)

def projectConfig : AgentSandboxConfig where
  gateSocket := "/run/user/1000/latchgate/gate.sock"

def projectParams : SandboxLaunchParams where
  workspace := "/srv/project"
  allowHosts := defaultAgentAllowHosts
  roMounts := []
  passEnv := defaultAgentPassEnv
  gateSocket := "/run/user/1000/latchgate/gate.sock"
  command := ["agent"]
  credentials := []
  sandboxUid := none
  sandboxGid := none

def projectLaunch (gid : UInt32) : Launch (projectHost gid) where
  netnsPath := none
  configFd := 3
  proxySocket := "/tmp/latchgate-sandbox-x/proxy.sock"
  stagedBin := "/tmp/latchgate-sandbox-x/latchgate"
  port := 40000
  listening := (by decide : decide (parts "/tmp/latchgate-sandbox-x/proxy.sock" <+: parts "/srv/project") = false)

theorem projectParams_resolved (gid : UInt32) :
    SandboxLaunchParams.resolve (projectHost gid) projectConfig ["agent"] = .ok projectParams := by
  have valid : projectConfig.validate = [] := by decide
  unfold SandboxLaunchParams.resolve
  rw [valid]
  rfl

theorem contained_iff_project : ∃ i, readCommand ((projectLaunch 1000).command projectParams) = some i ∧
    i.env = launchEnv (projectHost 1000) projectParams ∧
    (Contained (projectHost 1000) projectParams (projectLaunch 1000) String.toUpper none [] i
        (launchEnv (projectHost 1000) projectParams ++ shimVars String.toUpper 40000 none []) ↔
      Apart (projectHost 1000) projectParams ∧ ¬TakesRootGroup (projectHost 1000) projectParams) :=
  contained_iff (projectParams_resolved 1000) (by decide)

/-- A workspace of a user whose group is root's gives the agent that group. -/
theorem root_group_taken : projectConfig.validate = [] ∧
    SandboxLaunchParams.resolve (projectHost 0) projectConfig ["agent"] = .ok projectParams ∧
    ∃ i, readCommand ((projectLaunch 0).command projectParams) = some i ∧ i.uid = some 1000 ∧ i.gid = some 0 :=
  ⟨by decide, projectParams_resolved 0, _, readCommand_command (projectParams_resolved 0), by decide, by decide⟩

end Sandbox
end Latchgate
