import Latchgate.Core.FsPath
import Latchgate.Kernel.FsParity
import Latchgate.Machine.Run

namespace Latchgate

inductive FsRootError where
  | invalid (reason : String)
  | denied (reason : String)
  deriving DecidableEq

/-- What the host says of a path when a lease is asked for. -/
structure FsRootHost where
  isDir : String → Except String Bool
  canonicalize : String → Except String String

def fsRootBlockedPaths : List String :=
  ["/", "/bin", "/boot", "/dev", "/etc", "/home", "/lib", "/lib64", "/media", "/mnt", "/opt", "/proc", "/root",
    "/run", "/sbin", "/snap", "/srv", "/sys", "/tmp", "/usr", "/var"]

/-- One path lies below another, or is it, segment by segment. -/
def pathStartsWith (path root : String) : Bool :=
  (FsPath.stripSegments (FsPath.segments path)
    ((FsPath.segments root).filter fun s => !FsPath.skipped s)).isSome

/-- The directory that a lease asks for, with its links resolved. -/
def validateSessionFsRoot (host : FsRootHost) (requested : String) (allowedPrefixes : List String) :
    Except FsRootError String :=
  if requested = "" then .error (.invalid "empty path")
  else if FsPath.isAbsolute requested = false then .error (.invalid ("must be absolute, got: " ++ requested))
  else match host.isDir requested with
    | .error e => .error (.invalid ("does not exist or not accessible: " ++ e))
    | .ok false => .error (.invalid ("not a directory: " ++ requested))
    | .ok true =>
      match host.canonicalize requested with
      | .error e => .error (.invalid ("canonicalization failed: " ++ e))
      | .ok canonical =>
        if canonical ∈ fsRootBlockedPaths then .error (.denied ("system directory: " ++ canonical))
        else if allowedPrefixes = [] then
          .error (.denied "per-session fs_root is disabled (fs_root_allowed_prefixes is empty)")
        else if allowedPrefixes.any (pathStartsWith canonical) then .ok canonical
        else .error (.denied ("outside allowed prefixes: " ++ canonical))

/-- The directory of a session and the time of its lease, in nanoseconds of
the monotonic clock. -/
structure SessionFsRoot where
  canonical : String
  createdAt : Nat

def sessionFsRootEvictionGraceSecs : Nat := 60

/-- The age at which a sweep drops the directory of a session. -/
def evictionAge (leaseTtlSeconds : Nat) : Nat :=
  (leaseTtlSeconds + sessionFsRootEvictionGraceSecs) * 1000000000

/-- The map of session directories and the calls that wait for an operator.
`leases` and `swept` are history: the sessions with what they were issued,
and when the last sweep ran. -/
structure SessionState where
  clock : Nat := 0
  roots : String → Option SessionFsRoot := fun _ => none
  waiting : List PendingApproval := []
  leases : List (String × Option SessionFsRoot) := []
  swept : Option Nat := none

/-- What happens to a gate as far as session directories go. The other parts
of the gate may be different at each event. A lease gets a session identifier
unless a check outside of the directory refuses it. -/
inductive SessionEvent where
  | pass (nanos : Nat)
  | issueLease (host : FsRootHost) (allowedPrefixes : List String) (requested : Option String)
      (issued : Except String String)
  | evict
  | call (gate : AppState) (call : ActionCall)
  | hold (gate : AppState) (call : ActionCall) (expiresAt : DateTime) (createdAt : String)
      (read : FloatText → Except String FloatText)
  | approve (gate : AppState) (index : Nat) (traceId : String)

inductive SessionAnswer where
  | done
  | leased (sessionId : String) (fsRoot : Option String)
  | invalidFsRoot (reason : String)
  | fsRootDenied (reason : String)
  | refused (reason : String)
  | executed (sessionId : String) (outcome : Except PipelineError RunTask)

namespace SessionState

/-- The gate with the session directories of the state. -/
def rootsOf (s : SessionState) (gate : AppState) : AppState :=
  { gate with sessionFsRoots := fun sessionId => (s.roots sessionId).map (·.canonical) }

/-- A new session, with an entry in the map if it has a directory. -/
def addSession (s : SessionState) (sessionId : String) (fsRoot : Option String) : SessionState :=
  let root := fsRoot.map fun canonical => SessionFsRoot.mk canonical s.clock
  { s with
    roots := fun id => if id = sessionId then root.or (s.roots id) else s.roots id
    leases := s.leases ++ [(sessionId, root)] }

/-- The identifier is a fresh UUID: one that has been drawn is not drawn
again. -/
def openSession (s : SessionState) (issued : Except String String) (fsRoot : Option String) :
    SessionState × SessionAnswer :=
  match issued with
  | .error reason => (s, .refused reason)
  | .ok sessionId =>
    if sessionId ∈ s.leases.map Prod.fst then (s, .refused "session exists")
    else (s.addSession sessionId fsRoot, .leased sessionId fsRoot)

/-- The directory is checked before the lease is issued. -/
def issueLease (s : SessionState) (host : FsRootHost) (allowedPrefixes : List String) (requested : Option String)
    (issued : Except String String) : SessionState × SessionAnswer :=
  match requested with
  | none => s.openSession issued none
  | some requested =>
    match validateSessionFsRoot host requested allowedPrefixes with
    | .error (.invalid reason) => (s, .invalidFsRoot reason)
    | .error (.denied reason) => (s, .fsRootDenied reason)
    | .ok canonical => s.openSession issued (some canonical)

def evictExpiredSessionFsRoots (leaseTtlSeconds : Nat) (s : SessionState) : SessionState :=
  { s with
    roots := fun id => (s.roots id).filter fun root => s.clock - root.createdAt < evictionAge leaseTtlSeconds
    swept := some s.clock }

end SessionState

def sessionMachine (leaseTtlSeconds : Nat) : Machine SessionState SessionEvent SessionAnswer where
  step s
    | .pass nanos => ({ s with clock := s.clock + nanos }, .done)
    | .issueLease host allowedPrefixes requested issued => s.issueLease host allowedPrefixes requested issued
    | .evict => (s.evictExpiredSessionFsRoots leaseTtlSeconds, .done)
    | .call gate call => (s, .executed call.auth.sessionId ((s.rootsOf gate).autoTask call))
    | .hold gate call expiresAt createdAt read =>
      match (gate.stepStorePendingApproval call expiresAt createdAt).thaw read with
      | .ok pending => ({ s with waiting := s.waiting ++ [pending] }, .done)
      | .error _ => (s, .done)
    | .approve gate index traceId =>
      match s.waiting[index]? with
      | none => (s, .refused "approval not found")
      | some pending =>
        ({ s with waiting := s.waiting.eraseIdx index },
          .executed pending.authContext.sessionId
            (((s.rootsOf gate).prepareApprovedExecution pending traceId).map (·.task)))

/-- The gate has no directory of its own, or no sweep has run that finds the
directory of the session older than the lease and the grace. -/
def RootKept (leaseTtlSeconds : Nat) (s : SessionState) (gate : AppState) (sessionId : String) : Prop :=
  gate.fsRootFd = none ∨ gate.fsRootCanonical = none ∨
    ∀ root, (sessionId, some root) ∈ s.leases → ∀ t, s.swept = some t →
      t < root.createdAt + evictionAge leaseTtlSeconds

/-- What has to hold of a step: calls are executed while the directory of
their session is kept. -/
def SessionGuard (leaseTtlSeconds : Nat) (s : SessionState) : SessionEvent → Prop
  | .call gate call => RootKept leaseTtlSeconds s gate call.auth.sessionId
  | .approve gate index _ => ∀ pending, s.waiting[index]? = some pending →
      RootKept leaseTtlSeconds s gate pending.authContext.sessionId
  | _ => True

namespace SessionState

/-- What the map and the history say of one another. -/
structure Sound (leaseTtlSeconds : Nat) (past : List (SessionEvent × SessionAnswer)) (s : SessionState) : Prop where
  leased : ∀ event id canonical, (event, SessionAnswer.leased id (some canonical)) ∈ past →
    ∃ root, (id, some root) ∈ s.leases ∧ root.canonical = canonical
  single : ∀ id a b, (id, a) ∈ s.leases → (id, b) ∈ s.leases → a = b
  known : ∀ id root, s.roots id = some root → (id, some root) ∈ s.leases
  begun : ∀ id root, (id, some root) ∈ s.leases → root.createdAt ≤ s.clock
  ended : ∀ t, s.swept = some t → t ≤ s.clock
  kept : ∀ id root, (id, some root) ∈ s.leases →
    (∀ t, s.swept = some t → t < root.createdAt + evictionAge leaseTtlSeconds) → s.roots id = some root

variable {leaseTtlSeconds : Nat} {past : List (SessionEvent × SessionAnswer)} {s : SessionState}

theorem sound_start : Sound leaseTtlSeconds [] {} where
  leased := by simp
  single := by simp
  known := by simp
  begun := by simp
  ended := by simp
  kept := by simp

/-- An answer that is no lease adds nothing to the history. -/
theorem Sound.concat {event : SessionEvent} {answer : SessionAnswer} (sound : Sound leaseTtlSeconds past s)
    (other : ∀ id fsRoot, answer ≠ .leased id fsRoot) : Sound leaseTtlSeconds (past ++ [(event, answer)]) s := by
  refine { sound with leased := ?_ }
  intro e id canonical member
  rcases List.mem_append.mp member with old | new
  · exact sound.leased e id canonical old
  · have same := congrArg Prod.snd (List.mem_singleton.mp new)
    exact absurd same.symm (other id _)

theorem Sound.evict (sound : Sound leaseTtlSeconds past s) :
    Sound leaseTtlSeconds past (s.evictExpiredSessionFsRoots leaseTtlSeconds) where
  leased := sound.leased
  single := sound.single
  known id root found := by
    obtain ⟨old, -⟩ := Option.filter_eq_some_iff.mp found
    exact sound.known id root old
  begun := sound.begun
  ended t swept := by
    have now : s.clock = t := Option.some.inj swept
    exact now ▸ le_refl s.clock
  kept id root leased young := by
    have now : s.clock < root.createdAt + evictionAge leaseTtlSeconds := young s.clock rfl
    have held : s.roots id = some root := by
      refine sound.kept id root leased fun t swept => ?_
      have earlier := sound.ended t swept
      omega
    have begun := sound.begun id root leased
    have fresh : s.clock - root.createdAt < evictionAge leaseTtlSeconds := by omega
    simp [evictExpiredSessionFsRoots, held, fresh]

theorem openSession_eq (issued : Except String String) (fsRoot : Option String) :
    (∃ reason, s.openSession issued fsRoot = (s, .refused reason)) ∨
      ∃ id, id ∉ s.leases.map Prod.fst ∧ s.openSession issued fsRoot = (s.addSession id fsRoot, .leased id fsRoot) := by
  unfold openSession
  split
  · rename_i reason
    exact .inl ⟨reason, rfl⟩
  · rename_i id
    split
    · exact .inl ⟨_, rfl⟩
    · rename_i fresh
      exact .inr ⟨id, fresh, rfl⟩

theorem mem_addSession_leases {id other : String} {fsRoot : Option String} {root : SessionFsRoot} :
    (other, some root) ∈ (s.addSession id fsRoot).leases ↔
      (other, some root) ∈ s.leases ∨ other = id ∧ fsRoot = some root.canonical ∧ root.createdAt = s.clock := by
  obtain ⟨canonical, createdAt⟩ := root
  simp only [addSession, List.mem_append, List.mem_singleton, Prod.mk.injEq]
  refine or_congr_right (and_congr_right fun _ => ?_)
  cases fsRoot with
  | none => simp
  | some given => simp [eq_comm]

theorem Sound.addSession {event : SessionEvent} {id : String} {fsRoot : Option String}
    (sound : Sound leaseTtlSeconds past s) (fresh : id ∉ s.leases.map Prod.fst) :
    Sound leaseTtlSeconds (past ++ [(event, .leased id fsRoot)]) (s.addSession id fsRoot) := by
  have unissued : ∀ root, (id, root) ∉ s.leases := fun root member =>
    fresh (List.mem_map.mpr ⟨(id, root), member, rfl⟩)
  have absent : s.roots id = none := by
    by_contra present
    obtain ⟨root, found⟩ := Option.ne_none_iff_exists'.mp present
    exact unissued _ (sound.known id root found)
  have rootsOf : ∀ other root, (s.addSession id fsRoot).roots other = some root ↔
      s.roots other = some root ∨ other = id ∧ fsRoot = some root.canonical ∧ root.createdAt = s.clock := by
    intro other root
    obtain ⟨canonical, createdAt⟩ := root
    by_cases same : other = id
    · subst same
      cases fsRoot with
      | none => simp [SessionState.addSession, absent]
      | some given => simp [SessionState.addSession, absent, eq_comm]
    · simp [SessionState.addSession, same]
  constructor
  case leased =>
    intro e other canonical member
    rcases List.mem_append.mp member with old | new
    · obtain ⟨root, listed, named⟩ := sound.leased e other canonical old
      exact ⟨root, mem_addSession_leases.2 (.inl listed), named⟩
    · obtain ⟨rfl, given⟩ := SessionAnswer.leased.inj (congrArg Prod.snd (List.mem_singleton.mp new))
      exact ⟨⟨canonical, s.clock⟩, mem_addSession_leases.2 (.inr ⟨rfl, given.symm, rfl⟩), rfl⟩
  case single =>
    intro other a b first second
    simp only [SessionState.addSession, List.mem_append, List.mem_singleton, Prod.mk.injEq] at first second
    rcases first with first | ⟨rfl, rfl⟩
    · rcases second with second | ⟨rfl, rfl⟩
      · exact sound.single other a b first second
      · exact absurd first (unissued a)
    · rcases second with second | ⟨-, rfl⟩
      · exact absurd second (unissued b)
      · rfl
  case known =>
    intro other root found
    rcases (rootsOf other root).mp found with old | new
    · exact mem_addSession_leases.2 (.inl (sound.known other root old))
    · exact mem_addSession_leases.2 (.inr new)
  case begun =>
    intro other root member
    rcases mem_addSession_leases.1 member with old | ⟨-, -, now⟩
    · exact sound.begun other root old
    · exact now.le
  case ended => exact sound.ended
  case kept =>
    intro other root member young
    rcases mem_addSession_leases.1 member with old | new
    · exact (rootsOf other root).mpr (.inl (sound.kept other root old young))
    · exact (rootsOf other root).mpr (.inr new)

theorem Sound.openSession {event : SessionEvent} (issued : Except String String) (fsRoot : Option String)
    (sound : Sound leaseTtlSeconds past s) :
    Sound leaseTtlSeconds (past ++ [(event, (s.openSession issued fsRoot).2)]) (s.openSession issued fsRoot).1 := by
  rcases @openSession_eq s issued fsRoot with ⟨reason, refused⟩ | ⟨id, fresh, opened⟩
  · rw [refused]
    exact sound.concat (by simp)
  · rw [opened]
    exact sound.addSession fresh

theorem Sound.issueLease {event : SessionEvent} (host : FsRootHost) (allowedPrefixes : List String)
    (requested : Option String) (issued : Except String String) (sound : Sound leaseTtlSeconds past s) :
    Sound leaseTtlSeconds (past ++ [(event, (s.issueLease host allowedPrefixes requested issued).2)])
      (s.issueLease host allowedPrefixes requested issued).1 := by
  unfold SessionState.issueLease
  split
  · exact sound.openSession issued none
  · split
    · exact sound.concat (by simp)
    · exact sound.concat (by simp)
    · exact sound.openSession issued _

theorem Sound.step (event : SessionEvent) (sound : Sound leaseTtlSeconds past s) :
    Sound leaseTtlSeconds (past ++ [(event, ((sessionMachine leaseTtlSeconds).step s event).2)])
      ((sessionMachine leaseTtlSeconds).step s event).1 := by
  cases event with
  | pass nanos =>
    have later : Sound leaseTtlSeconds past { s with clock := s.clock + nanos } :=
      { sound with
        begun := fun id root member => Nat.le_add_right_of_le (sound.begun id root member)
        ended := fun t swept => Nat.le_add_right_of_le (sound.ended t swept) }
    exact later.concat (by simp [sessionMachine])
  | issueLease host allowedPrefixes requested issued => exact sound.issueLease host allowedPrefixes requested issued
  | evict => exact sound.evict.concat (by simp [sessionMachine])
  | call gate call => exact sound.concat (by simp [sessionMachine])
  | hold gate call expiresAt createdAt read =>
    simp only [sessionMachine]
    split
    · rename_i pending _
      have stored : Sound leaseTtlSeconds past { s with waiting := s.waiting ++ [pending] } := { sound with }
      exact stored.concat (by simp)
    · exact sound.concat (by simp)
  | approve gate index traceId =>
    simp only [sessionMachine]
    split
    · exact sound.concat (by simp)
    · have taken : Sound leaseTtlSeconds past { s with waiting := s.waiting.eraseIdx index } := { sound with }
      exact taken.concat (by simp)

end SessionState

namespace AppState
variable {gate : AppState}

theorem buildFsHostConfig_eq_some {actionId : String} {fs : FsConfig}
    {precompiled : Option (List GlobPattern × List GlobPattern)} {sessionFsRoot : Option String}
    {config : FsHostConfig} (built : gate.buildFsHostConfig actionId fs precompiled sessionFsRoot = some config) :
    gate.openFsRoot sessionFsRoot = some (config.rootFd, config.rootCanonical) := by
  unfold buildFsHostConfig at built
  cases opened : gate.openFsRoot sessionFsRoot with
  | none => simp [opened] at built
  | some root =>
    rw [opened] at built
    obtain rfl := Option.some.inj built
    rfl

/-- Either way to a task opens the directory that the map has for the session. -/
theorem autoTask_root {call : ActionCall} {task : RunTask} {config : FsHostConfig}
    (made : gate.autoTask call = .ok task) (opened : task.fsConfig = some config) :
    gate.openFsRoot (gate.sessionFsRoots call.auth.sessionId) = some (config.rootFd, config.rootCanonical) := by
  simp only [autoTask, stepBuildRunTask, Except.bind_eq_ok, Except.ok.injEq] at made
  obtain ⟨_, _, _, _, _, _, rfl⟩ := made
  simp only [assembleRunTask, autoFsConfig] at opened
  split at opened
  · cases opened
  · exact buildFsHostConfig_eq_some opened

theorem approvedTask_root {pending : PendingApproval} {traceId : String} {execution : AuthorizedExecution}
    {config : FsHostConfig} (prepared : gate.prepareApprovedExecution pending traceId = .ok execution)
    (opened : execution.task.fsConfig = some config) :
    gate.openFsRoot (gate.sessionFsRoots pending.authContext.sessionId) =
      some (config.rootFd, config.rootCanonical) := by
  obtain ⟨_, _, fsConfig, _, _, built, task⟩ := prepareApprovedExecution_task prepared
  rw [task] at opened
  simp only [approvedRunTask] at opened
  subst opened
  unfold approvedFsConfig at built
  split at built
  · cases built
  · split at built
    · cases built
    · exact buildFsHostConfig_eq_some (Except.ok.inj built)

theorem openFsRoot_eq_some {sessionFsRoot : Option String} {fd : Nat} {canonical : String}
    (opened : gate.openFsRoot sessionFsRoot = some (fd, canonical)) :
    (sessionFsRoot = some canonical ∧ gate.openRootFd canonical = .ok (fd, canonical)) ∨
      sessionFsRoot = none ∧ gate.fsRootFd = some fd ∧ gate.fsRootCanonical = some canonical := by
  unfold openFsRoot at opened
  split at opened
  · rename_i root
    split at opened
    · rename_i found
      split at opened
      · rename_i same
        obtain ⟨rfl, rfl⟩ := Prod.mk.inj (Option.some.inj opened)
        exact .inl ⟨congrArg some same.symm, same ▸ found⟩
      · cases opened
    · cases opened
  · split at opened
    · rename_i fd canonical atFd atCanonical
      obtain ⟨rfl, rfl⟩ := Prod.mk.inj (Option.some.inj opened)
      exact .inr ⟨rfl, atFd, atCanonical⟩
    · cases opened

end AppState

/-- The gate that a call is executed on. -/
def SessionEvent.gate? : SessionEvent → Option AppState
  | .call gate _ | .approve gate _ _ => some gate
  | _ => none

/-- A task works below a directory: it has no access to files, or the
directory was opened for it and is still where the lease found it. -/
def WorksBeneath (gate : AppState) (canonical : String) (task : RunTask) : Prop :=
  ∀ config, task.fsConfig = some config →
    config.rootCanonical = canonical ∧ gate.openRootFd canonical = .ok (config.rootFd, canonical)

namespace SessionState
variable {leaseTtlSeconds : Nat} {past : List (SessionEvent × SessionAnswer)} {s : SessionState}

theorem Sound.worksBeneath {gate : AppState} {sessionId canonical : String} {event : SessionEvent} {task : RunTask}
    (sound : Sound leaseTtlSeconds past s) (kept : RootKept leaseTtlSeconds s gate sessionId)
    (leased : (event, .leased sessionId (some canonical)) ∈ past)
    (opens : ∀ config, task.fsConfig = some config →
      (s.rootsOf gate).openFsRoot ((s.rootsOf gate).sessionFsRoots sessionId) =
        some (config.rootFd, config.rootCanonical)) :
    WorksBeneath gate canonical task := by
  intro config made
  obtain ⟨root, listed, rfl⟩ := sound.leased event sessionId canonical leased
  rcases AppState.openFsRoot_eq_some (opens config made) with ⟨found, opened⟩ | ⟨missing, globalFd, globalPath⟩
  · -- An entry of the map is the one of the lease.
    obtain ⟨held, inMap, named⟩ := Option.map_eq_some_iff.mp found
    have same := sound.single sessionId _ _ (sound.known sessionId held inMap) listed
    obtain rfl := Option.some.inj same
    rw [← named] at opened
    exact ⟨named.symm, opened⟩
  · -- Without an entry the gate falls back to its own directory.
    have dropped : s.roots sessionId = none := Option.map_eq_none_iff.mp missing
    rcases kept with noFd | noPath | young
    · exact absurd (noFd.symm.trans globalFd) (by simp)
    · exact absurd (noPath.symm.trans globalPath) (by simp)
    · have present := sound.kept sessionId root listed (young root listed)
      exact absurd (dropped.symm.trans present) (by simp)

/-- In every run in which calls are executed before a sweep may drop the
directory of their session, each task of a session with a directory of its own
works below that directory or has no access to files. -/
theorem session_fs_root_enforced {inputs : List SessionEvent}
    (meets : (sessionMachine leaseTtlSeconds).Meets (SessionGuard leaseTtlSeconds) {} inputs)
    {before after : List (SessionEvent × SessionAnswer)} {leaseEvent event : SessionEvent} {gate : AppState}
    {sessionId canonical : String} {task : RunTask}
    (split : (sessionMachine leaseTtlSeconds).trace {} inputs =
      before ++ (event, .executed sessionId (.ok task)) :: after)
    (leased : (leaseEvent, .leased sessionId (some canonical)) ∈ before) (onGate : event.gate? = some gate) :
    WorksBeneath gate canonical task := by
  let post : List (SessionEvent × SessionAnswer) → SessionEvent → SessionAnswer → Prop := fun past event answer =>
    ∀ sessionId task, answer = .executed sessionId (.ok task) →
      ∀ leaseEvent canonical, (leaseEvent, .leased sessionId (some canonical)) ∈ past →
        ∀ gate, event.gate? = some gate → WorksBeneath gate canonical task
  have promised : ∀ past t event, SessionGuard leaseTtlSeconds t event → Sound leaseTtlSeconds past t →
      post past event ((sessionMachine leaseTtlSeconds).step t event).2 := by
    intro past t event guarded sound sessionId task answer leaseEvent canonical leased gate onGate
    cases event with
    | call gate' call =>
      obtain rfl := Option.some.inj onGate
      obtain ⟨rfl, made⟩ := SessionAnswer.executed.inj answer
      exact sound.worksBeneath guarded leased fun config opened => AppState.autoTask_root made opened
    | approve gate' index traceId =>
      obtain rfl := Option.some.inj onGate
      simp only [sessionMachine] at answer
      split at answer
      · cases answer
      · rename_i pending waits
        obtain ⟨rfl, mapped⟩ := SessionAnswer.executed.inj answer
        obtain ⟨execution, prepared, rfl⟩ := Except.map_eq_ok.1 mapped
        exact sound.worksBeneath (guarded pending waits) leased fun config opened =>
          AppState.approvedTask_root prepared opened
    | pass _ | issueLease _ _ _ _ | evict | hold _ _ _ _ _ => cases onGate
  have all := meets.answers sound_start (fun past t event _ sound => sound.step event) promised split
  exact all sessionId task rfl leaseEvent canonical leased gate onGate

/-- A host on which every path is a directory without links. -/
def plainHost : FsRootHost where
  isDir _ := .ok true
  canonicalize := .ok

def readCall : ActionCall :=
  { AppState.fsCall with requestBody := .object [("path", .string "src/main.rs")], requestHash := "sha256:1b1b1b1b" }

/-- The sample gate, with the directory `/srv/data` of its own, at some second. -/
def gateAt (seconds : Int) : AppState :=
  { AppState.fsGate with
    canonicalHash := fun _ _ => .ok "sha256:1b1b1b1b"
    now := ⟨seconds * 1000000000, "1970-01-01T00:00:00+00:00"⟩ }

def leaseOfProject : SessionEvent :=
  .issueLease plainHost ["/home/dev"] (some "/home/dev/project") (.ok readCall.auth.sessionId)

def seconds (n : Nat) : Nat := n * 1000000000

/-- A call in the last seconds of the lease waits for an operator. -/
def heldCall : SessionEvent :=
  .hold (gateAt 290) readCall ⟨590000000000, "1970-01-01T00:09:50+00:00"⟩ "1970-01-01T00:04:50+00:00" .ok

def beforeExpiry : List SessionEvent :=
  [leaseOfProject, .pass (seconds 290), heldCall, .evict]

/-- The operator comes when the sweep after the lease has run. -/
def afterSweep : List SessionEvent :=
  [leaseOfProject, .pass (seconds 290), heldCall, .pass (seconds 70), .evict]

theorem session_fs_root_enforced_prompt :
    ∃ task, (sessionMachine 300).trace {} (beforeExpiry ++ [.approve (gateAt 290) 0 "trace-1"]) =
        (sessionMachine 300).trace {} beforeExpiry ++
          [(.approve (gateAt 290) 0 "trace-1", .executed readCall.auth.sessionId (.ok task))] ∧
      task.fsConfig.isSome = true ∧ WorksBeneath (gateAt 290) "/home/dev/project" task := by
  have meets : (sessionMachine 300).Meets (SessionGuard 300) {} (beforeExpiry ++ [SessionEvent.approve (gateAt 290) 0 "trace-1"]) := by
    refine ⟨trivial, trivial, trivial, trivial, ?_, trivial⟩
    intro pending waits
    refine .inr (.inr ?_)
    intro root listed t swept
    have now : seconds 290 = t := Option.some.inj swept
    rw [← now]
    unfold seconds evictionAge sessionFsRootEvictionGraceSecs
    omega
  obtain ⟨task, answer, some⟩ : ∃ task, ((sessionMachine 300).step ((sessionMachine 300).run {} beforeExpiry)
      (.approve (gateAt 290) 0 "trace-1")).2 = .executed readCall.auth.sessionId (.ok task) ∧
        task.fsConfig.isSome = true := ⟨_, rfl, rfl⟩
  have split := (sessionMachine 300).trace_concat {} beforeExpiry (.approve (gateAt 290) 0 "trace-1")
  rw [answer] at split
  exact ⟨task, split, some, session_fs_root_enforced meets split (List.mem_cons_self ..) rfl⟩

/-- The directory of the session is gone, and its call works in the one of
the gate. -/
theorem approved_under_gate_root :
    ∃ task, (sessionMachine 300).trace {} (afterSweep ++ [.approve (gateAt 360) 0 "trace-1"]) =
        (sessionMachine 300).trace {} afterSweep ++
          [(.approve (gateAt 360) 0 "trace-1", .executed readCall.auth.sessionId (.ok task))] ∧
      (leaseOfProject, .leased readCall.auth.sessionId (some "/home/dev/project")) ∈
        (sessionMachine 300).trace {} afterSweep ∧
      task.fsConfig.map (·.rootCanonical) = some "/srv/data" ∧
      ¬WorksBeneath (gateAt 360) "/home/dev/project" task := by
  obtain ⟨task, answer, config, opened, canonical⟩ : ∃ task,
      ((sessionMachine 300).step ((sessionMachine 300).run {} afterSweep)
        (.approve (gateAt 360) 0 "trace-1")).2 = .executed readCall.auth.sessionId (.ok task) ∧
      ∃ config, task.fsConfig = some config ∧ config.rootCanonical = "/srv/data" := ⟨_, rfl, _, rfl, rfl⟩
  have split := (sessionMachine 300).trace_concat {} afterSweep (.approve (gateAt 360) 0 "trace-1")
  rw [answer] at split
  refine ⟨task, split, List.mem_cons_self .., by rw [opened, Option.map_some, canonical], ?_⟩
  intro beneath
  have elsewhere := (beneath config opened).1
  rw [canonical] at elsewhere
  exact absurd elsewhere (by decide)

end SessionState

end Latchgate
