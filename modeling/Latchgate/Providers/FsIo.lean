import Latchgate.Providers.FsOpen

namespace Latchgate

inductive FsWriteMode where
  | create
  | overwrite
  deriving DecidableEq

structure FsReadResult where
  content : List UInt8
  hash : Vector UInt8 32
  size : Nat

structure FsWriteResult where
  beforeHash : Option (Vector UInt8 32)
  afterHash : Vector UInt8 32
  bytesBefore : Nat
  bytesWritten : Nat

structure FsDeleteResult where
  beforeHash : Option (Vector UInt8 32)
  bytesBefore : Nat

def FsHostConfig.requireOperation (config : FsHostConfig) (operation : FsOperation) : Except FsHostError Unit :=
  if operation ∈ config.allowedOperations then .ok () else .error (.operationNotAllowed operation)

def FsWriteMode.requiredOp : FsWriteMode → FsOperation
  | .create => .create
  | .overwrite => .overwrite

namespace FsEnv
variable (env : FsEnv) (config : FsHostConfig)

def readSync (path : String) : Sys FsHostError FsReadResult := do
  liftExcept (config.requireOperation .read)
  liftExcept (validateAndPrecheck path config.allowedPaths config.deniedPaths)
  let (fd, canonicalRel) ← env.secureOpen config path {}
  match ← io (env.fstat fd) with
  | .regular found => do
    if config.maxFileBytes.toNat < found.length then throw (.tooLarge config.maxFileBytes)
    liftExcept (checkDenyAllow canonicalRel config.allowedPaths config.deniedPaths)
    let (content, _) ← io (env.readToEnd fd)
    return { content, hash := env.sha256 content, size := content.length }
  | _ => throw (.specialFile path)

/-- The new file of a create. -/
def createTarget (path : String) : Sys FsHostError Fd := do
  let (parentFd, basename, canonicalRel) ← env.secureOpenParent config path
  liftExcept (checkDenyAllow canonicalRel config.allowedPaths config.deniedPaths)
  if Char.ofNat 0 ∈ basename then throw (.pathInvalid "null in basename")
  EStateM.adaptExcept (fun e => if e = .eexist then .alreadyExists else .ioError e)
    (env.openat parentFd basename { write := true, exclusive := true })

def writeCreateSync (path : String) (content : List UInt8) (afterHash : Vector UInt8 32) :
    Sys FsHostError FsWriteResult := do
  let fd ← env.createTarget config path
  io (env.writeAll fd content)
  io (env.fsync fd)
  return { beforeHash := none, afterHash, bytesBefore := 0, bytesWritten := content.length }

/-- The file of an overwrite, behind all checks, with its hash and its size. -/
def overwriteTarget (path : String) (expectedBeforeHash : Option (List UInt8)) :
    Sys FsHostError (Fd × Vector UInt8 32 × Nat) := do
  let (fd, canonicalRel) ← env.secureOpen config path { write := true }
  match ← io (env.fstat fd) with
  | .regular found => do
    let bytesBefore := found.length
    if config.maxFileBytes.toNat < bytesBefore then throw (.tooLarge config.maxFileBytes)
    liftExcept (checkDenyAllow canonicalRel config.allowedPaths config.deniedPaths)
    let (existing, fd) ← io (env.readToEnd fd)
    let beforeHash := env.sha256 existing
    if ∃ expected, expectedBeforeHash = some expected ∧ (expected.length ≠ 32 ∨ expected ≠ beforeHash.toList) then
      throw .conflict
    return (fd, beforeHash, bytesBefore)
  | _ => throw (.specialFile path)

/-- The new contents on the same descriptor. -/
def replaceContents (fd : Fd) (content : List UInt8) : Sys FsHostError Unit := do
  io (env.ftruncate fd)
  let fd ← io (env.lseekStart fd)
  io (env.writeAll fd content)
  io (env.fsync fd)

def writeOverwriteSync (path : String) (content : List UInt8) (afterHash : Vector UInt8 32)
    (expectedBeforeHash : Option (List UInt8)) : Sys FsHostError FsWriteResult := do
  let (fd, beforeHash, bytesBefore) ← env.overwriteTarget config path expectedBeforeHash
  env.replaceContents fd content
  return { beforeHash := some beforeHash, afterHash, bytesBefore, bytesWritten := content.length }

def writeSync (path : String) (content : List UInt8) (mode : FsWriteMode) (expectedBeforeHash : Option (List UInt8)) :
    Sys FsHostError FsWriteResult := do
  liftExcept (config.requireOperation mode.requiredOp)
  if config.maxFileBytes.toNat < content.length then throw (.tooLarge config.maxFileBytes)
  liftExcept (validateAndPrecheck path config.allowedPaths config.deniedPaths)
  let afterHash := env.sha256 content
  match mode with
  | .create => env.writeCreateSync config path content afterHash
  | .overwrite => env.writeOverwriteSync config path content afterHash expectedBeforeHash

/-- The hash of a file that is about to be deleted, if it is not too large and
can be read. -/
def hashTarget (parentFd : Fd) (name : List Char) (bytesBefore : Nat) : Sys FsHostError (Option (Vector UInt8 32)) := fun s =>
  if config.maxFileBytes.toNat < bytesBefore then .ok none s
  else match (env.openat parentFd name {}).run s with
    | .error _ t => .ok none t
    | .ok fd t =>
      match (env.readToEnd fd).run t with
      | .error _ u => .ok none u
      | .ok (data, _) u => .ok (some (env.sha256 data)) u

def deleteSync (path : String) : Sys FsHostError FsDeleteResult := do
  liftExcept (config.requireOperation .delete)
  liftExcept (validateAndPrecheck path config.allowedPaths config.deniedPaths)
  let (parentFd, basename, canonicalRel) ← env.secureOpenParent config path
  liftExcept (checkDenyAllow canonicalRel config.allowedPaths config.deniedPaths)
  if Char.ofNat 0 ∈ basename then throw (.pathInvalid "null in basename")
  let target ← EStateM.adaptExcept (fun e => if e = .enoent then .pathNotFound path else .ioError e)
    (env.openat parentFd basename { path := true })
  match ← io (env.fstat target) with
  | .regular found => do
    let bytesBefore := found.length
    let beforeHash ← env.hashTarget config parentFd basename bytesBefore
    io (env.unlinkat parentFd basename)
    return { beforeHash, bytesBefore }
  | _ => throw (.specialFile path)

end FsEnv

/-- The calls that a provider can make. -/
inductive FsRequest where
  | read (path : String)
  | write (path : String) (content : List UInt8) (mode : FsWriteMode) (expectedBeforeHash : Option (List UInt8))
  | delete (path : String)

inductive FsResult where
  | read (result : FsReadResult)
  | write (result : FsWriteResult)
  | delete (result : FsDeleteResult)

def FsRequest.path : FsRequest → String
  | .read path | .write path _ _ _ | .delete path => path

def FsRequest.operation : FsRequest → FsOperation
  | .read _ => .read
  | .write _ _ mode _ => mode.requiredOp
  | .delete _ => .delete

def FsEnv.perform (env : FsEnv) (config : FsHostConfig) : FsRequest → Sys FsHostError FsResult
  | .read path => do return .read (← env.readSync config path)
  | .write path content mode expectedBeforeHash => do
    return .write (← env.writeSync config path content mode expectedBeforeHash)
  | .delete path => do return .delete (← env.deleteSync config path)

/-- What a call that goes through has touched: one regular file below the root, at
the very place that the names of the path lead to, with an allowed path. -/
structure FsEnv.Confined (env : FsEnv) (config : FsHostConfig) (request : FsRequest) (before after : Volume)
    (root file : Place) : Prop where
  permitted : request.operation ∈ config.allowedOperations
  opened : env.opened config.rootFd = some root
  straight : file = root ++ FsPath.named request.path
  below : FsPath.named request.path ≠ []
  dirs : ∀ above, above <+: file → above ≠ file → before.node above = some .dir
  regular : ∃ contents, (if request.operation = .create then after else before).node file = some (.regular contents)
  allowed : ∃ relative, verifyUnderRoot (FsPath.ofPlace file) config.rootCanonical = .ok relative ∧
    evaluatePath relative config.allowedPaths config.deniedPaths = .allowed ∧
    (config.rootCanonical = FsPath.ofPlace root → relative = FsPath.ofSegments (FsPath.named request.path))
  elsewhere : ∀ place, place ≠ file → after.node place = before.node place

namespace FsEnv
variable {env : FsEnv} {config : FsHostConfig} {s t : FsState}

theorem requireOperation_eq_ok {operation : FsOperation} :
    config.requireOperation operation = .ok () ↔ operation ∈ config.allowedOperations := by
  unfold FsHostConfig.requireOperation
  split_ifs with listed
  · simp [listed]
  · simp [listed]

/-- A call that is confined to an entry of a directory it has reached. -/
theorem confined_of_entry {request : FsRequest} {after : Volume} {root dir : Place} {name : List Char} {relative : String}
    (permitted : request.operation ∈ config.allowedOperations) (opened : env.opened config.rootFd = some root)
    (parent : s.volume.node dir = some .dir) (proper : Proper name) (place : dir ++ [name] = root ++ FsPath.named request.path)
    (below : FsPath.named request.path ≠ [])
    (regular : ∃ contents, (if request.operation = .create then after else s.volume).node (dir ++ [name]) = some (.regular contents))
    (under : verifyUnderRoot (FsPath.ofPlace (dir ++ [name])) config.rootCanonical = .ok relative)
    (checked : checkDenyAllow relative config.allowedPaths config.deniedPaths = .ok ())
    (elsewhere : ∀ p, p ≠ dir ++ [name] → after.node p = s.volume.node p) :
    env.Confined config request s.volume after root (dir ++ [name]) where
  permitted := permitted
  opened := opened
  straight := place
  below := below
  dirs above inside shorter := by
    rcases List.prefix_concat_iff.mp inside with rfl | ⟨rest, rfl⟩
    · exact absurd rfl shorter
    · exact Volume.dir_above parent
  regular := regular
  allowed := by
    refine ⟨relative, under, checkDenyAllow_eq_ok.1 checked, fun rooted => ?_⟩
    have names : ∀ n ∈ root ++ FsPath.named request.path, Proper n := by
      intro n member
      rw [← place] at member
      rcases List.mem_append.mp member with inside | last
      · exact Volume.proper_of_node (v := s.volume) (by simp [parent]) n inside
      · rw [List.mem_singleton.mp last]
        exact proper
    rw [place, rooted, verifyUnderRoot_below names] at under
    exact (Except.ok.inj under).symm
  elsewhere := elsewhere

/-- A file that was there before is an entry of a directory. -/
theorem confined_of_open {request : FsRequest} {after : Volume} {root file : Place} {relative : String} {contents : List UInt8}
    (permitted : request.operation ∈ config.allowedOperations) (known : request.operation ≠ .create)
    (straight : env.Straight config.rootFd s.volume (FsPath.named request.path) root file)
    (regular : s.volume.node file = some (.regular contents))
    (under : verifyUnderRoot (FsPath.ofPlace file) config.rootCanonical = .ok relative)
    (checked : checkDenyAllow relative config.allowedPaths config.deniedPaths = .ok ())
    (elsewhere : ∀ p, p ≠ file → after.node p = s.volume.node p) :
    env.Confined config request s.volume after root file := by
  obtain ⟨dir, name, rfl, parent, proper⟩ := Volume.admits_of_node regular (by simp)
  refine confined_of_entry permitted straight.opened parent proper straight.named ?_ ⟨contents, ?_⟩ under checked elsewhere
  · intro nothing
    have top := straight.named
    rw [nothing, List.append_nil] at top
    rw [top, straight.dir] at regular
    cases regular
  · rw [if_neg known]
    exact regular

theorem readSync_confined {path : String} {result : FsReadResult} (honours : env.HonoursResolve)
    (ran : (env.readSync config path).run s = .ok result t) :
    ∃ root file, env.Confined config (.read path) s.volume t.volume root file := by
  obtain ⟨_, u, gate, ran⟩ := Sys.bind_eq_ok.1 ran
  obtain ⟨permitted, rfl⟩ := liftExcept_eq_ok.1 gate
  obtain ⟨_, u, prechecked, ran⟩ := Sys.bind_eq_ok.1 ran
  obtain ⟨valid, rfl⟩ := liftExcept_eq_ok.1 prechecked
  obtain ⟨⟨fd, canonicalRel⟩, u, opened, ran⟩ := Sys.bind_eq_ok.1 ran
  obtain ⟨⟨root, straight⟩, under, same⟩ := secureOpen_eq_ok honours rfl rfl (down_of_validated valid) opened
  obtain ⟨inode, w, known, ran⟩ := Sys.bind_eq_ok.1 ran
  obtain ⟨stands, kept⟩ := fstat_eq_ok (io_eq_ok.1 known)
  rw [same] at stands kept
  cases inode with
  | dir => exact absurd ran Sys.throw_eq_ok
  | link target => exact absurd ran Sys.throw_eq_ok
  | special => exact absurd ran Sys.throw_eq_ok
  | regular contents =>
    obtain ⟨-, ran⟩ := Sys.check_eq_ok.1 ran
    obtain ⟨_, x, postchecked, ran⟩ := Sys.bind_eq_ok.1 ran
    obtain ⟨checked, rfl⟩ := liftExcept_eq_ok.1 postchecked
    obtain ⟨⟨content, after⟩, x, read, ran⟩ := Sys.bind_eq_ok.1 ran
    obtain ⟨-, -, unchanged⟩ := readToEnd_eq_ok (io_eq_ok.1 read)
    obtain ⟨-, rfl⟩ := Sys.pure_eq_ok.1 ran
    refine ⟨root, fd.place, confined_of_open (requireOperation_eq_ok.1 permitted) nofun straight stands under checked ?_⟩
    intro place _
    rw [unchanged, kept]

/-- The new file of a create is made, and nothing else. -/
theorem createTarget_makes {path : String} {fd : Fd} (ran : (env.createTarget config path).run s = .ok fd t) :
    ∃ parent name relative u, (env.secureOpenParent config path).run s = .ok (parent, name, relative) u ∧
      checkDenyAllow relative config.allowedPaths config.deniedPaths = .ok () ∧ fd = { place := parent.place ++ [name] } ∧
      u.volume.node fd.place = none ∧
      ∀ p, t.volume.node p = if p = fd.place then some (.regular []) else u.volume.node p := by
  obtain ⟨⟨parent, basename, canonicalRel⟩, u, opened, ran⟩ := Sys.bind_eq_ok.1 ran
  obtain ⟨_, w, postchecked, ran⟩ := Sys.bind_eq_ok.1 ran
  obtain ⟨checked, rfl⟩ := liftExcept_eq_ok.1 postchecked
  obtain ⟨-, ran⟩ := Sys.check_eq_ok.1 ran
  obtain ⟨dir, opens, start⟩ := openat_eq_ok (Sys.adaptExcept_eq_ok.1 ran)
  cases opens with
  | found inode here means kept directory noLink exclusive => cases exclusive
  | made free means created proper _ =>
    rw [Volume.target, if_neg proper.2.1, if_neg proper.2.2.1] at means
    obtain ⟨at_, offset⟩ := fd
    dsimp only at means start free
    subst means start
    refine ⟨parent, basename, canonicalRel, u, opened, checked, rfl, free, fun p => ?_⟩
    rw [created, Volume.create_node dir proper free]

theorem writeCreateSync_confined {path : String} {content : List UInt8} {afterHash : Vector UInt8 32}
    {expected : Option (List UInt8)} {result : FsWriteResult} (honours : env.HonoursResolve)
    (permitted : FsOperation.create ∈ config.allowedOperations) (down : ['.', '.'] ∉ FsPath.segments path)
    (ran : (env.writeCreateSync config path content afterHash).run s = .ok result t) :
    ∃ root file, env.Confined config (.write path content .create expected) s.volume t.volume root file := by
  obtain ⟨fd, u, made, ran⟩ := Sys.bind_eq_ok.1 ran
  obtain ⟨parent, name, relative, v, opened, checked, rfl, free, created⟩ := createTarget_makes made
  obtain ⟨⟨root, rootOpen, dir, place⟩, below, proper, under, same⟩ := secureOpenParent_eq_ok honours down opened
  obtain ⟨_, w, wrote, ran⟩ := Sys.bind_eq_ok.1 ran
  obtain ⟨old, stands, written⟩ := writeAll_eq_ok (io_eq_ok.1 wrote)
  obtain ⟨_, x, synced, ran⟩ := Sys.bind_eq_ok.1 ran
  have kept := fsync_eq_ok (io_eq_ok.1 synced)
  obtain ⟨-, rfl⟩ := Sys.pure_eq_ok.1 ran
  dsimp only at stands written created
  have nodes : ∀ p, x.volume.node p =
      if p = parent.place ++ [name] then some (.regular (writeAt old content 0)) else u.volume.node p := by
    intro p
    rw [kept, written, Volume.write_node stands]
  refine ⟨root, parent.place ++ [name], confined_of_entry permitted rootOpen dir proper place below
    ⟨writeAt old content 0, ?_⟩ under checked fun p other => ?_⟩
  · have now : x.volume.node (parent.place ++ [name]) = some (.regular (writeAt old content 0)) := by rw [nodes, if_pos rfl]
    exact now
  · rw [nodes, if_neg other, created, if_neg other, same]

/-- The file of an overwrite is a regular one. -/
theorem overwriteTarget_opens {path : String} {expected : Option (List UInt8)} {fd : Fd} {beforeHash : Vector UInt8 32}
    {bytesBefore : Nat} (ran : (env.overwriteTarget config path expected).run s = .ok (fd, beforeHash, bytesBefore) t) :
    ∃ opened relative u contents, (env.secureOpen config path { write := true }).run s = .ok (opened, relative) u ∧
      checkDenyAllow relative config.allowedPaths config.deniedPaths = .ok () ∧ fd.place = opened.place ∧
      u.volume.node fd.place = some (.regular contents) ∧ t.volume = u.volume ∧
      contents.length ≤ config.maxFileBytes.toNat ∧ beforeHash = env.sha256 (contents.drop opened.offset) ∧
      ∀ hash, expected = some hash → hash.length = 32 ∧ hash = beforeHash.toList := by
  obtain ⟨⟨made, canonicalRel⟩, u, opened, ran⟩ := Sys.bind_eq_ok.1 ran
  obtain ⟨inode, w, known, ran⟩ := Sys.bind_eq_ok.1 ran
  obtain ⟨stands, kept⟩ := fstat_eq_ok (io_eq_ok.1 known)
  cases inode with
  | dir => exact absurd ran Sys.throw_eq_ok
  | link target => exact absurd ran Sys.throw_eq_ok
  | special => exact absurd ran Sys.throw_eq_ok
  | regular contents =>
    obtain ⟨small, ran⟩ := Sys.check_eq_ok.1 ran
    obtain ⟨_, x, postchecked, ran⟩ := Sys.bind_eq_ok.1 ran
    obtain ⟨checked, rfl⟩ := liftExcept_eq_ok.1 postchecked
    obtain ⟨⟨existing, after⟩, y, read, ran⟩ := Sys.bind_eq_ok.1 ran
    obtain ⟨⟨held, again, data⟩, place, unchanged⟩ := readToEnd_eq_ok (io_eq_ok.1 read)
    obtain ⟨agrees, ran⟩ := Sys.check_eq_ok.1 ran
    obtain ⟨done, rfl⟩ := Sys.pure_eq_ok.1 ran
    cases done
    rw [kept, stands, Option.some.injEq, Inode.regular.injEq] at again
    subst again
    rw [← place] at stands
    refine ⟨made, canonicalRel, u, contents, opened, checked, place, stands, unchanged.trans kept, not_lt.mp small,
      congrArg env.sha256 data, fun hash given => ?_⟩
    by_contra other
    rw [not_and_or] at other
    exact agrees ⟨hash, given, other⟩

/-- The new contents are put into the file, and nothing else is changed. -/
theorem replaceContents_eq_ok {fd : Fd} {content : List UInt8} (ran : (env.replaceContents fd content).run s = .ok () t) :
    (∃ old, s.volume.node fd.place = some (.regular old)) ∧
      ∀ p, t.volume.node p = if p = fd.place then some (.regular content) else s.volume.node p := by
  obtain ⟨_, u, cut, ran⟩ := Sys.bind_eq_ok.1 ran
  obtain ⟨⟨old, stands⟩, cleared⟩ := ftruncate_eq_ok (io_eq_ok.1 cut)
  obtain ⟨start, w, sought, ran⟩ := Sys.bind_eq_ok.1 ran
  obtain ⟨rfl, kept⟩ := lseekStart_eq_ok (io_eq_ok.1 sought)
  obtain ⟨_, x, wrote, ran⟩ := Sys.bind_eq_ok.1 ran
  obtain ⟨empty, now, written⟩ := writeAll_eq_ok (io_eq_ok.1 wrote)
  have synced := fsync_eq_ok (io_eq_ok.1 ran)
  have void : empty = [] := by
    rw [kept, cleared, Volume.write_node stands, if_pos rfl] at now
    injection now with now
    injection now with now
    exact now.symm
  refine ⟨⟨old, stands⟩, fun p => ?_⟩
  rw [synced, written, Volume.write_node now, kept, cleared, Volume.write_node stands, void]
  dsimp only
  split_ifs
  · simp [writeAt]
  · rfl

theorem writeOverwriteSync_confined {path : String} {content : List UInt8} {afterHash : Vector UInt8 32}
    {expected : Option (List UInt8)} {result : FsWriteResult} (honours : env.HonoursResolve)
    (permitted : FsOperation.overwrite ∈ config.allowedOperations) (down : ['.', '.'] ∉ FsPath.segments path)
    (ran : (env.writeOverwriteSync config path content afterHash expected).run s = .ok result t) :
    ∃ root file, env.Confined config (.write path content .overwrite expected) s.volume t.volume root file := by
  obtain ⟨⟨fd, beforeHash, bytesBefore⟩, u, opened, ran⟩ := Sys.bind_eq_ok.1 ran
  obtain ⟨made, relative, v, contents, found, checked, place, stands, kept, -⟩ := overwriteTarget_opens opened
  obtain ⟨⟨root, straight⟩, under, same⟩ := secureOpen_eq_ok honours rfl rfl down found
  obtain ⟨_, w, replaced, ran⟩ := Sys.bind_eq_ok.1 ran
  obtain ⟨-, nodes⟩ := replaceContents_eq_ok replaced
  obtain ⟨-, rfl⟩ := Sys.pure_eq_ok.1 ran
  rw [same] at stands kept
  rw [← place] at straight under
  refine ⟨root, fd.place, confined_of_open permitted nofun straight stands under checked fun p other => ?_⟩
  rw [nodes, if_neg other, kept]

theorem writeSync_confined {path : String} {content : List UInt8} {mode : FsWriteMode} {expected : Option (List UInt8)}
    {result : FsWriteResult} (honours : env.HonoursResolve)
    (ran : (env.writeSync config path content mode expected).run s = .ok result t) :
    ∃ root file, env.Confined config (.write path content mode expected) s.volume t.volume root file := by
  obtain ⟨_, u, gate, ran⟩ := Sys.bind_eq_ok.1 ran
  obtain ⟨permitted, rfl⟩ := liftExcept_eq_ok.1 gate
  obtain ⟨-, ran⟩ := Sys.check_eq_ok.1 ran
  obtain ⟨_, u, prechecked, ran⟩ := Sys.bind_eq_ok.1 ran
  obtain ⟨valid, rfl⟩ := liftExcept_eq_ok.1 prechecked
  cases mode with
  | create => exact writeCreateSync_confined honours (requireOperation_eq_ok.1 permitted) (down_of_validated valid) ran
  | overwrite => exact writeOverwriteSync_confined honours (requireOperation_eq_ok.1 permitted) (down_of_validated valid) ran

theorem hashTarget_eq_ok {parentFd : Fd} {name : List Char} {bytesBefore : Nat} {hash : Option (Vector UInt8 32)}
    (ran : (env.hashTarget config parentFd name bytesBefore).run s = .ok hash t) : t.volume = s.volume := by
  have failed : ∀ {fd : Fd} {u w : FsState} {errno : Errno}, (env.readToEnd fd).run u = .error errno w → w.volume = u.volume :=
    fun failed => volume_of_syscall_error failed
  simp only [hashTarget, EStateM.run] at ran
  split at ran
  · cases ran
    rfl
  split at ran
  · rename_i errno u opened
    cases ran
    exact volume_of_syscall_error opened
  · rename_i fd u opened
    obtain ⟨-, opens, -⟩ := openat_eq_ok opened
    have same : u.volume = s.volume := by
      cases opens with
      | found inode here means same => exact same
      | made free means created proper exclusive => cases exclusive
    split at ran
    · rename_i errno w read
      cases ran
      rw [failed read, same]
    · rename_i data after w read
      cases ran
      rw [(readToEnd_eq_ok read).2.2, same]

theorem deleteSync_confined {path : String} {result : FsDeleteResult} (honours : env.HonoursResolve)
    (ran : (env.deleteSync config path).run s = .ok result t) :
    ∃ root file, env.Confined config (.delete path) s.volume t.volume root file := by
  obtain ⟨_, u, gate, ran⟩ := Sys.bind_eq_ok.1 ran
  obtain ⟨permitted, rfl⟩ := liftExcept_eq_ok.1 gate
  obtain ⟨_, u, prechecked, ran⟩ := Sys.bind_eq_ok.1 ran
  obtain ⟨valid, rfl⟩ := liftExcept_eq_ok.1 prechecked
  obtain ⟨⟨parent, basename, canonicalRel⟩, u, opened, ran⟩ := Sys.bind_eq_ok.1 ran
  obtain ⟨⟨root, rootOpen, dir, place⟩, below, proper, under, same⟩ :=
    secureOpenParent_eq_ok honours (down_of_validated valid) opened
  obtain ⟨_, u, postchecked, ran⟩ := Sys.bind_eq_ok.1 ran
  obtain ⟨checked, rfl⟩ := liftExcept_eq_ok.1 postchecked
  obtain ⟨-, ran⟩ := Sys.check_eq_ok.1 ran
  obtain ⟨target, w, found, ran⟩ := Sys.bind_eq_ok.1 ran
  obtain ⟨-, opens, -⟩ := openat_eq_ok (Sys.adaptExcept_eq_ok.1 found)
  rw [same] at opens
  have entry : target.place = parent.place ++ [basename] ∧ w.volume = s.volume := by
    cases opens with
    | made free means created proper exclusive => cases exclusive
    | found inode here means kept =>
      rw [Volume.target, if_neg proper.2.1, if_neg proper.2.2.1] at means
      exact ⟨means, kept⟩
  obtain ⟨inode, x, known, ran⟩ := Sys.bind_eq_ok.1 ran
  obtain ⟨stands, kept⟩ := fstat_eq_ok (io_eq_ok.1 known)
  rw [entry.1, entry.2] at stands
  rw [entry.2] at kept
  cases inode with
  | dir => exact absurd ran Sys.throw_eq_ok
  | link target => exact absurd ran Sys.throw_eq_ok
  | special => exact absurd ran Sys.throw_eq_ok
  | regular contents =>
    obtain ⟨hash, y, hashed, ran⟩ := Sys.bind_eq_ok.1 ran
    have unchanged := hashTarget_eq_ok hashed
    obtain ⟨_, z, removed, ran⟩ := Sys.bind_eq_ok.1 ran
    have gone := unlinkat_eq_ok (io_eq_ok.1 removed)
    obtain ⟨-, rfl⟩ := Sys.pure_eq_ok.1 ran
    refine ⟨root, parent.place ++ [basename], confined_of_entry (requireOperation_eq_ok.1 permitted) rootOpen dir proper
      place below ⟨contents, stands⟩ under checked fun p other => ?_⟩
    rw [gone, unchanged, kept, Volume.unlink_node stands (by simp), if_neg other]

end FsEnv

/-- One directory with one document. -/
def docsVolume : Volume :=
  let top := Volume.bare.put ["docs".toList] (some .dir) ⟨[], _, rfl, rfl, by decide⟩ nofun
  top.put ["docs".toList, "a.md".toList] (some (.regular [104, 105])) ⟨["docs".toList], _, rfl, rfl, by decide⟩ nofun

/-- A kernel whose `openat2` resolves beneath the directory and through no link. -/
def beneathEnv (fault : Nat → Option Fault) : FsEnv where
  fault
  opened fd := if fd = 3 then some [] else none
  sysOpenat2 v dir path _ :=
    if v.node dir = some .dir then
      match v.resolve dir dir (FsPath.segments path) with
      | some place => .ok place
      | none => .error .enoent
    else .error .enotdir
  sha256 data := Vector.ofFn fun i => data.getD i 0

theorem honours_beneathEnv (fault : Nat → Option Fault) : (beneathEnv fault).HonoursResolve := by
  intro v dir path flags place found
  unfold beneathEnv at found
  dsimp only at found
  split_ifs at found with standing
  cases resolved : v.resolve dir dir (FsPath.segments path) with
  | none => simp [resolved] at found
  | some other =>
    simp only [resolved, Except.ok.injEq] at found
    exact ⟨standing, congrArg some found⟩

def docsConfig : FsHostConfig where
  rootFd := 3
  rootCanonical := "/"
  allowedOperations := [.read, .overwrite]
  allowedPaths := [fun path => path = "docs/a.md" ∨ path = "docs/./a.md"]
  deniedPaths := []
  maxFileBytes := 100

def docsState : FsState where
  volume := docsVolume
  calls := 0
  openat2Available := .untested

end Latchgate
