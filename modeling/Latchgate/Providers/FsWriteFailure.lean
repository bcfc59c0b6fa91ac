import Latchgate.Providers.FsIo

namespace Latchgate
namespace Sys
variable {ε ε' α β : Type}

/-- A failure that has changed nothing. -/
def Harmless (x : Sys ε α) : Prop :=
  ∀ s e t, x.run s = .error e t → t.volume = s.volume

/-- A run that changes nothing, however it ends. -/
structure Quiet (x : Sys ε α) : Prop where
  ok : ∀ s a t, x.run s = .ok a t → t.volume = s.volume
  error : x.Harmless

theorem quiet_pure (a : α) : Quiet (pure a : Sys ε α) where
  ok s b t ran := by rw [(pure_eq_ok.1 ran).2]
  error s e t ran := by cases ran

theorem quiet_throw (e : ε) : Quiet (throw e : Sys ε α) where
  ok s b t ran := absurd ran throw_eq_ok
  error s e' t ran := by cases ran; rfl

theorem Quiet.harmless_bind {x : Sys ε α} {f : α → Sys ε β} (quiet : Quiet x) (then_ : ∀ a, (f a).Harmless) :
    (x >>= f).Harmless := by
  intro s e t ran
  rcases bind_eq_error.1 ran with failed | ⟨a, u, first, failed⟩
  · exact quiet.error s e t failed
  · rw [then_ a u e t failed, quiet.ok s a u first]

theorem Quiet.bind {x : Sys ε α} {f : α → Sys ε β} (quiet : Quiet x) (then_ : ∀ a, Quiet (f a)) : Quiet (x >>= f) where
  ok s b t ran := by
    obtain ⟨a, u, first, second⟩ := bind_eq_ok.1 ran
    rw [(then_ a).ok u b t second, quiet.ok s a u first]
  error := quiet.harmless_bind fun a => (then_ a).error

theorem Harmless.adapt {x : Sys ε α} (harmless : x.Harmless) (f : ε → ε') : Harmless (EStateM.adaptExcept f x) := by
  intro s e t ran
  simp only [EStateM.run, EStateM.adaptExcept] at ran
  cases result : x s with
  | ok a u => simp [result] at ran
  | error e' u =>
    simp only [result, EStateM.Result.error.injEq] at ran
    obtain ⟨-, rfl⟩ := ran
    exact harmless s e' u result

theorem Quiet.adapt {x : Sys ε α} (quiet : Quiet x) (f : ε → ε') : Quiet (EStateM.adaptExcept f x) where
  ok s a t ran := quiet.ok s a t (adaptExcept_eq_ok.1 ran)
  error := quiet.error.adapt f

theorem Quiet.ite {c : Prop} [Decidable c] {x y : Sys ε α} (first : Quiet x) (second : Quiet y) : Quiet (if c then x else y) := by
  split_ifs
  · exact first
  · exact second

/-- A check fails before anything else is done. -/
theorem Harmless.check {c : Prop} [Decidable c] {e : ε} {f : α → Sys ε β} {g : Sys ε β} (harmless : g.Harmless) :
    Harmless (if c then (throw e : Sys ε α) >>= f else g) := by
  intro s e' t ran
  by_cases failed : c
  · rw [if_pos failed] at ran
    rcases bind_eq_error.1 ran with thrown | ⟨a, u, thrown, -⟩
    · exact (quiet_throw e).error s e' t thrown
    · exact absurd thrown throw_eq_ok
  · rw [if_neg failed] at ran
    exact harmless s e' t ran

theorem Quiet.check {c : Prop} [Decidable c] {e : ε} {f : α → Sys ε β} {g : Sys ε β} (quiet : Quiet g) :
    Quiet (if c then (throw e : Sys ε α) >>= f else g) where
  ok s b t ran := quiet.ok s b t (check_eq_ok.1 ran).2
  error := quiet.error.check

end Sys

namespace FsEnv
variable {env : FsEnv} {config : FsHostConfig}

theorem harmless_syscall {α : Type} (act : Volume → Except Errno (α × Volume)) : (env.syscall act).Harmless :=
  fun _ _ _ ran => volume_of_syscall_error ran

theorem quiet_syscall {α : Type} {act : Volume → Except Errno (α × Volume)}
    (keeps : ∀ v a v', act v = .ok (a, v') → v' = v) : (env.syscall act).Quiet where
  ok s a t ran := by
    obtain ⟨-, volume, made, rfl⟩ := syscall_eq_ok.1 ran
    exact keeps _ _ _ made
  error := harmless_syscall act

theorem quiet_liftExcept {α : Type} (result : Except FsHostError α) : (liftExcept result).Quiet := by
  cases result with
  | ok a => exact Sys.quiet_pure a
  | error e => exact Sys.quiet_throw e

theorem quiet_dup (fd : Nat) : (env.dup fd).Quiet :=
  ⟨fun _ _ _ ran => (dup_eq_ok ran).2, harmless_syscall _⟩

theorem quiet_openat (dir : Fd) (name : List Char) {flags : OpenFlags} (known : flags.exclusive = false) :
    (env.openat dir name flags).Quiet where
  ok s fd t ran := by
    obtain ⟨-, opens, -⟩ := openat_eq_ok ran
    cases opens with
    | found inode here means same => exact same
    | made free means created proper exclusive => rw [known] at exclusive; cases exclusive
  error := harmless_syscall _

theorem quiet_fstat (fd : Fd) : (env.fstat fd).Quiet :=
  ⟨fun _ _ _ ran => (fstat_eq_ok ran).2, harmless_syscall _⟩

theorem quiet_readToEnd (fd : Fd) : (env.readToEnd fd).Quiet :=
  ⟨fun _ (_, _) _ ran => (readToEnd_eq_ok ran).2.2, harmless_syscall _⟩

theorem quiet_canonicalFromFd (fd : Fd) : (env.canonicalFromFd fd).Quiet := by
  have readlink : (env.readlink fd).Quiet := ⟨fun _ _ _ ran => (readlink_eq_ok ran).2, harmless_syscall _⟩
  exact (readlink.adapt _).bind fun place => Sys.quiet_pure _

theorem quiet_tryOpenat2 (dirfd : Nat) (path : String) (flags : OpenFlags) : (env.tryOpenat2 dirfd path flags).Quiet where
  ok s made t ran := (tryOpenat2_eq_ok ran).1
  error s e t ran := by
    have failed : ∀ {e' : Errno} {u : FsState}, (env.openat2 dirfd path flags).run s = .error e' u → u.volume = s.volume :=
      fun failed => volume_of_syscall_error failed
    simp only [tryOpenat2, EStateM.run] at ran failed
    split_ifs at ran
    split at ran
    · cases ran
    · cases ran
    · rename_i errno u other tried
      cases ran
      exact failed tried

theorem quiet_walkDirectories (fd : Fd) (components : List (List Char)) : (env.walkDirectories fd components).Quiet := by
  induction components generalizing fd with
  | nil => exact Sys.quiet_pure fd
  | cons component rest ih =>
    refine ((quiet_openat fd component rfl).adapt _).bind fun next => ?_
    exact ((quiet_fstat next).adapt _).bind fun inode => (ih next).check

theorem quiet_componentWalkOpen (rootFd : Nat) (relative : String) {flags : OpenFlags} (known : flags.exclusive = false) :
    (env.componentWalkOpen rootFd relative flags).Quiet := by
  unfold componentWalkOpen
  dsimp only
  split
  · exact Sys.quiet_throw _
  · rename_i last _
    refine ((quiet_dup rootFd).adapt _).bind fun root => ?_
    exact (quiet_walkDirectories root _).bind fun parent => (quiet_openat parent last known).adapt _

theorem quiet_openBeneath (rootFd : Nat) (relative : String) {flags : OpenFlags} (known : flags.exclusive = false) :
    (env.openBeneath rootFd relative flags).Quiet := by
  refine Sys.Quiet.check (((quiet_tryOpenat2 rootFd relative flags).adapt _).bind fun made => ?_)
  cases made with
  | some fd => exact Sys.quiet_pure fd
  | none => exact quiet_componentWalkOpen rootFd relative known

theorem quiet_secureOpen (relative : String) {flags : OpenFlags} (known : flags.exclusive = false) :
    (env.secureOpen config relative flags).Quiet := by
  refine (quiet_openBeneath config.rootFd relative known).bind fun fd => ?_
  refine (quiet_canonicalFromFd fd).bind fun canonical => ?_
  exact (quiet_liftExcept _).bind fun canonicalRelative => Sys.quiet_pure _

theorem quiet_openParent (parent : List (List Char)) : (env.openParent config parent).Quiet := by
  refine Sys.Quiet.ite ((quiet_dup config.rootFd).adapt _) ?_
  exact (quiet_secureOpen _ rfl).bind fun (fd, _) => Sys.quiet_pure fd

theorem quiet_secureOpenParent (relative : String) : (env.secureOpenParent config relative).Quiet := by
  unfold secureOpenParent
  dsimp only
  split
  · exact Sys.quiet_throw _
  · refine (quiet_openParent _).bind fun fd => ((quiet_fstat fd).adapt _).bind fun inode => Sys.Quiet.check ?_
    refine (quiet_canonicalFromFd fd).bind fun canonical => ?_
    exact (quiet_liftExcept _).bind fun canonicalRelative => Sys.quiet_pure _

theorem quiet_overwriteTarget (path : String) (expected : Option (List UInt8)) : (env.overwriteTarget config path expected).Quiet := by
  refine (quiet_secureOpen path rfl).bind fun (fd, canonicalRel) => ((quiet_fstat fd).adapt _).bind fun inode => ?_
  cases inode with
  | dir => exact Sys.quiet_throw _
  | link target => exact Sys.quiet_throw _
  | special => exact Sys.quiet_throw _
  | regular found =>
    refine Sys.Quiet.check ((quiet_liftExcept _).bind fun _ => ((quiet_readToEnd fd).adapt _).bind fun (existing, after) => ?_)
    exact Sys.Quiet.check (Sys.quiet_pure _)

theorem harmless_createTarget (path : String) : (env.createTarget config path).Harmless := by
  refine (quiet_secureOpenParent path).harmless_bind fun (parent, basename, canonicalRel) => ?_
  refine (quiet_liftExcept _).harmless_bind fun _ => Sys.Harmless.check ?_
  exact (harmless_syscall _).adapt _

end FsEnv

section Property
variable (env : FsEnv) (config : FsHostConfig) (path : String) (content : List UInt8) (mode : FsWriteMode)
  (expected : Option (List UInt8))

/-- A write that returns an error leaves every file as it was. -/
def FailureKeeps (s : FsState) : Prop :=
  ∀ e t, (env.writeSync config path content mode expected).run s = .error e t → ∀ p, t.volume.node p = s.volume.node p

/-- What a write does up to the file that it changes: a new one, or the one that
is about to be cut. -/
def FsEnv.writeTarget : Sys FsHostError Fd := do
  liftExcept (config.requireOperation mode.requiredOp)
  if config.maxFileBytes.toNat < content.length then throw (.tooLarge config.maxFileBytes)
  liftExcept (validateAndPrecheck path config.allowedPaths config.deniedPaths)
  match mode with
  | .create => env.createTarget config path
  | .overwrite => do
    let (fd, _, _) ← env.overwriteTarget config path expected
    return fd

/-- What is in an empty file when the write from call number `calls` on, or the
sync behind it, fails. -/
def FsEnv.failedWrite (calls : Nat) : Option (List UInt8) :=
  match (env.fault calls).filter fun fault => fault.written < content.length with
  | some fault => some (content.take fault.written)
  | none => (env.fault (calls + 1)).map fun _ => content

/-- What is in a file when a call fails that comes after the one that has cut it. -/
def FsEnv.failedReplace (calls : Nat) : Option (List UInt8) :=
  if (env.fault calls).isSome then none
  else if (env.fault (calls + 1)).isSome then some []
  else env.failedWrite content (calls + 2)

/-- No call fails after the first one that changes the file, unless the file
holds its old contents then. -/
def FailsClean (s : FsState) : Prop :=
  ∀ fd u, (env.writeTarget config path content mode expected).run s = .ok fd u →
    match mode with
    | .create => env.failedWrite content u.calls = none
    | .overwrite => ∀ left, env.failedReplace content u.calls = some left → u.volume.node fd.place = some (.regular left)

end Property

namespace FsEnv
variable {env : FsEnv} {config : FsHostConfig} {s t u : FsState} {fd : Fd} {content : List UInt8}

/-- What is behind the first change of a write. -/
def finishWrite (env : FsEnv) (fd : Fd) (content : List UInt8) : FsWriteMode → Sys FsHostError Unit
  | .create => do
    io (env.writeAll fd content)
    io (env.fsync fd)
  | .overwrite => env.replaceContents fd content

theorem syscall_run {α : Type} (act : Volume → Except Errno (α × Volume)) : (env.syscall act).run s =
    match env.fault s.calls, act s.volume with
    | some fault, _ => .error fault.errno { s with calls := s.calls + 1 }
    | none, .error errno => .error errno { s with calls := s.calls + 1 }
    | none, .ok (a, volume) => .ok a { s with volume, calls := s.calls + 1 } := by
  simp only [syscall, EStateM.run]
  cases env.fault s.calls with
  | some fault => rfl
  | none => cases act s.volume <;> rfl

theorem io_run {α : Type} {call : Sys Errno α} : (io call).run s =
    match call.run s with
    | .ok a t => .ok a t
    | .error errno t => .error (.ioError errno) t := by
  simp only [io, EStateM.run, EStateM.adaptExcept]
  cases call s <;> rfl

/-- A write into an empty file ends well, or leaves what `failedWrite` gives. -/
theorem writeAll_fsync_run (stands : s.volume.node fd.place = some (.regular [])) (start : fd.offset = 0) :
    match env.failedWrite content s.calls with
    | none => ∃ t, (io (env.writeAll fd content) >>= fun _ => io (env.fsync fd)).run s = .ok () t
    | some left => ∃ e t, (io (env.writeAll fd content) >>= fun _ => io (env.fsync fd)).run s = .error e t ∧
        ∀ p, t.volume.node p = if p = fd.place then some (.regular left) else s.volume.node p := by
  have contents : s.volume.contents fd.place = .ok [] := contents_eq_ok.2 stands
  have data : ∀ bytes, writeAt [] bytes fd.offset = bytes := by simp [writeAt, start]
  have written : (env.writeAll fd content).run s =
      match (env.fault s.calls).filter fun fault => fault.written < content.length with
      | some fault => .error fault.errno
          { s with calls := s.calls + 1, volume := s.volume.write fd.place (content.take fault.written) }
      | none => .ok () { s with calls := s.calls + 1, volume := s.volume.write fd.place content } := by
    simp only [writeAll, EStateM.run, contents, data]
    cases env.fault s.calls with
    | none => rfl
    | some fault => by_cases short : fault.written < content.length <;> simp [short, Option.filter]
  rw [EStateM.run_bind, io_run, written, failedWrite]
  cases (env.fault s.calls).filter fun fault => fault.written < content.length with
  | some fault => exact ⟨_, _, rfl, Volume.write_node stands _⟩
  | none =>
    dsimp only
    rw [io_run, fsync, syscall_run]
    dsimp only
    cases env.fault (s.calls + 1) with
    | none => exact ⟨_, rfl⟩
    | some fault => exact ⟨_, _, rfl, Volume.write_node stands _⟩

/-- The new contents are put in, or the file is left as it was, or it is left with
what `failedReplace` gives. -/
theorem replaceContents_run {old : List UInt8} (stands : s.volume.node fd.place = some (.regular old)) :
    match env.failedReplace content s.calls with
    | none => (∃ t, (env.replaceContents fd content).run s = .ok () t) ∨
        ∃ e t, (env.replaceContents fd content).run s = .error e t ∧ t.volume = s.volume
    | some left => ∃ e t, (env.replaceContents fd content).run s = .error e t ∧
        ∀ p, t.volume.node p = if p = fd.place then some (.regular left) else s.volume.node p := by
  have contents : s.volume.contents fd.place = .ok old := contents_eq_ok.2 stands
  have cut : (env.ftruncate fd).run s =
      match env.fault s.calls with
      | some fault => .error fault.errno { s with calls := s.calls + 1 }
      | none => .ok () { s with calls := s.calls + 1, volume := s.volume.write fd.place [] } := by
    rw [ftruncate, syscall_run, contents]
    cases env.fault s.calls <;> rfl
  rw [replaceContents, EStateM.run_bind, io_run, cut, failedReplace]
  cases env.fault s.calls with
  | some fault => exact .inr ⟨_, _, rfl, rfl⟩
  | none =>
    have cleared := Volume.write_node stands []
    dsimp only
    rw [EStateM.run_bind, io_run, lseekStart, syscall_run]
    dsimp only
    cases env.fault (s.calls + 1) with
    | some fault => exact ⟨_, _, rfl, cleared⟩
    | none =>
      let next : FsState := { s with calls := s.calls + 1 + 1, volume := s.volume.write fd.place [] }
      have empty : next.volume.node fd.place = some (.regular []) := by
        have now := cleared fd.place
        rw [if_pos rfl] at now
        exact now
      have rest := @writeAll_fsync_run env next { fd with offset := 0 } content empty rfl
      change match env.failedWrite content (s.calls + 2) with
        | none => _
        | some left => _
      have calls : next.calls = s.calls + 2 := rfl
      rw [calls] at rest
      cases left : env.failedWrite content (s.calls + 2) with
      | none =>
        rw [left] at rest
        exact .inl rest
      | some bytes =>
        rw [left] at rest
        obtain ⟨e, t, ran, nodes⟩ := rest
        refine ⟨e, t, ran, fun p => ?_⟩
        have now := nodes p
        have before := cleared p
        dsimp only at now
        rw [now]
        split_ifs with here
        · rfl
        · rw [if_neg here] at before
          exact before

/-- `x` fails as `y` does, or as `next` does behind `y`. -/
def FailsAs {α β γ : Type} (x : Sys FsHostError α) (y : Sys FsHostError β) (next : β → Sys FsHostError γ) : Prop :=
  ∀ s e t, x.run s = .error e t ↔ y.run s = .error e t ∨ ∃ b u, y.run s = .ok b u ∧ (next b).run u = .error e t

section Failing
variable {α β γ δ : Type} {next : β → Sys FsHostError γ}

theorem FailsAs.bind {x : Sys FsHostError δ} {f : δ → Sys FsHostError α} {g : δ → Sys FsHostError β}
    (alike : ∀ a, FailsAs (f a) (g a) next) : FailsAs (x >>= f) (x >>= g) next := by
  intro s e t
  rw [EStateM.run_bind, EStateM.run_bind]
  cases x.run s with
  | ok a u => exact alike a u e t
  | error e' u => simp

theorem FailsAs.check {c : Prop} [Decidable c] {e : FsHostError} {f : Unit → Sys FsHostError α} {g : Unit → Sys FsHostError β}
    {x : Sys FsHostError α} {y : Sys FsHostError β} (alike : FailsAs x y next) :
    FailsAs (if c then (throw e : Sys FsHostError Unit) >>= f else x) (if c then (throw e : Sys FsHostError Unit) >>= g else y) next := by
  intro s e' t
  by_cases failed : c
  · rw [if_pos failed, if_pos failed, EStateM.run_bind, EStateM.run_bind]
    simp [EStateM.run_throw]
  · rw [if_neg failed, if_neg failed]
    exact alike s e' t

theorem failsAs_map (next : β → Sys FsHostError γ) (y : Sys FsHostError β) (f : β → γ → α) :
    FailsAs (y >>= fun b => next b >>= fun c => pure (f b c)) y next := by
  intro s e t
  rw [Sys.bind_eq_error]
  refine or_congr Iff.rfl (exists_congr fun b => exists_congr fun u => and_congr_right fun _ => ?_)
  rw [EStateM.run_bind]
  cases (next b).run u <;> simp [EStateM.run_pure]

end Failing

/-- A write fails on its way to the file, or in what is behind that. -/
theorem writeSync_failsAs (path : String) (mode : FsWriteMode) (expected : Option (List UInt8)) :
    FailsAs (env.writeSync config path content mode expected) (env.writeTarget config path content mode expected)
      fun fd => finishWrite env fd content mode := by
  refine FailsAs.bind fun _ => FailsAs.check (FailsAs.bind fun _ => ?_)
  cases mode with
  | create =>
    have whole := failsAs_map (fun fd => finishWrite env fd content .create) (env.createTarget config path)
      fun _ _ => ({ beforeHash := none, afterHash := env.sha256 content, bytesBefore := 0, bytesWritten := content.length } : FsWriteResult)
    simpa only [writeCreateSync, finishWrite, bind_assoc] using whole
  | overwrite =>
    refine FailsAs.bind fun (fd, beforeHash, bytesBefore) => ?_
    have whole := failsAs_map (fun fd => finishWrite env fd content .overwrite) (pure fd)
      fun _ _ => ({ beforeHash := some beforeHash, afterHash := env.sha256 content, bytesBefore, bytesWritten := content.length } :
        FsWriteResult)
    simpa only [finishWrite, pure_bind] using whole

theorem harmless_writeTarget (path : String) (mode : FsWriteMode) (expected : Option (List UInt8)) :
    (env.writeTarget config path content mode expected).Harmless := by
  refine (quiet_liftExcept _).harmless_bind fun _ => Sys.Harmless.check ((quiet_liftExcept _).harmless_bind fun _ => ?_)
  cases mode with
  | create => exact harmless_createTarget path
  | overwrite => exact ((quiet_overwriteTarget path expected).bind fun (fd, _, _) => Sys.quiet_pure fd).error

/-- What is opened for a write is the new file or the old one. -/
theorem writeTarget_eq_ok {path : String} {mode : FsWriteMode} {expected : Option (List UInt8)}
    (ran : (env.writeTarget config path content mode expected).run s = .ok fd u) :
    match mode with
    | .create => fd.offset = 0 ∧ s.volume.node fd.place = none ∧
        ∀ p, u.volume.node p = if p = fd.place then some (.regular []) else s.volume.node p
    | .overwrite => (∃ contents, u.volume.node fd.place = some (.regular contents)) ∧ u.volume = s.volume := by
  obtain ⟨_, v, gate, ran⟩ := Sys.bind_eq_ok.1 ran
  obtain ⟨-, rfl⟩ := liftExcept_eq_ok.1 gate
  obtain ⟨-, ran⟩ := Sys.check_eq_ok.1 ran
  obtain ⟨_, v, prechecked, ran⟩ := Sys.bind_eq_ok.1 ran
  obtain ⟨-, rfl⟩ := liftExcept_eq_ok.1 prechecked
  cases mode with
  | create =>
    obtain ⟨parent, name, relative, v, opened, -, rfl, free, nodes⟩ := createTarget_makes ran
    rw [(quiet_secureOpenParent path).ok _ _ _ opened] at free nodes
    exact ⟨rfl, free, nodes⟩
  | overwrite =>
    obtain ⟨⟨made, beforeHash, bytesBefore⟩, v, opened, ran⟩ := Sys.bind_eq_ok.1 ran
    obtain ⟨rfl, rfl⟩ := Sys.pure_eq_ok.1 ran
    obtain ⟨_, _, w, contents, -, -, -, stands, same, -⟩ := overwriteTarget_opens opened
    exact ⟨⟨contents, by rw [same, stands]⟩, (quiet_overwriteTarget path expected).ok _ _ _ opened⟩

end FsEnv

/-- A failed write leaves everything as it was exactly if no call fails after the
first one that changes the file, but where the file holds its old contents. -/
theorem failureKeeps_iff (env : FsEnv) (config : FsHostConfig) (path : String) (content : List UInt8) (mode : FsWriteMode)
    (expected : Option (List UInt8)) (s : FsState) :
    FailureKeeps env config path content mode expected s ↔ FailsClean env config path content mode expected s := by
  have splits := @FsEnv.writeSync_failsAs env config content path mode expected s
  constructor
  · intro keeps fd u reached
    have behind := FsEnv.writeTarget_eq_ok reached
    have failing : ∀ e t, (FsEnv.finishWrite env fd content mode).run u = .error e t → ∀ p, t.volume.node p = s.volume.node p :=
      fun e t failed => keeps e t ((splits e t).mpr (.inr ⟨fd, u, reached, failed⟩))
    cases mode with
    | create =>
      obtain ⟨start, free, nodes⟩ := behind
      have stands : u.volume.node fd.place = some (.regular []) := by rw [nodes, if_pos rfl]
      have run := @FsEnv.writeAll_fsync_run env u fd content stands start
      cases left : env.failedWrite content u.calls with
      | none => rfl
      | some bytes =>
        rw [left] at run
        obtain ⟨e, t, failed, after⟩ := run
        have now := failing e t failed fd.place
        rw [after, if_pos rfl, free] at now
        cases now
    | overwrite =>
      obtain ⟨⟨old, stands⟩, same⟩ := behind
      have run := @FsEnv.replaceContents_run env u fd content old stands
      intro bytes left
      rw [left] at run
      obtain ⟨e, t, failed, after⟩ := run
      have now := failing e t failed fd.place
      rw [after, if_pos rfl, ← same] at now
      exact now.symm
  · intro clean e t failed
    rcases (splits e t).mp failed with early | ⟨fd, u, reached, late⟩
    · rw [FsEnv.harmless_writeTarget path mode expected s e t early]
      exact fun _ => rfl
    · have behind := FsEnv.writeTarget_eq_ok reached
      have condition := clean fd u reached
      cases mode with
      | create =>
        obtain ⟨start, free, nodes⟩ := behind
        have stands : u.volume.node fd.place = some (.regular []) := by rw [nodes, if_pos rfl]
        have run := @FsEnv.writeAll_fsync_run env u fd content stands start
        rw [condition] at run
        obtain ⟨v, ran⟩ := run
        cases ran.symm.trans late
      | overwrite =>
        obtain ⟨⟨old, stands⟩, same⟩ := behind
        have run := @FsEnv.replaceContents_run env u fd content old stands
        cases left : env.failedReplace content u.calls with
        | none =>
          rw [left] at run
          rcases run with ⟨v, ran⟩ | ⟨e', v, ran, kept⟩
          · cases ran.symm.trans late
          · cases ran.symm.trans late
            rw [kept, same]
            exact fun _ => rfl
        | some bytes =>
          rw [left] at run
          obtain ⟨e', v, ran, after⟩ := run
          cases ran.symm.trans late
          have held := condition bytes left
          intro p
          rw [after, ← same]
          split_ifs with here
          · rw [here, held]
          · rfl

/-- The seventh call, the write, finds the disk full after one byte. -/
def diskFull (calls : Nat) : Option Fault :=
  if calls = 6 then some { errno := .other 28, written := 1 } else none

/-- The old contents are gone, and one byte of the new ones is there. -/
theorem half_written : ¬FailureKeeps (beneathEnv diskFull) docsConfig "docs/a.md" [1, 2, 3] .overwrite none docsState := by
  intro keeps
  have ran : ∃ e t, ((beneathEnv diskFull).writeSync docsConfig "docs/a.md" [1, 2, 3] .overwrite none).run docsState = .error e t ∧
      t.volume.node ["docs".toList, "a.md".toList] = some (.regular [1]) := ⟨_, _, rfl, rfl⟩
  obtain ⟨e, t, failed, left⟩ := ran
  have same := keeps e t failed ["docs".toList, "a.md".toList]
  have before : docsState.volume.node ["docs".toList, "a.md".toList] = some (.regular [104, 105]) := rfl
  rw [left, before] at same
  cases same

end Latchgate
