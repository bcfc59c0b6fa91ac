import Latchgate.FileTree.Volume
import Latchgate.Providers.Task

namespace Latchgate

inductive Errno where
  | enoent
  | eexist
  | eloop
  | exdev
  | enosys
  | enotdir
  | eisdir
  | ebadf
  | einval
  | other (code : Nat)
  deriving DecidableEq

/-- Every call has `O_CLOEXEC` and `O_NOFOLLOW` besides. -/
structure OpenFlags where
  path : Bool := false
  directory : Bool := false
  write : Bool := false
  exclusive : Bool := false
  deriving DecidableEq

structure Fd where
  place : Place
  offset : Nat := 0

/-- Why a system call fails. A write may have written some bytes before. -/
structure Fault where
  errno : Errno
  written : Nat := 0

/-- The calls that fail, by their number, the open descriptors, `openat2` with
the resolution that keeps beneath the directory and follows no link, and the
hash function. -/
structure FsEnv where
  fault : Nat → Option Fault
  opened : Nat → Option Place
  sysOpenat2 : Volume → Place → String → OpenFlags → Except Errno Place
  sha256 : List UInt8 → Vector UInt8 32

inductive Openat2Available where
  | untested
  | available
  | unavailable
  deriving DecidableEq

structure FsState where
  volume : Volume
  calls : Nat
  openat2Available : Openat2Available

/-- A run of system calls. What was done before a failure stays done. -/
abbrev Sys (ε : Type) := EStateM ε FsState

namespace Sys
variable {ε α β : Type}

theorem bind_eq_ok {x : Sys ε α} {f : α → Sys ε β} {s t : FsState} {b : β} :
    (x >>= f).run s = .ok b t ↔ ∃ a u, x.run s = .ok a u ∧ (f a).run u = .ok b t := by
  rw [EStateM.run_bind]
  cases x.run s <;> simp

theorem bind_eq_error {x : Sys ε α} {f : α → Sys ε β} {s t : FsState} {e : ε} :
    (x >>= f).run s = .error e t ↔ x.run s = .error e t ∨ ∃ a u, x.run s = .ok a u ∧ (f a).run u = .error e t := by
  rw [EStateM.run_bind]
  cases x.run s <;> simp

theorem pure_eq_ok {a b : α} {s t : FsState} : (pure a : Sys ε α).run s = .ok b t ↔ a = b ∧ s = t := by
  simp [EStateM.run_pure]

theorem throw_eq_ok {e : ε} {b : α} {s t : FsState} : ¬(throw e : Sys ε α).run s = .ok b t := by
  intro thrown
  cases thrown

/-- A run that goes on behind a check has passed it. -/
theorem check_eq_ok {c : Prop} [Decidable c] {e : ε} {f : α → Sys ε β} {g : Sys ε β} {b : β} {s t : FsState} :
    (if c then (throw e : Sys ε α) >>= f else g).run s = .ok b t ↔ ¬c ∧ g.run s = .ok b t := by
  by_cases failed : c
  · rw [if_pos failed, bind_eq_ok]
    constructor
    · rintro ⟨_, _, thrown, -⟩
      exact absurd thrown throw_eq_ok
    · rintro ⟨passed, -⟩
      exact absurd failed passed
  · rw [if_neg failed]
    exact ⟨fun ran => ⟨failed, ran⟩, fun ran => ran.2⟩

theorem adaptExcept_eq_ok {ε' : Type} {f : ε → ε'} {x : Sys ε α} {a : α} {s t : FsState} :
    (EStateM.adaptExcept f x).run s = .ok a t ↔ x.run s = .ok a t := by
  simp only [EStateM.run, EStateM.adaptExcept]
  cases x s <;> simp

end Sys

namespace Volume

/-- The place that a name in a directory means. -/
def target (dir : Place) (name : List Char) : Place :=
  if name = ['.'] then dir else if name = ['.', '.'] then dir.dropLast else dir ++ [name]

/-- Opens a name in a directory. A link is never followed. -/
def openName (v : Volume) (dir : Place) (name : List Char) (flags : OpenFlags) : Except Errno (Place × Volume) :=
  if v.node dir ≠ some .dir then .error .enotdir
  else match v.node (target dir name) with
    | none =>
      if ¬flags.exclusive then .error .enoent
      else if Proper name then .ok (target dir name, v.create dir name)
      else .error .einval
    | some inode =>
      if flags.exclusive then .error .eexist
      else match inode with
        | .dir => if flags.write then .error .eisdir else .ok (target dir name, v)
        | .link _ =>
          if flags.directory then .error .enotdir
          else if flags.path then .ok (target dir name, v)
          else .error .eloop
        | .regular _ | .special => if flags.directory then .error .enotdir else .ok (target dir name, v)

/-- What a call that opens a name has found or made. -/
inductive Opens (v : Volume) (dir : Place) (name : List Char) (flags : OpenFlags) (place : Place) (after : Volume) : Prop
  | found (inode : Inode) (here : v.node place = some inode) (means : place = target dir name) (same : after = v)
      (directory : flags.directory = true → inode = .dir) (noLink : flags.path = false → ∀ link, inode ≠ .link link)
      (exclusive : flags.exclusive = false)
  | made (free : v.node place = none) (means : place = target dir name) (created : after = v.create dir name)
      (proper : Proper name) (exclusive : flags.exclusive = true)

theorem openName_eq_ok {v v' : Volume} {dir p : Place} {name : List Char} {flags : OpenFlags}
    (opened : v.openName dir name flags = .ok (p, v')) : v.node dir = some .dir ∧ v.Opens dir name flags p v' := by
  unfold openName at opened
  by_cases flat : v.node dir ≠ some .dir
  · rw [if_pos flat] at opened
    cases opened
  rw [if_neg flat] at opened
  refine ⟨not_not.mp flat, ?_⟩
  cases found : v.node (target dir name) with
  | none =>
    simp only [found] at opened
    split_ifs at opened with exclusive proper
    cases opened
    exact .made found rfl rfl proper exclusive
  | some inode =>
    have plain : ¬flags.exclusive = true := by
      intro exclusive
      simp [found, exclusive] at opened
    have once : flags.exclusive = false := by simpa using plain
    cases inode with
    | dir =>
      simp only [found, once, Bool.false_eq_true, if_false] at opened
      split_ifs at opened
      cases opened
      exact .found .dir found rfl rfl (fun _ => rfl) (fun _ _ => by simp) once
    | link link =>
      simp only [found, once, Bool.false_eq_true, if_false] at opened
      split_ifs at opened with directory path
      cases opened
      exact .found _ found rfl rfl (fun wanted => absurd wanted directory) (fun not => by simp [path] at not) once
    | regular contents =>
      simp only [found, once, Bool.false_eq_true, if_false] at opened
      split_ifs at opened with directory
      cases opened
      exact .found _ found rfl rfl (fun wanted => absurd wanted directory) (fun _ _ => by simp) once
    | special =>
      simp only [found, once, Bool.false_eq_true, if_false] at opened
      split_ifs at opened with directory
      cases opened
      exact .found _ found rfl rfl (fun wanted => absurd wanted directory) (fun _ _ => by simp) once

def contents (v : Volume) (place : Place) : Except Errno (List UInt8) :=
  match v.node place with
  | some (.regular contents) => .ok contents
  | some .dir => .error .eisdir
  | _ => .error .einval

end Volume

/-- Contents with `data` written at an offset. -/
def writeAt (old data : List UInt8) (offset : Nat) : List UInt8 :=
  old.take offset ++ List.replicate (offset - old.length) 0 ++ data ++ old.drop (offset + data.length)

namespace FsEnv
variable (env : FsEnv)

/-- One system call: it is refused, or it does what `act` gives. -/
def syscall {α : Type} (act : Volume → Except Errno (α × Volume)) : Sys Errno α := fun s =>
  let after := { s with calls := s.calls + 1 }
  match env.fault s.calls with
  | some fault => .error fault.errno after
  | none =>
    match act s.volume with
    | .error errno => .error errno after
    | .ok (a, volume) => .ok a { after with volume }

def dup (fd : Nat) : Sys Errno Fd :=
  env.syscall fun v =>
    match env.opened fd with
    | some place => .ok ({ place }, v)
    | none => .error .ebadf

def openat (dir : Fd) (name : List Char) (flags : OpenFlags) : Sys Errno Fd :=
  env.syscall fun v => (v.openName dir.place name flags).map fun (place, v) => ({ place }, v)

def openat2 (dirfd : Nat) (path : String) (flags : OpenFlags) : Sys Errno Fd :=
  env.syscall fun v =>
    match env.opened dirfd with
    | some dir => (env.sysOpenat2 v dir path flags).map fun place => ({ place }, v)
    | none => .error .ebadf

def fstat (fd : Fd) : Sys Errno Inode :=
  env.syscall fun v =>
    match v.node fd.place with
    | some inode => .ok (inode, v)
    | none => .error .enoent

/-- The path under which the kernel knows an open descriptor. -/
def readlink (fd : Fd) : Sys Errno Place :=
  env.syscall fun v => .ok (fd.place, v)

def readToEnd (fd : Fd) : Sys Errno (List UInt8 × Fd) :=
  env.syscall fun v => (v.contents fd.place).map fun contents =>
    ((contents.drop fd.offset, { fd with offset := max fd.offset contents.length }), v)

def ftruncate (fd : Fd) : Sys Errno Unit :=
  env.syscall fun v => (v.contents fd.place).map fun _ => ((), v.write fd.place [])

def lseekStart (fd : Fd) : Sys Errno Fd :=
  env.syscall fun v => .ok ({ fd with offset := 0 }, v)

/-- Writes all bytes, or fails when some of them are written. -/
def writeAll (fd : Fd) (data : List UInt8) : Sys Errno Unit := fun s =>
  let after := { s with calls := s.calls + 1 }
  match s.volume.contents fd.place with
  | .error errno => .error errno after
  | .ok old =>
    match env.fault s.calls with
    | some fault =>
      if fault.written < data.length then
        .error fault.errno { after with volume := s.volume.write fd.place (writeAt old (data.take fault.written) fd.offset) }
      else .ok () { after with volume := s.volume.write fd.place (writeAt old data fd.offset) }
    | none => .ok () { after with volume := s.volume.write fd.place (writeAt old data fd.offset) }

def fsync (_ : Fd) : Sys Errno Unit :=
  env.syscall fun v => .ok ((), v)

def unlinkat (dir : Fd) (name : List Char) : Sys Errno Unit :=
  env.syscall fun v =>
    match v.node (dir.place ++ [name]) with
    | none => .error .enoent
    | some .dir => .error .eisdir
    | some _ => .ok ((), v.unlink (dir.place ++ [name]))

variable {env} {α : Type}

theorem syscall_eq_ok {act : Volume → Except Errno (α × Volume)} {s t : FsState} {a : α} :
    (env.syscall act).run s = .ok a t ↔
      env.fault s.calls = none ∧ ∃ volume, act s.volume = .ok (a, volume) ∧
        t = { s with volume, calls := s.calls + 1 } := by
  simp only [syscall, EStateM.run]
  cases env.fault s.calls with
  | some fault => simp
  | none =>
    cases act s.volume with
    | error errno => simp
    | ok made =>
      obtain ⟨b, volume⟩ := made
      simp only [EStateM.Result.ok.injEq, Except.ok.injEq, Prod.mk.injEq, true_and]
      constructor
      · rintro ⟨rfl, rfl⟩
        exact ⟨volume, ⟨rfl, rfl⟩, rfl⟩
      · rintro ⟨_, ⟨rfl, rfl⟩, rfl⟩
        exact ⟨rfl, rfl⟩

/-- A call that fails has changed nothing. -/
theorem volume_of_syscall_error {act : Volume → Except Errno (α × Volume)} {s t : FsState} {errno : Errno}
    (ran : (env.syscall act).run s = .error errno t) : t.volume = s.volume := by
  simp only [syscall, EStateM.run] at ran
  cases refused : env.fault s.calls with
  | some fault =>
    simp only [refused, EStateM.Result.error.injEq] at ran
    rw [← ran.2]
  | none =>
    cases made : act s.volume with
    | error e =>
      simp only [refused, made, EStateM.Result.error.injEq] at ran
      rw [← ran.2]
    | ok result => simp [refused, made] at ran

theorem dup_eq_ok {fd : Nat} {s t : FsState} {made : Fd} :
    (env.dup fd).run s = .ok made t → env.opened fd = some made.place ∧ t.volume = s.volume := by
  intro ran
  obtain ⟨-, volume, act, rfl⟩ := syscall_eq_ok.1 ran
  cases found : env.opened fd with
  | none => simp [found] at act
  | some place =>
    simp only [found, Except.ok.injEq, Prod.mk.injEq] at act
    exact ⟨by rw [← act.1], act.2.symm⟩

theorem openat_eq_ok {dir fd : Fd} {name : List Char} {flags : OpenFlags} {s t : FsState}
    (ran : (env.openat dir name flags).run s = .ok fd t) :
    s.volume.node dir.place = some .dir ∧ s.volume.Opens dir.place name flags fd.place t.volume ∧ fd.offset = 0 := by
  obtain ⟨-, volume, act, rfl⟩ := syscall_eq_ok.1 ran
  cases opened : s.volume.openName dir.place name flags with
  | error errno => simp [opened, Except.map] at act
  | ok made =>
    obtain ⟨place, after⟩ := made
    simp only [opened, Except.map, Except.ok.injEq, Prod.mk.injEq] at act
    obtain ⟨rfl, rfl⟩ := act
    exact ⟨(Volume.openName_eq_ok opened).1, (Volume.openName_eq_ok opened).2, rfl⟩

theorem openat2_eq_ok {dirfd : Nat} {path : String} {flags : OpenFlags} {fd : Fd} {s t : FsState}
    (ran : (env.openat2 dirfd path flags).run s = .ok fd t) :
    (∃ dir, env.opened dirfd = some dir ∧ env.sysOpenat2 s.volume dir path flags = .ok fd.place) ∧
      fd.offset = 0 ∧ t.volume = s.volume := by
  obtain ⟨-, volume, act, rfl⟩ := syscall_eq_ok.1 ran
  cases found : env.opened dirfd with
  | none => simp [found] at act
  | some dir =>
    cases opened : env.sysOpenat2 s.volume dir path flags with
    | error errno => simp [found, opened, Except.map] at act
    | ok place =>
      simp only [found, opened, Except.map, Except.ok.injEq, Prod.mk.injEq] at act
      obtain ⟨rfl, rfl⟩ := act
      exact ⟨⟨dir, rfl, opened⟩, rfl, rfl⟩

theorem fstat_eq_ok {fd : Fd} {s t : FsState} {inode : Inode} (ran : (env.fstat fd).run s = .ok inode t) :
    s.volume.node fd.place = some inode ∧ t.volume = s.volume := by
  obtain ⟨-, volume, act, rfl⟩ := syscall_eq_ok.1 ran
  cases found : s.volume.node fd.place with
  | none => simp [found] at act
  | some known =>
    simp only [found, Except.ok.injEq, Prod.mk.injEq] at act
    exact ⟨congrArg some act.1, act.2.symm⟩

theorem readlink_eq_ok {fd : Fd} {s t : FsState} {place : Place} (ran : (env.readlink fd).run s = .ok place t) :
    place = fd.place ∧ t.volume = s.volume := by
  obtain ⟨-, volume, act, rfl⟩ := syscall_eq_ok.1 ran
  simp only [Except.ok.injEq, Prod.mk.injEq] at act
  exact ⟨act.1.symm, act.2.symm⟩

theorem contents_eq_ok {v : Volume} {place : Place} {contents : List UInt8} :
    v.contents place = .ok contents ↔ v.node place = some (.regular contents) := by
  unfold Volume.contents
  cases v.node place with
  | none => simp
  | some inode => cases inode <;> simp

theorem readToEnd_eq_ok {fd after : Fd} {s t : FsState} {data : List UInt8}
    (ran : (env.readToEnd fd).run s = .ok (data, after) t) :
    (∃ contents, s.volume.node fd.place = some (.regular contents) ∧ data = contents.drop fd.offset) ∧
      after.place = fd.place ∧ t.volume = s.volume := by
  obtain ⟨-, volume, act, rfl⟩ := syscall_eq_ok.1 ran
  cases found : s.volume.contents fd.place with
  | error errno => simp [found, Except.map] at act
  | ok contents =>
    simp only [found, Except.map, Except.ok.injEq, Prod.mk.injEq] at act
    obtain ⟨⟨rfl, rfl⟩, rfl⟩ := act
    exact ⟨⟨contents, contents_eq_ok.1 found, rfl⟩, rfl, rfl⟩

theorem ftruncate_eq_ok {fd : Fd} {s t : FsState} (ran : (env.ftruncate fd).run s = .ok () t) :
    (∃ contents, s.volume.node fd.place = some (.regular contents)) ∧ t.volume = s.volume.write fd.place [] := by
  obtain ⟨-, volume, act, rfl⟩ := syscall_eq_ok.1 ran
  cases found : s.volume.contents fd.place with
  | error errno => simp [found, Except.map] at act
  | ok contents =>
    simp only [found, Except.map, Except.ok.injEq, Prod.mk.injEq, true_and] at act
    exact ⟨⟨contents, contents_eq_ok.1 found⟩, act.symm⟩

theorem lseekStart_eq_ok {fd after : Fd} {s t : FsState} (ran : (env.lseekStart fd).run s = .ok after t) :
    after = { fd with offset := 0 } ∧ t.volume = s.volume := by
  obtain ⟨-, volume, act, rfl⟩ := syscall_eq_ok.1 ran
  simp only [Except.ok.injEq, Prod.mk.injEq] at act
  exact ⟨act.1.symm, act.2.symm⟩

theorem writeAll_eq_ok {fd : Fd} {data : List UInt8} {s t : FsState} (ran : (env.writeAll fd data).run s = .ok () t) :
    ∃ old, s.volume.node fd.place = some (.regular old) ∧ t.volume = s.volume.write fd.place (writeAt old data fd.offset) := by
  simp only [writeAll, EStateM.run] at ran
  cases found : s.volume.contents fd.place with
  | error errno => simp [found] at ran
  | ok old =>
    refine ⟨old, contents_eq_ok.1 found, ?_⟩
    cases refused : env.fault s.calls with
    | none =>
      simp only [found, refused, EStateM.Result.ok.injEq, true_and] at ran
      rw [← ran]
    | some fault =>
      simp only [found, refused] at ran
      split_ifs at ran
      simp only [EStateM.Result.ok.injEq, true_and] at ran
      rw [← ran]

theorem fsync_eq_ok {fd : Fd} {s t : FsState} (ran : (env.fsync fd).run s = .ok () t) : t.volume = s.volume := by
  obtain ⟨-, volume, act, rfl⟩ := syscall_eq_ok.1 ran
  simp only [Except.ok.injEq, Prod.mk.injEq, true_and] at act
  exact act.symm

theorem unlinkat_eq_ok {dir : Fd} {name : List Char} {s t : FsState} (ran : (env.unlinkat dir name).run s = .ok () t) :
    t.volume = s.volume.unlink (dir.place ++ [name]) := by
  obtain ⟨-, volume, act, rfl⟩ := syscall_eq_ok.1 ran
  cases found : s.volume.node (dir.place ++ [name]) with
  | none => simp [found] at act
  | some inode =>
    cases inode with
    | dir => simp [found] at act
    | regular contents =>
      simp only [found, Except.ok.injEq, Prod.mk.injEq, true_and] at act
      exact act.symm
    | link link =>
      simp only [found, Except.ok.injEq, Prod.mk.injEq, true_and] at act
      exact act.symm
    | special =>
      simp only [found, Except.ok.injEq, Prod.mk.injEq, true_and] at act
      exact act.symm

end FsEnv
end Latchgate
