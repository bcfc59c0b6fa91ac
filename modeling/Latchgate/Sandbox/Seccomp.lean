import Latchgate.Bpf.Classic
import Mathlib.Tactic.Common

namespace Latchgate.Sandbox
open Bpf

/-- The architectures the filter is built for. -/
inductive Arch where
  | x86_64
  | aarch64
  deriving DecidableEq

/-- The calls that the filter names. -/
inductive Syscall where
  | mount | umount2 | pivotRoot | openTree | moveMount | fsopen | fsconfig | fsmount | fspick | mountSetattr
  | unshare | setns | ptrace | processVmReadv | processVmWritev | kcmp
  | kexecLoad | kexecFileLoad | initModule | finitModule | deleteModule
  | reboot | swapon | swapoff | acct | settimeofday | clockSettime | sethostname | setdomainname
  | bpf | perfEventOpen | userfaultfd | ioUringSetup | ioUringEnter | ioUringRegister | pidfdOpen | pidfdGetfd
  | memfdCreate | shmget | shmat | shmctl | shmdt | msgget | msgsnd | msgrcv | msgctl
  | semget | semop | semctl | semtimedop
  | mqOpen | mqUnlink | mqTimedsend | mqTimedreceive | mqNotify | mqGetsetattr
  | addKey | requestKey | keyctl | processMadvise | landlockCreateRuleset | landlockAddRule | landlockRestrictSelf
  | clone | clone3

namespace Arch

def x86_64Number : Syscall → UInt32
  | .mount => 165 | .umount2 => 166 | .pivotRoot => 155 | .unshare => 272 | .setns => 308 | .ptrace => 101
  | .processVmReadv => 310 | .processVmWritev => 311 | .kcmp => 312 | .kexecLoad => 246 | .kexecFileLoad => 320
  | .initModule => 175 | .finitModule => 313 | .deleteModule => 176 | .reboot => 169 | .swapon => 167
  | .swapoff => 168 | .acct => 163 | .settimeofday => 164 | .clockSettime => 227 | .sethostname => 170
  | .setdomainname => 171 | .bpf => 321 | .perfEventOpen => 298 | .userfaultfd => 323 | .memfdCreate => 319
  | .shmget => 29 | .shmat => 30 | .shmctl => 31 | .shmdt => 67 | .msgget => 68 | .msgsnd => 69 | .msgrcv => 70
  | .msgctl => 71 | .semget => 64 | .semop => 65 | .semctl => 66 | .semtimedop => 220 | .mqOpen => 240
  | .mqUnlink => 241 | .mqTimedsend => 242 | .mqTimedreceive => 243 | .mqNotify => 244 | .mqGetsetattr => 245
  | .addKey => 248 | .requestKey => 249 | .keyctl => 250 | .clone => 56 | .ioUringSetup => 425 | .ioUringEnter => 426
  | .ioUringRegister => 427 | .openTree => 428 | .moveMount => 429 | .fsopen => 430 | .fsconfig => 431
  | .fsmount => 432 | .fspick => 433 | .pidfdOpen => 434 | .clone3 => 435 | .pidfdGetfd => 438
  | .processMadvise => 440 | .mountSetattr => 442 | .landlockCreateRuleset => 444 | .landlockAddRule => 445
  | .landlockRestrictSelf => 446

def aarch64Number : Syscall → UInt32
  | .mount => 40 | .umount2 => 39 | .pivotRoot => 41 | .unshare => 97 | .setns => 268 | .ptrace => 117
  | .processVmReadv => 270 | .processVmWritev => 271 | .kcmp => 272 | .kexecLoad => 104 | .kexecFileLoad => 294
  | .initModule => 105 | .finitModule => 273 | .deleteModule => 106 | .reboot => 142 | .swapon => 224
  | .swapoff => 225 | .acct => 89 | .settimeofday => 170 | .clockSettime => 112 | .sethostname => 161
  | .setdomainname => 162 | .bpf => 280 | .perfEventOpen => 241 | .userfaultfd => 282 | .memfdCreate => 279
  | .shmget => 194 | .shmat => 196 | .shmctl => 195 | .shmdt => 197 | .msgget => 186 | .msgsnd => 189
  | .msgrcv => 188 | .msgctl => 187 | .semget => 190 | .semop => 193 | .semctl => 191 | .semtimedop => 192
  | .mqOpen => 180 | .mqUnlink => 181 | .mqTimedsend => 182 | .mqTimedreceive => 183 | .mqNotify => 184
  | .mqGetsetattr => 185 | .addKey => 217 | .requestKey => 218 | .keyctl => 219 | .clone => 220
  | .ioUringSetup => 425 | .ioUringEnter => 426 | .ioUringRegister => 427 | .openTree => 428 | .moveMount => 429
  | .fsopen => 430 | .fsconfig => 431 | .fsmount => 432 | .fspick => 433 | .pidfdOpen => 434 | .clone3 => 435
  | .pidfdGetfd => 438 | .processMadvise => 440 | .mountSetattr => 442 | .landlockCreateRuleset => 444
  | .landlockAddRule => 445 | .landlockRestrictSelf => 446

def number : Arch → Syscall → UInt32
  | x86_64 => x86_64Number
  | aarch64 => aarch64Number

def auditArchNative : Arch → UInt32
  | x86_64 => 0xC000003E
  | aarch64 => 0xC00000B7

def blocked (arch : Arch) : List UInt32 :=
  [Syscall.mount, .umount2, .pivotRoot, .openTree, .moveMount, .fsopen, .fsconfig, .fsmount, .fspick, .mountSetattr,
    .unshare, .setns, .ptrace, .processVmReadv, .processVmWritev, .kcmp, .kexecLoad, .kexecFileLoad, .initModule,
    .finitModule, .deleteModule, .reboot, .swapon, .swapoff, .acct, .settimeofday, .clockSettime, .sethostname,
    .setdomainname, .bpf, .perfEventOpen, .userfaultfd, .ioUringSetup, .ioUringEnter, .ioUringRegister, .pidfdOpen,
    .pidfdGetfd, .memfdCreate, .shmget, .shmat, .shmctl, .shmdt, .msgget, .msgsnd, .msgrcv, .msgctl, .semget, .semop,
    .semctl, .semtimedop, .mqOpen, .mqUnlink, .mqTimedsend, .mqTimedreceive, .mqNotify, .mqGetsetattr, .addKey,
    .requestKey, .keyctl, .processMadvise, .landlockCreateRuleset, .landlockAddRule, .landlockRestrictSelf].map arch.number

def sysPkeyMprotect : UInt32 := 329
def sysPkeyAlloc : UInt32 := 330
def sysPkeyFree : UInt32 := 331

/-- The memory protection keys, under numbers that are others elsewhere. -/
def archBlocked : Arch → List UInt32
  | x86_64 => [sysPkeyMprotect, sysPkeyAlloc, sysPkeyFree]
  | aarch64 => []

end Arch

/-- The flags of `clone` that create a namespace. -/
def namespaceFlagsMask : UInt32 :=
  0x00000080 ||| 0x00020000 ||| 0x02000000 ||| 0x04000000 ||| 0x08000000 ||| 0x10000000 ||| 0x20000000 ||| 0x40000000

def x32SyscallBit : UInt32 := 0x40000000

def seccompRetAllow : UInt32 := 0x7fff0000
def seccompRetErrno : UInt32 := 0x00050000
def seccompRetKillProcess : UInt32 := 0x80000000

def denyEperm : UInt32 := seccompRetErrno ||| (1 &&& 0xFFFF)
def denyEnosys : UInt32 := seccompRetErrno ||| (38 &&& 0xFFFF)

def offsetNr : UInt32 := 0
def offsetArch : UInt32 := 4
def offsetArgs0Lo : UInt32 := 16

/-- What the kernel shows a filter of a call. -/
structure SeccompData where
  nr : UInt32
  arch : UInt32
  instructionPointer : UInt64
  args : Fin 6 → UInt64

namespace SeccompData

def halves (n : UInt64) : List UInt32 :=
  [n.toUInt32, (n >>> 32).toUInt32]

/-- The record in memory, the low half of each long word first. -/
def words (d : SeccompData) : List UInt32 :=
  [d.nr, d.arch] ++ halves d.instructionPointer ++ (List.finRange 6).flatMap fun i => halves (d.args i)

/-- The word at an offset in bytes; no word starts between two. -/
def word (d : SeccompData) (offset : UInt32) : Option UInt32 :=
  if offset.toNat % 4 = 0 then d.words[offset.toNat / 4]? else none

end SeccompData

/-- The offsets that a load may use. -/
def loadable (offset : UInt32) : Bool :=
  offset.toNat % 4 = 0 ∧ offset.toNat < 64

def denyEntry (nr : UInt32) : List SockFilter :=
  [jump (bpfJmp ||| bpfJeq ||| bpfK) nr 0 1, stmt (bpfRet ||| bpfK) denyEperm]

def x32Guard : Arch → List SockFilter
  | .x86_64 => [jump (bpfJmp ||| bpfJge ||| bpfK) x32SyscallBit 0 1, stmt (bpfRet ||| bpfK) seccompRetKillProcess]
  | .aarch64 => []

/-- The program, in the order it is pushed. -/
def buildFilter (arch : Arch) : List SockFilter :=
  [stmt (bpfLd ||| bpfW ||| bpfAbs) offsetArch,
    jump (bpfJmp ||| bpfJeq ||| bpfK) arch.auditArchNative 1 0,
    stmt (bpfRet ||| bpfK) seccompRetKillProcess,
    stmt (bpfLd ||| bpfW ||| bpfAbs) offsetNr] ++
  x32Guard arch ++
  [jump (bpfJmp ||| bpfJeq ||| bpfK) (arch.number .clone3) 0 1,
    stmt (bpfRet ||| bpfK) denyEnosys,
    jump (bpfJmp ||| bpfJeq ||| bpfK) (arch.number .clone) 0 5,
    stmt (bpfLd ||| bpfW ||| bpfAbs) offsetArgs0Lo,
    stmt (bpfAlu ||| bpfAnd ||| bpfK) namespaceFlagsMask,
    jump (bpfJmp ||| bpfJeq ||| bpfK) 0 1 0,
    stmt (bpfRet ||| bpfK) denyEperm,
    stmt (bpfRet ||| bpfK) seccompRetAllow,
    stmt (bpfLd ||| bpfW ||| bpfAbs) offsetNr] ++
  arch.blocked.flatMap denyEntry ++ arch.archBlocked.flatMap denyEntry ++
  [stmt (bpfRet ||| bpfK) seccompRetAllow]

/-! The policy. -/

section Policy
variable (arch : Arch) (d : SeccompData)

/-- The first argument has a flag that creates a namespace. -/
def CreatesNamespace : Prop :=
  d.args 0 &&& namespaceFlagsMask.toUInt64 ≠ 0

instance : Decidable (CreatesNamespace d) :=
  inferInstanceAs (Decidable (_ ≠ _))

/-- A call of the native interface, where `x32` are the numbers of the other
one that shares the architecture. -/
def Native (x32 : UInt32 → Prop) : Prop :=
  d.arch = arch.auditArchNative ∧ ¬(arch = .x86_64 ∧ x32 d.nr)

/-- The documented verdicts. -/
inductive Documented (x32 : UInt32 → Prop) : UInt32 → Prop
  | killed : ¬Native arch d x32 → Documented x32 seccompRetKillProcess
  | clone3 : Native arch d x32 → d.nr = arch.number .clone3 → Documented x32 denyEnosys
  | namespaceDenied : Native arch d x32 → d.nr = arch.number .clone → CreatesNamespace d → Documented x32 denyEperm
  | fork : Native arch d x32 → d.nr = arch.number .clone → ¬CreatesNamespace d → Documented x32 seccompRetAllow
  | blocked : Native arch d x32 → d.nr ∈ arch.blocked ++ arch.archBlocked → Documented x32 denyEperm
  | allowed : Native arch d x32 → d.nr ≠ arch.number .clone3 → d.nr ≠ arch.number .clone →
      d.nr ∉ arch.blocked ++ arch.archBlocked → Documented x32 seccompRetAllow

/-- The verdict in the order of the program. -/
def verdict : UInt32 :=
  if d.arch = arch.auditArchNative then
    if arch = .x86_64 ∧ x32SyscallBit ≤ d.nr then seccompRetKillProcess
    else if d.nr = arch.number .clone3 then denyEnosys
    else if d.nr = arch.number .clone then if CreatesNamespace d then denyEperm else seccompRetAllow
    else if d.nr ∈ arch.blocked then denyEperm
    else if d.nr ∈ arch.archBlocked then denyEperm
    else seccompRetAllow
  else seccompRetKillProcess

end Policy

namespace SeccompData
variable (d : SeccompData)

@[simp] theorem word_nr : d.word offsetNr = some d.nr :=
  rfl

@[simp] theorem word_arch : d.word offsetArch = some d.arch :=
  rfl

@[simp] theorem word_args0 : d.word offsetArgs0Lo = some (d.args 0).toUInt32 :=
  rfl

theorem words_length : d.words.length = 16 := by
  simp [words, halves]

theorem isSome_word {offset : UInt32} (inside : loadable offset = true) : (d.word offset).isSome = true := by
  simp only [loadable, decide_eq_true_eq] at inside
  rw [word, if_pos inside.1, Option.isSome_iff_exists]
  exact ⟨_, List.getElem?_eq_getElem (by rw [words_length]; omega)⟩

end SeccompData

/-- The mask is as wide as the half of the argument that is loaded. -/
theorem masked_eq_zero_iff (flags : UInt64) :
    flags.toUInt32 &&& namespaceFlagsMask = 0 ↔ flags &&& namespaceFlagsMask.toUInt64 = 0 := by
  have narrow : (flags &&& namespaceFlagsMask.toUInt64).toUInt32 = flags.toUInt32 &&& namespaceFlagsMask := by
    rw [UInt64.toUInt32_and, UInt32.toUInt32_toUInt64]
  have small : (flags &&& namespaceFlagsMask.toUInt64).toNat < 2 ^ 32 := by
    rw [UInt64.toNat_and]
    exact Nat.lt_of_le_of_lt Nat.and_le_right (by decide)
  rw [← narrow, ← UInt32.toNat_inj, ← UInt64.toNat_inj, UInt64.toNat_toUInt32, Nat.mod_eq_of_lt small]
  rfl

theorem createsNamespace_iff (d : SeccompData) : CreatesNamespace d ↔ (d.args 0).toUInt32 &&& namespaceFlagsMask ≠ 0 :=
  not_congr (masked_eq_zero_iff (d.args 0)).symm

theorem exec_x32Guard {word : UInt32 → Option UInt32} (arch : Arch) (rest : List SockFilter) (a : UInt32) :
    exec word (x32Guard arch ++ rest) 0 a =
      if arch = .x86_64 ∧ x32SyscallBit ≤ a then some seccompRetKillProcess else exec word rest 0 a := by
  cases arch with
  | aarch64 => rfl
  | x86_64 =>
    rw [x32Guard, List.cons_append, List.cons_append, List.nil_append, exec_jge]
    by_cases x32 : x32SyscallBit ≤ a
    · rw [if_pos x32, if_pos ⟨rfl, x32⟩]
      exact exec_ret _ _ a
    · rw [if_neg x32, if_neg fun both => x32 both.2]
      exact exec_skip _ rest 0 a

theorem exec_denyEntries {word : UInt32 → Option UInt32} (numbers : List UInt32) (rest : List SockFilter) (a : UInt32) :
    exec word (numbers.flatMap denyEntry ++ rest) 0 a = if a ∈ numbers then some denyEperm else exec word rest 0 a :=
  exec_denyAll numbers denyEperm rest a

/-- The flags are loaded over the number, and every way on from there returns. -/
theorem exec_clone (d : SeccompData) (number : UInt32) (rest : List SockFilter) (a : UInt32) :
    exec d.word (jump (bpfJmp ||| bpfJeq ||| bpfK) number 0 5 :: stmt (bpfLd ||| bpfW ||| bpfAbs) offsetArgs0Lo ::
      stmt (bpfAlu ||| bpfAnd ||| bpfK) namespaceFlagsMask :: jump (bpfJmp ||| bpfJeq ||| bpfK) 0 1 0 ::
      stmt (bpfRet ||| bpfK) denyEperm :: stmt (bpfRet ||| bpfK) seccompRetAllow :: rest) 0 a =
      if a = number then some (if CreatesNamespace d then denyEperm else seccompRetAllow) else exec d.word rest 0 a := by
  rw [exec_jeq]
  by_cases same : a = number
  · rw [if_pos same, if_pos same]
    change exec d.word (stmt (bpfLd ||| bpfW ||| bpfAbs) offsetArgs0Lo :: _) 0 a = _
    rw [exec_load, SeccompData.word_args0, Option.bind_some, exec_mask, exec_jeq]
    by_cases plain : (d.args 0).toUInt32 &&& namespaceFlagsMask = 0
    · rw [if_pos plain, if_neg (mt (createsNamespace_iff d).mp (not_not.mpr plain))]
      rfl
    · rw [if_neg plain, if_pos ((createsNamespace_iff d).mpr plain)]
      rfl
  · rw [if_neg same, if_neg same]
    rfl

/-- The program gives the verdict of the chain of conditions. -/
theorem run_buildFilter (arch : Arch) (d : SeccompData) : run d.word (buildFilter arch) = some (verdict arch d) := by
  unfold run buildFilter
  simp only [List.append_assoc, List.cons_append, List.nil_append]
  rw [exec_load, SeccompData.word_arch, Option.bind_some, exec_jeq, verdict]
  by_cases native : d.arch = arch.auditArchNative
  · rw [if_pos native, if_pos native]
    change exec d.word (stmt (bpfLd ||| bpfW ||| bpfAbs) offsetNr :: _) 0 d.arch = _
    rw [exec_load, SeccompData.word_nr, Option.bind_some, exec_x32Guard, exec_deny, exec_clone, exec_load,
      SeccompData.word_nr, Option.bind_some, exec_denyEntries, exec_denyEntries, exec_ret]
    split_ifs <;> rfl
  · rw [if_neg native, if_neg native]
    rfl

theorem clone3_not_blocked (arch : Arch) : arch.number .clone3 ∉ arch.blocked ++ arch.archBlocked := by
  cases arch <;> decide

theorem clone_not_blocked (arch : Arch) : arch.number .clone ∉ arch.blocked ++ arch.archBlocked := by
  cases arch <;> decide

theorem clone_ne_clone3 (arch : Arch) : arch.number .clone ≠ arch.number .clone3 := by
  cases arch <;> decide

/-- No two of the documented conditions meet, so their order does not matter. -/
theorem documented_iff (arch : Arch) (d : SeccompData) (action : UInt32) :
    Documented arch d (x32SyscallBit ≤ ·) action ↔ verdict arch d = action := by
  have listed : d.nr ∈ arch.blocked ++ arch.archBlocked ↔ d.nr ∈ arch.blocked ∨ d.nr ∈ arch.archBlocked := List.mem_append
  have clone3Free := clone3_not_blocked arch
  have cloneFree := clone_not_blocked arch
  have different := clone_ne_clone3 arch
  constructor
  · intro documented
    unfold verdict
    cases documented with
    | killed foreign =>
      by_cases native : d.arch = arch.auditArchNative
      · rw [if_pos native, if_pos (not_not.mp fun served => foreign ⟨native, served⟩)]
      · rw [if_neg native]
    | clone3 served called => rw [if_pos served.1, if_neg served.2, if_pos called]
    | namespaceDenied served called creates =>
      rw [if_pos served.1, if_neg served.2, if_neg (called ▸ different), if_pos called, if_pos creates]
    | fork served called plain =>
      rw [if_pos served.1, if_neg served.2, if_neg (called ▸ different), if_pos called, if_neg plain]
    | blocked served member =>
      have notClone3 : d.nr ≠ arch.number .clone3 := fun called => clone3Free (by rw [← called]; exact member)
      have notClone : d.nr ≠ arch.number .clone := fun called => cloneFree (by rw [← called]; exact member)
      rw [if_pos served.1, if_neg served.2, if_neg notClone3, if_neg notClone]
      rcases listed.mp member with first | second
      · rw [if_pos first]
      · rw [if_pos second, ite_self]
    | allowed served notClone3 notClone free =>
      rw [listed, not_or] at free
      rw [if_pos served.1, if_neg served.2, if_neg notClone3, if_neg notClone, if_neg free.1, if_neg free.2]
  · rintro rfl
    unfold verdict
    split_ifs with native x32 isClone3 isClone creates first second
    · exact .killed fun served => served.2 x32
    · exact .clone3 ⟨native, x32⟩ isClone3
    · exact .namespaceDenied ⟨native, x32⟩ isClone creates
    · exact .fork ⟨native, x32⟩ isClone creates
    · exact .blocked ⟨native, x32⟩ (listed.mpr (.inl first))
    · exact .blocked ⟨native, x32⟩ (listed.mpr (.inr second))
    · exact .allowed ⟨native, x32⟩ isClone3 isClone (mt listed.mp (not_or.mpr ⟨first, second⟩))
    · exact .killed fun served => native served.1

theorem buildFilter_closed (arch : Arch) : closed loadable (buildFilter arch) = true := by
  cases arch <;> decide +kernel

theorem buildFilter_length (arch : Arch) : (buildFilter arch).length < UInt16.size := by
  cases arch <;> decide +kernel

/-- On each architecture: for every call the program returns exactly what is
documented, every instruction loads inside the data and goes on inside the
program, from each of them the run ends in a return, and the length fits. -/
theorem filter_meets_policy (arch : Arch) :
    (∀ (d : SeccompData) (action : UInt32),
      run d.word (buildFilter arch) = some action ↔ Documented arch d (x32SyscallBit ≤ ·) action) ∧
    closed loadable (buildFilter arch) = true ∧
    (∀ (d : SeccompData) (start : Nat) (a : UInt32), start < (buildFilter arch).length →
      ∃ value, exec d.word (buildFilter arch) start a = some value) ∧
    (buildFilter arch).length < UInt16.size := by
  refine ⟨fun d action => ?_, buildFilter_closed arch, fun d start a inside => ?_, buildFilter_length arch⟩
  · rw [run_buildFilter, Option.some.injEq, documented_iff]
  · exact exec_of_closed (fun _ => d.isSome_word) (buildFilter_closed arch) inside a

/-- The lowest number without the bit that the guard kills. -/
def aboveX32 : SeccompData where
  nr := 0x80000000
  arch := Arch.x86_64.auditArchNative
  instructionPointer := 0
  args _ := 0

theorem killed_without_x32_bit : ¬∀ (d : SeccompData) (action : UInt32),
    run d.word (buildFilter .x86_64) = some action ↔ Documented .x86_64 d (fun nr => nr &&& x32SyscallBit ≠ 0) action := by
  intro documented
  have allowed : Documented .x86_64 aboveX32 (fun nr => nr &&& x32SyscallBit ≠ 0) seccompRetAllow :=
    .allowed ⟨rfl, by decide⟩ (by decide) (by decide) (by decide)
  have verdicts := (documented aboveX32 seccompRetAllow).mpr allowed
  have killed : run aboveX32.word (buildFilter .x86_64) = some seccompRetKillProcess := by decide
  rw [killed] at verdicts
  exact absurd verdicts (by decide)

end Latchgate.Sandbox
