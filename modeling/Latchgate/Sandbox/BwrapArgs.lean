import Mathlib.Data.List.Infix

namespace Latchgate.Bwrap

/-- The parts of an absolute path, as a walk from the root finds them. -/
def walk : List (List Char) → List (List Char) → List (List Char)
  | back, [] => back.reverse
  | back, part :: rest =>
    if part = [] ∨ part = ['.'] then walk back rest
    else if part = ['.', '.'] then walk back.tail rest
    else walk (part :: back) rest

def parts (path : String) : List (List Char) :=
  walk [] (path.toList.splitOn '/')

/-- A number in decimal digits. -/
def readNumber (text : List Char) : Option Nat :=
  if text ≠ [] ∧ text.all Char.isDigit then some (Nat.ofDigitChars 10 text 0) else none

inductive Mount where
  | bind (source dest : String)
  | roBind (source dest : String)
  | roBindTry (source dest : String)
  | tmpfs (dest : String)
  | proc (dest : String)
  | dev (dest : String)
  deriving DecidableEq

/-- What is found at a path: a place of the host, or a file system of the
sandbox's own. -/
structure Seen where
  host : Option (List (List Char))
  writable : Bool
  deriving DecidableEq

namespace Mount

def dest : Mount → String
  | bind _ dest | roBind _ dest | roBindTry _ dest | tmpfs dest | proc dest | dev dest => dest

/-- What the mount shows so far below its own place. -/
def shows (m : Mount) (rest : List (List Char)) : Seen :=
  match m with
  | bind source _ => ⟨some (parts source ++ rest), true⟩
  | roBind source _ | roBindTry source _ => ⟨some (parts source ++ rest), false⟩
  | tmpfs _ | proc _ | dev _ => ⟨none, true⟩

/-- A source that may be missing leaves the mount out. -/
def made (present : String → Bool) : Mount → Bool
  | roBindTry source _ => present source
  | _ => true

def showsAt (present : String → Bool) (m : Mount) (path : List (List Char)) : Option Seen :=
  if m.made present ∧ parts m.dest <+: path then some (m.shows (path.drop (parts m.dest).length)) else none

end Mount

/-- What is found at a path. A later mount hides an earlier one. -/
def find (present : String → Bool) (path : List (List Char)) : List Mount → Option Seen
  | [] => none
  | m :: rest => (find present path rest).or (m.showsAt present path)

section Find
variable {present : String → Bool} {path : List (List Char)}

theorem find_append (first second : List Mount) :
    find present path (first ++ second) = (find present path second).or (find present path first) := by
  induction first with
  | nil => rw [List.nil_append, find, Option.or_none]
  | cons m rest ih => rw [List.cons_append, find, find, ih, Option.or_assoc]

/-- What is found is shown by one of the mounts. -/
theorem exists_of_find {ms : List Mount} {seen : Seen} (found : find present path ms = some seen) :
    ∃ m ∈ ms, m.showsAt present path = some seen := by
  induction ms with
  | nil => cases found
  | cons m rest ih =>
    rw [find, Option.or_eq_some_iff] at found
    rcases found with later | ⟨-, here⟩
    · obtain ⟨n, member, shows_⟩ := ih later
      exact ⟨n, List.mem_cons_of_mem m member, shows_⟩
    · exact ⟨m, List.mem_cons_self, here⟩

theorem find_eq_none {ms : List Mount} (beside : ∀ m ∈ ms, ¬parts m.dest <+: path) : find present path ms = none := by
  induction ms with
  | nil => rfl
  | cons m rest ih =>
    obtain ⟨here, later⟩ := List.forall_mem_cons.mp beside
    rw [find, ih later, Mount.showsAt, if_neg fun covers => here covers.2]
    rfl

/-- A mount that nothing after it hides is what is found. -/
theorem find_cons {m : Mount} {rest : List Mount} (hidden : find present path rest = none) :
    find present path (m :: rest) = m.showsAt present path := by
  rw [find, hidden, Option.none_or]

end Find

/-- The value that a name has in the end. -/
def valueOf (name : String) : List (String × String) → Option String
  | [] => none
  | var :: rest => (valueOf name rest).or (if var.1 = name then some var.2 else none)

section ValueOf
variable {name : String}

theorem valueOf_append (first second : List (String × String)) :
    valueOf name (first ++ second) = (valueOf name second).or (valueOf name first) := by
  induction first with
  | nil => rw [List.nil_append, valueOf, Option.or_none]
  | cons var rest ih => rw [List.cons_append, valueOf, valueOf, ih, Option.or_assoc]

theorem valueOf_eq_none {vars : List (String × String)} : valueOf name vars = none ↔ ∀ var ∈ vars, var.1 ≠ name := by
  induction vars with
  | nil => simp only [valueOf, List.not_mem_nil, false_imp_iff, implies_true]
  | cons var rest ih =>
    rw [valueOf, Option.or_eq_none_iff, ih, List.forall_mem_cons, and_comm]
    simp only [ite_eq_right_iff, reduceCtorEq, imp_false, ne_eq]

theorem mem_of_valueOf {vars : List (String × String)} {value : String} (found : valueOf name vars = some value) :
    (name, value) ∈ vars := by
  induction vars with
  | nil => cases found
  | cons var rest ih =>
    rw [valueOf, Option.or_eq_some_iff] at found
    rcases found with later | ⟨-, here⟩
    · exact List.mem_cons_of_mem var (ih later)
    · split_ifs at here with same
      rw [← same, ← Option.some.inj here]
      exact List.mem_cons_self

end ValueOf

/-- What the arguments ask for. -/
structure Invocation where
  unshared : List String := []
  hostname : Option String := none
  capabilities : List String := []
  uid : Option Nat := none
  gid : Option Nat := none
  dieWithParent : Bool := false
  newSession : Bool := false
  mounts : List Mount := []
  clearEnv : Bool := false
  env : List (String × String) := []
  command : List String := []
  deriving DecidableEq

namespace Invocation
variable (i : Invocation)

def mount (m : Mount) : Invocation :=
  { i with mounts := i.mounts ++ [m] }

/-- A name that cannot be set ends the program. -/
def setEnv (name value : String) : Option Invocation :=
  if name = "" ∨ '=' ∈ name.toList then none else some { i with env := i.env ++ [(name, value)] }

end Invocation

namespace Invocation
variable (i : Invocation)

/-- The options without an argument. -/
def flag (option : String) : Option Invocation :=
  if option = "--unshare-user" then some { i with unshared := i.unshared ++ ["user"] }
  else if option = "--unshare-pid" then some { i with unshared := i.unshared ++ ["pid"] }
  else if option = "--unshare-uts" then some { i with unshared := i.unshared ++ ["uts"] }
  else if option = "--unshare-ipc" then some { i with unshared := i.unshared ++ ["ipc"] }
  else if option = "--unshare-cgroup" then some { i with unshared := i.unshared ++ ["cgroup"] }
  else if option = "--unshare-net" then some { i with unshared := i.unshared ++ ["net"] }
  else if option = "--die-with-parent" then some { i with dieWithParent := true }
  else if option = "--new-session" then some { i with newSession := true }
  else if option = "--clearenv" then some { i with clearEnv := true, env := [] }
  else none

/-- The options with one argument. The inner value is missing where it cannot
be read. -/
def unary (option value : String) : Option (Option Invocation) :=
  if option = "--hostname" then some (some { i with hostname := some value })
  else if option = "--cap-add" then some (some { i with capabilities := i.capabilities ++ [value] })
  else if option = "--uid" then some ((readNumber value.toList).map fun uid => { i with uid := some uid })
  else if option = "--gid" then some ((readNumber value.toList).map fun gid => { i with gid := some gid })
  else if option = "--tmpfs" then some (some (i.mount (.tmpfs value)))
  else if option = "--proc" then some (some (i.mount (.proc value)))
  else if option = "--dev" then some (some (i.mount (.dev value)))
  else none

/-- The options with two arguments. -/
def binary (option first second : String) : Option Invocation :=
  if option = "--bind" then some (i.mount (.bind first second))
  else if option = "--ro-bind" then some (i.mount (.roBind first second))
  else if option = "--ro-bind-try" then some (i.mount (.roBindTry first second))
  else if option = "--setenv" then i.setEnv first second
  else none

end Invocation

/-- The arguments from left to right; what is behind `--` is the command. -/
def readArgs (i : Invocation) : List String → Option Invocation
  | [] => some i
  | option :: rest =>
    if option = "--" then some { i with command := rest }
    else
      match i.flag option with
      | some i => readArgs i rest
      | none =>
        match rest with
        | [] => none
        | first :: rest =>
          match i.unary option first with
          | some i => i.bind fun i => readArgs i rest
          | none =>
            match rest with
            | [] => none
            | second :: rest => (i.binary option first second).bind fun i => readArgs i rest

section Read
variable (i : Invocation) (rest : List String)

theorem readArgs_command : readArgs i ("--" :: rest) = some { i with command := rest } := by
  rw [readArgs.eq_def]
  exact if_pos rfl

theorem readArgs_flag {option : String} {j : Invocation} (other : option ≠ "--") (reads : i.flag option = some j) :
    readArgs i (option :: rest) = readArgs j rest := by
  rw [readArgs.eq_def]
  simp only [if_neg other, reads]

theorem readArgs_unary {option value : String} {j : Option Invocation} (other : option ≠ "--") (noFlag : i.flag option = none)
    (reads : i.unary option value = some j) : readArgs i (option :: value :: rest) = j.bind fun j => readArgs j rest := by
  rw [readArgs.eq_def]
  simp only [if_neg other, noFlag, reads]

theorem readArgs_binary {option first second : String} (other : option ≠ "--") (noFlag : i.flag option = none)
    (notUnary : i.unary option first = none) :
    readArgs i (option :: first :: second :: rest) = (i.binary option first second).bind fun j => readArgs j rest := by
  rw [readArgs.eq_def]
  simp only [if_neg other, noFlag, notUnary]

theorem readNumber_toString (n : Nat) : readNumber (toString n).toList = some n := by
  have digits : (toString n).toList = Nat.toDigits 10 n := Nat.toList_repr
  have all : ∀ c ∈ Nat.toDigits 10 n, c.isDigit = true :=
    fun c member => Nat.isDigit_of_mem_toDigits (by decide) (by decide) member
  rw [digits, readNumber, if_pos ⟨Nat.toDigits_ne_nil, List.all_eq_true.mpr all⟩, Nat.ofDigitChars_ten_toDigits]

theorem readArgs_uid (uid : Nat) : readArgs i ("--uid" :: toString uid :: rest) = readArgs { i with uid := some uid } rest := by
  rw [readArgs_unary i rest (by decide) rfl rfl, readNumber_toString]
  rfl

theorem readArgs_gid (gid : Nat) : readArgs i ("--gid" :: toString gid :: rest) = readArgs { i with gid := some gid } rest := by
  rw [readArgs_unary i rest (by decide) rfl rfl, readNumber_toString]
  rfl

theorem readArgs_bind (source dest : String) :
    readArgs i ("--bind" :: source :: dest :: rest) = readArgs (i.mount (.bind source dest)) rest :=
  readArgs_binary i rest (by decide) rfl rfl

theorem readArgs_roBind (source dest : String) :
    readArgs i ("--ro-bind" :: source :: dest :: rest) = readArgs (i.mount (.roBind source dest)) rest :=
  readArgs_binary i rest (by decide) rfl rfl

theorem readArgs_roBindTry (source dest : String) :
    readArgs i ("--ro-bind-try" :: source :: dest :: rest) = readArgs (i.mount (.roBindTry source dest)) rest :=
  readArgs_binary i rest (by decide) rfl rfl

theorem readArgs_roBinds (mounts : List String) :
    readArgs i (mounts.flatMap (fun mount => ["--ro-bind", mount, mount]) ++ rest) =
      readArgs { i with mounts := i.mounts ++ mounts.map fun mount => .roBind mount mount } rest := by
  induction mounts generalizing i with
  | nil => rw [List.map_nil, List.append_nil]; rfl
  | cons mount mounts ih =>
    rw [List.flatMap_cons, List.append_assoc]
    refine (readArgs_roBind i _ mount mount).trans ((ih _).trans ?_)
    rw [Invocation.mount, List.append_assoc, List.singleton_append, List.map_cons]

theorem readArgs_roBindTries (mounts : List String) :
    readArgs i (mounts.flatMap (fun mount => ["--ro-bind-try", mount, mount]) ++ rest) =
      readArgs { i with mounts := i.mounts ++ mounts.map fun mount => .roBindTry mount mount } rest := by
  induction mounts generalizing i with
  | nil => rw [List.map_nil, List.append_nil]; rfl
  | cons mount mounts ih =>
    rw [List.flatMap_cons, List.append_assoc]
    refine (readArgs_roBindTry i _ mount mount).trans ((ih _).trans ?_)
    rw [Invocation.mount, List.append_assoc, List.singleton_append, List.map_cons]

/-- Names that can be set are all set. -/
theorem readArgs_setEnv {vars : List (String × String)} (settable : ∀ var ∈ vars, var.1 ≠ "" ∧ '=' ∉ var.1.toList) :
    readArgs i (vars.flatMap (fun var => ["--setenv", var.1, var.2]) ++ rest) = readArgs { i with env := i.env ++ vars } rest := by
  induction vars generalizing i with
  | nil => rw [List.append_nil]; rfl
  | cons var vars ih =>
    obtain ⟨⟨named, plain⟩, later⟩ := List.forall_mem_cons.mp settable
    rw [List.flatMap_cons, List.append_assoc]
    refine (readArgs_binary i _ (by decide) rfl rfl).trans ?_
    have sets : i.binary "--setenv" var.1 var.2 = some { i with env := i.env ++ [var] } := by
      refine (show i.binary "--setenv" var.1 var.2 = i.setEnv var.1 var.2 from rfl).trans ?_
      rw [Invocation.setEnv, if_neg (not_or.mpr ⟨named, plain⟩)]
    rw [sets, Option.bind_some]
    exact (ih _ later).trans (by rw [List.append_assoc, List.singleton_append])

end Read

end Latchgate.Bwrap
