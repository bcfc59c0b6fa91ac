import Latchgate.Core.PathNames
import Latchgate.Providers.FsCalls
import Mathlib.Algebra.GroupWithZero.Nat

namespace Latchgate

inductive FsHostError where
  | operationNotAllowed (operation : FsOperation)
  | pathNotAllowed
  | pathDenied (path : String)
  | pathNotFound (context : String)
  | pathInvalid (reason : String)
  | alreadyExists
  | tooLarge (limit : UInt64)
  | symlinkEscape (context : String)
  | traversal
  | specialFile (context : String)
  | conflict
  | ioError (errno : Errno)
  deriving DecidableEq

def mapOpenError (errno : Errno) (context : String) : FsHostError :=
  match errno with
  | .enoent => .pathNotFound context
  | .eexist => .alreadyExists
  | .eloop => .symlinkEscape context
  | .exdev => .symlinkEscape context
  | e => .ioError e

namespace FsPath

/-- `C:` and the like. -/
def hasDrive (path : String) : Bool :=
  match path.toList with
  | letter :: colon :: _ => letter.isAlpha ∧ colon = ':'
  | _ => false

/-- A control character. In UTF-8 its byte is part of no other character. -/
def isControl (c : Char) : Bool :=
  c.toNat ≤ 0x1F ∨ c.toNat = 0x7F

def offsetOf (path : List Char) (c : Char) : Nat :=
  ((path.takeWhile (· ≠ c)).map Char.utf8Size).sum

local instance lawfulName : LawfulBEq (List Char) :=
  inferInstance

def validatePathString (path : String) : Except FsHostError Unit :=
  if path = "" then .error (.pathInvalid "empty path")
  else if path.toList.head? = some '/' ∨ path.toList.head? = some '\\' then .error (.pathInvalid "absolute path")
  else if hasDrive path then .error (.pathInvalid "drive prefix")
  else if ['\\', '\\'].isPrefixOf path.toList then .error (.pathInvalid "UNC prefix")
  else match path.toList.find? isControl with
    | some c =>
      let offset := toString (offsetOf path.toList c)
      if c.toNat = 0 then .error (.pathInvalid ("null byte at offset " ++ offset))
      else .error (.pathInvalid ("control character 0x" ++ hexByte c.toNat.toUInt8 ++ " at offset " ++ offset))
    | none => if ['.', '.'] ∈ segments path then .error .traversal else .ok ()

/-- A relative path up to its last component. A `.` in front is a component. -/
def trimRight : List (List Char) → List (List Char)
  | ['.'] :: rest => ['.'] :: rest.rdropWhile skipped
  | path => path.rdropWhile skipped

def fileName (path : List (List Char)) : Option (List Char) :=
  match (trimRight path).getLast? with
  | none => none
  | some name => if name = ['.'] ∨ name = ['.', '.'] then none else some name

def parent (path : List (List Char)) : List (List Char) :=
  trimRight (trimRight path).dropLast

def join (path : String) (name : List Char) : String :=
  if path = "" ∨ path.toList.getLast? = some '/' then path ++ String.ofList name
  else path ++ "/" ++ String.ofList name

/-- The absolute path of a place. -/
def ofPlace (place : Place) : String :=
  String.ofList ('/' :: List.intercalate ['/'] place)

theorem named_trimRight (path : List (List Char)) :
    ((trimRight path).filter fun s => !skipped s) = path.filter fun s => !skipped s := by
  unfold trimRight
  split
  · rename_i rest
    have dot : skipped ['.'] = true := by decide
    rw [List.filter_cons_of_neg (by simp [dot]), List.filter_cons_of_neg (by simp [dot]), filter_rdropWhile]
  · exact filter_rdropWhile path

/-- The last component of a path names something, unless it is the `.` in front. -/
theorem trimRight_last {path front : List (List Char)} {name : List Char} (last : trimRight path = front ++ [name]) :
    name = ['.'] ∨ skipped name = false := by
  have back : ∀ names : List (List Char), names.rdropWhile skipped = front ++ [name] → skipped name = false := by
    intro names same
    have left := List.rdropWhile_last_not skipped names (by rw [same]; simp)
    simpa [same] using left
  unfold trimRight at last
  split at last
  · rename_i rest
    cases front with
    | nil =>
      rw [List.nil_append] at last
      injection last with same
      exact .inl same.symm
    | cons first front =>
      rw [List.cons_append] at last
      injection last with _ tail
      right
      have left := List.rdropWhile_last_not skipped rest (by rw [tail]; simp)
      simpa [tail] using left
  · exact .inr (back path last)

theorem mem_of_mem_trimRight {path : List (List Char)} {name : List Char} (member : name ∈ trimRight path) : name ∈ path := by
  unfold trimRight at member
  split at member
  · rcases List.mem_cons.mp member with rfl | later
    · exact List.mem_cons_self
    · exact List.mem_cons_of_mem _ ((List.rdropWhile_prefix _ _).mem later)
  · exact (List.rdropWhile_prefix _ _).mem member

theorem mem_of_mem_parent {path : List (List Char)} {name : List Char} (member : name ∈ parent path) : name ∈ path :=
  mem_of_mem_trimRight (List.mem_of_mem_dropLast (mem_of_mem_trimRight member))

/-- A path names what its parent names, and its last name behind it. -/
theorem named_fileName {path : List (List Char)} {name : List Char} (last : fileName path = some name) :
    (path.filter fun s => !skipped s) = ((parent path).filter fun s => !skipped s) ++ [name] ∧
      skipped name = false ∧ name ≠ ['.', '.'] ∧ name ∈ path := by
  unfold fileName at last
  cases found : (trimRight path).getLast? with
  | none => simp [found] at last
  | some other =>
    simp only [found, Option.ite_none_left_eq_some, Option.some.injEq, not_or] at last
    obtain ⟨⟨notDot, notUp⟩, rfl⟩ := last
    obtain ⟨front, split⟩ := List.getLast?_eq_some_iff.mp found
    have names : skipped other = false := (trimRight_last split).resolve_left notDot
    have inside : other ∈ trimRight path := by simp [split]
    refine ⟨?_, names, notUp, ?_⟩
    · rw [parent, named_trimRight, ← named_trimRight path, split, List.dropLast_concat, List.filter_append,
        List.filter_cons_of_pos (by simp [names]), List.filter_nil]
    · have kept : other ∈ (trimRight path).filter fun s => !skipped s := List.mem_filter.mpr ⟨inside, by simp [names]⟩
      rw [named_trimRight] at kept
      exact List.mem_of_mem_filter kept

end FsPath

def checkDenyAllow (path : String) (allowed denied : List GlobPattern) : Except FsHostError Unit :=
  match evaluatePath path allowed denied with
  | .allowed => .ok ()
  | .denied => .error (.pathDenied path)
  | .notMatched => .error .pathNotAllowed

def validateAndPrecheck (path : String) (allowed denied : List GlobPattern) : Except FsHostError Unit := do
  FsPath.validatePathString path
  checkDenyAllow path allowed denied

/-- What is left of the path of a descriptor behind the root. -/
def verifyUnderRoot (fdCanonical rootCanonical : String) : Except FsHostError String :=
  let left :=
    if rootCanonical = "" then some fdCanonical
    else if absolute : FsPath.isAbsolute rootCanonical = true then FsPath.stripPrefix fdCanonical ⟨rootCanonical, absolute⟩
    else none
  match left with
  | some relative => .ok relative
  | none => .error (.symlinkEscape ("fd path " ++ fdCanonical ++ " escapes root " ++ rootCanonical))

theorem checkDenyAllow_eq_ok {path : String} {allowed denied : List GlobPattern} :
    checkDenyAllow path allowed denied = .ok () ↔ evaluatePath path allowed denied = .allowed := by
  unfold checkDenyAllow
  cases evaluatePath path allowed denied <;> simp

/-- A path that passes the checks on its text does not go up. -/
theorem down_of_validated {path : String} {allowed denied : List GlobPattern}
    (checked : validateAndPrecheck path allowed denied = .ok ()) : ['.', '.'] ∉ FsPath.segments path := by
  obtain ⟨_, valid, -⟩ := Except.bind_eq_ok.1 checked
  unfold FsPath.validatePathString at valid
  split_ifs at valid with _ _ _ _ up
  · split at valid
    · dsimp only at valid
      split_ifs at valid
    · cases valid
  · exact up

theorem Proper.kept {name : List Char} (proper : Proper name) : FsPath.skipped name = false := by
  simp [FsPath.skipped, proper.1, proper.2.1]

namespace FsPath

theorem intercalate_concat (names : List (List Char)) (some_ : names ≠ []) (name : List Char) :
    List.intercalate ['/'] (names ++ [name]) = List.intercalate ['/'] names ++ '/' :: name := by
  induction names with
  | nil => exact absurd rfl some_
  | cons first names ih =>
    cases names with
    | nil => rw [List.singleton_append, List.intercalate_cons_cons, List.intercalate_singleton, List.intercalate_singleton,
        List.append_assoc, List.singleton_append]
    | cons next more =>
      rw [List.cons_append, List.cons_append, List.intercalate_cons_cons, ← List.cons_append,
        ih (List.cons_ne_nil next more), List.intercalate_cons_cons]
      simp only [List.append_assoc]

theorem join_slash (text name : List Char) (ends : text.getLast? ≠ some '/') (some_ : text ≠ []) :
    join (String.ofList text) name = String.ofList (text ++ '/' :: name) := by
  have nonempty : String.ofList text ≠ "" := by
    intro same
    exact some_ (by rw [← String.toList_ofList (l := text), same]; rfl)
  rw [join, if_neg (by simp [nonempty, ends]), ← String.toList_inj]
  simp

/-- A name goes behind the text of other names. -/
theorem join_ofSegments {names : List (List Char)} (proper : ∀ name ∈ names, Proper name) (name : List Char) :
    join (ofSegments names) name = ofSegments (names ++ [name]) := by
  rcases List.eq_nil_or_concat names with rfl | ⟨front, last, rfl⟩
  · rw [ofSegments, List.intercalate_nil, join, if_pos (.inl rfl), ofSegments, List.nil_append, List.intercalate_singleton]
    rfl
  · rw [List.concat_eq_append] at proper ⊢
    have clean := proper last (by simp)
    have ends : (List.intercalate ['/'] (front ++ [last])).getLast? = last.getLast? := by
      by_cases first : front = []
      · rw [first, List.nil_append, List.intercalate_singleton]
      · rw [intercalate_concat front first, List.getLast?_append_cons, List.getLast?_cons_of_ne_nil clean.1]
    have text : List.intercalate ['/'] (front ++ [last]) ≠ [] := by
      intro nothing
      rw [nothing, List.getLast?_nil] at ends
      exact clean.1 (List.getLast?_eq_none_iff.mp ends.symm)
    have noSlash : (List.intercalate ['/'] (front ++ [last])).getLast? ≠ some '/' := by
      rw [ends]
      intro slash
      exact clean.2.2.2 (List.mem_of_getLast? slash)
    rw [ofSegments, join_slash _ name noSlash text, ofSegments, intercalate_concat (front ++ [last]) (by simp)]

theorem segments_ofPlace {place : Place} (proper : ∀ name ∈ place, Proper name) :
    segments (ofPlace place) = [] :: (if place = [] then [[]] else place) := by
  by_cases top : place = []
  · rw [top]
    rfl
  · rw [if_neg top, ofPlace, segments, String.toList_ofList]
    have whole : '/' :: List.intercalate ['/'] place = List.intercalate ['/'] ([] :: place) := by
      obtain ⟨first, more, rfl⟩ := List.exists_cons_of_ne_nil top
      rw [List.intercalate_cons_cons]
      rfl
    rw [whole, List.splitOn_intercalate '/' _ (List.cons_ne_nil [] place)]
    intro name member
    rcases List.mem_cons.mp member with rfl | inside
    · exact List.not_mem_nil
    · exact (proper name inside).2.2.2

theorem stripSegments_proper {place root : List (List Char)} (proper : ∀ name ∈ place, skipped name = false) :
    stripSegments place root = if root.isPrefixOf place then some (place.drop root.length) else none := by
  induction root generalizing place with
  | nil => simp [stripSegments]
  | cons r root ih =>
    cases place with
    | nil => simp [stripSegments]
    | cons name place =>
      have first : skipped name = false := proper name List.mem_cons_self
      rw [stripSegments, List.dropWhile_cons_of_neg (by simp [first])]
      by_cases same : name = r
      · subst same
        simp only [if_true, ih fun other member => proper other (List.mem_cons_of_mem _ member)]
        simp
      · simp [same, Ne.symm same]

/-- What is left of the path of a place behind a root. -/
theorem stripPrefix_ofPlace {place : Place} (proper : ∀ name ∈ place, Proper name) (root : Root) :
    stripPrefix (ofPlace place) root =
      if (named root.path).isPrefixOf place then some (ofSegments (place.drop (named root.path).length)) else none := by
  have kept : ∀ name ∈ place, skipped name = false := fun name member => (proper name member).kept
  have trimmed : ∀ names : List (List Char), (∀ name ∈ names, skipped name = false) →
      (names.dropWhile skipped).rdropWhile skipped = names := by
    intro names clear
    have front : names.dropWhile skipped = names :=
      List.dropWhile_eq_self_iff.mpr fun some_ => by simp [clear _ (List.getElem_mem some_)]
    have back : names.rdropWhile skipped = names :=
      List.rdropWhile_eq_self_iff.mpr fun some_ => by simp [clear _ (List.getLast_mem some_)]
    rw [front, back]
  have nothing : skipped [] = true := by decide
  rw [stripPrefix, ← named, segments_ofPlace proper]
  cases names : named root.path with
  | nil =>
    rw [stripSegments, List.isPrefixOf, if_pos rfl, Option.map_some, List.dropWhile_cons_of_pos nothing]
    by_cases top : place = []
    · rw [top]
      rfl
    · rw [if_neg top, trimmed place kept]
      rfl
  | cons r rest =>
    rw [stripSegments, List.dropWhile_cons_of_pos nothing, ← stripSegments]
    by_cases top : place = []
    · rw [top]
      rfl
    · rw [if_neg top, stripSegments_proper kept]
      split_ifs with within
      · rw [Option.map_some, trimmed _ fun name member => kept name (List.mem_of_mem_drop member)]
        rfl
      · rfl

theorem named_ofPlace {place : Place} (proper : ∀ name ∈ place, Proper name) : named (ofPlace place) = place := by
  have kept : (place.filter fun s => !skipped s) = place :=
    List.filter_eq_self.mpr fun name member => by simp [(proper name member).kept]
  rw [named, segments_ofPlace proper]
  by_cases top : place = []
  · rw [top]
    rfl
  · rw [if_neg top, List.filter_cons_of_neg (by decide), kept]

theorem join_ofPlace {place : Place} (proper : ∀ name ∈ place, Proper name) (name : List Char) :
    join (ofPlace place) name = ofPlace (place ++ [name]) := by
  by_cases top : place = []
  · rw [top, ofPlace, List.intercalate_nil, join, if_pos (.inr rfl), ← String.toList_inj, ofPlace, List.nil_append,
      List.intercalate_singleton]
    simp
  · have text : ∀ q : Place, q ≠ [] → '/' :: List.intercalate ['/'] q = List.intercalate ['/'] ([] :: q) := by
      intro q some_
      obtain ⟨first, more, rfl⟩ := List.exists_cons_of_ne_nil some_
      rw [List.intercalate_cons_cons]
      rfl
    obtain ⟨front, last, split⟩ := (List.eq_nil_or_concat place).resolve_left top
    rw [List.concat_eq_append] at split
    have clean : Proper last := proper last (by simp [split])
    have ends : ('/' :: List.intercalate ['/'] place).getLast? = last.getLast? := by
      rw [text place top, split, ← List.cons_append, intercalate_concat ([] :: front) (by simp), List.getLast?_append_cons,
        List.getLast?_cons_of_ne_nil clean.1]
    rw [ofPlace, join_slash _ name _ (by simp), ofPlace, List.cons_append, intercalate_concat place top]
    rw [ends]
    intro slash
    exact clean.2.2.2 (List.mem_of_getLast? slash)

end FsPath

/-- The path of a file below the root is the one of its directory with the name
behind it. -/
theorem verifyUnderRoot_join {dir : Place} {name : List Char} {rootCanonical relative : String}
    (proper : ∀ n ∈ dir ++ [name], Proper n) (under : verifyUnderRoot (FsPath.ofPlace dir) rootCanonical = .ok relative) :
    verifyUnderRoot (FsPath.ofPlace (dir ++ [name])) rootCanonical = .ok (FsPath.join relative name) := by
  have above : ∀ n ∈ dir, Proper n := fun n member => proper n (List.mem_append_left _ member)
  unfold verifyUnderRoot at under ⊢
  by_cases void : rootCanonical = ""
  · simp only [void, if_true, Except.ok.injEq] at under ⊢
    rw [← under, FsPath.join_ofPlace above]
  · by_cases absolute : FsPath.isAbsolute rootCanonical = true
    · simp only [void, if_false, absolute, dite_true, FsPath.stripPrefix_ofPlace above, FsPath.stripPrefix_ofPlace proper] at under ⊢
      by_cases within : (FsPath.named rootCanonical).isPrefixOf dir = true
      · simp only [within, if_true, Except.ok.injEq] at under
        have inside := List.isPrefixOf_iff_prefix.mp within
        have further : (FsPath.named rootCanonical).isPrefixOf (dir ++ [name]) = true :=
          List.isPrefixOf_iff_prefix.mpr (inside.trans (List.prefix_append dir [name]))
        simp only [further, if_true, Except.ok.injEq]
        rw [← under, FsPath.join_ofSegments fun n member => above n (List.mem_of_mem_drop member),
          List.drop_append_of_le_length inside.length_le]
      · simp [within] at under
    · simp [void, absolute] at under

/-- Below the directory that the configuration names, what is left are the names
below it. -/
theorem verifyUnderRoot_below {root below : Place} (proper : ∀ n ∈ root ++ below, Proper n) :
    verifyUnderRoot (FsPath.ofPlace (root ++ below)) (FsPath.ofPlace root) = .ok (FsPath.ofSegments below) := by
  have above : ∀ n ∈ root, Proper n := fun n member => proper n (List.mem_append_left _ member)
  have absolute : FsPath.isAbsolute (FsPath.ofPlace root) = true := by simp [FsPath.isAbsolute, FsPath.ofPlace]
  have nonempty : FsPath.ofPlace root ≠ "" := by
    intro void
    rw [void] at absolute
    exact absurd absolute (by decide)
  have within : root.isPrefixOf (root ++ below) = true := List.isPrefixOf_iff_prefix.mpr (List.prefix_append root below)
  unfold verifyUnderRoot
  simp only [nonempty, if_false, absolute, dite_true, FsPath.stripPrefix_ofPlace proper, FsPath.named_ofPlace above, within,
    if_true, List.drop_left]

namespace FsEnv
variable (env : FsEnv)

/-- A call whose failure is an I/O error. -/
def io {α : Type} (call : Sys Errno α) : Sys FsHostError α :=
  EStateM.adaptExcept .ioError call

def liftExcept {α : Type} (result : Except FsHostError α) : Sys FsHostError α :=
  match result with
  | .ok a => pure a
  | .error e => throw e

def canonicalFromFd (fd : Fd) : Sys FsHostError String := do
  let place ← io (env.readlink fd)
  return FsPath.ofPlace place

/-- `none` when the kernel does not have the call. -/
def tryOpenat2 (dirfd : Nat) (path : String) (flags : OpenFlags) : Sys Errno (Option Fd) := fun s =>
  if s.openat2Available = .unavailable then .ok none s
  else match (env.openat2 dirfd path flags).run s with
    | .ok fd t => .ok (some fd) { t with openat2Available := .available }
    | .error .enosys t => .ok none { t with openat2Available := .unavailable }
    | .error errno t => .error errno t

/-- The directories of a path, one after the other. -/
def walkDirectories (fd : Fd) : List (List Char) → Sys FsHostError Fd
  | [] => pure fd
  | component :: rest => do
    let context := String.ofList component
    let next ← EStateM.adaptExcept (fun e => if e = .eloop then .symlinkEscape context else mapOpenError e context)
      (env.openat fd component { path := true, directory := true })
    let inode ← io (env.fstat next)
    if inode ≠ .dir then throw (.specialFile ("intermediate `" ++ context ++ "` is not a directory"))
    walkDirectories next rest

def componentWalkOpen (rootFd : Nat) (relative : String) (flags : OpenFlags) : Sys FsHostError Fd := do
  let components := (FsPath.segments relative).filter fun c => c ≠ []
  match components.getLast? with
  | none => throw (.pathInvalid "empty path after split")
  | some last => do
    let root ← io (env.dup rootFd)
    let parent ← env.walkDirectories root components.dropLast
    EStateM.adaptExcept (fun e => mapOpenError e (String.ofList last)) (env.openat parent last flags)

def openBeneath (rootFd : Nat) (relative : String) (flags : OpenFlags) : Sys FsHostError Fd := do
  if Char.ofNat 0 ∈ relative.toList then throw (.pathInvalid "null in path")
  match ← EStateM.adaptExcept (fun e => mapOpenError e relative) (env.tryOpenat2 rootFd relative flags) with
  | some fd => return fd
  | none => env.componentWalkOpen rootFd relative flags

/-- The descriptor and its path below the root. -/
def secureOpen (config : FsHostConfig) (relative : String) (flags : OpenFlags) : Sys FsHostError (Fd × String) := do
  let fd ← env.openBeneath config.rootFd relative flags
  let canonical ← env.canonicalFromFd fd
  let canonicalRelative ← liftExcept (verifyUnderRoot canonical config.rootCanonical)
  return (fd, canonicalRelative)

/-- The directory of a path without its last name; the root if nothing is left. -/
def openParent (config : FsHostConfig) (parent : List (List Char)) : Sys FsHostError Fd :=
  if parent = [] then io (env.dup config.rootFd)
  else do
    let (fd, _) ← env.secureOpen config (FsPath.ofSegments parent) { directory := true }
    return fd

/-- The parent directory of a path, its last name, and the path of both below
the root. -/
def secureOpenParent (config : FsHostConfig) (relative : String) : Sys FsHostError (Fd × List Char × String) := do
  let parent := FsPath.parent (FsPath.segments relative)
  match FsPath.fileName (FsPath.segments relative) with
  | none => throw (.pathInvalid "no filename component")
  | some basename => do
    let fd ← env.openParent config parent
    let inode ← io (env.fstat fd)
    if inode ≠ .dir then throw (.pathInvalid "parent is not a directory")
    let canonical ← env.canonicalFromFd fd
    let canonicalRelative ← liftExcept (verifyUnderRoot canonical config.rootCanonical)
    return (fd, basename, FsPath.join canonicalRelative basename)

/-- The kernel lets `openat2` resolve beneath the directory only, and through no
link. -/
def HonoursResolve : Prop :=
  ∀ v dir path flags place, env.sysOpenat2 v dir path flags = .ok place →
    v.node dir = some .dir ∧ v.resolve dir dir (FsPath.segments path) = some place

/-- A path leads to a file straight from the root: by the names in it. -/
structure Straight (rootFd : Nat) (v : Volume) (names : Place) (root file : Place) : Prop where
  opened : env.opened rootFd = some root
  dir : v.node root = some .dir
  named : file = root ++ names
  present : ∃ inode, v.node file = some inode ∧ ∀ link, inode ≠ .link link

variable {env} {α : Type} {s t : FsState}

theorem io_eq_ok {call : Sys Errno α} {a : α} : (io call).run s = .ok a t ↔ call.run s = .ok a t :=
  Sys.adaptExcept_eq_ok

theorem liftExcept_eq_ok {result : Except FsHostError α} {a : α} :
    (liftExcept result).run s = .ok a t ↔ result = .ok a ∧ s = t := by
  unfold liftExcept
  cases result with
  | ok b =>
    rw [Sys.pure_eq_ok, Except.ok.injEq]
  | error e =>
    constructor
    · exact fun ran => absurd ran Sys.throw_eq_ok
    · rintro ⟨none_, -⟩
      cases none_

theorem canonicalFromFd_eq_ok {fd : Fd} {canonical : String} (ran : (env.canonicalFromFd fd).run s = .ok canonical t) :
    canonical = FsPath.ofPlace fd.place ∧ t.volume = s.volume := by
  obtain ⟨place, u, read, done⟩ := Sys.bind_eq_ok.1 ran
  obtain ⟨rfl, same⟩ := readlink_eq_ok (io_eq_ok.1 read)
  obtain ⟨rfl, rfl⟩ := Sys.pure_eq_ok.1 done
  exact ⟨rfl, same⟩

theorem tryOpenat2_eq_ok {dirfd : Nat} {path : String} {flags : OpenFlags} {made : Option Fd}
    (ran : (env.tryOpenat2 dirfd path flags).run s = .ok made t) :
    t.volume = s.volume ∧ ∀ fd, made = some fd → fd.offset = 0 ∧
      ∃ dir, env.opened dirfd = some dir ∧ env.sysOpenat2 s.volume dir path flags = .ok fd.place := by
  simp only [tryOpenat2, EStateM.run] at ran
  split_ifs at ran with known
  · cases ran
    exact ⟨rfl, fun fd none_ => by cases none_⟩
  · split at ran
    · rename_i fd u tried
      cases ran
      obtain ⟨found, start, same⟩ := openat2_eq_ok tried
      refine ⟨same, fun other given => ?_⟩
      cases given
      exact ⟨start, found⟩
    · rename_i u tried
      cases ran
      have same : u.volume = s.volume := volume_of_syscall_error tried
      exact ⟨same, fun fd none_ => by cases none_⟩
    · cases ran

/-- A name that is opened is the entry of that name, unless it says to stay. -/
theorem target_of_down (dir : Place) {name : List Char} (down : name ≠ ['.', '.']) (some_ : name ≠ []) :
    Volume.target dir name = dir ++ [name].filter fun s => !FsPath.skipped s := by
  unfold Volume.target
  by_cases dot : name = ['.']
  · rw [if_pos dot, dot]
    exact (List.append_nil dir).symm
  · have kept : FsPath.skipped name = false := by simp [FsPath.skipped, dot, some_]
    rw [if_neg dot, if_neg down, List.filter_cons_of_pos (by simp [kept]), List.filter_nil]

theorem walkDirectories_eq_ok {fd made : Fd} {components : List (List Char)} (down : ['.', '.'] ∉ components)
    (some_ : [] ∉ components) (ran : (env.walkDirectories fd components).run s = .ok made t) :
    made.place = fd.place ++ components.filter (fun c => !FsPath.skipped c) ∧ t.volume = s.volume := by
  induction components generalizing fd s with
  | nil =>
    obtain ⟨rfl, rfl⟩ := Sys.pure_eq_ok.1 ran
    exact ⟨(List.append_nil _).symm, rfl⟩
  | cons component rest ih =>
    rw [List.mem_cons, not_or] at down some_
    obtain ⟨next, u, opened, ran⟩ := Sys.bind_eq_ok.1 ran
    obtain ⟨-, opens, -⟩ := openat_eq_ok (Sys.adaptExcept_eq_ok.1 opened)
    obtain ⟨inode, w, known, ran⟩ := Sys.bind_eq_ok.1 ran
    obtain ⟨-, kept⟩ := fstat_eq_ok (io_eq_ok.1 known)
    obtain ⟨-, ran⟩ := Sys.check_eq_ok.1 ran
    have place := target_of_down fd.place (Ne.symm down.1) (Ne.symm some_.1)
    cases opens with
    | made free means created proper exclusive => cases exclusive
    | found other here means same =>
      obtain ⟨behind, unchanged⟩ := ih down.2 some_.2 ran
      rw [kept, same] at unchanged
      refine ⟨?_, unchanged⟩
      rw [behind, means, place, List.append_assoc, ← List.filter_append, List.singleton_append]

/-- The walk ends at the place that the names of the path lead to. -/
theorem componentWalkOpen_eq_ok {rootFd : Nat} {relative : String} {flags : OpenFlags} {fd : Fd}
    (reads : flags.path = false) (known : flags.exclusive = false) (down : ['.', '.'] ∉ FsPath.segments relative)
    (ran : (env.componentWalkOpen rootFd relative flags).run s = .ok fd t) :
    (∃ root, env.Straight rootFd s.volume (FsPath.named relative) root fd.place) ∧ t.volume = s.volume := by
  unfold componentWalkOpen at ran
  have some_ : [] ∉ (FsPath.segments relative).filter fun c => c ≠ [] := by simp
  have below : ['.', '.'] ∉ (FsPath.segments relative).filter fun c => c ≠ [] := fun member => down (List.mem_of_mem_filter member)
  have names : FsPath.named relative = ((FsPath.segments relative).filter fun c => c ≠ []).filter fun c => !FsPath.skipped c := by
    rw [List.filter_filter, FsPath.named]
    refine List.filter_congr fun name _ => ?_
    by_cases void : name = [] <;> simp [void, FsPath.skipped]
  rw [names]
  generalize (FsPath.segments relative).filter (fun c => decide (c ≠ [])) = components at ran some_ below
  dsimp only at ran
  cases found : components.getLast? with
  | none =>
    rw [found] at ran
    exact absurd ran Sys.throw_eq_ok
  | some last =>
    rw [found] at ran
    obtain ⟨front, rfl⟩ := List.getLast?_eq_some_iff.mp found
    rw [List.dropLast_concat] at ran
    rw [List.mem_append, not_or, List.mem_singleton] at some_ below
    obtain ⟨top, u, dupped, ran⟩ := Sys.bind_eq_ok.1 ran
    obtain ⟨opened, same⟩ := dup_eq_ok (io_eq_ok.1 dupped)
    obtain ⟨parent, w, walked, ran⟩ := Sys.bind_eq_ok.1 ran
    obtain ⟨behind, unchanged⟩ := walkDirectories_eq_ok below.1 some_.1 walked
    obtain ⟨dir, opens, -⟩ := openat_eq_ok (Sys.adaptExcept_eq_ok.1 ran)
    have place := target_of_down parent.place (Ne.symm below.2) (Ne.symm some_.2)
    rw [unchanged, same] at dir opens
    cases opens with
    | made free means created proper exclusive => rw [known] at exclusive; cases exclusive
    | found inode here means after directory noLink =>
      refine ⟨⟨top.place, opened, ?_, ?_, inode, here, noLink reads⟩, after⟩
      · rw [behind] at dir
        exact Volume.dir_above dir
      · rw [means, place, behind, List.filter_append, List.append_assoc]

/-- Either way of opening leads to the place that the names of the path lead to. -/
theorem openBeneath_eq_ok {rootFd : Nat} {relative : String} {flags : OpenFlags} {fd : Fd} (honours : env.HonoursResolve)
    (reads : flags.path = false) (known : flags.exclusive = false) (down : ['.', '.'] ∉ FsPath.segments relative)
    (ran : (env.openBeneath rootFd relative flags).run s = .ok fd t) :
    (∃ root, env.Straight rootFd s.volume (FsPath.named relative) root fd.place) ∧ t.volume = s.volume := by
  obtain ⟨-, ran⟩ := Sys.check_eq_ok.1 ran
  obtain ⟨made, u, tried, ran⟩ := Sys.bind_eq_ok.1 ran
  obtain ⟨same, opens⟩ := tryOpenat2_eq_ok (Sys.adaptExcept_eq_ok.1 tried)
  cases made with
  | none =>
    obtain ⟨straight, kept⟩ := componentWalkOpen_eq_ok reads known down ran
    rw [same] at straight kept
    exact ⟨straight, kept⟩
  | some found =>
    obtain ⟨rfl, rfl⟩ := Sys.pure_eq_ok.1 ran
    obtain ⟨-, root, opened, resolved⟩ := opens found rfl
    obtain ⟨dir, beneath⟩ := honours _ _ _ _ _ resolved
    obtain ⟨place, inode, here, noLink⟩ := Volume.resolve_named down dir beneath
    have names : Volume.named (FsPath.segments relative) = FsPath.named relative := by
      refine List.filter_congr fun name _ => ?_
      simp [Volume.Idle, FsPath.skipped]
    exact ⟨⟨root, opened, dir, by rw [place, names], inode, here, noLink⟩, same⟩

theorem secureOpen_eq_ok {config : FsHostConfig} {relative canonicalRelative : String} {flags : OpenFlags} {fd : Fd}
    (honours : env.HonoursResolve) (reads : flags.path = false) (known : flags.exclusive = false)
    (down : ['.', '.'] ∉ FsPath.segments relative)
    (ran : (env.secureOpen config relative flags).run s = .ok (fd, canonicalRelative) t) :
    (∃ root, env.Straight config.rootFd s.volume (FsPath.named relative) root fd.place) ∧
      verifyUnderRoot (FsPath.ofPlace fd.place) config.rootCanonical = .ok canonicalRelative ∧ t.volume = s.volume := by
  obtain ⟨made, u, opened, ran⟩ := Sys.bind_eq_ok.1 ran
  obtain ⟨straight, same⟩ := openBeneath_eq_ok honours reads known down opened
  obtain ⟨canonical, w, read, ran⟩ := Sys.bind_eq_ok.1 ran
  obtain ⟨rfl, kept⟩ := canonicalFromFd_eq_ok read
  obtain ⟨relative, x, verified, ran⟩ := Sys.bind_eq_ok.1 ran
  obtain ⟨under, rfl⟩ := liftExcept_eq_ok.1 verified
  obtain ⟨done, rfl⟩ := Sys.pure_eq_ok.1 ran
  cases done
  exact ⟨straight, under, kept.trans same⟩

/-- A descriptor that is just opened stands at the start of its file. -/
theorem secureOpen_start {config : FsHostConfig} {relative canonicalRelative : String} {flags : OpenFlags} {fd : Fd}
    (ran : (env.secureOpen config relative flags).run s = .ok (fd, canonicalRelative) t) : fd.offset = 0 := by
  obtain ⟨made, u, opened, ran⟩ := Sys.bind_eq_ok.1 ran
  obtain ⟨canonical, w, -, ran⟩ := Sys.bind_eq_ok.1 ran
  obtain ⟨relative, x, -, ran⟩ := Sys.bind_eq_ok.1 ran
  cases (Sys.pure_eq_ok.1 ran).1
  obtain ⟨-, opened⟩ := Sys.check_eq_ok.1 opened
  obtain ⟨found, v, tried, opened⟩ := Sys.bind_eq_ok.1 opened
  cases found with
  | some other =>
    cases (Sys.pure_eq_ok.1 opened).1
    exact ((tryOpenat2_eq_ok (Sys.adaptExcept_eq_ok.1 tried)).2 _ rfl).1
  | none =>
    unfold componentWalkOpen at opened
    dsimp only at opened
    split at opened
    · exact absurd opened Sys.throw_eq_ok
    · obtain ⟨top, w, -, opened⟩ := Sys.bind_eq_ok.1 opened
      obtain ⟨parent, w, -, opened⟩ := Sys.bind_eq_ok.1 opened
      exact (openat_eq_ok (Sys.adaptExcept_eq_ok.1 opened)).2.2

theorem openParent_eq_ok {config : FsHostConfig} {parent : List (List Char)} {fd : Fd} (honours : env.HonoursResolve)
    (down : ['.', '.'] ∉ parent) (clean : ∀ name ∈ parent, '/' ∉ name)
    (ran : (env.openParent config parent).run s = .ok fd t) :
    (∃ root, env.opened config.rootFd = some root ∧ fd.place = root ++ parent.filter fun c => !FsPath.skipped c) ∧
      t.volume = s.volume := by
  unfold openParent at ran
  split_ifs at ran with top
  · obtain ⟨opened, same⟩ := dup_eq_ok (io_eq_ok.1 ran)
    exact ⟨⟨fd.place, opened, by rw [top, List.filter_nil, List.append_nil]⟩, same⟩
  · obtain ⟨⟨made, canonicalRelative⟩, u, opened, ran⟩ := Sys.bind_eq_ok.1 ran
    obtain ⟨rfl, rfl⟩ := Sys.pure_eq_ok.1 ran
    have back := FsPath.segments_ofSegments clean top
    obtain ⟨⟨root, straight⟩, -, same⟩ := secureOpen_eq_ok honours rfl rfl (by rw [back]; exact down) opened
    refine ⟨⟨root, straight.opened, ?_⟩, same⟩
    rw [straight.named, FsPath.named, back]

/-- The parent of a path is reached straight, and the path is its name in it. -/
theorem secureOpenParent_eq_ok {config : FsHostConfig} {relative canonicalRelative : String} {fd : Fd} {basename : List Char}
    (honours : env.HonoursResolve) (down : ['.', '.'] ∉ FsPath.segments relative)
    (ran : (env.secureOpenParent config relative).run s = .ok (fd, basename, canonicalRelative) t) :
    (∃ root, env.opened config.rootFd = some root ∧ s.volume.node fd.place = some .dir ∧
      fd.place ++ [basename] = root ++ FsPath.named relative) ∧ FsPath.named relative ≠ [] ∧ Proper basename ∧
      verifyUnderRoot (FsPath.ofPlace (fd.place ++ [basename])) config.rootCanonical = .ok canonicalRelative ∧
      t.volume = s.volume := by
  unfold secureOpenParent at ran
  dsimp only at ran
  cases last : FsPath.fileName (FsPath.segments relative) with
  | none =>
    rw [last] at ran
    exact absurd ran Sys.throw_eq_ok
  | some name =>
    rw [last] at ran
    obtain ⟨names, kept, notUp, inside⟩ := FsPath.named_fileName last
    have proper : Proper name := by
      have clear := FsPath.separator_notMem_of_mem_splitOn inside
      simp only [FsPath.skipped, decide_eq_false_iff_not, not_or] at kept
      exact ⟨kept.1, kept.2, notUp, clear⟩
    obtain ⟨parent, u, opened, ran⟩ := Sys.bind_eq_ok.1 ran
    obtain ⟨inode, w, known, ran⟩ := Sys.bind_eq_ok.1 ran
    obtain ⟨dir, same⟩ := fstat_eq_ok (io_eq_ok.1 known)
    obtain ⟨isDir, ran⟩ := Sys.check_eq_ok.1 ran
    obtain rfl := not_not.mp isDir
    obtain ⟨canonical, x, read, ran⟩ := Sys.bind_eq_ok.1 ran
    obtain ⟨rfl, kept'⟩ := canonicalFromFd_eq_ok read
    obtain ⟨behind, y, verified, ran⟩ := Sys.bind_eq_ok.1 ran
    obtain ⟨under, rfl⟩ := liftExcept_eq_ok.1 verified
    obtain ⟨done, rfl⟩ := Sys.pure_eq_ok.1 ran
    cases done
    have clean : ∀ name ∈ FsPath.parent (FsPath.segments relative), '/' ∉ name := fun name member =>
      FsPath.separator_notMem_of_mem_splitOn (FsPath.mem_of_mem_parent member)
    obtain ⟨⟨root, rootOpen, place⟩, unchanged⟩ :=
      openParent_eq_ok honours (fun up => down (FsPath.mem_of_mem_parent up)) clean opened
    rw [unchanged] at dir
    have above : ∀ n ∈ fd.place ++ [basename], Proper n := by
      intro n member
      rcases List.mem_append.mp member with inside | last
      · exact Volume.proper_of_node (v := s.volume) (by simp [dir]) n inside
      · rw [List.mem_singleton.mp last]
        exact proper
    refine ⟨⟨root, rootOpen, dir, ?_⟩, ?_, proper, verifyUnderRoot_join above under, (kept'.trans same).trans unchanged⟩
    · rw [place, FsPath.named, names, List.append_assoc]
    · rw [FsPath.named, names]
      exact List.append_ne_nil_of_right_ne_nil _ (List.cons_ne_nil basename [])

end FsEnv
end Latchgate
