import Latchgate.FileTree.Walk
import Latchgate.Sandbox.BwrapCommand

namespace Latchgate
namespace Sandbox

/-! Paths on the host, and in the sandbox. `links` is how many links the kernel
follows in one path. -/

section Tree
variable (t : FileTree) (links : Nat)

def canonicalize (place : Place) : Option Place :=
  t.walk links [] place

def isFile (place : Place) : Bool :=
  (canonicalize t links place).any fun p => t.node p = some .file

def isDir (place : Place) : Bool :=
  (canonicalize t links place).any fun p => t.node p = some .dir

/-- The front that two places have in common. -/
def commonAncestor : Place → Place → Place
  | a :: as, b :: bs => if a = b then a :: commonAncestor as bs else []
  | _, _ => []

/-- The directory above both the launcher's directory and the executable; the
root alone is none. -/
def nearest (launcherDir real : Place) : Place :=
  let shared := commonAncestor launcherDir real
  if shared = [] then launcherDir else shared

/-- The directory to mount for a binary. -/
def discoverAgentMountIn (binName : List Char) (searchDirs : List Place) : Option Place :=
  if binName = [] ∨ '/' ∈ binName then none
  else do
    let dir ← searchDirs.find? fun dir => isFile t links (dir ++ [binName])
    let real ← canonicalize t links (dir ++ [binName])
    let launcherDir ← canonicalize t links dir
    some (nearest launcherDir real)

/-- The entries of `build_sandbox_path`. -/
def sandboxPathDirs (roMounts : List Place) : List Place :=
  sandboxPath.map Bwrap.parts ++
    (roMounts.flatMap fun mount => [mount ++ ["bin".toList], mount ++ ["sbin".toList]]).filter fun dir => isDir t links dir

/-- Where a command is looked for, in this order. -/
def commandPlaces (cmd : List Char) (roMounts : List Place) : List Place :=
  let names := (cmd.splitOn '/').filter fun name => name ≠ []
  ((sandboxPath.map Bwrap.parts) ++ roMounts.flatMap fun mount => [mount ++ ["bin".toList], mount ++ ["sbin".toList]]).map
    fun dir => dir ++ names

def resolveInPath (cmd : List Char) (roMounts : List Place) : Option Place :=
  if cmd.head? = some '/' then
    let place := (cmd.splitOn '/').filter fun name => name ≠ []
    if (canonicalize t links place).isSome then some place else none
  else (commandPlaces cmd roMounts).find? fun place => (canonicalize t links place).isSome

end Tree

/-- The directories of the system that are mounted. -/
def systemRoots : List Place :=
  ("/usr" :: systemRoBindTry ++ etcAllowlist).map Bwrap.parts

/-- What is in sight beside the agent's mount `m`: the places at or below a
mount, and the way down to it. -/
def inSight (m place : Place) : Bool :=
  (m :: systemRoots).any fun root => decide (place <+: root) || decide (root <+: place)

theorem inSight_root (m : Place) : inSight m [] = true := by
  rw [inSight, List.any_cons, decide_eq_true List.nil_prefix]
  rfl

/-- The tree as it is in the sandbox. -/
def sandboxTree (t : FileTree) (m : Place) : FileTree :=
  t.restrict (inSight m) (inSight_root m)

/-- With the directory `q` mounted, the command is found in a directory of the
path and leads to the executable. -/
structure Serves (t : FileTree) (links : Nat) (name : List Char) (real q : Place) (entry : Place) : Prop where
  found : resolveInPath (sandboxTree t q) links name [q] = some entry
  leads : canonicalize (sandboxTree t q) links entry = some real
  listed : entry.dropLast ∈ sandboxPathDirs t links [q]

/-- No directory below has it too. -/
def Deepest (t : FileTree) (links : Nat) (name : List Char) (real m : Place) : Prop :=
  ∀ q, isDir t links q = true → m <+: q → q ≠ m → ∀ entry, ¬Serves t links name real q entry

/-- The launcher stands in a `bin` or `sbin` right below the mount, or in a
directory of the system's path, what it leads through is in sight, and no
directory below the mount would do. -/
structure Laid (t : FileTree) (links : Nat) (name : List Char) (launcherDir real : Place) : Prop where
  onPath : launcherDir ∈ sandboxPath.map Bwrap.parts ∨ commonAncestor launcherDir real ≠ [] ∧
    (launcherDir = commonAncestor launcherDir real ++ ["bin".toList] ∨ launcherDir = commonAncestor launcherDir real ++ ["sbin".toList])
  visible : (canonicalize (sandboxTree t (nearest launcherDir real)) links (launcherDir ++ [name])).isSome = true
  deepest : Deepest t links name real (nearest launcherDir real)

/-- Where the command is looked for there is no other entry of its name. -/
def OnlyLauncher (t : FileTree) (links : Nat) (name : List Char) (launcherDir real : Place) : Prop :=
  ∀ place ∈ commandPlaces name [nearest launcherDir real],
    (canonicalize (sandboxTree t (nearest launcherDir real)) links place).isSome = true → place = launcherDir ++ [name]

section Mount
variable {t : FileTree} {links : Nat} {name : List Char} {dir launcherDir real m : Place}

theorem commandPlaces_name (some_ : name ≠ []) (plain : '/' ∉ name) (roMounts : List Place) :
    commandPlaces name roMounts = ((sandboxPath.map Bwrap.parts) ++
      roMounts.flatMap fun mount => [mount ++ ["bin".toList], mount ++ ["sbin".toList]]).map fun dir => dir ++ [name] := by
  have kept : ([name].filter fun name => name ≠ []) = [name] :=
    List.filter_eq_self.mpr fun part member => decide_eq_true (List.mem_singleton.mp member ▸ some_)
  simp only [commandPlaces, List.splitOn_eq_singleton plain, kept]

theorem mem_commandPlaces (some_ : name ≠ []) (plain : '/' ∉ name) : launcherDir ++ [name] ∈ commandPlaces name [m] ↔
    launcherDir ∈ sandboxPath.map Bwrap.parts ∨ launcherDir = m ++ ["bin".toList] ∨ launcherDir = m ++ ["sbin".toList] := by
  rw [commandPlaces_name some_ plain, List.flatMap_singleton, List.mem_map]
  simp only [List.append_left_inj, exists_eq_right, List.mem_append, List.mem_cons, List.not_mem_nil, or_false]

/-- On the host the launcher leads to the executable from its own directory. -/
theorem launcher_leads (leads : canonicalize t links (dir ++ [name]) = some real) (found : canonicalize t links dir = some launcherDir) :
    t.Standing launcherDir ∧ canonicalize t links launcherDir = some launcherDir ∧
      canonicalize t links (launcherDir ++ [name]) = some real := by
  obtain ⟨d, front, standing⟩ := FileTree.walk_front FileTree.standing_root leads
  obtain rfl := Option.some.inj (front.symm.trans found)
  have rest := FileTree.walk_rest (standing.dirs d (List.prefix_refl d)) front leads
  have below : t.Standing ([] ++ d) := standing
  refine ⟨standing, ?_, ?_⟩
  · have itself : t.walk links [] (d ++ []) = t.walk links ([] ++ d) [] := FileTree.walk_through below
    rw [List.append_nil, List.nil_append, FileTree.walk_nil] at itself
    exact itself
  · exact (FileTree.walk_through below).trans rest

theorem canonicalize_sandbox {place p : Place} (leads : canonicalize (sandboxTree t m) links place = some p) :
    canonicalize t links place = some p :=
  FileTree.walk_mono FileTree.restrict_nodes leads

theorem find?_of_unique {α : Type*} {l : List α} {p : α → Bool} {a : α} (member : a ∈ l) (holds : p a = true)
    (unique : ∀ b ∈ l, p b = true → b = a) : l.find? p = some a := by
  cases found : l.find? p with
  | none => exact absurd holds (List.find?_eq_none.mp found a member)
  | some b => rw [unique b (List.mem_of_find?_eq_some found) (List.find?_some found)]

theorem serves_of_laid (some_ : name ≠ []) (plain : '/' ∉ name) (leads : canonicalize t links (dir ++ [name]) = some real)
    (found : canonicalize t links dir = some launcherDir) (laid : Laid t links name launcherDir real)
    (only : OnlyLauncher t links name launcherDir real) :
    Serves t links name real (nearest launcherDir real) (launcherDir ++ [name]) := by
  obtain ⟨standing, itself, host⟩ := launcher_leads leads found
  have place : launcherDir ∈ sandboxPath.map Bwrap.parts ∨ launcherDir = nearest launcherDir real ++ ["bin".toList] ∨
      launcherDir = nearest launcherDir real ++ ["sbin".toList] := by
    rcases laid.onPath with system | ⟨shared, below⟩
    · exact .inl system
    · unfold nearest
      simp only [if_neg shared]
      exact .inr below
  refine ⟨?_, ?_, ?_⟩
  · have bare : name.head? ≠ some '/' := fun slash => plain (List.mem_of_head? slash)
    rw [resolveInPath, if_neg bare]
    exact find?_of_unique ((mem_commandPlaces some_ plain).mpr place) laid.visible only
  · obtain ⟨p, inside⟩ := Option.isSome_iff_exists.mp laid.visible
    rw [inside, ← host, canonicalize_sandbox inside]
  · rw [List.dropLast_concat, sandboxPathDirs, List.mem_append, List.mem_filter, List.flatMap_singleton]
    refine place.imp_right fun below => ⟨?_, ?_⟩
    · simp only [List.mem_cons, List.not_mem_nil, or_false]
      exact below
    · rw [isDir, itself]
      exact decide_eq_true (standing.dirs launcherDir (List.prefix_refl _))

theorem laid_of_serves (some_ : name ≠ []) (plain : '/' ∉ name) {entry : Place} (only : OnlyLauncher t links name launcherDir real)
    (serves : Serves t links name real (nearest launcherDir real) entry)
    (deepest : Deepest t links name real (nearest launcherDir real)) : Laid t links name launcherDir real := by
  have bare : name.head? ≠ some '/' := fun slash => plain (List.mem_of_head? slash)
  have looked := serves.found
  rw [resolveInPath, if_neg bare] at looked
  have member := List.mem_of_find?_eq_some looked
  have seen := List.find?_some looked
  obtain rfl := only entry member seen
  refine ⟨((mem_commandPlaces some_ plain).mp member).imp_right fun below => ?_, seen, deepest⟩
  by_cases shared : commonAncestor launcherDir real = []
  · -- the launcher's directory is not below itself
    have alone : nearest launcherDir real = launcherDir := if_pos shared
    rw [alone] at below
    rcases below with same | same
    · have lengths := congrArg List.length same
      rw [List.length_append, List.length_singleton] at lengths
      omega
    · have lengths := congrArg List.length same
      rw [List.length_append, List.length_singleton] at lengths
      omega
  · have both : nearest launcherDir real = commonAncestor launcherDir real := if_neg shared
    exact ⟨shared, both ▸ below⟩

end Mount

/-- A tree of a few entries. -/
def treeOf (entries : List (Place × FileNode)) : FileTree where
  node place := if place = [] then some .dir else entries.lookup place
  root := if_pos rfl

def agentDir (name : String) : Place × FileNode :=
  (Bwrap.parts name, .dir)

/-- A launcher that is a link to an executable beside its directory. -/
def linkedAgent : FileTree :=
  treeOf [agentDir "/opt", agentDir "/opt/agent", agentDir "/opt/agent/bin", agentDir "/opt/agent/lib",
    (Bwrap.parts "/opt/agent/lib/agent", .file), (Bwrap.parts "/opt/agent/bin/agent", .link false ["..".toList, "lib".toList, "agent".toList])]

/-- A launcher that is the executable. -/
def plainAgent : FileTree :=
  treeOf [agentDir "/opt", agentDir "/opt/agent", agentDir "/opt/agent/bin", (Bwrap.parts "/opt/agent/bin/agent", .file)]

end Sandbox
end Latchgate
