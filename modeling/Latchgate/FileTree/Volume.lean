import Latchgate.FileTree.Walk

namespace Latchgate

/-- What stands at a place of a volume. -/
inductive Inode where
  | dir
  | regular (contents : List UInt8)
  | link (target : Place)
  | special
  deriving DecidableEq

/-- A name that a directory entry can have. -/
def Proper (name : List Char) : Prop :=
  name ≠ [] ∧ name ≠ ['.'] ∧ name ≠ ['.', '.'] ∧ '/' ∉ name

instance (name : List Char) : Decidable (Proper name) :=
  inferInstanceAs (Decidable (_ ∧ _ ∧ _ ∧ _))

/-- Every entry stands in a directory, under a proper name. -/
structure Volume where
  node : Place → Option Inode
  root : node [] = some .dir
  above : ∀ place name, node (place ++ [name]) ≠ none → node place = some .dir ∧ Proper name

namespace Volume
variable (v : Volume)

/-- There may be an entry at a place. -/
def Admits (place : Place) : Prop :=
  ∃ dir name, place = dir ++ [name] ∧ v.node dir = some .dir ∧ Proper name

variable {v}

theorem Admits.ne_nil {place : Place} (admits : v.Admits place) : place ≠ [] := by
  obtain ⟨dir, name, rfl, -⟩ := admits
  exact List.append_ne_nil_of_right_ne_nil dir (List.cons_ne_nil name [])

theorem admits_of_node {place : Place} {inode : Inode} (found : v.node place = some inode) (flat : inode ≠ .dir) :
    v.Admits place := by
  rcases List.eq_nil_or_concat place with rfl | ⟨dir, name, rfl⟩
  · exact absurd (Option.some.inj (found.symm.trans v.root)) flat
  · rw [List.concat_eq_append] at found ⊢
    have present : v.node (dir ++ [name]) ≠ none := by simp [found]
    exact ⟨dir, name, rfl, v.above dir name present⟩

/-- An entry that is no directory becomes `leaf`. -/
def put (v : Volume) (place : Place) (leaf : Option Inode) (admits : v.Admits place) (flat : v.node place ≠ some .dir) : Volume where
  node p := if p = place then leaf else v.node p
  root := by rw [if_neg admits.ne_nil.symm, v.root]
  above p other found := by
    obtain ⟨dir, name, rfl, parent, proper⟩ := admits
    have childless : ∀ below, v.node (dir ++ [name] ++ [below]) = none := by
      intro below
      by_contra present
      exact flat (v.above _ _ present).1
    by_cases here : p ++ [other] = dir ++ [name]
    · obtain ⟨rfl, same⟩ := List.append_inj' here rfl
      have shorter : p ≠ p ++ [name] := fun same => by
        have lengths := congrArg List.length same
        simp only [List.length_append, List.length_singleton] at lengths
        omega
      rw [if_neg shorter]
      exact ⟨parent, List.singleton_inj.mp same ▸ proper⟩
    · rw [if_neg here] at found
      have outside : p ≠ dir ++ [name] := by
        rintro rfl
        exact found (childless other)
      rw [if_neg outside]
      exact v.above _ _ found

/-- A volume with nothing in it. -/
def bare : Volume where
  node place := if place = [] then some .dir else none
  root := if_pos rfl
  above place name found := by
    rw [if_neg (List.append_ne_nil_of_right_ne_nil place (List.cons_ne_nil name []))] at found
    exact absurd rfl found

/-- New contents for a regular file. -/
def write (v : Volume) (place : Place) (contents : List UInt8) : Volume :=
  match found : v.node place with
  | some (.regular _) =>
    v.put place (some (.regular contents)) (admits_of_node found (by simp)) (by simp [found])
  | _ => v

def unlink (v : Volume) (place : Place) : Volume :=
  match found : v.node place with
  | some (.regular _) | some (.link _) | some .special =>
    v.put place none (admits_of_node found (by simp)) (by simp [found])
  | _ => v

/-- A new empty file in a directory. -/
def create (v : Volume) (dir : Place) (name : List Char) : Volume :=
  if fits : v.node dir = some .dir ∧ Proper name ∧ v.node (dir ++ [name]) = none then
    v.put (dir ++ [name]) (some (.regular [])) ⟨dir, name, rfl, fits.1, fits.2.1⟩ (by simp [fits.2.2])
  else v

theorem write_node {place : Place} {old : List UInt8} (found : v.node place = some (.regular old)) (contents : List UInt8) (p : Place) :
    (v.write place contents).node p = if p = place then some (.regular contents) else v.node p := by
  unfold write
  split
  · rfl
  · rename_i other
    exact absurd found (other old)

theorem unlink_node {place : Place} {inode : Inode} (found : v.node place = some inode) (flat : inode ≠ .dir) (p : Place) :
    (v.unlink place).node p = if p = place then none else v.node p := by
  unfold unlink
  cases inode with
  | dir => exact absurd rfl flat
  | regular contents => split <;> simp_all [put]
  | link target => split <;> simp_all [put]
  | special => split <;> simp_all [put]

theorem create_node {dir : Place} {name : List Char} (parent : v.node dir = some .dir) (proper : Proper name)
    (free : v.node (dir ++ [name]) = none) (p : Place) :
    (v.create dir name).node p = if p = dir ++ [name] then some (.regular []) else v.node p := by
  unfold create
  rw [dif_pos ⟨parent, proper, free⟩]
  rfl

/-- Above every entry there are directories. -/
theorem dirs_above {place below : Place} (found : v.node (place ++ below) ≠ none) (deeper : below ≠ []) :
    v.node place = some .dir := by
  induction below generalizing place with
  | nil => exact absurd rfl deeper
  | cons name below ih =>
    rw [← List.singleton_append, ← List.append_assoc] at found
    by_cases last : below = []
    · rw [last, List.append_nil] at found
      exact (v.above _ _ found).1
    · have next := ih found last
      exact (v.above place name (by simp [next])).1

theorem dir_above {place below : Place} (found : v.node (place ++ below) = some .dir) : v.node place = some .dir := by
  by_cases here : below = []
  · rw [here, List.append_nil] at found
    exact found
  · exact dirs_above (by simp [found]) here

theorem proper_of_node {place : Place} (found : v.node place ≠ none) : ∀ name ∈ place, Proper name := by
  intro name member
  obtain ⟨front, back, rfl⟩ := List.append_of_mem member
  rw [← List.singleton_append, ← List.append_assoc] at found
  by_cases last : back = []
  · rw [last, List.append_nil] at found
    exact (v.above _ _ found).2
  · have here := dirs_above found last
    exact (v.above front name (by simp [here])).2

/-- A name that stays where it is. -/
def Idle (name : List Char) : Prop :=
  name = [] ∨ name = ['.']

instance (name : List Char) : Decidable (Idle name) :=
  inferInstanceAs (Decidable (_ ∨ _))

/-- Where a path leads below `top` when no link is followed. It may go up again
as far as `top`. -/
def resolve (v : Volume) (top : Place) : Place → Place → Option Place
  | here, [] => some here
  | here, name :: rest =>
    if Idle name then resolve v top here rest
    else if name = ['.', '.'] then if here = top then none else resolve v top here.dropLast rest
    else
      match v.node (here ++ [name]) with
      | some .dir => resolve v top (here ++ [name]) rest
      | some (.regular _) | some .special => if rest = [] then some (here ++ [name]) else none
      | _ => none

/-- The names of a path that lead on. -/
def named (path : Place) : Place :=
  path.filter fun name => ¬ Idle name

/-- A path that does not go up leads to the place that it names. -/
theorem resolve_named {top here path p : Place} (down : ['.', '.'] ∉ path) (dir : v.node here = some .dir)
    (resolved : v.resolve top here path = some p) :
    p = here ++ named path ∧ ∃ inode, v.node p = some inode ∧ ∀ target, inode ≠ .link target := by
  induction path generalizing here with
  | nil =>
    rw [resolve, Option.some.injEq] at resolved
    subst resolved
    exact ⟨(List.append_nil _).symm, .dir, dir, by simp⟩
  | cons name path ih =>
    have notUp : name ≠ ['.', '.'] := fun same => down (same ▸ List.mem_cons_self)
    have rest : ['.', '.'] ∉ path := fun member => down (List.mem_cons_of_mem _ member)
    rw [resolve] at resolved
    by_cases idle : Idle name
    · rw [if_pos idle] at resolved
      have skip : named (name :: path) = named path := by simp [named, idle]
      rw [skip]
      exact ih rest dir resolved
    · rw [if_neg idle, if_neg notUp] at resolved
      have keep : named (name :: path) = name :: named path := by simp [named, idle]
      rw [keep, ← List.singleton_append, ← List.append_assoc]
      cases found : v.node (here ++ [name]) with
      | none => simp only [found, reduceCtorEq] at resolved
      | some inode =>
        rw [found] at resolved
        cases inode with
        | dir => exact ih rest found resolved
        | link target => cases resolved
        | regular contents =>
          dsimp only at resolved
          split_ifs at resolved with last
          cases resolved
          exact ⟨by simp [last, named], _, found, by simp⟩
        | special =>
          dsimp only at resolved
          split_ifs at resolved with last
          cases resolved
          exact ⟨by simp [last, named], _, found, by simp⟩

end Volume
end Latchgate
