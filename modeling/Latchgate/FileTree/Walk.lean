import Mathlib.Data.List.Infix

namespace Latchgate

/-- A place in a file tree, from the root down. -/
abbrev Place := List (List Char)

inductive FileNode where
  | dir
  | file
  | link (absolute : Bool) (target : Place)
  deriving DecidableEq

structure FileTree where
  node : Place → Option FileNode
  root : node [] = some .dir

namespace FileTree
variable (t : FileTree)

/-- A walk along a path. `follow` goes on behind a link. -/
def walkWith (follow : Place → Place → Option Place) : Place → Place → Option Place
  | here, [] => some here
  | here, name :: rest =>
    if name = ['.'] then walkWith follow here rest
    else if name = ['.', '.'] then walkWith follow here.dropLast rest
    else
      match t.node (here ++ [name]) with
      | none => none
      | some .dir => walkWith follow (here ++ [name]) rest
      | some .file => if rest = [] then some (here ++ [name]) else none
      | some (.link absolute target) => follow (if absolute then [] else here) (target ++ rest)

/-- Where a path leads, behind so many links at most. -/
def walk : Nat → Place → Place → Option Place
  | 0 => t.walkWith fun _ _ => none
  | links + 1 => t.walkWith (walk links)

/-- What is seen of a tree. -/
def restrict (seen : Place → Bool) (top : seen [] = true) : FileTree where
  node place := if seen place then t.node place else none
  root := by rw [if_pos top, t.root]

/-- A directory that is reached without a link. -/
structure Standing (place : Place) : Prop where
  dirs : ∀ above, above <+: place → t.node above = some .dir
  names : ∀ name ∈ place, name ≠ ['.'] ∧ name ≠ ['.', '.']

variable {t}

theorem walk_nil (links : Nat) (here : Place) : t.walk links here [] = some here := by
  cases links with
  | zero => rw [walk, walkWith]
  | succ links => rw [walk, walkWith]

theorem walkWith_mono {s : FileTree} {f g : Place → Place → Option Place} (nodes : ∀ place n, s.node place = some n → t.node place = some n)
    (follows : ∀ here rest p, f here rest = some p → g here rest = some p) {here rest p : Place}
    (walks : s.walkWith f here rest = some p) : t.walkWith g here rest = some p := by
  induction rest generalizing here with
  | nil =>
    rw [walkWith] at walks ⊢
    exact walks
  | cons name rest ih =>
    rw [walkWith] at walks ⊢
    by_cases same : name = ['.']
    · rw [if_pos same] at walks ⊢
      exact ih walks
    by_cases up : name = ['.', '.']
    · rw [if_neg same, if_pos up] at walks ⊢
      exact ih walks
    · rw [if_neg same, if_neg up] at walks ⊢
      cases found : s.node (here ++ [name]) with
      | none => simp only [found, reduceCtorEq] at walks
      | some n =>
        rw [nodes _ _ found]
        rw [found] at walks
        cases n with
        | dir => exact ih walks
        | file => exact walks
        | link absolute target => exact follows _ _ _ walks

/-- What leads somewhere in a part of a tree leads there in the whole. -/
theorem walk_mono {s : FileTree} (nodes : ∀ place n, s.node place = some n → t.node place = some n) {links : Nat} {here rest p : Place}
    (walks : s.walk links here rest = some p) : t.walk links here rest = some p := by
  induction links generalizing here rest p with
  | zero => exact walkWith_mono nodes (fun _ _ _ none_ => by cases none_) walks
  | succ links ih => exact walkWith_mono nodes (fun _ _ _ => ih) walks

theorem walk_more {links : Nat} {here rest p : Place} (walks : t.walk links here rest = some p) : t.walk (links + 1) here rest = some p := by
  induction links generalizing here rest p with
  | zero => exact walkWith_mono (fun _ _ known => known) (fun _ _ _ none_ => by cases none_) walks
  | succ links ih => exact walkWith_mono (fun _ _ known => known) (fun _ _ _ => ih) walks

theorem restrict_nodes {seen : Place → Bool} {top : seen [] = true} (place : Place) (n : FileNode)
    (known : (t.restrict seen top).node place = some n) : t.node place = some n := by
  unfold restrict at known
  dsimp only at known
  split_ifs at known
  exact known

theorem Standing.parent {place : Place} (standing : t.Standing place) : t.Standing place.dropLast where
  dirs above inside := standing.dirs above (inside.trans (List.dropLast_prefix place))
  names name member := standing.names name ((List.dropLast_sublist place).subset member)

theorem Standing.child {place : Place} {name : List Char} (standing : t.Standing place) (plain : name ≠ ['.'] ∧ name ≠ ['.', '.'])
    (dir : t.node (place ++ [name]) = some .dir) : t.Standing (place ++ [name]) where
  dirs above inside := by
    rcases List.prefix_concat_iff.mp inside with rfl | earlier
    · exact dir
    · exact standing.dirs above earlier
  names other member := by
    rcases List.mem_append.mp member with before | last
    · exact standing.names other before
    · rw [List.mem_singleton.mp last]
      exact plain

theorem standing_root : t.Standing [] where
  dirs above inside := by rw [List.prefix_nil.mp inside, t.root]
  names _ member := absurd member List.not_mem_nil

/-- A path ends at a directory that is reached without a link, or at a file. -/
theorem walkWith_standing {f : Place → Place → Option Place}
    (follows : ∀ here rest p, t.Standing here → f here rest = some p → t.Standing p ∨ t.node p = some .file) {here rest p : Place}
    (standing : t.Standing here) (walks : t.walkWith f here rest = some p) : t.Standing p ∨ t.node p = some .file := by
  induction rest generalizing here with
  | nil =>
    rw [walkWith, Option.some.injEq] at walks
    exact .inl (walks ▸ standing)
  | cons name rest ih =>
    rw [walkWith] at walks
    by_cases same : name = ['.']
    · rw [if_pos same] at walks
      exact ih standing walks
    by_cases up : name = ['.', '.']
    · rw [if_neg same, if_pos up] at walks
      exact ih standing.parent walks
    · rw [if_neg same, if_neg up] at walks
      cases found : t.node (here ++ [name]) with
      | none => simp only [found, reduceCtorEq] at walks
      | some n =>
        rw [found] at walks
        cases n with
        | dir => exact ih (standing.child ⟨same, up⟩ found) walks
        | file =>
          dsimp only at walks
          split_ifs at walks
          exact .inr (Option.some.inj walks ▸ found)
        | link absolute target =>
          refine follows _ _ _ ?_ walks
          cases absolute with
          | true => exact standing_root
          | false => exact standing

theorem walk_standing {links : Nat} {here rest p : Place} (standing : t.Standing here) (walks : t.walk links here rest = some p) :
    t.Standing p ∨ t.node p = some .file := by
  induction links generalizing here rest p with
  | zero => exact walkWith_standing (fun _ _ _ _ none_ => by cases none_) standing walks
  | succ links ih => exact walkWith_standing (fun _ _ _ => ih) standing walks

/-- Before the last name of a path there is a directory. -/
theorem walkWith_front {f : Place → Place → Option Place} {name : List Char}
    (follows : ∀ here rest p, t.Standing here → f here (rest ++ [name]) = some p → ∃ d, f here rest = some d ∧ t.Standing d)
    {here rest p : Place} (standing : t.Standing here) (walks : t.walkWith f here (rest ++ [name]) = some p) :
    ∃ d, t.walkWith f here rest = some d ∧ t.Standing d := by
  induction rest generalizing here with
  | nil => exact ⟨here, by rw [walkWith], standing⟩
  | cons first rest ih =>
    rw [List.cons_append, walkWith] at walks
    rw [walkWith]
    by_cases same : first = ['.']
    · rw [if_pos same] at walks ⊢
      exact ih standing walks
    by_cases up : first = ['.', '.']
    · rw [if_neg same, if_pos up] at walks ⊢
      exact ih standing.parent walks
    · rw [if_neg same, if_neg up] at walks ⊢
      cases found : t.node (here ++ [first]) with
      | none => simp only [found, reduceCtorEq] at walks
      | some n =>
        rw [found] at walks
        cases n with
        | dir => exact ih (standing.child ⟨same, up⟩ found) walks
        | file =>
          dsimp only at walks
          rw [if_neg (List.append_ne_nil_of_right_ne_nil rest (List.cons_ne_nil name []))] at walks
          cases walks
        | link absolute target =>
          dsimp only at walks ⊢
          rw [← List.append_assoc] at walks
          refine follows _ _ _ ?_ walks
          cases absolute with
          | true => exact standing_root
          | false => exact standing

theorem walk_front {links : Nat} {here rest p : Place} {name : List Char} (standing : t.Standing here)
    (walks : t.walk links here (rest ++ [name]) = some p) : ∃ d, t.walk links here rest = some d ∧ t.Standing d := by
  induction links generalizing here rest p with
  | zero => exact walkWith_front (fun _ _ _ _ none_ => by cases none_) standing walks
  | succ links ih => exact walkWith_front (fun _ _ _ => ih) standing walks

/-- The rest of a path can be walked from where its front leads. -/
theorem walkWith_rest {f : Place → Place → Option Place} {d rest p : Place} (dir : t.node d = some .dir)
    (follows : ∀ here front, f here front = some d → f here (front ++ rest) = some p → t.walkWith f d rest = some p)
    {here front : Place} (first : t.walkWith f here front = some d) (walks : t.walkWith f here (front ++ rest) = some p) :
    t.walkWith f d rest = some p := by
  induction front generalizing here with
  | nil =>
    rw [walkWith, Option.some.injEq] at first
    exact first ▸ walks
  | cons name front ih =>
    rw [List.cons_append, walkWith] at walks
    rw [walkWith] at first
    by_cases same : name = ['.']
    · rw [if_pos same] at walks first
      exact ih first walks
    by_cases up : name = ['.', '.']
    · rw [if_neg same, if_pos up] at walks first
      exact ih first walks
    · rw [if_neg same, if_neg up] at walks first
      cases found : t.node (here ++ [name]) with
      | none => simp only [found, reduceCtorEq] at walks
      | some n =>
        rw [found] at walks first
        cases n with
        | dir => exact ih first walks
        | file =>
          dsimp only at first
          split_ifs at first
          rw [← Option.some.inj first, found] at dir
          cases dir
        | link absolute target =>
          dsimp only at walks first
          rw [← List.append_assoc] at walks
          exact follows _ _ first walks

theorem walk_rest {links : Nat} {here front d rest p : Place} (dir : t.node d = some .dir) (first : t.walk links here front = some d)
    (walks : t.walk links here (front ++ rest) = some p) : t.walk links d rest = some p := by
  induction links generalizing here front with
  | zero => exact walkWith_rest dir (fun _ _ none_ => by cases none_) first walks
  | succ links ih => exact walkWith_rest dir (fun _ _ first walks => walk_more (ih first walks)) first walks

/-- A directory that is reached without a link is walked to as it stands. -/
theorem walk_through {links : Nat} {here below rest : Place} (standing : t.Standing (here ++ below)) :
    t.walk links here (below ++ rest) = t.walk links (here ++ below) rest := by
  induction below generalizing here with
  | nil => rw [List.nil_append, List.append_nil]
  | cons name below ih =>
    obtain ⟨same, up⟩ := standing.names name (List.mem_append_right _ List.mem_cons_self)
    have next : here ++ name :: below = here ++ [name] ++ below := by rw [List.append_assoc, List.singleton_append]
    have dir : t.node (here ++ [name]) = some .dir := standing.dirs _ (next ▸ List.prefix_append _ _)
    rw [next] at standing ⊢
    rw [← ih standing]
    cases links with
    | zero => rw [walk, List.cons_append, walkWith, if_neg same, if_neg up, dir]
    | succ links => rw [walk, List.cons_append, walkWith, if_neg same, if_neg up, dir]

end FileTree

end Latchgate
