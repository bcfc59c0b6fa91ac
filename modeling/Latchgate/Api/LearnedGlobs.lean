import Latchgate.Api.LearnPath

namespace Latchgate
namespace FsPath

/-- A path is a location, is below it, or is another file of its name. -/
def LiesIn (target path : String) : Prop :=
  path = target ∨ target.toList ++ ['/'] <+: path.toList ∨ '/' ∉ target.toList ∧ target.toList ++ ['.'] <+: path.toList

def ParentTraversal (path : String) : Prop :=
  ['.', '.'] ∈ segments path

instance (target path : String) : Decidable (LiesIn target path) :=
  inferInstanceAs (Decidable (_ ∨ _))

instance (path : String) : Decidable (ParentTraversal path) :=
  inferInstanceAs (Decidable (_ ∈ _))

theorem validatePathGlobEntry_ok {glob : String} (ok : validatePathGlobEntry glob = .ok ()) :
    isAbsolute glob = false ∧ ¬ParentTraversal glob ∧ targetsSensitiveLocation glob = none := by
  unfold validatePathGlobEntry at ok
  split at ok
  · cases ok
  split at ok
  · cases ok
  rename_i absolute
  split at ok
  · cases ok
  split at ok
  · split at ok <;> cases ok
  split at ok
  · cases ok
  rename_i parent
  split at ok
  · cases ok
  · rename_i none
    exact ⟨Bool.eq_false_iff.mpr absolute, by simpa [ParentTraversal] using parent, none⟩

theorem segments_head (front rest : List Char) (clean : '/' ∉ front) (other : List Char) :
    ∃ more, (segments (String.ofList (front ++ rest))).headD other = front ++ more := by
  unfold segments
  rw [String.toList_ofList]
  by_cases inside : '/' ∈ rest
  · obtain ⟨name, after, rfl, plain⟩ := List.eq_append_cons_of_mem inside
    have single : (front ++ name).splitOn '/' = [front ++ name] := by
      rw [List.splitOn_eq_singleton]
      exact fun member => (List.mem_append.mp member).elim clean plain
    exact ⟨name, by rw [← List.append_assoc, List.splitOn_append_cons_self, single]; rfl⟩
  · have single : (front ++ rest).splitOn '/' = [front ++ rest] := by
      rw [List.splitOn_eq_singleton]
      exact fun member => (List.mem_append.mp member).elim clean inside
    exact ⟨rest, by rw [single]; rfl⟩

theorem LiesIn.starts {target path : String} (inside : LiesIn target path) : target.toList <+: path.toList := by
  rcases inside with rfl | below | ⟨-, variant⟩
  · exact List.prefix_rfl
  · exact (List.prefix_append _ _).trans below
  · exact (List.prefix_append _ _).trans variant

/-- Whether a longer text lies in a location is seen at the character behind it. -/
theorem LiesIn.of_front {target path glob : String} (inside : LiesIn target path) {front : List Char}
    (longer : target.toList <+: front) (different : front ≠ target.toList) (ofPath : front <+: path.toList)
    (ofGlob : front <+: glob.toList) : LiesIn target glob := by
  obtain ⟨more, rfl⟩ := longer
  cases more with
  | nil => exact absurd (List.append_nil _) different
  | cons c more =>
    obtain ⟨rest, onPath⟩ := ofPath
    obtain ⟨after, onGlob⟩ := ofGlob
    have next {d : Char} (behind : target.toList ++ [d] <+: path.toList) : target.toList ++ [d] <+: glob.toList := by
      obtain ⟨tail, whole⟩ := behind
      rw [← onPath, List.append_assoc, List.append_assoc] at whole
      have same := List.append_cancel_left whole
      rw [List.singleton_append, List.cons_append, List.cons.injEq] at same
      rw [same.1, ← onGlob]
      exact ⟨more ++ after, by simp⟩
    rcases inside with rfl | below | ⟨clean, variant⟩
    · have short := congrArg List.length onPath
      rw [List.length_append, List.length_append, List.length_cons] at short
      omega
    · exact .inr (.inl (next below))
    · exact .inr (.inr ⟨clean, next variant⟩)

/-- A glob is found to target a location that it lies in by its text. -/
theorem targets_of_liesIn {target glob : String} (sensitive : target ∈ sensitivePathSegments) (inside : LiesIn target glob) :
    targetsSensitiveLocation glob ≠ none := by
  intro none
  have missed := List.find?_eq_none.mp none target sensitive
  dsimp only at missed
  rw [decide_eq_true_eq, not_or, not_or] at missed
  obtain ⟨direct, suffix, several⟩ := missed
  by_cases slash : '/' ∈ target.toList
  · rcases inside with rfl | ⟨rest, below⟩ | ⟨clean, -⟩
    · refine several ⟨slash, List.isPrefixOf_iff_prefix.mpr List.prefix_rfl, ?_⟩
      rw [List.getElem?_eq_none le_rfl]
      exact List.mem_cons_self
    · rw [List.append_assoc] at below
      refine several ⟨slash, List.isPrefixOf_iff_prefix.mpr ⟨_, below⟩, ?_⟩
      rw [← below, List.getElem?_append_right le_rfl, Nat.sub_self]
      exact List.mem_cons_of_mem _ List.mem_cons_self
    · exact clean slash
  · have single : target.toList.splitOn '/' = [target.toList] := List.splitOn_eq_singleton slash
    rcases inside with rfl | ⟨rest, below⟩ | ⟨-, rest, variant⟩
    · exact direct (by rw [segments, single]; rfl)
    · rw [List.append_assoc] at below
      apply direct
      rw [segments, ← below, List.singleton_append, List.splitOn_append_cons_self, single]
      rfl
    · have dotted : '/' ∉ target.toList ++ ['.'] := fun member =>
        (List.mem_append.mp member).elim slash fun dot => absurd (List.mem_singleton.mp dot) (by decide)
      obtain ⟨more, first⟩ := segments_head _ rest dotted glob.toList
      rw [variant, String.ofList_toList] at first
      rw [first, List.append_assoc] at suffix
      refine suffix ⟨List.isPrefixOf_iff_prefix.mpr (List.prefix_append _ _), ?_⟩
      rw [List.getElem?_append_right le_rfl, Nat.sub_self]
      exact List.mem_cons_self

end FsPath

open FsPath

section Property
variable {compile : String → Except String GlobPattern}

end Property

/-- An engine that compiles plain patterns, and one file of each directory. -/
def configCompile (pattern : String) : Except String GlobPattern :=
  if Glob.Plain pattern.toList then .ok fun path => path = pattern
  else if pattern = "*/config" then .ok fun path => path.toList.dropWhile (· ≠ '/') = "/config".toList
  else .error "not compiled"

theorem configCompile_engine : GlobEngine configCompile where
  reads := by
    intro pattern g compiled
    unfold configCompile at compiled
    split_ifs at compiled with plain config
    · injection compiled with compiled
      have reads := Glob.Reads.literal_front plain .nil
      refine ⟨pattern.toList.map .literal, by simpa using reads, fun path => ?_⟩
      rw [← compiled, Glob.matchesAll_literals, decide_eq_true_eq, String.toList_inj]
    · injection compiled with compiled
      have back : Glob.Plain "/config".toList := by decide
      have reads : Glob.Reads pattern.toList (.zeroOrMore :: "/config".toList.map .literal) := by
        have split : "*/config".toList = '*' :: "/config".toList := by decide
        have rest := Glob.Reads.literal_front back .nil
        rw [List.append_nil, List.append_nil] at rest
        rw [config, split]
        exact .zeroOrMore rest
      refine ⟨_, reads, fun path => ?_⟩
      rw [← compiled, decide_eq_true_eq, Glob.MatchesAll]
      simp only [Glob.matchesAll_literals, Glob.Token.Matches]
      constructor
      · intro rest
        refine ⟨path.toList.takeWhile (· ≠ '/'), _, ?_, ?_, rest⟩
        · exact List.takeWhile_append_dropWhile.symm
        · intro member
          exact absurd (List.mem_takeWhile_imp member) (by decide)
      · rintro ⟨front, rest, whole, flat, rfl⟩
        have all : ∀ c ∈ front, decide (c ≠ '/') = true := fun c member =>
          decide_eq_true fun slash => flat (slash ▸ member)
        rw [whole, List.dropWhile_append_of_pos all]
        rfl
  plain := fun pattern plain => ⟨_, if_pos plain⟩

end Latchgate
