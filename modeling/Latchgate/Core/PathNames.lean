import Latchgate.Core.FsPath

namespace Latchgate
namespace FsPath

/-! What the text of a path names. -/

/-- The segments that name something. -/
def named (path : String) : List (List Char) :=
  (segments path).filter fun segment => !skipped segment

def ofSegments (names : List (List Char)) : String :=
  String.ofList (List.intercalate ['/'] names)

/-- The relative path as the kernel gives it back. -/
def canonical (path : String) : String :=
  ofSegments (named path)

theorem separator_notMem_of_mem_splitOn {text segment : List Char} (member : segment ∈ text.splitOn '/') : '/' ∉ segment := by
  induction text generalizing segment with
  | nil =>
    rw [List.splitOn_nil, List.mem_singleton] at member
    rw [member]
    exact List.not_mem_nil
  | cons c text ih =>
    rw [List.splitOn_cons_eq_if_modifyHead] at member
    split_ifs at member with separator
    · rcases List.mem_cons.mp member with rfl | later
      · exact List.not_mem_nil
      · exact ih later
    · obtain ⟨first, more, split⟩ := List.exists_cons_of_ne_nil (List.splitOn_ne_nil '/' text)
      rw [split] at ih member
      rw [List.modifyHead_cons, List.mem_cons] at member
      rcases member with rfl | later
      · rw [List.mem_cons, not_or]
        exact ⟨fun same => separator (by rw [same, beq_self_eq_true]), ih List.mem_cons_self⟩
      · exact ih (List.mem_cons_of_mem first later)

theorem segments_ofSegments {names : List (List Char)} (clean : ∀ name ∈ names, '/' ∉ name) (some_ : names ≠ []) :
    segments (ofSegments names) = names := by
  rw [segments, ofSegments, String.toList_ofList, List.splitOn_intercalate '/' clean some_]

theorem ofSegments_segments (path : String) : ofSegments (segments path) = path := by
  rw [ofSegments, segments, List.intercalate_splitOn, String.ofList_toList]

theorem filter_skipped {names : List (List Char)} (nothing : ∀ name ∈ names, skipped name = true) :
    (names.filter fun s => !skipped s) = [] := by
  rw [List.filter_eq_nil_iff]
  intro name member
  rw [nothing name member]
  decide

theorem filter_dropWhile (names : List (List Char)) :
    ((names.dropWhile skipped).filter fun s => !skipped s) = names.filter fun s => !skipped s := by
  have whole := congrArg (List.filter fun s => !skipped s) (List.takeWhile_append_dropWhile (p := skipped) (l := names))
  rw [← whole, List.filter_append, filter_skipped fun _ => List.mem_takeWhile_imp, List.nil_append]

theorem filter_rdropWhile (names : List (List Char)) :
    ((names.rdropWhile skipped).filter fun s => !skipped s) = names.filter fun s => !skipped s := by
  rw [List.rdropWhile, List.filter_reverse, filter_dropWhile, List.filter_reverse, List.reverse_reverse]

/-- The first segment that names something is the one of the root. -/
theorem stripSegments_cons {path root rest : List (List Char)} {r : List Char} (stripped : stripSegments path (r :: root) = some rest) :
    ∃ more, path.dropWhile skipped = r :: more ∧ stripSegments more root = some rest := by
  rw [stripSegments] at stripped
  cases left : path.dropWhile skipped with
  | nil => simp only [left, reduceCtorEq] at stripped
  | cons s more =>
    simp only [left, Option.ite_none_right_eq_some] at stripped
    obtain ⟨rfl, behind⟩ := stripped
    exact ⟨more, rfl, behind⟩

/-- A path is what names the root, and what is left behind it. -/
theorem stripSegments_split {path root rest : List (List Char)} (names : ∀ r ∈ root, skipped r = false)
    (stripped : stripSegments path root = some rest) :
    ∃ front, path = front ++ rest ∧ (front.filter fun s => !skipped s) = root := by
  induction root generalizing path with
  | nil =>
    rw [stripSegments, Option.some.injEq] at stripped
    exact ⟨[], stripped, rfl⟩
  | cons r root ih =>
    obtain ⟨more, left, behind⟩ := stripSegments_cons stripped
    obtain ⟨front, split, named⟩ := ih (fun r member => names r (List.mem_cons_of_mem _ member)) behind
    refine ⟨path.takeWhile skipped ++ (r :: front), ?_, ?_⟩
    · rw [List.append_assoc, List.cons_append, ← split, ← left, List.takeWhile_append_dropWhile]
    · have kept : skipped r = false := names r List.mem_cons_self
      rw [List.filter_append, filter_skipped fun _ => List.mem_takeWhile_imp, List.nil_append,
        List.filter_cons_of_pos (by rw [kept, Bool.not_false]), named]

/-- Two ways to split a path behind its root differ in skipped segments only. -/
theorem stripSegments_front {front rest root left : List (List Char)} (names : (front.filter fun s => !skipped s) = root)
    (stripped : stripSegments (front ++ rest) root = some left) : left.dropWhile skipped = rest.dropWhile skipped := by
  induction root generalizing front with
  | nil =>
    rw [stripSegments, Option.some.injEq] at stripped
    have nothing : ∀ s ∈ front, skipped s = true := by
      intro s member
      have kept := List.filter_eq_nil_iff.mp names s member
      simpa using kept
    rw [← stripped, List.dropWhile_append_of_pos nothing]
  | cons r root ih =>
    obtain ⟨more, first, behind⟩ := stripSegments_cons stripped
    rw [← filter_dropWhile] at names
    cases kept : front.dropWhile skipped with
    | nil =>
      rw [kept] at names
      cases names
    | cons s later =>
      rw [List.dropWhile_append, kept, if_neg (by simp), List.cons_append] at first
      injection first with same further
      rw [kept, same] at names
      have clear : skipped r = false := by
        have head := @List.head_dropWhile_not _ skipped front (by rw [kept]; exact List.cons_ne_nil s later)
        simpa only [kept, List.head_cons, same, Bool.not_eq_true] using head
      rw [List.filter_cons_of_pos (by rw [clear, Bool.not_false])] at names
      injection names with _ names
      exact ih names (by rw [further]; exact behind)

theorem segments_canonical {path : String} (some_ : named path ≠ []) : segments (canonical path) = named path := by
  refine segments_ofSegments (fun name member => ?_) some_
  exact separator_notMem_of_mem_splitOn (List.mem_of_mem_filter member)

end FsPath
end Latchgate
