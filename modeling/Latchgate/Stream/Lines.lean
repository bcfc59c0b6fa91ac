import Mathlib.Data.List.Basic

/-! A stream cut after each separator. -/

namespace Lines
variable {α : Type*} (sep : α → Bool)

/-- The first piece with its separator, and what follows it. -/
def cutAfter : List α → List α × List α
  | [] => ([], [])
  | a :: rest => if sep a then ([a], rest) else (a :: (cutAfter rest).1, (cutAfter rest).2)

/-- All pieces; only the last one may be without a separator. -/
def splitAfter : List α → List (List α)
  | [] => []
  | a :: rest =>
    if sep a then [a] :: splitAfter rest
    else match splitAfter rest with
      | [] => [[a]]
      | piece :: more => (a :: piece) :: more

variable {sep}

theorem splitAfter_eq_cons {text : List α} (some_ : text ≠ []) :
    splitAfter sep text = (cutAfter sep text).1 :: splitAfter sep (cutAfter sep text).2 := by
  induction text with
  | nil => exact absurd rfl some_
  | cons a rest ih =>
    by_cases ends : sep a = true
    · simp only [splitAfter, cutAfter, ends, if_true]
    · simp only [splitAfter, cutAfter, if_neg ends]
      cases rest with
      | nil => rfl
      | cons b more => rw [ih (List.cons_ne_nil b more)]

theorem ne_nil_of_mem_splitAfter {text piece : List α} (member : piece ∈ splitAfter sep text) : piece ≠ [] := by
  induction text generalizing piece with
  | nil => exact absurd member List.not_mem_nil
  | cons a rest ih =>
    rw [splitAfter] at member
    split_ifs at member with ends
    · rcases List.mem_cons.mp member with rfl | later
      · exact List.cons_ne_nil _ _
      · exact ih later
    · split at member
      · rw [List.mem_singleton.mp member]
        exact List.cons_ne_nil _ _
      · next first more pieces =>
        rcases List.mem_cons.mp member with rfl | later
        · exact List.cons_ne_nil _ _
        · exact ih (pieces ▸ List.mem_cons_of_mem _ later)

/-- A separator that has been read ends the piece. -/
theorem cutAfter_append_found {front : List α} {pos : Nat} (found : front.findIdx? sep = some pos) (back : List α) :
    cutAfter sep (front ++ back) = (front.take (pos + 1), front.drop (pos + 1) ++ back) := by
  induction front generalizing pos with
  | nil => simp at found
  | cons a rest ih =>
    by_cases ends : sep a = true
    · obtain rfl : 0 = pos := by simpa [List.findIdx?_cons, ends] using found
      simp [cutAfter, ends]
    · simp only [List.findIdx?_cons, if_neg ends, Option.map_eq_some_iff] at found
      obtain ⟨before, earlier, rfl⟩ := found
      simp only [List.cons_append, cutAfter, if_neg ends, ih earlier, List.take_succ_cons, List.drop_succ_cons]

/-- Without one the piece goes on. -/
theorem cutAfter_append_none {front : List α} (none_ : front.findIdx? sep = none) (back : List α) :
    cutAfter sep (front ++ back) = (front ++ (cutAfter sep back).1, (cutAfter sep back).2) := by
  induction front with
  | nil => rfl
  | cons a rest ih =>
    simp only [List.findIdx?_cons] at none_
    split_ifs at none_ with ends
    have later : rest.findIdx? sep = none := by simpa using none_
    simp only [List.cons_append, cutAfter, if_neg ends, ih later]

end Lines
