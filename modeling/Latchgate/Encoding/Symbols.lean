import Mathlib.Data.List.Basic

/-! Texts that are written symbol by symbol. -/

namespace Encoding

variable {α β : Type} {code : α → List β}

/-- A symbol at which a scan stops is written with a character at which it
stops in front, and no other symbol has such a character. -/
structure Stops (code : α → List β) (symbols : α → Bool) (stops : β → Bool) : Prop where
  own : ∀ a, symbols a = true → ∃ b rest, code a = b :: rest ∧ stops b = true
  others : ∀ a, symbols a = false → ∀ b ∈ code a, stops b = false

namespace Stops
variable {symbols : α → Bool} {stops : β → Bool}

theorem takeWhile (only : Stops code symbols stops) (items : List α) :
    (items.flatMap code).takeWhile (fun b => !stops b) = (items.takeWhile fun a => !symbols a).flatMap code := by
  induction items with
  | nil => rfl
  | cons a items ih =>
    rw [List.flatMap_cons]
    cases stop : symbols a with
    | true =>
      obtain ⟨b, rest, written, hit⟩ := only.own a stop
      rw [written, List.cons_append, List.takeWhile_cons_of_neg (by simp [hit]), List.takeWhile_cons_of_neg (by simp [stop])]
      rfl
    | false =>
      have clean : ∀ b ∈ code a, (!stops b) = true := fun b member => by rw [only.others a stop b member]; rfl
      rw [List.takeWhile_append_of_pos clean, List.takeWhile_cons_of_pos (by simp [stop]), List.flatMap_cons, ih]

theorem dropWhile (only : Stops code symbols stops) (items : List α) :
    (items.flatMap code).dropWhile (fun b => !stops b) = (items.dropWhile fun a => !symbols a).flatMap code := by
  induction items with
  | nil => rfl
  | cons a items ih =>
    rw [List.flatMap_cons]
    cases stop : symbols a with
    | true =>
      obtain ⟨b, rest, written, hit⟩ := only.own a stop
      rw [List.dropWhile_cons_of_neg (by simp [stop]), List.flatMap_cons, written, List.cons_append,
        List.dropWhile_cons_of_neg (by simp [hit])]
    | false =>
      have clean : ∀ b ∈ code a, (!stops b) = true := fun b member => by rw [only.others a stop b member]; rfl
      rw [List.dropWhile_append_of_pos clean, List.dropWhile_cons_of_pos (by simp [stop]), ih]

end Stops

theorem splitOnP_clean_append {stops : β → Bool} {front : List β} (clean : ∀ b ∈ front, stops b = false) (rest : List β) :
    (front ++ rest).splitOnP stops = (rest.splitOnP stops).modifyHead (front ++ ·) := by
  induction front with
  | nil => exact (congrFun List.modifyHead_id _).symm
  | cons b front ih =>
    have plain : ¬stops b = true := by rw [clean b List.mem_cons_self]; exact Bool.false_ne_true
    rw [List.cons_append, List.splitOnP_cons_eq_if_modifyHead, if_neg plain,
      ih fun c member => clean c (List.mem_cons_of_mem b member), List.modifyHead_modifyHead]
    rfl

/-- Between separators the symbols are written as they are in the whole. -/
theorem splitOnP_flatMap {symbols : α → Bool} {stops : β → Bool}
    (own : ∀ a, symbols a = true → ∃ b, code a = [b] ∧ stops b = true)
    (others : ∀ a, symbols a = false → ∀ b ∈ code a, stops b = false) (items : List α) :
    (items.flatMap code).splitOnP stops = (items.splitOnP symbols).map fun piece => piece.flatMap code := by
  induction items with
  | nil => rfl
  | cons a items ih =>
    rw [List.flatMap_cons, List.splitOnP_cons_eq_if_modifyHead]
    cases stop : symbols a with
    | true =>
      obtain ⟨b, written, hit⟩ := own a stop
      rw [written, List.singleton_append, List.splitOnP_cons_eq_if_modifyHead, if_pos hit, if_pos rfl, ih, List.map_cons]
      rfl
    | false =>
      obtain ⟨piece, pieces, split⟩ := List.exists_cons_of_ne_nil (List.splitOnP_ne_nil symbols items)
      rw [splitOnP_clean_append (others a stop), ih, if_neg Bool.false_ne_true, split, List.map_cons, List.modifyHead_cons,
        List.modifyHead_cons, List.map_cons, List.flatMap_cons]

theorem mem_of_mem_splitOnP {separators : α → Bool} {items piece : List α} (listed : piece ∈ items.splitOnP separators) {a : α}
    (member : a ∈ piece) : a ∈ items := by
  induction items generalizing piece with
  | nil =>
    cases List.mem_singleton.mp listed
    exact member
  | cons b items ih =>
    rw [List.splitOnP_cons_eq_if_modifyHead] at listed
    split_ifs at listed with separates
    · rcases List.mem_cons.mp listed with rfl | later
      · cases member
      · exact List.mem_cons_of_mem b (ih later member)
    · obtain ⟨first, pieces, split⟩ := List.exists_cons_of_ne_nil (List.splitOnP_ne_nil separators items)
      rw [split, List.modifyHead_cons] at listed
      rcases List.mem_cons.mp listed with rfl | later
      · rcases List.mem_cons.mp member with rfl | inside
        · exact List.mem_cons_self
        · exact List.mem_cons_of_mem b (ih (split ▸ List.mem_cons_self) inside)
      · exact List.mem_cons_of_mem b (ih (split ▸ List.mem_cons_of_mem first later) member)

end Encoding
