import Mathlib.Data.List.Infix
import Mathlib.Algebra.GroupWithZero.Nat
import Mathlib.Algebra.Order.Group.Nat

/-! Starts of lists within a bound on what they weigh. -/

namespace Encoding
variable {α : Type*} (weight : α → Nat)

def weigh (items : List α) : Nat :=
  (items.map weight).sum

/-- The items in front, up to the first one that there is no room for. -/
def fitting : Nat → List α → List α
  | _, [] => []
  | room, a :: rest => if weight a ≤ room then a :: fitting (room - weight a) rest else []

/-- The longest of all starts within a bound. -/
structure LongestFit (bound : Nat) (items start : List α) : Prop where
  starts : start <+: items
  fits : weigh weight start ≤ bound
  longest : ∀ other, other <+: items → weigh weight other ≤ bound → other <+: start

variable {weight} {items start other : List α} {bound : Nat}

theorem weigh_cons (a : α) (rest : List α) : weigh weight (a :: rest) = weight a + weigh weight rest := by
  rw [weigh, weigh, List.map_cons, List.sum_cons]

theorem weigh_append (front back : List α) : weigh weight (front ++ back) = weigh weight front + weigh weight back := by
  rw [weigh, weigh, weigh, List.map_append, List.sum_append]

/-- What comes behind an item that does not fit is lost, though it may be
lighter: a start with it has the item too. -/
theorem fitting_longest (bound : Nat) (items : List α) : LongestFit weight bound items (fitting weight bound items) := by
  induction items generalizing bound with
  | nil => exact ⟨List.prefix_refl [], Nat.zero_le bound, fun other starts _ => starts⟩
  | cons a rest ih =>
    by_cases fits : weight a ≤ bound
    · obtain ⟨starts, within, longest⟩ := ih (bound - weight a)
      rw [fitting, if_pos fits]
      refine ⟨(List.prefix_cons_inj a).mpr starts, by rw [weigh_cons]; omega, ?_⟩
      intro other front light
      cases other with
      | nil => exact List.nil_prefix
      | cons b more =>
        obtain ⟨rfl, behind⟩ := List.cons_prefix_cons.mp front
        rw [weigh_cons] at light
        exact (List.prefix_cons_inj b).mpr (longest more behind (by omega))
    · rw [fitting, if_neg fits]
      refine ⟨List.nil_prefix, Nat.zero_le bound, ?_⟩
      intro other front light
      cases other with
      | nil => exact List.nil_prefix
      | cons b more =>
        obtain ⟨rfl, -⟩ := List.cons_prefix_cons.mp front
        rw [weigh_cons] at light
        omega

theorem LongestFit.unique (first : LongestFit weight bound items start) (second : LongestFit weight bound items other) :
    start = other :=
  (second.longest start first.starts first.fits).eq_of_length_le (first.longest other second.starts second.fits).length_le

theorem longestFit_self (fits : weigh weight items ≤ bound) : LongestFit weight bound items items :=
  ⟨List.prefix_refl items, fits, fun _ starts _ => starts⟩

end Encoding
