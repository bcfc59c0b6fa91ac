import Mathlib.Data.List.Pairwise
import Mathlib.Order.Lattice

/-- The time for which something was given to a holder. -/
structure Tenure (α τ : Type*) where
  holder : α
  start : τ
  stop : τ
  deriving DecidableEq

namespace Tenure
variable {α τ : Type*} [LinearOrder τ]

/-- Every tenure begins when the ones before it have ended. -/
def Successive (tenures : List (Tenure α τ)) : Prop :=
  tenures.Pairwise fun earlier later => earlier.stop ≤ later.start

def live (now : τ) (tenures : List (Tenure α τ)) : List (Tenure α τ) :=
  tenures.filter fun t => decide (now < t.stop)

theorem Successive.concat {tenures : List (Tenure α τ)} {next : Tenure α τ}
    (successive : Successive tenures) (ended : ∀ t ∈ tenures, t.stop ≤ next.start) :
    Successive (tenures ++ [next]) := by
  refine List.pairwise_append.mpr ⟨successive, by simp, ?_⟩
  intro t member last same
  rw [List.mem_singleton.mp same]
  exact ended t member

/-- When the last of successive tenures has ended, all of them have. -/
theorem Successive.all_ended {earlier : List (Tenure α τ)} {last : Tenure α τ} {now : τ}
    (successive : Successive (earlier ++ [last])) (begun : last.start ≤ now) (ended : last.stop ≤ now) :
    ∀ t ∈ earlier ++ [last], t.stop ≤ now := by
  intro t member
  rcases List.mem_append.mp member with old | newest
  · have before := (List.pairwise_append.mp successive).2.2 t old last (by simp)
    exact before.trans begun
  · rw [List.mem_singleton.mp newest]
    exact ended

/-- Of successive tenures that have begun at most one is live. -/
theorem Successive.live_le_one {tenures : List (Tenure α τ)} {now : τ}
    (successive : Successive tenures) (begun : ∀ t ∈ tenures, t.start ≤ now) :
    (live now tenures).length ≤ 1 := by
  have pairwise : (live now tenures).Pairwise fun earlier later => earlier.stop ≤ later.start :=
    List.Pairwise.filter _ successive
  match found : live now tenures with
  | [] => simp
  | [t] => simp
  | t :: u :: rest =>
    rw [found] at pairwise
    have ended : t.stop ≤ u.start := (List.pairwise_cons.mp pairwise).1 u (by simp)
    have liveFirst : t ∈ live now tenures := by simp [found]
    have inside : u ∈ live now tenures := by simp [found]
    have running : now < t.stop := by simpa using (List.mem_filter.mp liveFirst).2
    have started := begun u (List.mem_filter.mp inside).1
    exact absurd (ended.trans started) (not_le.mpr running)

end Tenure
