import Latchgate.Machine.Run
import Mathlib.Logic.Function.Basic

/-- One of many parties that act on a shared state. What a party does next
depends on where it has come to. -/
structure Actor (σ π ι ο : Type*) where
  act : σ → π → ι → σ × π × ο

namespace Actor
variable {σ π ι ο : Type*} (a : Actor σ π ι ο)

/-- Any number of parties, one of which acts at a time. -/
def machine : Machine (σ × (Nat → π)) (Nat × ι) ο where
  step s e :=
    let (shared, own, answer) := a.act s.1 (s.2 e.1) e.2
    ((shared, Function.update s.2 e.1 own), answer)

variable {a}

theorem step_shared (s : σ × (Nat → π)) (i : Nat) (e : ι) :
    (a.machine.step s (i, e)).1.1 = (a.act s.1 (s.2 i) e).1 :=
  rfl

theorem step_answer (s : σ × (Nat → π)) (i : Nat) (e : ι) :
    (a.machine.step s (i, e)).2 = (a.act s.1 (s.2 i) e).2.2 :=
  rfl

@[simp] theorem step_own (s : σ × (Nat → π)) (i : Nat) (e : ι) :
    (a.machine.step s (i, e)).1.2 i = (a.act s.1 (s.2 i) e).2.1 := by
  simp [machine]

theorem step_other (s : σ × (Nat → π)) {i j : Nat} (differs : i ≠ j) (e : ι) :
    (a.machine.step s (j, e)).1.2 i = s.2 i := by
  simp [machine, Function.update_of_ne differs]

section Invariants
variable {guard : σ × (Nat → π) → Nat × ι → Prop} {inv : List ((Nat × ι) × ο) → Nat → σ → π → Prop}

/-- What a guarded step keeps of the party that acts, and of any other, holds
of every party after every guarded run. -/
theorem guarded_invariant
    (own : ∀ past s i e, guard s (i, e) → (∀ j, inv past j s.1 (s.2 j)) →
      inv (past ++ [((i, e), (a.act s.1 (s.2 i) e).2.2)]) i (a.act s.1 (s.2 i) e).1 (a.act s.1 (s.2 i) e).2.1)
    (frame : ∀ past s i j e, i ≠ j → guard s (j, e) → (∀ k, inv past k s.1 (s.2 k)) →
      inv (past ++ [((j, e), (a.act s.1 (s.2 j) e).2.2)]) i (a.act s.1 (s.2 j) e).1 (s.2 i))
    {s : σ × (Nat → π)} (start : ∀ i, inv [] i s.1 (s.2 i)) {inputs : List (Nat × ι)}
    (meets : a.machine.Meets guard s inputs) (i : Nat) :
    inv (a.machine.trace s inputs) i (a.machine.run s inputs).1 ((a.machine.run s inputs).2 i) := by
  let each : List ((Nat × ι) × ο) → σ × (Nat → π) → Prop := fun past t => ∀ i, inv past i t.1 (t.2 i)
  have preserved : ∀ past t e, guard t e → each past t →
      each (past ++ [(e, (a.machine.step t e).2)]) (a.machine.step t e).1 := by
    rintro past t ⟨j, e⟩ guarded each i
    by_cases same : i = j
    · subst same
      rw [step_own]
      exact own past t i e guarded each
    · rw [step_other t same]
      exact frame past t i j e same guarded each
  have all : each (a.machine.trace s inputs) (a.machine.run s inputs) := meets.trace_invariant start preserved
  exact all i

/-- The same for runs without a guard. -/
theorem invariant
    (own : ∀ past (s : σ × (Nat → π)) i e, (∀ j, inv past j s.1 (s.2 j)) →
      inv (past ++ [((i, e), (a.act s.1 (s.2 i) e).2.2)]) i (a.act s.1 (s.2 i) e).1 (a.act s.1 (s.2 i) e).2.1)
    (frame : ∀ past (s : σ × (Nat → π)) i j e, i ≠ j → (∀ k, inv past k s.1 (s.2 k)) →
      inv (past ++ [((j, e), (a.act s.1 (s.2 j) e).2.2)]) i (a.act s.1 (s.2 j) e).1 (s.2 i))
    {s : σ × (Nat → π)} (start : ∀ i, inv [] i s.1 (s.2 i)) (inputs : List (Nat × ι)) (i : Nat) :
    inv (a.machine.trace s inputs) i (a.machine.run s inputs).1 ((a.machine.run s inputs).2 i) :=
  @guarded_invariant _ _ _ _ a (fun _ _ => True) inv (fun past s i e _ each => own past s i e each)
    (fun past s i j e differs _ each => frame past s i j e differs each) s start inputs (Machine.meets_true _ _) i

end Invariants

end Actor
