import Latchgate.Machine.Run

namespace Machine
variable {σ ι ο κ ρ : Type*}

/-- A store of entries under keys, each read by `peek`: an input is about one
key at most, and neither reads nor writes what lies under the others. -/
structure KeyLocal (m : Machine σ ι ο) (peek : σ → κ → ρ) (target : ι → Option κ) : Prop where
  frame : ∀ s i k, target i ≠ some k → peek (m.step s i).1 k = peek s k
  entry : ∀ s t i k, target i = some k → peek s k = peek t k →
    peek (m.step s i).1 k = peek (m.step t i).1 k ∧ (m.step s i).2 = (m.step t i).2

namespace KeyLocal
variable {m : Machine σ ι ο} {peek : σ → κ → ρ} {target : ι → Option κ} {own : κ → Prop}

/-- Two stores that have the same under the keys of one owner. -/
def Agree (peek : σ → κ → ρ) (own : κ → Prop) (s t : σ) : Prop :=
  ∀ k, own k → peek s k = peek t k

/-- What is done under an owner's key is done alike in two stores that agree
on the owner's keys, and leaves them agreeing. -/
theorem agree_step (keyed : m.KeyLocal peek target) (i : ι) {s t : σ} {k : κ} (agree : Agree peek own s t)
    (about : target i = some k) (owned : own k) :
    Agree peek own (m.step s i).1 (m.step t i).1 ∧ (m.step s i).2 = (m.step t i).2 := by
  obtain ⟨here, answers⟩ := keyed.entry s t i k about (agree k owned)
  refine ⟨fun j other => ?_, answers⟩
  by_cases same : target i = some j
  · obtain rfl : k = j := Option.some.inj (about.symm.trans same)
    exact here
  · rw [keyed.frame s i j same, keyed.frame t i j same]
    exact agree j other

/-- What is done under no key of the owner is not seen under the owner's keys. -/
theorem agree_skip (keyed : m.KeyLocal peek target) (i : ι) {s t : σ} (agree : Agree peek own s t)
    (foreign : ∀ k, target i = some k → ¬own k) : Agree peek own (m.step s i).1 t := by
  intro k owned
  have elsewhere : target i ≠ some k := fun about => foreign k about owned
  rw [keyed.frame s i k elsewhere]
  exact agree k owned

end KeyLocal
end Machine
