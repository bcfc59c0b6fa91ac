import Mathlib.Data.Nat.Bitwise

namespace Bits

/-! Numbers of a width by their first bits. -/

/-- A block has all numbers that begin as its base does. -/
structure Block where
  base : Nat
  length : Nat

namespace Block

def Holds (width : Nat) (block : Block) (n : Nat) : Prop :=
  n / 2 ^ (width - block.length) = block.base / 2 ^ (width - block.length)

instance (width : Nat) (block : Block) (n : Nat) : Decidable (block.Holds width n) :=
  inferInstanceAs (Decidable (_ = _))

/-- Where the rest of a number lies behind the first bits it does not count. -/
theorem holds_lead {width low x rest : Nat} {block : Block} (small : rest < 2 ^ low) (fits : low + block.length ≤ width) :
    block.Holds width (x * 2 ^ low + rest) ↔ Holds (width - low) ⟨block.base / 2 ^ low, block.length⟩ x := by
  have split : 2 ^ (width - block.length) = 2 ^ low * 2 ^ (width - low - block.length) := by
    rw [← Nat.pow_add]
    congr 1
    omega
  have lead : (x * 2 ^ low + rest) / 2 ^ low = x := by
    rw [Nat.add_comm, Nat.add_mul_div_right _ _ (Nat.two_pow_pos _), Nat.div_eq_of_lt small, Nat.zero_add]
  rw [Holds, Holds, split, ← Nat.div_div_eq_div_mul, ← Nat.div_div_eq_div_mul, lead]

end Block

/-- A mask of leading ones clears what follows the first bits. -/
theorem and_leading {n width low : Nat} (small : n < 2 ^ width) (fits : low ≤ width) :
    n &&& (2 ^ width - 2 ^ low) = n / 2 ^ low * 2 ^ low := by
  have mask : 2 ^ width - 2 ^ low = (2 ^ (width - low) - 1) * 2 ^ low := by
    rw [Nat.sub_mul, ← Nat.pow_add, Nat.sub_add_cancel fits, Nat.one_mul]
  apply Nat.eq_of_testBit_eq
  intro i
  rw [mask, Nat.testBit_and, Nat.testBit_mul_two_pow, Nat.testBit_mul_two_pow, Nat.testBit_two_pow_sub_one,
    Nat.testBit_div_two_pow]
  by_cases high : low ≤ i
  · rw [Nat.sub_add_cancel high]
    by_cases inside : i < width
    · have shifted : i - low < width - low := by omega
      simp [high, shifted]
    · have zero : n.testBit i = false := Nat.testBit_lt_two_pow (small.trans_le (Nat.pow_le_pow_right (by decide) (by omega)))
      simp [zero]
  · simp [high]

/-- A masked number is compared with the base of a block. -/
theorem Block.holds_iff_and {n width : Nat} {block : Block} (small : n < 2 ^ width)
    (aligned : 2 ^ (width - block.length) ∣ block.base) :
    block.Holds width n ↔ n &&& (2 ^ width - 2 ^ (width - block.length)) = block.base := by
  rw [and_leading small (Nat.sub_le _ _), Holds]
  constructor
  · intro same
    rw [same, Nat.div_mul_cancel aligned]
  · intro same
    rw [← same, Nat.mul_div_cancel _ (Nat.two_pow_pos _)]

end Bits
