import Mathlib.Algebra.Order.Ring.Int

/-! Conversions of machine integers. The bits of a narrow integer do not say whether
it has a sign; what widening makes of it depends on that. -/
namespace Casts

variable {w v : Nat}

/-- `x as uv` of an `iw`: the sign is repeated. -/
def widen (v : Nat) (x : BitVec w) : BitVec v := x.signExtend v

/-- Half of the numbers keep their value. -/
theorem toNat_widen (hWider : w + 1 ≤ v) (x : BitVec (w + 1)) :
    (widen v x).toNat = if x.toNat < 2 ^ w then x.toNat else x.toNat + (2 ^ v - 2 ^ (w + 1)) := by
  have hLt : x.toNat < 2 ^ v := x.isLt.trans_le (Nat.pow_le_pow_right (by decide) hWider)
  unfold widen
  rw [BitVec.toNat_signExtend, BitVec.toNat_setWidth, Nat.mod_eq_of_lt hLt,
    BitVec.msb_eq_decide, Nat.add_sub_cancel]
  by_cases hSmall : x.toNat < 2 ^ w
  · simp [hSmall]
  · simp [hSmall, Nat.not_lt.mp hSmall]

theorem toNat_widen_eq_iff (hWider : w + 1 < v) (x : BitVec (w + 1)) :
    (widen v x).toNat = x.toNat ↔ x.toNat < 2 ^ w := by
  rw [toNat_widen hWider.le]
  have hMore : 2 ^ (w + 1) < 2 ^ v := Nat.pow_lt_pow_right (by decide) hWider
  split
  · simp [*]
  · constructor
    · omega
    · intro hSmall
      contradiction

theorem or_ones {n : Nat} (hLt : n < 2 ^ w) : n ||| (2 ^ w - 1) = 2 ^ w - 1 := by
  apply Nat.eq_of_testBit_eq
  intro i
  rw [Nat.testBit_or, Nat.testBit_two_pow_sub_one]
  by_cases hIn : i < w
  · simp [hIn]
  · have hPow : 2 ^ w ≤ 2 ^ i := Nat.pow_le_pow_right (by decide) (Nat.not_lt.mp hIn)
    simp [hIn, Nat.testBit_lt_two_pow (hLt.trans_le hPow)]

/-- A negative low half, widened, leaves nothing of the high half it is put together with. -/
theorem shiftLeft_or_negative {high low : Nat} (hHigh : high < 2 ^ w) (hLow : low < 2 ^ w) :
    high <<< w ||| (2 ^ (2 * w) - 2 ^ w + low) = 2 ^ (2 * w) - 2 ^ w + low := by
  have hOnes : 2 ^ (2 * w) - 2 ^ w = (2 ^ w - 1) <<< w := by
    rw [Nat.shiftLeft_eq, Nat.sub_mul, Nat.one_mul, Nat.two_mul, Nat.pow_add]
  rw [hOnes, Nat.shiftLeft_add_eq_or_of_lt hLow, ← Nat.or_assoc, ← Nat.shiftLeft_or_distrib,
    or_ones hHigh]

end Casts
