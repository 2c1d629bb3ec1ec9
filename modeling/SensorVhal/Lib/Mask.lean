import Mathlib.Data.Nat.Basic
import Mathlib.Tactic.Common

namespace Mask

variable {w : Nat}

-- The index of the highest bit of a mask that is not zero.
def highest (mask : BitVec w) : Nat := w - 1 - mask.clz.toNat

theorem getLsbD_highest {mask : BitVec w} (h : mask ≠ 0#w) :
    mask.getLsbD (highest mask) = true := by
  have hw : 0 < w := by
    rcases Nat.eq_zero_or_pos w with rfl | hw
    · exact absurd (BitVec.eq_nil mask) (by simpa using h)
    · exact hw
  exact BitVec.getLsbD_true_clz_of_ne_zero hw h

theorem getLsbD_of_highest_lt {mask : BitVec w} {i : Nat} (h : highest mask < i) :
    mask.getLsbD i = false := by
  have hlt : mask.toNat < 2 ^ (w - mask.clz.toNat) := BitVec.toNat_lt_two_pow_sub_clz
  have hle : w - mask.clz.toNat ≤ i := by unfold highest at h; omega
  exact Nat.testBit_lt_two_pow (Nat.lt_of_lt_of_le hlt (Nat.pow_le_pow_right (by decide) hle))

theorem getLsbD_bit {i j : Nat} (hj : j < w) : (1#w <<< i).getLsbD j = decide (j = i) := by
  rw [← BitVec.twoPow_eq, BitVec.getLsbD_twoPow]
  by_cases h : i = j
  · subst i
    simp [hj]
  · simp [h, Ne.symm h]

theorem getLsbD_set (mask : BitVec w) (i : Nat) {j : Nat} (hj : j < w) :
    (mask ||| 1#w <<< i).getLsbD j = (mask.getLsbD j || decide (j = i)) := by
  rw [BitVec.getLsbD_or, getLsbD_bit hj]

theorem getLsbD_clear (mask : BitVec w) (i : Nat) {j : Nat} (hj : j < w) :
    (mask &&& ~~~(1#w <<< i)).getLsbD j = (mask.getLsbD j && !decide (j = i)) := by
  rw [BitVec.getLsbD_and, BitVec.getLsbD_not, getLsbD_bit hj, decide_eq_true hj, Bool.true_and]

theorem and_bit_ne_zero (mask : BitVec w) {i : Nat} (hi : i < w) :
    mask &&& 1#w <<< i ≠ 0#w ↔ mask.getLsbD i = true := by
  constructor
  · intro h
    have hb := getLsbD_highest h
    have hlt := BitVec.lt_of_getLsbD hb
    rw [BitVec.getLsbD_and, getLsbD_bit hlt, Bool.and_eq_true, decide_eq_true_eq] at hb
    exact hb.2 ▸ hb.1
  · intro h hzero
    have hb := congrArg (fun x => BitVec.getLsbD x i) hzero
    simp only [BitVec.getLsbD_and, h, getLsbD_bit hi, BitVec.getLsbD_zero] at hb
    simp at hb

end Mask
