import Mathlib.Data.Nat.Bitwise
import Mathlib.Data.Set.Basic

/-! Network masks over numbers of a fixed width: the mask of a prefix length, and the block
of numbers that agree with a given one in the bits of a mask. -/
namespace PyVpn.PrefixMask

def mask (width p : Nat) : Nat := 2 ^ width - 2 ^ (width - p)

/-- The numbers that agree with `a` in the bits of `m`. -/
def maskedBlock (width a m : Nat) : Set Nat := {x | x < 2 ^ width ∧ x &&& m = a &&& m}

/-- The numbers that agree with `a` in their first `p` bits. -/
def prefixBlock (width a p : Nat) : Set Nat :=
  {x | x < 2 ^ width ∧ x / 2 ^ (width - p) = a / 2 ^ (width - p)}

variable {width a p : Nat}

theorem testBit_mask (width p i : Nat) :
    (mask width p).testBit i = (decide (i < width) && decide (width - p ≤ i)) := by
  have hpos : 0 < 2 ^ (width - p) := Nat.two_pow_pos _
  have hle : 2 ^ (width - p) ≤ 2 ^ width := Nat.pow_le_pow_right (by decide) (Nat.sub_le _ _)
  have hsub : mask width p = 2 ^ width - (2 ^ (width - p) - 1 + 1) := by
    rw [mask, Nat.sub_add_cancel hpos]
  rw [hsub, Nat.testBit_two_pow_sub_succ (by omega), Nat.testBit_two_pow_sub_one]
  simp only [← Nat.not_lt, decide_not]

theorem land_mask {x : Nat} (hx : x < 2 ^ width) :
    x &&& mask width p = x / 2 ^ (width - p) * 2 ^ (width - p) := by
  apply Nat.eq_of_testBit_eq
  intro i
  rw [Nat.testBit_and, testBit_mask, ← Nat.shiftRight_eq_div_pow, ← Nat.shiftLeft_eq,
    Nat.testBit_shiftLeft]
  by_cases hbehind : width - p ≤ i
  · have hback : width - p + (i - (width - p)) = i := by omega
    rw [Nat.testBit_shiftRight, hback]
    by_cases hi : i < width
    · simp [hbehind, hi]
    · have hzero : x.testBit i = false := Nat.testBit_lt_two_pow
        (Nat.lt_of_lt_of_le hx (Nat.pow_le_pow_right (by decide) (Nat.le_of_not_lt hi)))
      simp [hzero]
  · simp [hbehind]

theorem maskedBlock_mask (ha : a < 2 ^ width) :
    maskedBlock width a (mask width p) = prefixBlock width a p := by
  ext x
  refine and_congr_right fun hx => ?_
  rw [land_mask hx, land_mask ha]
  exact Nat.mul_left_inj (Nat.two_pow_pos _).ne'

end PyVpn.PrefixMask
