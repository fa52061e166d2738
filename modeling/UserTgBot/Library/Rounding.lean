import Mathlib.Algebra.Order.Floor.Ring
import Mathlib.Algebra.Order.Field.Basic
import Mathlib.Tactic.Linarith

/-!
# Rounding up to a multiple

A charge rounded up to a grid is never below the exact amount and less than one step above it.
-/

namespace Rounding

variable {K : Type*} [Field K] [LinearOrder K] [IsStrictOrderedRing K] [FloorRing K]
variable {step x y : K}

/-- The least multiple of `step` that is not below. -/
def ceilTo (step x : K) : K := ⌈x / step⌉ * step

theorem le_ceilTo (hstep : 0 < step) : x ≤ ceilTo step x := by
  rw [ceilTo, ← div_le_iff₀ hstep]
  exact Int.le_ceil _

theorem ceilTo_lt (hstep : 0 < step) : ceilTo step x < x + step := by
  have hceil : (⌈x / step⌉ : K) < x / step + 1 := Int.ceil_lt_add_one _
  calc (⌈x / step⌉ : K) * step < (x / step + 1) * step := mul_lt_mul_of_pos_right hceil hstep
    _ = x + step := by rw [add_mul, one_mul, div_mul_cancel₀ _ hstep.ne']

theorem ceilTo_mono (hstep : 0 < step) (h : x ≤ y) : ceilTo step x ≤ ceilTo step y := by
  apply mul_le_mul_of_nonneg_right _ hstep.le
  apply Int.cast_le.mpr
  apply Int.ceil_le_ceil
  exact div_le_div_of_nonneg_right h hstep.le

end Rounding
