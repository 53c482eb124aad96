import Mathlib.Data.Int.Log
import Mathlib.Data.Rat.Floor
import Mathlib.Algebra.Order.Field.Power
import Mathlib.Tactic.Positivity

/-!
# Rounding to a number of significant bits

Rounding to the nearest number with a given number of significant bits, ties to even, as
the operations on floating-point numbers round while the exponent stays in range. Only the
sign of the result is studied: rounding keeps zero and keeps positive numbers positive.
-/

namespace Vts.Lib.Rounding

/-- The nearest integer, the even one of two. -/
def roundHalfEven (q : ℚ) : ℤ :=
  if q - ⌊q⌋ < 1 / 2 ∨ (q - ⌊q⌋ = 1 / 2 ∧ ⌊q⌋ % 2 = 0) then ⌊q⌋ else ⌊q⌋ + 1

/-- The weight of the last of the significant bits of a number. -/
def ulp (bits : ℕ) (q : ℚ) : ℚ := 2 ^ (Int.log 2 |q| - (bits - 1 : ℤ))

/-- The nearest number with so many significant bits. -/
def roundTo (bits : ℕ) (q : ℚ) : ℚ :=
  if q = 0 then 0 else roundHalfEven (q / ulp bits q) * ulp bits q

theorem floor_le_roundHalfEven (q : ℚ) : ⌊q⌋ ≤ roundHalfEven q := by
  unfold roundHalfEven
  split_ifs
  · exact le_rfl
  · omega

theorem roundTo_pos {bits : ℕ} (some_bits : 1 ≤ bits) {q : ℚ} (positive : 0 < q) :
    0 < roundTo bits q := by
  have ulp_pos : 0 < ulp bits q := by
    unfold ulp
    positivity
  have least : 1 ≤ q / ulp bits q := by
    rw [le_div_iff₀ ulp_pos, one_mul]
    have power : (2 : ℚ) ^ Int.log 2 |q| ≤ q := by
      rw [abs_of_pos positive]
      exact Int.zpow_log_le_self (by decide) positive
    refine le_trans ?_ power
    exact zpow_le_zpow_right₀ (by norm_num) (by omega)
  have rounded : 1 ≤ roundHalfEven (q / ulp bits q) :=
    le_trans (Int.le_floor.mpr (by exact_mod_cast least)) (floor_le_roundHalfEven _)
  rw [roundTo, if_neg positive.ne']
  refine mul_pos ?_ ulp_pos
  exact_mod_cast lt_of_lt_of_le one_pos rounded

end Vts.Lib.Rounding
