import Mathlib.Algebra.Order.Field.Rat
import Mathlib.Data.Nat.Cast.Order.Field
import Mathlib.Tactic.FieldSimp
import Mathlib.Tactic.Linarith

set_option autoImplicit false

namespace SteppedScale

def steps (count maximum level : Nat) : Nat := level * count / maximum

def scaled (count full maximum level : Nat) : Nat := steps count maximum level * full / count

structure Proportional (count full maximum : Nat) (value : Nat → Nat) : Prop where
  bounded : ∀ level, level ≤ maximum → value level ≤ full
  monotone : ∀ lower higher, lower ≤ higher → higher ≤ maximum → value lower ≤ value higher
  top : value maximum = full
  close : ∀ level, level ≤ maximum →
    |(value level : ℚ) - level / maximum * full| < full / count + 1

section Scaled

variable {count full maximum : Nat}

theorem scaled_mono {lower higher : Nat} (ordered : lower ≤ higher) :
    scaled count full maximum lower ≤ scaled count full maximum higher := by
  apply Nat.div_le_div_right
  apply Nat.mul_le_mul_right
  apply Nat.div_le_div_right
  exact Nat.mul_le_mul_right count ordered

theorem steps_top (positive : 0 < maximum) : steps count maximum maximum = count :=
  Nat.mul_div_cancel_left count positive

theorem scaled_top (stepped : 0 < count) (positive : 0 < maximum) :
    scaled count full maximum maximum = full := by
  rw [scaled, steps_top positive, Nat.mul_div_cancel_left full stepped]

theorem cast_div_bounds (number : Nat) {divisor : Nat} (positive : 0 < divisor) :
    ((number / divisor : Nat) : ℚ) ≤ number / divisor ∧
      (number / divisor : ℚ) < (number / divisor : Nat) + 1 := by
  constructor
  · exact Nat.cast_div_le
  · have below : (0 : ℚ) < divisor := by exact_mod_cast positive
    rw [div_lt_iff₀ below]
    exact_mod_cast Nat.lt_mul_of_div_lt (Nat.lt_succ_self (number / divisor)) positive

theorem scaled_close (stepped : 0 < count) (positive : 0 < maximum) (level : Nat) :
    |(scaled count full maximum level : ℚ) - level / maximum * full| < full / count + 1 := by
  have nonzero : (count : ℚ) ≠ 0 := by exact_mod_cast Nat.ne_of_gt stepped
  obtain ⟨stepsLow, stepsHigh⟩ :
      (steps count maximum level : ℚ) ≤ _ ∧ _ < (steps count maximum level : ℚ) + 1 :=
    cast_div_bounds (level * count) positive
  obtain ⟨low, high⟩ :
      (scaled count full maximum level : ℚ) ≤ _ ∧ _ < (scaled count full maximum level : ℚ) + 1 :=
    cast_div_bounds (steps count maximum level * full) stepped
  rw [Nat.cast_mul, mul_div_right_comm] at stepsLow stepsHigh
  rw [Nat.cast_mul, mul_div_assoc] at low high
  -- everything is a multiple of what one step is worth
  have exact : (level / maximum * full : ℚ) = level / maximum * count * (full / count) := by
    rw [mul_assoc, mul_div_cancel₀ _ nonzero]
  have worth : (0 : ℚ) ≤ full / count := by positivity
  have above := mul_le_mul_of_nonneg_right stepsLow worth
  have below := mul_le_mul_of_nonneg_right stepsHigh.le worth
  rw [exact, abs_lt]
  constructor <;> linarith

theorem scaled_proportional (stepped : 0 < count) (positive : 0 < maximum) :
    Proportional count full maximum (scaled count full maximum) where
  bounded := fun _ within =>
    (scaled_mono within).trans (Nat.le_of_eq (scaled_top stepped positive))
  monotone := fun _ _ ordered _ => scaled_mono ordered
  top := scaled_top stepped positive
  close := fun level _ => scaled_close stepped positive level

end Scaled

end SteppedScale
