import Mathlib.Data.Nat.Basic
import Mathlib.Tactic.Linarith
import Mathlib.Tactic.Ring
import Mathlib.Tactic.FieldSimp
import Mathlib.Data.Rat.Cast.Order
import Mathlib.Algebra.Order.Field.Rat

/-!
# A fraction in a few bits

A divider can realise `num / den` only with a denominator of at most `limit`. It divides both
by one factor and rounds them to the nearest integer independently (`shrinkFactor`,
`roundDiv`). The two roundings are correlated enough for two facts. Lowering the numerator by
one never stays above the exact fraction (`rounded_pred_le`), and the rounded fraction is
less than one step below it (`rounded_gap`).

The second half is the fine step. The numerator is lowered when the floor of the realised
value exceeds its target (`lowered`), and what is then missing is less than one step, so that
it can be expressed in `resolution` parts of a step without reaching the next one
(`fine_lt`). The value realised in the end is less than one below the target, and above it by
less than one part (`realised_error`).
-/

set_option autoImplicit false

namespace MsiSdrDriver.Foundations

/-! ## Two independent roundings -/

/-- The smallest factor that brings `den` down to at most `limit`. -/
def shrinkFactor (limit den : ℕ) : ℕ := (den + (limit - 1)) / limit

/-- Division by `factor`, rounded to the nearest integer. -/
def roundDiv (factor value : ℕ) : ℕ := (value + factor / 2) / factor

section Rounding

variable {limit factor num den : ℕ}

theorem shrinkFactor_pos (some : 0 < limit) (positive : 0 < den) :
    0 < shrinkFactor limit den :=
  Nat.div_pos (by omega) some

theorem le_mul_shrinkFactor (some : 0 < limit) : den ≤ limit * shrinkFactor limit den := by
  have below := Nat.lt_mul_div_succ (den + (limit - 1)) some
  rw [Nat.mul_add, Nat.mul_one] at below
  unfold shrinkFactor
  omega

/-- No smaller factor would do. -/
theorem mul_pred_shrinkFactor_lt (some : 0 < limit) (positive : 0 < den) :
    limit * (shrinkFactor limit den - 1) < den := by
  have whole := Nat.mul_div_le (den + (limit - 1)) limit
  unfold shrinkFactor
  rw [Nat.mul_sub, Nat.mul_one]
  omega

theorem shrinkFactor_le (some : 0 < limit) (positive : 0 < den) :
    shrinkFactor limit den ≤ den := by
  have small := mul_pred_shrinkFactor_lt some positive
  have scaled := Nat.le_mul_of_pos_left (shrinkFactor limit den - 1) some
  omega

/-- A denominator that fits is left alone. -/
theorem shrinkFactor_eq_one (positive : 0 < den) (fits : den ≤ limit) :
    shrinkFactor limit den = 1 := by
  have some : 0 < limit := Nat.lt_of_lt_of_le positive fits
  refine Nat.div_eq_of_lt_le ?_ ?_ <;> omega

theorem roundDiv_one (value : ℕ) : roundDiv 1 value = value := by
  simp [roundDiv]

theorem mul_roundDiv_le (factor value : ℕ) : factor * roundDiv factor value ≤ value + factor / 2 :=
  Nat.mul_div_le _ _

theorem lt_mul_roundDiv_succ (positive : 0 < factor) (value : ℕ) :
    value + factor / 2 < factor * (roundDiv factor value + 1) :=
  Nat.lt_mul_div_succ _ positive

theorem roundDiv_le_limit (positive : 0 < factor) (fits : den ≤ limit * factor) :
    roundDiv factor den ≤ limit := by
  refine Nat.le_of_lt_succ ((Nat.div_lt_iff_lt_mul positive).mpr ?_)
  rw [Nat.succ_mul]
  omega

theorem roundDiv_pos (positive : 0 < factor) (enough : factor ≤ den) :
    0 < roundDiv factor den :=
  Nat.div_pos (Nat.le_trans enough (Nat.le_add_right _ _)) positive

theorem roundDiv_mono (le : num ≤ den) : roundDiv factor num ≤ roundDiv factor den :=
  Nat.div_le_div_right (Nat.add_le_add_right le _)

/-- **One step down is never above the exact fraction.** -/
theorem rounded_pred_le (positive : 0 < factor) (le : num ≤ den) :
    den * (roundDiv factor num - 1) ≤ num * roundDiv factor den := by
  have above := mul_roundDiv_le factor num
  have below := lt_mul_roundDiv_succ positive den
  generalize roundDiv factor den = t at below ⊢
  generalize roundDiv factor num = f at above ⊢
  have half : factor / 2 ≤ factor := Nat.div_le_self _ _
  generalize factor / 2 = m at above below half
  cases f with
  | zero => simp
  | succ k =>
      rw [Nat.add_sub_cancel]
      refine Nat.le_of_mul_le_mul_left ?_ positive
      obtain ⟨rest, rfl⟩ := Nat.exists_eq_add_of_le le
      obtain ⟨slack, rfl⟩ := Nat.exists_eq_add_of_le half
      have first := Nat.mul_le_mul_left (num + rest) above
      have second := Nat.mul_le_mul_left num (Nat.succ_le_of_lt below)
      nlinarith [Nat.zero_le (rest * slack), Nat.zero_le num]

/-- **The rounded fraction is less than one step below the exact one.** -/
theorem rounded_gap (positive : 0 < factor) (lt : num < den) :
    num * roundDiv factor den + roundDiv factor den ≤ den * (roundDiv factor num + 1) := by
  have above := mul_roundDiv_le factor den
  have below := lt_mul_roundDiv_succ positive num
  generalize roundDiv factor den = t at above ⊢
  generalize roundDiv factor num = f at below ⊢
  generalize factor / 2 = m at above below
  refine Nat.le_of_mul_le_mul_left ?_ positive
  obtain ⟨rest, rfl⟩ := Nat.exists_eq_add_of_lt lt
  have first := Nat.mul_le_mul_left (num + 1) above
  have second := Nat.mul_le_mul_left (num + rest + 1) (Nat.succ_le_of_lt below)
  nlinarith [Nat.zero_le (rest * m)]

/-- A denominator that had to shrink keeps more than half of the range. -/
theorem limit_lt_two_mul_roundDiv (some : 0 < limit) (large : limit < den) :
    limit < 2 * roundDiv (shrinkFactor limit den) den := by
  have positive := shrinkFactor_pos some (Nat.zero_lt_of_lt large)
  have small := mul_pred_shrinkFactor_lt some (Nat.zero_lt_of_lt large)
  have fits : den ≤ limit * shrinkFactor limit den := le_mul_shrinkFactor some
  have below := lt_mul_roundDiv_succ positive den
  generalize roundDiv (shrinkFactor limit den) den = t at below ⊢
  generalize shrinkFactor limit den = a at *
  have shrinks : 2 ≤ a := by
    by_contra less
    have one : a = 1 := by omega
    rw [one] at fits
    omega
  obtain ⟨b, rfl⟩ := Nat.exists_eq_add_of_le shrinks
  by_contra fewer
  have most : 2 * t ≤ limit := by omega
  have half : (2 + b) / 2 * 2 + 1 ≥ 2 + b := by omega
  rw [show 2 + b - 1 = b + 1 from by omega] at small
  have scaled := Nat.mul_le_mul_left (2 + b) most
  nlinarith [Nat.zero_le (limit * b), Nat.mul_le_mul_right b some]

end Rounding

/-! ## The fine step -/

/-- The numerator, lowered by one when the floor of `whole * num / den` is above the target. -/
def lowered (whole target num den : ℕ) : ℕ :=
  if target < whole * num / den then num - 1 else num

/-- What the lowered numerator leaves to the fine step. -/
def missing (whole target num den : ℕ) : ℕ :=
  target - whole * lowered whole target num den / den

/-- The fine step in parts of `whole / (den * resolution)`. -/
def fine (resolution whole target num den : ℕ) : ℕ :=
  missing whole target num den * den * resolution / whole

/-- The value that the lowered numerator and the fine step realise together. -/
def realised (resolution whole target num den : ℕ) : ℚ :=
  whole * (lowered whole target num den +
    (fine resolution whole target num den : ℚ) / resolution) / den

/-- What the two roundings guarantee about `num / den` as an approximation of
`target / whole`. -/
structure Approximates (whole target num den : ℕ) : Prop where
  positive : 0 < den
  inside : target < whole
  le : num ≤ den
  pred : whole * (num - 1) ≤ target * den
  gap : target * den + den ≤ whole * (num + 1)

/-- **Rounding a reduced fraction approximates it.** -/
theorem approximates_rounded {limit common den num : ℕ} (some : 0 < limit) (nonzero : 0 < common)
    (lt : num < den) :
    Approximates (common * den) (common * num) (roundDiv (shrinkFactor limit den) num)
      (roundDiv (shrinkFactor limit den) den) := by
  have positive := shrinkFactor_pos some (Nat.zero_lt_of_lt lt)
  have pred := rounded_pred_le positive (Nat.le_of_lt lt)
  have gap := rounded_gap positive lt
  refine ⟨?_, Nat.mul_lt_mul_of_pos_left lt nonzero, roundDiv_mono (Nat.le_of_lt lt), ?_, ?_⟩
  · exact roundDiv_pos positive (shrinkFactor_le some (Nat.zero_lt_of_lt lt))
  · rw [Nat.mul_assoc, Nat.mul_assoc]
    exact Nat.mul_le_mul_left common pred
  · generalize roundDiv (shrinkFactor limit den) den = t at gap ⊢
    generalize roundDiv (shrinkFactor limit den) num = f at gap ⊢
    have scaled := Nat.mul_le_mul_left common gap
    have once := Nat.le_mul_of_pos_left t nonzero
    calc common * num * t + t ≤ common * num * t + common * t := Nat.add_le_add_left once _
      _ = common * (num * t + t) := by ring
      _ ≤ common * (den * (f + 1)) := scaled
      _ = common * den * (f + 1) := by ring

namespace Approximates

variable {whole target num den resolution : ℕ}

/-- The lowered numerator does not exceed the target. -/
theorem floor_lowered_le (near : Approximates whole target num den) :
    whole * lowered whole target num den / den ≤ target := by
  unfold lowered
  split
  · exact Nat.div_le_of_le_mul (by
      rw [Nat.mul_comm den]
      exact near.pred)
  · next within => exact Nat.le_of_not_lt within

/-- Lowering subtracts from a positive numerator. -/
theorem pos_of_lowered (high : target < whole * num / den) : 0 < num := by
  refine Nat.pos_of_ne_zero ?_
  rintro rfl
  rw [Nat.mul_zero, Nat.zero_div] at high
  omega

theorem lowered_lt (near : Approximates whole target num den) :
    lowered whole target num den < den := by
  have positive := near.positive
  have le := near.le
  unfold lowered
  split
  · omega
  · next within =>
      refine Nat.lt_of_le_of_ne le ?_
      rintro rfl
      rw [Nat.mul_div_cancel _ positive] at within
      exact within near.inside

/-- **What is missing is less than one step.** -/
theorem missing_mul_lt (near : Approximates whole target num den) :
    missing whole target num den * den < whole := by
  have floored := near.floor_lowered_le
  have ceiling := Nat.lt_mul_div_succ (whole * lowered whole target num den) near.positive
  have enough : target * den + den ≤ whole * lowered whole target num den + whole := by
    unfold lowered
    split
    · next high =>
        have positive := pos_of_lowered high
        have reached := (Nat.le_div_iff_mul_le near.positive).mp (Nat.succ_le_of_lt high)
        obtain ⟨k, rfl⟩ := Nat.exists_eq_add_of_lt positive
        rw [Nat.add_sub_cancel]
        calc target * den + den = target.succ * den := (Nat.succ_mul _ _).symm
          _ ≤ whole * (0 + k + 1) := reached
          _ = whole * (0 + k) + whole := Nat.mul_succ _ _
    · exact near.gap
  unfold missing
  rw [Nat.mul_sub_right_distrib]
  rw [Nat.mul_comm den, Nat.succ_mul] at ceiling
  have positive : 0 < whole := Nat.zero_lt_of_lt near.inside
  omega

theorem fine_lt (near : Approximates whole target num den) (some : 0 < resolution) :
    fine resolution whole target num den < resolution := by
  refine (Nat.div_lt_iff_lt_mul (Nat.zero_lt_of_lt near.inside)).mpr ?_
  rw [Nat.mul_comm resolution]
  exact Nat.mul_lt_mul_of_pos_right near.missing_mul_lt some

/-- **The error of the realised value.** It is less than one below the target and less than
one part of a step above it. -/
theorem realised_error (near : Approximates whole target num den) (some : 0 < resolution) :
    -1 < target - realised resolution whole target num den ∧
      target - realised resolution whole target num den < (whole : ℚ) / (resolution * den) := by
  have floored := near.floor_lowered_le
  have split : missing whole target num den +
      whole * lowered whole target num den / den = target := Nat.sub_add_cancel floored
  have below := Nat.mul_div_le (whole * lowered whole target num den) den
  have above := Nat.lt_mul_div_succ (whole * lowered whole target num den) near.positive
  have parts := Nat.mul_div_le (missing whole target num den * den * resolution) whole
  have following := Nat.lt_mul_div_succ (missing whole target num den * den * resolution)
    (Nat.zero_lt_of_lt near.inside)
  rw [show missing whole target num den * den * resolution / whole =
    fine resolution whole target num den from rfl] at parts following
  unfold realised
  generalize lowered whole target num den = f at *
  generalize missing whole target num den = short at *
  generalize fine resolution whole target num den = part at *
  generalize whole * f / den = floor at *
  have den_pos : (0 : ℚ) < den := by exact_mod_cast near.positive
  have resolution_pos : (0 : ℚ) < resolution := by exact_mod_cast some
  have total : (short : ℚ) + floor = target := by exact_mod_cast split
  have below' : (den : ℚ) * floor ≤ whole * f := by exact_mod_cast below
  have above' : (whole : ℚ) * f < den * (floor + 1) := by exact_mod_cast above
  have parts' : (whole : ℚ) * part ≤ short * den * resolution := by exact_mod_cast parts
  have following' : (short : ℚ) * den * resolution < whole * (part + 1) := by
    exact_mod_cast following
  have expand : (target : ℚ) - whole * (f + (part : ℚ) / resolution) / den =
      (target * (den * resolution) - whole * f * resolution - whole * part) /
        (resolution * den) := by
    field_simp
    ring
  rw [expand]
  constructor
  · rw [lt_div_iff₀ (mul_pos resolution_pos den_pos), ← total]
    nlinarith
  · rw [div_lt_div_iff_of_pos_right (mul_pos resolution_pos den_pos), ← total]
    nlinarith

/-- A fraction that needs no rounding is realised exactly. -/
theorem realised_exact (near : Approximates whole target num den)
    (same : whole * num = target * den) : realised resolution whole target num den = target := by
  have floor : whole * num / den = target := by
    rw [same, Nat.mul_div_cancel _ near.positive]
  have kept : lowered whole target num den = num := by
    unfold lowered
    rw [floor, if_neg (Nat.lt_irrefl _)]
  have none : fine resolution whole target num den = 0 := by
    unfold fine missing
    rw [kept, floor, Nat.sub_self, Nat.zero_mul, Nat.zero_mul, Nat.zero_div]
  have den_pos : (0 : ℚ) < den := by exact_mod_cast near.positive
  have same' : (whole : ℚ) * num = target * den := by exact_mod_cast same
  unfold realised
  rw [kept, none, Nat.cast_zero, zero_div, add_zero, same', mul_div_cancel_right₀ _ den_pos.ne']

end Approximates

end MsiSdrDriver.Foundations
