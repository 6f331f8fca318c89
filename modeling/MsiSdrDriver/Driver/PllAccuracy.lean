import Mathlib.Data.List.GetD
import Mathlib.Tactic.NormNum
import MsiSdrDriver.Foundations.BoundedFraction
import MsiSdrDriver.Driver.Soft

/-!
# Accuracy of the synthesizer

`synthesize` is a rounding of the fraction `(freq + offset) mod T / T`, where `T` is the
frequency step `96000000 / lo_div` of the coarse divider, to twelve bits, and a fine step in
4096 parts. `synthesize_toNat` proves that none of its `uint64_t` operations wraps, so that
each local is the natural number that the library of bounded fractions speaks about. The
bounds of the packed fields and of the tuning error are then the library's
(`pll_accuracy`).
-/

set_option autoImplicit false

namespace MsiSdrDriver.Driver

open MsiSdrDriver.Foundations

/-! ## The plan that is selected -/

theorem le_planIndex (freq : UInt32) (plans : List HwSwitchFreqPlan) (i : ℕ) :
    i ≤ planIndex freq plans i := by
  induction plans generalizing i with
  | nil => exact Nat.le_refl i
  | cons plan rest ih =>
      unfold planIndex
      split
      · split
        · exact Nat.le_refl i
        · exact Nat.le_trans (Nat.le_succ i) (ih (i + 1))
      · exact Nat.le_refl i

/-- The loop has passed the entries below the index it stops with. -/
theorem planIndex_passed {freq : UInt32} {plans : List HwSwitchFreqPlan} {plan : HwSwitchFreqPlan}
    {i k : ℕ} (found : plans[k]? = some plan) (before : i + k < planIndex freq plans i) :
    1000000 * plan.lowCut ≤ freq := by
  induction plans generalizing i k with
  | nil => cases found
  | cons first rest ih =>
      unfold planIndex at before
      split at before
      · next passed =>
          split at before
          · omega
          · cases k with
            | zero =>
                obtain rfl : first = plan := by simpa using found
                exact passed
            | succ k => exact ih (by simpa using found) (show i + 1 + k < _ by omega)
      · omega

/-- It has not passed the entry at the index. -/
theorem planIndex_stopped {freq : UInt32} {plans : List HwSwitchFreqPlan}
    {plan : HwSwitchFreqPlan} {i k : ℕ} (found : plans[k]? = some plan)
    (stops : planIndex freq plans i = i + k) :
    freq < 1000000 * plan.lowCut ∨ plan.mode < 0 := by
  induction plans generalizing i k with
  | nil => cases found
  | cons first rest ih =>
      unfold planIndex at stops
      split at stops
      · split at stops
        · next untuned =>
            obtain rfl : k = 0 := by omega
            obtain rfl : first = plan := by simpa using found
            exact .inr untuned
        · have further := le_planIndex freq rest (i + 1)
          obtain ⟨k, rfl⟩ : ∃ k', k = k' + 1 := ⟨k - 1, by omega⟩
          exact ih (by simpa using found) (show _ = i + 1 + k by omega)
      · next below =>
          obtain rfl : k = 0 := by omega
          obtain rfl : first = plan := by simpa using found
          exact .inl (by simpa using below)

/-- The loop never walks past the entries that have a mode. -/
theorem planIndex_le (freq : UInt32) (plans : List HwSwitchFreqPlan) (i : ℕ) :
    planIndex freq plans i ≤ i + (plans.takeWhile fun plan => 0 ≤ plan.mode).length := by
  induction plans generalizing i with
  | nil => exact Nat.le_refl i
  | cons plan rest ih =>
      unfold planIndex
      split
      · split
        · exact Nat.le_add_right _ _
        · next tuned =>
            have mode : 0 ≤ plan.mode := by omega
            rw [List.takeWhile_cons_of_pos (by simpa using mode), List.length_cons]
            have further := ih (i + 1)
            omega
      · exact Nat.le_add_right _ _

/-- An entry that starts at zero is passed. -/
theorem one_le_planIndex {plan : HwSwitchFreqPlan} {rest : List HwSwitchFreqPlan}
    (freq : UInt32) (bottom : plan.lowCut = 0) (tuned : ¬ plan.mode < 0) :
    1 ≤ planIndex freq (plan :: rest) 0 := by
  have passed : 1000000 * plan.lowCut ≤ freq := by
    rw [bottom, UInt32.mul_zero]
    exact Nat.zero_le freq.toNat
  rw [planIndex, if_pos passed, if_neg tuned]
  exact le_planIndex freq rest 1

theorem planIndex_range (flavour : HwFlavour) (freq : UInt32) :
    1 ≤ planIndex freq (hwSwitchFreqPlan flavour) 0 ∧
      planIndex freq (hwSwitchFreqPlan flavour) 0 ≤ 9 := by
  constructor
  · cases flavour <;> refine one_le_planIndex freq rfl ?_ <;> decide
  · refine Nat.le_trans (planIndex_le freq _ 0) ?_
    cases flavour <;> decide

/-- **The selected entry is one of the nine that have a mode.** -/
theorem switchPlan_mem (flavour : HwFlavour) (freq : UInt32) :
    switchPlan flavour freq ∈ (hwSwitchFreqPlan flavour).take 9 := by
  obtain ⟨least, most⟩ := planIndex_range flavour freq
  have length : (hwSwitchFreqPlan flavour).length = 10 := by cases flavour <;> rfl
  unfold switchPlan
  generalize planIndex freq (hwSwitchFreqPlan flavour) 0 = index at least most
  rw [List.getD_eq_getElem _ _ (by omega), List.mem_take_iff_getElem]
  exact ⟨index - 1, by omega, rfl⟩

/-- The five dividers and the two offsets. -/
theorem tuning_cases (flavour : HwFlavour) (freq : UInt32) :
    tuningLoDiv (switchPlan flavour freq) ∈ ([2, 4, 8, 16, 32] : List UInt64) ∧
      tuningOffset (switchPlan flavour freq) ∈ ([0, 120000000] : List UInt64) := by
  have each : ∀ plan ∈ (hwSwitchFreqPlan flavour).take 9,
      tuningLoDiv plan ∈ ([2, 4, 8, 16, 32] : List UInt64) ∧
        tuningOffset plan ∈ ([0, 120000000] : List UInt64) := by
    cases flavour <;> decide
  exact each _ (switchPlan_mem flavour freq)

/-! ## No operation wraps -/

theorem gcdLoop_toNat (a b : UInt64) : (gcdLoop a b).toNat = Nat.gcd a.toNat b.toNat := by
  induction a, b using gcdLoop.induct with
  | case1 b =>
      rw [gcdLoop, if_pos rfl, UInt64.toNat_zero, Nat.gcd_zero_left]
  | case2 a b nonzero ih =>
      rw [gcdLoop, if_neg nonzero, ih, UInt64.toNat_mod, ← Nat.gcd_rec]

section Exact

variable {freq : UInt32} {offset loDiv : UInt64} {step : ℕ}

/-- A divider that `96000000` is a multiple of, and an offset that a plan can select. -/
structure Tunable (offset loDiv : UInt64) (step : ℕ) : Prop where
  whole : 96000000 = step * loDiv.toNat
  two : 2 ≤ loDiv.toNat
  few : loDiv.toNat ≤ 32
  offset : offset.toNat ≤ 120000000

namespace Tunable

theorem loDiv_pos (tunable : Tunable offset loDiv step) : 0 < loDiv.toNat :=
  Nat.lt_of_lt_of_le (by omega) tunable.two

theorem step_ge (tunable : Tunable offset loDiv step) : 3000000 ≤ step := by
  have whole := tunable.whole
  have scaled := Nat.mul_le_mul_left step tunable.few
  omega

theorem step_le (tunable : Tunable offset loDiv step) : step ≤ 48000000 := by
  have whole := tunable.whole
  have scaled := Nat.mul_le_mul_left step tunable.two
  omega

theorem thresh_toNat (tunable : Tunable offset loDiv step) :
    (96000000 / loDiv).toNat = step := by
  rw [UInt64.toNat_div]
  exact Nat.div_eq_of_eq_mul_left tunable.loDiv_pos tunable.whole

theorem target_toNat (tunable : Tunable offset loDiv step) (freq : UInt32) :
    (freq.toUInt64 + offset).toNat = freq.toNat + offset.toNat := by
  have small := freq.toNat_lt
  have shift := tunable.offset
  rw [UInt64.toNat_add, UInt32.toNat_toUInt64]
  omega

theorem fvco_toNat (tunable : Tunable offset loDiv step) (freq : UInt32) :
    ((freq.toUInt64 + offset) * loDiv).toNat = (freq.toNat + offset.toNat) * loDiv.toNat := by
  have small := freq.toNat_lt
  have shift := tunable.offset
  have bound := Nat.mul_le_mul_left (freq.toNat + offset.toNat) tunable.few
  rw [UInt64.toNat_mul, tunable.target_toNat]
  omega

/-- The coarse divider counts whole steps. -/
theorem n_toNat (tunable : Tunable offset loDiv step) (freq : UInt32) :
    ((freq.toUInt64 + offset) * loDiv / 96000000).toNat = (freq.toNat + offset.toNat) / step := by
  rw [UInt64.toNat_div, tunable.fvco_toNat]
  show (freq.toNat + offset.toNat) * loDiv.toNat / 96000000 = _
  rw [tunable.whole, Nat.mul_div_mul_right _ _ tunable.loDiv_pos]

theorem frac_toNat (tunable : Tunable offset loDiv step) (freq : UInt32) :
    ((freq.toUInt64 + offset) * loDiv % 96000000 / loDiv).toNat =
      (freq.toNat + offset.toNat) % step := by
  rw [UInt64.toNat_div, UInt64.toNat_mod, tunable.fvco_toNat]
  show (freq.toNat + offset.toNat) * loDiv.toNat % 96000000 / loDiv.toNat = _
  rw [tunable.whole, Nat.mul_mod_mul_right, Nat.mul_div_cancel _ tunable.loDiv_pos]

theorem denominator_toNat (tunable : Tunable offset loDiv step) {thresh : UInt64}
    (twelve : thresh.toNat ≤ 4095) :
    (thresh * 4096 * loDiv).toNat = thresh.toNat * 4096 * loDiv.toNat := by
  have bound := Nat.mul_le_mul (Nat.mul_le_mul_right 4096 twelve) tunable.few
  have scaled : (thresh * 4096).toNat = thresh.toNat * 4096 := by
    rw [UInt64.toNat_mul]
    show thresh.toNat * 4096 % 2 ^ 64 = _
    omega
  rw [UInt64.toNat_mul, scaled]
  omega

/-- **No product in the floored frequency of a setting wraps.** -/
theorem rfvco_exact (tunable : Tunable offset loDiv step) {n thresh frac : UInt64}
    (coarse : n.toNat ≤ 1500) (twelve : thresh.toNat ≤ 4095)
    (inside : frac.toNat ≤ thresh.toNat) :
    (rfvco loDiv n thresh frac 0).toNat =
      96000000 * (n.toNat * thresh.toNat * 4096 + frac.toNat * 4096) /
        (thresh.toNat * 4096 * loDiv.toNat) := by
  have bound := Nat.mul_le_mul coarse twelve
  have product : (n * thresh).toNat = n.toNat * thresh.toNat := by
    rw [UInt64.toNat_mul]
    omega
  have sum : (n * thresh * 4096 + (frac * 4096 + 0)).toNat =
      n.toNat * thresh.toNat * 4096 + frac.toNat * 4096 := by
    rw [UInt64.add_zero, UInt64.toNat_add, UInt64.toNat_mul (n * thresh), product,
      UInt64.toNat_mul]
    show (n.toNat * thresh.toNat * 4096 % 2 ^ 64 + frac.toNat * 4096 % 2 ^ 64) % 2 ^ 64 = _
    omega
  have numerator : (96000000 * (n * thresh * 4096 + (frac * 4096 + 0))).toNat =
      96000000 * (n.toNat * thresh.toNat * 4096 + frac.toNat * 4096) := by
    rw [UInt64.toNat_mul, sum]
    show 96000000 * (n.toNat * thresh.toNat * 4096 + frac.toNat * 4096) % 2 ^ 64 = _
    omega
  unfold rfvco
  rw [UInt64.toNat_div, numerator, tunable.denominator_toNat twelve]

theorem rfvco_toNat (tunable : Tunable offset loDiv step) {n thresh frac : UInt64}
    (coarse : n.toNat ≤ 1500) (positive : 0 < thresh.toNat) (twelve : thresh.toNat ≤ 4095)
    (inside : frac.toNat ≤ thresh.toNat) :
    (rfvco loDiv n thresh frac 0).toNat =
      n.toNat * step + step * frac.toNat / thresh.toNat := by
  have scale : 0 < 4096 * loDiv.toNat := Nat.mul_pos (by omega) tunable.loDiv_pos
  rw [tunable.rfvco_exact coarse twelve inside, tunable.whole]
  calc step * loDiv.toNat * (n.toNat * thresh.toNat * 4096 + frac.toNat * 4096) /
        (thresh.toNat * 4096 * loDiv.toNat)
      = (step * frac.toNat + n.toNat * step * thresh.toNat) * (4096 * loDiv.toNat) /
          (thresh.toNat * (4096 * loDiv.toNat)) := by
        congr 1 <;> ring
    _ = (step * frac.toNat + n.toNat * step * thresh.toNat) / thresh.toNat :=
        Nat.mul_div_mul_right _ _ scale
    _ = step * frac.toNat / thresh.toNat + n.toNat * step :=
        Nat.add_mul_div_right _ _ positive
    _ = n.toNat * step + step * frac.toNat / thresh.toNat := Nat.add_comm _ _

/-- The numerator and the denominator that `synthesize` rounds, in lowest terms. -/
def reducedNum (freq : UInt32) (offset : UInt64) (step : ℕ) : ℕ :=
  (freq.toNat + offset.toNat) % step / step.gcd ((freq.toNat + offset.toNat) % step)

def reducedDen (freq : UInt32) (offset : UInt64) (step : ℕ) : ℕ :=
  step / step.gcd ((freq.toNat + offset.toNat) % step)

/-- A rounded quotient of twelve-bit scale is computed without wrapping. -/
theorem roundDiv_toNat {value factor : UInt64} (small : value.toNat ≤ 48000000)
    (scale : factor.toNat ≤ 96000000) :
    ((value + factor / 2) / factor).toNat = roundDiv factor.toNat value.toNat := by
  have half : (factor / 2).toNat = factor.toNat / 2 := UInt64.toNat_div ..
  have below := Nat.div_le_self factor.toNat 2
  rw [UInt64.toNat_div, UInt64.toNat_add, half, Nat.mod_eq_of_lt (by omega)]
  rfl

theorem divisor_toNat (tunable : Tunable offset loDiv step) (freq : UInt32) :
    (synthesize freq offset loDiv).divisor.toNat =
      step.gcd ((freq.toNat + offset.toNat) % step) := by
  show (gcdLoop _ _).toNat = _
  rw [gcdLoop_toNat, tunable.thresh_toNat, tunable.frac_toNat]

theorem reducedDen_toNat (tunable : Tunable offset loDiv step) (freq : UInt32) :
    (96000000 / loDiv / (synthesize freq offset loDiv).divisor).toNat =
      reducedDen freq offset step := by
  rw [UInt64.toNat_div, tunable.thresh_toNat, tunable.divisor_toNat]
  rfl

theorem reducedNum_toNat (tunable : Tunable offset loDiv step) (freq : UInt32) :
    ((freq.toUInt64 + offset) * loDiv % 96000000 / loDiv /
        (synthesize freq offset loDiv).divisor).toNat = reducedNum freq offset step := by
  rw [UInt64.toNat_div, tunable.frac_toNat, tunable.divisor_toNat]
  rfl

theorem reduced_lt (tunable : Tunable offset loDiv step) (freq : UInt32) :
    reducedNum freq offset step < reducedDen freq offset step ∧
      reducedDen freq offset step ≤ step := by
  have large := tunable.step_ge
  have inside : (freq.toNat + offset.toNat) % step < step := Nat.mod_lt _ (by omega)
  exact ⟨Nat.div_lt_div_of_lt_of_dvd (Nat.gcd_dvd_left _ _) inside, Nat.div_le_self _ _⟩

theorem factor_toNat (tunable : Tunable offset loDiv step) (freq : UInt32) :
    (synthesize freq offset loDiv).factor.toNat =
      shrinkFactor 4095 (reducedDen freq offset step) := by
  have small := tunable.step_le
  have reduced := (tunable.reduced_lt freq).2
  show ((96000000 / loDiv / (synthesize freq offset loDiv).divisor + 4094) / 4095).toNat = _
  rw [UInt64.toNat_div, UInt64.toNat_add, tunable.reducedDen_toNat]
  show (reducedDen freq offset step + 4094) % 2 ^ 64 / 4095 = _
  rw [Nat.mod_eq_of_lt (by omega)]
  rfl

theorem factor_le (tunable : Tunable offset loDiv step) (freq : UInt32) :
    0 < (synthesize freq offset loDiv).factor.toNat ∧
      (synthesize freq offset loDiv).factor.toNat ≤ 96000000 := by
  have small := tunable.step_le
  have reduced := tunable.reduced_lt freq
  rw [tunable.factor_toNat]
  refine ⟨shrinkFactor_pos (by omega) (by omega), ?_⟩
  exact Nat.le_trans (shrinkFactor_le (by omega) (by omega)) (by omega)

theorem rounded_toNat (tunable : Tunable offset loDiv step) (freq : UInt32) :
    (synthesize freq offset loDiv).thresh.toNat =
        roundDiv (synthesize freq offset loDiv).factor.toNat (reducedDen freq offset step) ∧
      (synthesize freq offset loDiv).rounded.toNat =
        roundDiv (synthesize freq offset loDiv).factor.toNat (reducedNum freq offset step) := by
  have small := tunable.step_le
  have reduced := tunable.reduced_lt freq
  have scale := (tunable.factor_le freq).2
  have den := tunable.reducedDen_toNat freq
  have num := tunable.reducedNum_toNat freq
  constructor
  · have wide := den ▸ Nat.le_trans reduced.2 small
    rw [← den]
    exact roundDiv_toNat wide scale
  · have wide := num ▸ Nat.le_trans (Nat.le_of_lt reduced.1) (Nat.le_trans reduced.2 small)
    rw [← num]
    exact roundDiv_toNat wide scale

/-- **The rounded fraction approximates what the coarse divider leaves.** -/
theorem approximates (tunable : Tunable offset loDiv step) (freq : UInt32) :
    Approximates step ((freq.toNat + offset.toNat) % step)
      (synthesize freq offset loDiv).rounded.toNat (synthesize freq offset loDiv).thresh.toNat := by
  have large := tunable.step_ge
  obtain ⟨thresh, rounded⟩ := tunable.rounded_toNat freq
  have common : 0 < step.gcd ((freq.toNat + offset.toNat) % step) :=
    Nat.gcd_pos_of_pos_left _ (by omega)
  have near := approximates_rounded (by omega : 0 < 4095) common (tunable.reduced_lt freq).1
  unfold reducedNum reducedDen at near
  rw [Nat.mul_div_cancel' (Nat.gcd_dvd_left _ _), Nat.mul_div_cancel' (Nat.gcd_dvd_right _ _)]
    at near
  rw [thresh, rounded, tunable.factor_toNat]
  exact near

theorem thresh_le (tunable : Tunable offset loDiv step) (freq : UInt32) :
    (synthesize freq offset loDiv).thresh.toNat ≤ 4095 := by
  rw [(tunable.rounded_toNat freq).1, tunable.factor_toNat]
  have reduced := tunable.reduced_lt freq
  exact roundDiv_le_limit (shrinkFactor_pos (by omega) (by omega))
    (le_mul_shrinkFactor (by omega))

theorem n_le (tunable : Tunable offset loDiv step) (freq : UInt32) :
    (synthesize freq offset loDiv).n.toNat ≤ 1500 := by
  have large := tunable.step_ge
  have less := freq.toNat_lt
  have shift := tunable.offset
  show ((freq.toUInt64 + offset) * loDiv / 96000000).toNat ≤ 1500
  rw [tunable.n_toNat]
  exact Nat.le_trans (Nat.div_le_div_left large (by omega)) (by omega)

/-- The test before the decrement compares the floor of the rounded fraction with its target. -/
theorem tooHigh_iff (tunable : Tunable offset loDiv step) (freq : UInt32) :
    freq.toUInt64 + offset < rfvco loDiv (synthesize freq offset loDiv).n
        (synthesize freq offset loDiv).thresh (synthesize freq offset loDiv).rounded 0 ↔
      (freq.toNat + offset.toNat) % step <
        step * (synthesize freq offset loDiv).rounded.toNat /
          (synthesize freq offset loDiv).thresh.toNat := by
  have near := tunable.approximates freq
  have reached := tunable.rfvco_toNat (tunable.n_le freq) near.positive (tunable.thresh_le freq)
    near.le
  have coarse : (synthesize freq offset loDiv).n.toNat = _ := tunable.n_toNat freq
  have split := Nat.div_add_mod (freq.toNat + offset.toNat) step
  rw [coarse, Nat.mul_comm _ step] at reached
  rw [UInt64.lt_iff_toNat_lt, tunable.target_toNat, reached]
  omega

/-- **The decrement is taken when the floor is too high, and it does not borrow.** -/
theorem lowered_toNat (tunable : Tunable offset loDiv step) (freq : UInt32) :
    (synthesize freq offset loDiv).frac.toNat =
      lowered step ((freq.toNat + offset.toNat) % step)
        (synthesize freq offset loDiv).rounded.toNat
        (synthesize freq offset loDiv).thresh.toNat := by
  have test := tunable.tooHigh_iff freq
  have frac : (synthesize freq offset loDiv).frac =
      if freq.toUInt64 + offset < rfvco loDiv (synthesize freq offset loDiv).n
        (synthesize freq offset loDiv).thresh (synthesize freq offset loDiv).rounded 0
      then (synthesize freq offset loDiv).rounded - 1
      else (synthesize freq offset loDiv).rounded := rfl
  rw [frac]
  generalize synthesize freq offset loDiv = s at test ⊢
  unfold lowered
  by_cases high : (freq.toNat + offset.toNat) % step < step * s.rounded.toNat / s.thresh.toNat
  · have positive := Approximates.pos_of_lowered high
    rw [if_pos high, if_pos (test.mpr high)]
    rw [UInt64.toNat_sub_of_le _ _ (by rw [UInt64.le_iff_toNat_le]; exact positive)]
    rfl
  · rw [if_neg high, if_neg fun taken => high (test.mp taken)]

/-- **The realised frequency is the coarse divider and the floor of the fraction.** -/
theorem reached_toNat (tunable : Tunable offset loDiv step) (freq : UInt32) :
    (synthesize freq offset loDiv).rfvco.toNat =
      (freq.toNat + offset.toNat) / step * step +
        step * (synthesize freq offset loDiv).frac.toNat /
          (synthesize freq offset loDiv).thresh.toNat := by
  have near := tunable.approximates freq
  have inside := near.lowered_lt
  rw [← tunable.lowered_toNat] at inside
  have reached := tunable.rfvco_toNat (tunable.n_le freq) near.positive (tunable.thresh_le freq)
    (Nat.le_of_lt inside)
  have coarse : (synthesize freq offset loDiv).n.toNat = _ := tunable.n_toNat freq
  rw [coarse] at reached
  exact reached

/-- The difference `p->freq + offset - rfvco` does not wrap. -/
theorem missing_toNat (tunable : Tunable offset loDiv step) (freq : UInt32) :
    (freq.toUInt64 + offset - (synthesize freq offset loDiv).rfvco).toNat =
        missing step ((freq.toNat + offset.toNat) % step)
          (synthesize freq offset loDiv).rounded.toNat
          (synthesize freq offset loDiv).thresh.toNat ∧
      (synthesize freq offset loDiv).rfvco.toNat ≤ freq.toNat + offset.toNat := by
  have near := tunable.approximates freq
  have floored := near.floor_lowered_le
  have reached := tunable.reached_toNat freq
  have split := Nat.div_add_mod (freq.toNat + offset.toNat) step
  rw [tunable.lowered_toNat, Nat.mul_comm _ step] at reached
  have below : (synthesize freq offset loDiv).rfvco.toNat ≤ freq.toNat + offset.toNat := by
    omega
  refine ⟨?_, below⟩
  rw [UInt64.toNat_sub_of_le _ _ (by
      rw [UInt64.le_iff_toNat_le, tunable.target_toNat]
      exact below), tunable.target_toNat]
  unfold missing
  omega

/-- The products of the fine term do not wrap. -/
theorem afc_exact (tunable : Tunable offset loDiv step) (freq : UInt32) :
    (synthesize freq offset loDiv).afc.toNat =
      (freq.toNat + offset.toNat - (synthesize freq offset loDiv).rfvco.toNat) *
        (synthesize freq offset loDiv).thresh.toNat * 4096 * loDiv.toNat / 96000000 := by
  have small := tunable.step_le
  have short := (tunable.approximates freq).missing_mul_lt
  obtain ⟨left, below⟩ := tunable.missing_toNat freq
  have target := tunable.target_toNat freq
  have rest : (freq.toUInt64 + offset - (synthesize freq offset loDiv).rfvco).toNat =
      freq.toNat + offset.toNat - (synthesize freq offset loDiv).rfvco.toNat := by
    rw [UInt64.toNat_sub_of_le _ _ (by rw [UInt64.le_iff_toNat_le, target]; exact below), target]
  have afc : (synthesize freq offset loDiv).afc =
      (freq.toUInt64 + offset - (synthesize freq offset loDiv).rfvco) *
        (synthesize freq offset loDiv).thresh * 4096 * loDiv / 96000000 := rfl
  rw [← left] at short
  rw [afc, ← rest]
  generalize freq.toUInt64 + offset - (synthesize freq offset loDiv).rfvco = difference at short ⊢
  generalize (synthesize freq offset loDiv).thresh = thresh at short ⊢
  have product : (difference * thresh).toNat = difference.toNat * thresh.toNat := by
    rw [UInt64.toNat_mul]
    omega
  have scaled : (difference * thresh * 4096).toNat = difference.toNat * thresh.toNat * 4096 := by
    rw [UInt64.toNat_mul, product]
    show difference.toNat * thresh.toNat * 4096 % 2 ^ 64 = _
    omega
  have bound : difference.toNat * thresh.toNat * 4096 * loDiv.toNat ≤ 48000000 * 4096 * 32 :=
    Nat.mul_le_mul (Nat.mul_le_mul_right 4096 (Nat.le_trans (Nat.le_of_lt short) small))
      tunable.few
  rw [UInt64.toNat_div, UInt64.toNat_mul, scaled, Nat.mod_eq_of_lt (by omega)]
  rfl

/-- **The fine term is the library's.** -/
theorem afc_toNat (tunable : Tunable offset loDiv step) (freq : UInt32) :
    (synthesize freq offset loDiv).afc.toNat =
      fine 4096 step ((freq.toNat + offset.toNat) % step)
        (synthesize freq offset loDiv).rounded.toNat
        (synthesize freq offset loDiv).thresh.toNat := by
  obtain ⟨left, below⟩ := tunable.missing_toNat freq
  have target := tunable.target_toNat freq
  rw [UInt64.toNat_sub_of_le _ _ (by rw [UInt64.le_iff_toNat_le, target]; exact below), target]
    at left
  rw [tunable.afc_exact, left, tunable.whole, Nat.mul_div_mul_right _ _ tunable.loDiv_pos]
  rfl

end Tunable

end Exact

/-! ## The tuning error -/

/-- The frequency that a setting of the synthesizer realises. -/
def synthesised (s : Synthesizer) (loDiv : UInt64) : ℚ :=
  96000000 * (s.n.toNat + (s.frac.toNat + (s.afc.toNat : ℚ) / 4096) / s.thresh.toNat) /
    loDiv.toNat

/-- How far the realised frequency stays below the wanted one. -/
def tuningError (freq : UInt32) (offset loDiv : UInt64) (s : Synthesizer) : ℚ :=
  (freq.toNat + offset.toNat : ℕ) - synthesised s loDiv

namespace Tunable

variable {offset loDiv : UInt64} {step : ℕ}

theorem tuningError_eq (tunable : Tunable offset loDiv step) (freq : UInt32) :
    tuningError freq offset loDiv (synthesize freq offset loDiv) =
      ((freq.toNat + offset.toNat) % step : ℕ) -
        realised 4096 step ((freq.toNat + offset.toNat) % step)
          (synthesize freq offset loDiv).rounded.toNat
          (synthesize freq offset loDiv).thresh.toNat := by
  have coarse : (synthesize freq offset loDiv).n.toNat = _ := tunable.n_toNat freq
  have split : ((step * ((freq.toNat + offset.toNat) / step) +
      (freq.toNat + offset.toNat) % step : ℕ) : ℚ) = (freq.toNat + offset.toNat : ℕ) := by
    rw [Nat.div_add_mod]
  have ratio : (96000000 : ℚ) / loDiv.toNat = step := by
    have nonzero : (loDiv.toNat : ℚ) ≠ 0 := by exact_mod_cast tunable.loDiv_pos.ne'
    rw [div_eq_iff nonzero]
    exact_mod_cast tunable.whole
  have positive : ((synthesize freq offset loDiv).thresh.toNat : ℚ) ≠ 0 := by
    exact_mod_cast (tunable.approximates freq).positive.ne'
  unfold tuningError synthesised realised
  rw [tunable.lowered_toNat, tunable.afc_toNat, coarse, mul_div_right_comm, ratio, ← split]
  push_cast
  field_simp
  ring

/-- **The tuning error of any divider.** -/
theorem tuningError_bounds (tunable : Tunable offset loDiv step) (freq : UInt32) :
    -1 < tuningError freq offset loDiv (synthesize freq offset loDiv) ∧
      tuningError freq offset loDiv (synthesize freq offset loDiv) <
        96000000 / (4096 * (synthesize freq offset loDiv).thresh.toNat * loDiv.toNat) := by
  have near := tunable.approximates freq
  obtain ⟨below, above⟩ := near.realised_error (by omega : 0 < 4096)
  have nonzero : (loDiv.toNat : ℚ) ≠ 0 := by exact_mod_cast tunable.loDiv_pos.ne'
  have positive : ((synthesize freq offset loDiv).thresh.toNat : ℚ) ≠ 0 := by
    exact_mod_cast near.positive.ne'
  have whole : (96000000 : ℚ) = step * loDiv.toNat := by exact_mod_cast tunable.whole
  rw [tunable.tuningError_eq]
  refine ⟨below, lt_of_lt_of_eq above ?_⟩
  rw [whole]
  push_cast
  field_simp

/-- **The tuning error is below 6 Hz.** A denominator that fits twelve bits is not rounded and
leaves no error, and one that does not fit keeps at least 2048 steps. -/
theorem tuningError_lt (tunable : Tunable offset loDiv step) (freq : UInt32) :
    tuningError freq offset loDiv (synthesize freq offset loDiv) < 6 := by
  have near := tunable.approximates freq
  have reduced := tunable.reduced_lt freq
  obtain ⟨thresh, rounded⟩ := tunable.rounded_toNat freq
  by_cases fits : reducedDen freq offset step ≤ 4095
  · have one : (synthesize freq offset loDiv).factor.toNat = 1 := by
      rw [tunable.factor_toNat, shrinkFactor_eq_one (by omega) fits]
    rw [one, roundDiv_one] at thresh rounded
    have same : step * (synthesize freq offset loDiv).rounded.toNat =
        (freq.toNat + offset.toNat) % step * (synthesize freq offset loDiv).thresh.toNat := by
      rw [thresh, rounded]
      unfold reducedNum reducedDen
      rw [← Nat.mul_div_assoc _ (Nat.gcd_dvd_right _ _),
        ← Nat.mul_div_assoc _ (Nat.gcd_dvd_left _ _), Nat.mul_comm step]
    rw [tunable.tuningError_eq, near.realised_exact same, sub_self]
    norm_num
  · have most := limit_lt_two_mul_roundDiv (by omega : 0 < 4095) (Nat.lt_of_not_le fits)
    rw [← tunable.factor_toNat, ← thresh] at most
    have large : (2048 : ℚ) ≤ (synthesize freq offset loDiv).thresh.toNat := by
      exact_mod_cast (by omega : 2048 ≤ (synthesize freq offset loDiv).thresh.toNat)
    have small : (step : ℚ) ≤ 48000000 := by exact_mod_cast tunable.step_le
    have above := (near.realised_error (by omega : 0 < 4096)).2
    rw [tunable.tuningError_eq]
    refine lt_of_lt_of_le above ?_
    rw [div_le_iff₀ (by positivity)]
    push_cast
    linarith

end Tunable

/-- What the registers rely on where they are packed, and how close the setting comes. -/
structure PllAccurate (freq : UInt32) (offset loDiv : UInt64) (s : Synthesizer) : Prop where
  thresh : 1 ≤ s.thresh.toNat ∧ s.thresh.toNat ≤ 4095
  frac : s.frac < s.thresh
  afc : s.afc.toNat ≤ 4095
  /-- no division is by zero -/
  divisors : loDiv ≠ 0 ∧ s.divisor ≠ 0 ∧ s.factor ≠ 0 ∧ s.thresh * 4096 * loDiv ≠ 0
  /-- `frac--` does not borrow -/
  decrement : freq.toUInt64 + offset < rfvco loDiv s.n s.thresh s.rounded 0 → 1 ≤ s.rounded
  /-- `p->freq + offset - rfvco` does not borrow -/
  difference : s.rfvco ≤ freq.toUInt64 + offset
  /-- no sum or product overflows: the locals are what the same formulas give over `ℕ` -/
  fvcoExact : s.fvco.toNat = (freq.toNat + offset.toNat) * loDiv.toNat
  rfvcoExact : ∀ frac ∈ [s.rounded, s.frac], (rfvco loDiv s.n s.thresh frac 0).toNat =
    96000000 * (s.n.toNat * s.thresh.toNat * 4096 + frac.toNat * 4096) /
      (s.thresh.toNat * 4096 * loDiv.toNat)
  afcExact : s.afc.toNat = (freq.toNat + offset.toNat - s.rfvco.toNat) * s.thresh.toNat * 4096 *
    loDiv.toNat / 96000000
  error : -1 < tuningError freq offset loDiv s ∧
    tuningError freq offset loDiv s < 96000000 / (4096 * s.thresh.toNat * loDiv.toNat)
  sixHertz : |tuningError freq offset loDiv s| < 6

/-- A value whose natural number is positive is no zero. -/
theorem ne_zero_of_toNat {value : UInt64} (positive : 0 < value.toNat) : value ≠ 0 := by
  rintro rfl
  exact Nat.lt_irrefl 0 positive

theorem Tunable.accurate {offset loDiv : UInt64} {step : ℕ} (tunable : Tunable offset loDiv step)
    (freq : UInt32) : PllAccurate freq offset loDiv (synthesize freq offset loDiv) := by
  have near := tunable.approximates freq
  have large := tunable.step_ge
  have twelve := tunable.thresh_le freq
  have coarse := tunable.n_le freq
  obtain ⟨below, above⟩ := tunable.tuningError_bounds freq
  have inside : (synthesize freq offset loDiv).frac.toNat <
      (synthesize freq offset loDiv).thresh.toNat := by
    rw [tunable.lowered_toNat]
    exact near.lowered_lt
  constructor
  · exact ⟨near.positive, twelve⟩
  · exact UInt64.lt_iff_toNat_lt.mpr inside
  · rw [tunable.afc_toNat]
    exact Nat.le_of_lt_succ (near.fine_lt (by omega))
  · refine ⟨ne_zero_of_toNat tunable.loDiv_pos, ne_zero_of_toNat ?_,
      ne_zero_of_toNat (tunable.factor_le freq).1, ne_zero_of_toNat ?_⟩
    · rw [tunable.divisor_toNat]
      exact Nat.gcd_pos_of_pos_left _ (by omega)
    · rw [tunable.denominator_toNat twelve]
      exact Nat.mul_pos (Nat.mul_pos near.positive (by omega)) tunable.loDiv_pos
  · intro high
    exact Approximates.pos_of_lowered ((tunable.tooHigh_iff freq).mp high)
  · rw [UInt64.le_iff_toNat_le, tunable.target_toNat]
    exact (tunable.missing_toNat freq).2
  · exact tunable.fvco_toNat freq
  · intro frac member
    rcases List.mem_pair.mp member with rfl | rfl
    · exact tunable.rfvco_exact coarse twelve near.le
    · exact tunable.rfvco_exact coarse twelve (Nat.le_of_lt inside)
  · exact tunable.afc_exact freq
  · exact ⟨below, above⟩
  · exact abs_lt.mpr ⟨by linarith, tunable.tuningError_lt freq⟩

/-- **The synthesizer's setting is accurate for every frequency and both plans.** -/
theorem pll_accuracy (flavour : HwFlavour) (freq : UInt32) :
    PllAccurate freq (tuningOffset (switchPlan flavour freq))
      (tuningLoDiv (switchPlan flavour freq)) (softSynthesizer flavour freq) := by
  obtain ⟨divider, offset⟩ := tuning_cases flavour freq
  unfold softSynthesizer
  generalize tuningLoDiv (switchPlan flavour freq) = loDiv at divider ⊢
  generalize tuningOffset (switchPlan flavour freq) = shift at offset ⊢
  have low : shift.toNat ≤ 120000000 := by
    rcases List.mem_pair.mp offset with rfl | rfl <;> decide
  have tunable : ∃ step, Tunable shift loDiv step := by
    simp only [List.mem_cons, List.not_mem_nil, or_false] at divider
    rcases divider with rfl | rfl | rfl | rfl | rfl
    · exact ⟨48000000, rfl, by decide, by decide, low⟩
    · exact ⟨24000000, rfl, by decide, by decide, low⟩
    · exact ⟨12000000, rfl, by decide, by decide, low⟩
    · exact ⟨6000000, rfl, by decide, by decide, low⟩
    · exact ⟨3000000, rfl, by decide, by decide, low⟩
  obtain ⟨step, tunable⟩ := tunable
  exact tunable.accurate freq

end MsiSdrDriver.Driver
