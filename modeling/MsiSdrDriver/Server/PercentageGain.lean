import MsiSdrDriver.Server.DeviceCommands

/-!
# The gain by percentage

`TCP_ANDROID_GAIN_BY_PERCENTAGE`. `set_gain_by_perc` scales the parameter of the client to an index
into the table of gains and clamps the index, so that a hundred percent and more stand for the
maximum. The product is taken in 32 bits, and a parameter from 41698712 on can wrap. The clamp then
sees what is left of the product, and a small rest gives a small gain.

`perc_gain_law_iff` says for which parameters the gain is the percentage.
-/

set_option autoImplicit false

namespace MsiSdrDriver.Server

open MsiSdrDriver.Driver

/-- What `set_gain_by_perc` leaves in `p->gain`. -/
def percGain (dev : OpenDevice) (percent : UInt32) : ℤ :=
  (setGainByPerc dev percent).1.dev.gain

/-- The percentage of the gains, over the integers. -/
def idealGain (percent : UInt32) : ℤ :=
  min 102 (103 * percent.toNat / 100)

/-- **The law of the percentage gain** at a parameter: the gain is the percentage, from a hundred
percent on it is the maximum, no smaller parameter gives more, and the index is in the table. -/
structure PercGainLaw (dev : OpenDevice) (percent : UInt32) : Prop where
  scaled : percGain dev percent = idealGain percent
  saturates : 100 ≤ percent → percGain dev percent = 102
  monotone : ∀ less, less ≤ percent → percGain dev less ≤ percGain dev percent
  inTable : (percIndex percent).toNat < msisdrGetTunerGains.length

/-- **The maximum gain is lost**: 41698712 percent set no gain at all. -/
theorem large_percentage_wraps :
    ¬∀ (dev : OpenDevice) (percent : UInt32), PercGainLaw dev percent := by
  intro law
  have most := (law (msisdrSetup noStream 0x2500 .isoc) 41698712).saturates (by decide)
  have none : percGain (msisdrSetup noStream 0x2500 .isoc) 41698712 = 0 := rfl
  rw [none] at most
  cases most

/-! ## The index and the gain -/

theorem percIndex_toNat (percent : UInt32) :
    (percIndex percent).toNat = min 102 (103 * percent.toNat % 2 ^ 32 / 100) := by
  have scaled : (percent * 103 / 100).toNat = 103 * percent.toNat % 2 ^ 32 / 100 := by
    rw [UInt32.toNat_div, UInt32.toNat_mul, Nat.mul_comm]
    rfl
  have count : UInt32.ofNat msisdrGetTunerGains.length = 103 := by decide
  simp only [percIndex, count]
  by_cases beyond : (103 : UInt32) ≤ percent * 103 / 100
  · have large := UInt32.le_iff_toNat_le.mp beyond
    rw [scaled] at large
    rw [if_pos beyond]
    exact (Nat.min_eq_left (Nat.le_of_succ_le large)).symm
  · have small := UInt32.lt_iff_toNat_lt.mp (UInt32.not_le.mp beyond)
    rw [scaled] at small
    rw [if_neg beyond, scaled]
    exact (Nat.min_eq_right (Nat.le_of_lt_succ small)).symm

/-- **The index is in the table**, whatever the product leaves. -/
theorem percIndex_lt (percent : UInt32) :
    (percIndex percent).toNat < msisdrGetTunerGains.length := by
  have length : msisdrGetTunerGains.length = 103 := by decide
  rw [percIndex_toNat, length]
  omega

theorem tunerGainReductions_gain (p : MsisdrDev) : (tunerGainReductions p).gain = p.gain := by
  rw [tunerGainReductions]
  split_ifs
  · rfl
  · rfl
  · rfl

/-- A gain of the table is stored as it is. -/
theorem msisdrSetTunerGain_gain (dev : OpenDevice) {gain : ℤ} (least : 0 ≤ gain)
    (most : gain ≤ 102) : (msisdrSetTunerGain dev gain).1.dev.gain = gain := by
  rw [msisdrSetTunerGain, if_neg (by omega), if_neg (by omega)]
  exact tunerGainReductions_gain _

/-- The gain is the index. -/
theorem percGain_eq (dev : OpenDevice) (percent : UInt32) :
    percGain dev percent = min 102 ((103 * percent.toNat % 2 ^ 32 / 100 : ℕ) : ℤ) := by
  have entries : ∀ i < 103, msisdrGetTunerGains.getD i 0 = (i : ℤ) := by decide
  have index := percIndex_toNat percent
  rw [percGain, setGainByPerc, entries _ (by omega),
    msisdrSetTunerGain_gain dev (by omega) (by omega)]
  omega

/-! ## The law -/

/-- The product fits into 32 bits, or what is left of it is clamped all the same. -/
def ProductHarmless (percent : UInt32) : Prop :=
  103 * percent.toNat < 2 ^ 32 ∨ 10200 ≤ 103 * percent.toNat % 2 ^ 32

/-- A product that wraps is that of a hundred percent or more. -/
theorem idealGain_of_wraps {percent : UInt32} (wraps : ¬103 * percent.toNat < 2 ^ 32) :
    idealGain percent = 102 := by
  unfold idealGain
  omega

theorem percGain_of_fits (dev : OpenDevice) {percent : UInt32}
    (fits : 103 * percent.toNat < 2 ^ 32) : percGain dev percent = idealGain percent := by
  rw [percGain_eq, Nat.mod_eq_of_lt fits, idealGain]
  omega

/-- A wrapped product gives too little, never too much. -/
theorem percGain_le_ideal (dev : OpenDevice) (percent : UInt32) :
    percGain dev percent ≤ idealGain percent := by
  by_cases fits : 103 * percent.toNat < 2 ^ 32
  · exact Int.le_of_eq (percGain_of_fits dev fits)
  · rw [idealGain_of_wraps fits, percGain_eq]
    exact Int.min_le_left ..

theorem percGain_eq_ideal_iff (dev : OpenDevice) (percent : UInt32) :
    percGain dev percent = idealGain percent ↔ ProductHarmless percent := by
  by_cases fits : 103 * percent.toNat < 2 ^ 32
  · exact iff_of_true (percGain_of_fits dev fits) (.inl fits)
  · rw [ProductHarmless, or_iff_right fits, idealGain_of_wraps fits, percGain_eq]
    generalize 103 * percent.toNat % 2 ^ 32 = rest
    omega

theorem idealGain_mono {less percent : UInt32} (order : less ≤ percent) :
    idealGain less ≤ idealGain percent := by
  have numbers := UInt32.le_iff_toNat_le.mp order
  unfold idealGain
  omega

/-- **The law holds** exactly at the parameters whose product does no harm. -/
theorem perc_gain_law_iff (dev : OpenDevice) (percent : UInt32) :
    PercGainLaw dev percent ↔ ProductHarmless percent := by
  rw [← percGain_eq_ideal_iff dev percent]
  constructor
  · intro law
    exact law.scaled
  · intro scaled
    refine ⟨scaled, fun full => ?_, fun less order => ?_, percIndex_lt percent⟩
    · have hundred := UInt32.le_iff_toNat_le.mp full
      have number : (100 : UInt32).toNat = 100 := rfl
      rw [number] at hundred
      rw [scaled, idealGain]
      omega
    · rw [scaled]
      exact Int.le_trans (percGain_le_ideal dev less) (idealGain_mono order)

end MsiSdrDriver.Server
