import Mathlib.Tactic.IntervalCases
import MsiSdrDriver.Foundations.PackedWords
import MsiSdrDriver.Driver.TuningHistory

/-!
# The frequency that the registers stand for

The tuner knows the frequency from the fields of its registers only: the coarse divider, the
numerator, the denominator and the fine term of the synthesizer from registers 2, 5 and 3, and the
divider of its output and the up-conversion from the mode bits of register 0. `decodedLo` reads the
frequency back from them.

The coarse divider has a field of six bits. It fits below 3072 MHz (`coarse_lt_iff`), and there the
decoded frequency is the one that was asked for, up to the error of the synthesizer. Above, `n` is
cut to its low bits and the tuner is more than 3 GHz away (`decodedLo_near_iff`), while
`msisdr_set_center_freq` reports success. The last row of both plans begins at 2400 MHz with no
mode, and `msisdr_set_soft` stops at it, but then uses the row before.
-/

set_option autoImplicit false

namespace MsiSdrDriver.Driver

open Foundations

/-! ## Reading the registers -/

/-- The divider that the mode bits of register 0 select. -/
def decodedLoDiv (reg0 : ℕ) : Option ℕ :=
  match bitField reg0 4 5 with
  | 1 => some 16
  | 2 => some 32
  | 4 => some 16
  | 6 => some 8
  | 8 => some 4
  | 16 => some 2
  | _ => none

/-- The up-conversion that they select, which the AM mode knows only. -/
def decodedOffset (reg0 : ℕ) : ℕ :=
  if bitField reg0 4 5 = 1 ∧ bitField reg0 9 1 = 1 then 120000000 else 0

/-- The frequency that the fields of four words stand for. -/
def decodedFreq (reg0 reg2 reg3 reg5 : ℕ) : Option ℚ :=
  (decodedLoDiv reg0).map fun loDiv : ℕ =>
    96000000 * ((bitField reg2 16 6 : ℚ) +
      ((bitField reg2 4 12 : ℚ) + (bitField reg3 4 12 : ℚ) / 4096) / bitField reg5 4 12) /
        (loDiv : ℚ) - (decodedOffset reg0 : ℚ)

/-- **The frequency of the tuner**: what the words in its registers stand for. -/
def decodedLo (tuner : BitVec 4 → Option (BitVec 24)) : Option ℚ := do
  let reg0 ← tuner 0
  let reg2 ← tuner 2
  let reg3 ← tuner 3
  let reg5 ← tuner 5
  decodedFreq reg0.toNat reg2.toNat reg3.toNat reg5.toNat

/-! ## The fields of the words -/

theorem softReg2_packs (p : MsisdrDev) :
    Packs (softReg2 p) [⟨2, 4⟩,
      ⟨(softSynthesizer p.hwFlavour p.freq).frac.toNat % 2 ^ 12, 12⟩,
      ⟨(softSynthesizer p.hwFlavour p.freq).n.toNat % 2 ^ 6, 6⟩] := by
  unfold softReg2
  generalize softSynthesizer p.hwFlavour p.freq = s
  have number : Packs (2 : BitVec 32) [⟨2, 4⟩] := .single 4 (by decide) rfl
  have numerator := number.orMasked 0xFFF 4 s.frac 12 rfl rfl (by decide)
  have coarse := numerator.orMasked 0x3F 16 s.n 6 rfl rfl (by decide)
  change Packs (_ ||| 0#32) _
  rw [BitVec.or_zero]
  exact coarse

theorem softReg3_packs (p : MsisdrDev) :
    Packs (softReg3 p) [⟨3, 4⟩,
      ⟨(softSynthesizer p.hwFlavour p.freq).afc.toNat % 2 ^ 12, 12⟩] := by
  have number : Packs (3 : BitVec 32) [⟨3, 4⟩] := .single 4 (by decide) rfl
  unfold softReg3
  rw [UInt64.and_comm]
  exact number.orMasked 4095 4 _ 12 rfl rfl (by decide)

theorem softReg5_packs (p : MsisdrDev) :
    Packs (softReg5 p) [⟨5, 4⟩,
      ⟨(softSynthesizer p.hwFlavour p.freq).thresh.toNat % 2 ^ 12, 12⟩, ⟨0x28, 6⟩] := by
  have number : Packs (5 : BitVec 32) [⟨5, 4⟩] := .single 4 (by decide) rfl
  have denominator := number.orMasked 0xFFF 4 (softSynthesizer p.hwFlavour p.freq).thresh 12 rfl
    rfl (by decide)
  exact denominator.orBits 0x28 16 6 (by decide) rfl (by decide)

/-- The fields of the words as they are sent. -/
theorem softReg2_fields (p : MsisdrDev) :
    bitField ((softReg2 p).setWidth 24).toNat 4 12 =
        (softSynthesizer p.hwFlavour p.freq).frac.toNat % 2 ^ 12 ∧
      bitField ((softReg2 p).setWidth 24).toNat 16 6 =
        (softSynthesizer p.hwFlavour p.freq).n.toNat % 2 ^ 6 := by
  have packs := (softReg2_packs p).setWidth 24 (by simp [packedWidth])
  exact ⟨packs.read 1 rfl, packs.read 2 rfl⟩

theorem softReg3_field (p : MsisdrDev) :
    bitField ((softReg3 p).setWidth 24).toNat 4 12 =
      (softSynthesizer p.hwFlavour p.freq).afc.toNat % 2 ^ 12 :=
  ((softReg3_packs p).setWidth 24 (by simp [packedWidth])).read 1 rfl

theorem softReg5_field (p : MsisdrDev) :
    bitField ((softReg5 p).setWidth 24).toNat 4 12 =
      (softSynthesizer p.hwFlavour p.freq).thresh.toNat % 2 ^ 12 :=
  ((softReg5_packs p).setWidth 24 (by simp [packedWidth])).read 1 rfl

/-- Below bit 10 register 0 holds what the plan gives. -/
theorem softReg0_low (p : MsisdrDev) :
    ((softReg0 p).setWidth 24).toNat % 2 ^ 10 =
      ((planBits (switchPlan p.hwFlavour p.freq)).setWidth 24).toNat % 2 ^ 10 := by
  have low : (softReg0 p).setWidth 10 = (planBits (switchPlan p.hwFlavour p.freq)).setWidth 10 := by
    simp [softReg0]
  have bits := congrArg BitVec.toNat low
  rw [BitVec.toNat_setWidth, BitVec.toNat_setWidth] at bits
  rw [BitVec.toNat_setWidth, BitVec.toNat_setWidth, Nat.mod_mod_of_dvd _ (by decide),
    Nat.mod_mod_of_dvd _ (by decide), bits]

/-- The mode bits depend on the low bits only. -/
theorem decoded_congr {reg0 reg0' : ℕ} (low : reg0 % 2 ^ 10 = reg0' % 2 ^ 10) :
    decodedLoDiv reg0 = decodedLoDiv reg0' ∧ decodedOffset reg0 = decodedOffset reg0' := by
  have mode : bitField reg0 4 5 = bitField reg0' 4 5 := by
    unfold bitField
    omega
  have mixer : bitField reg0 9 1 = bitField reg0' 9 1 := by
    unfold bitField
    omega
  simp only [decodedLoDiv, decodedOffset, mode, mixer, and_self]

/-- **The mode bits select what the plan has.** -/
theorem softReg0_decoded (p : MsisdrDev) :
    decodedLoDiv ((softReg0 p).setWidth 24).toNat =
        some (tuningLoDiv (switchPlan p.hwFlavour p.freq)).toNat ∧
      decodedOffset ((softReg0 p).setWidth 24).toNat =
        (tuningOffset (switchPlan p.hwFlavour p.freq)).toNat := by
  have each : ∀ plan ∈ (hwSwitchFreqPlan p.hwFlavour).take 9,
      decodedLoDiv ((planBits plan).setWidth 24).toNat = some (tuningLoDiv plan).toNat ∧
        decodedOffset ((planBits plan).setWidth 24).toNat = (tuningOffset plan).toNat := by
    cases p.hwFlavour <;> decide
  obtain ⟨loDiv, offset⟩ := decoded_congr (softReg0_low p)
  rw [loDiv, offset]
  exact each _ (switchPlan_mem p.hwFlavour p.freq)

/-! ## The coarse divider -/

/-- The row of a plan. -/
def planRow (flavour : HwFlavour) (k : ℕ) : HwSwitchFreqPlan :=
  (hwSwitchFreqPlan flavour).getD k ⟨0, -1, 0, 0, 0, 0⟩

/-- The dividers of the local oscillator. -/
theorem loDiv_range {loDiv : UInt64} (divider : loDiv ∈ ([2, 4, 8, 16, 32] : List UInt64)) :
    0 < loDiv.toNat ∧ loDiv.toNat ≤ 32 := by
  have each : ∀ loDiv ∈ ([2, 4, 8, 16, 32] : List UInt64),
      0 < loDiv.toNat ∧ loDiv.toNat ≤ 32 := by simp
  exact each loDiv divider

/-- Every row but the last ends, where the next one begins, far below the limit of the coarse
divider. -/
theorem rows_fit (flavour : HwFlavour) : ∀ k < 8, ¬ (planRow flavour (k + 1)).mode < 0 ∧
    (1000000 * (planRow flavour (k + 1)).lowCut).toNat ≤ 3072000000 ∧
    ((1000000 * (planRow flavour (k + 1)).lowCut).toNat +
        (tuningOffset (planRow flavour k)).toNat) * (tuningLoDiv (planRow flavour k)).toNat ≤
      64 * 96000000 := by
  cases flavour <;> decide

/-- **The scaled frequency reaches the limit of the coarse divider at 3072 MHz.** -/
theorem scaled_lt_iff (flavour : HwFlavour) (freq : UInt32) :
    (freq.toNat + (tuningOffset (switchPlan flavour freq)).toNat) *
        (tuningLoDiv (switchPlan flavour freq)).toNat < 64 * 96000000 ↔
      freq.toNat < 3072000000 := by
  obtain ⟨least, most⟩ := planIndex_range flavour freq
  have length : (hwSwitchFreqPlan flavour).length = 10 := by cases flavour <;> rfl
  have row : switchPlan flavour freq =
      planRow flavour (planIndex freq (hwSwitchFreqPlan flavour) 0 - 1) := rfl
  generalize index : planIndex freq (hwSwitchFreqPlan flavour) 0 = k at *
  rw [row]
  by_cases last : k = 9
  · have top : tuningOffset (planRow flavour (9 - 1)) = 0 ∧
        tuningLoDiv (planRow flavour (9 - 1)) = 2 := by
      cases flavour <;> decide
    rw [last, top.1, top.2]
    show (freq.toNat + 0) * 2 < _ ↔ _
    omega
  · obtain ⟨tuned, cut, scaled⟩ := rows_fit flavour (k - 1) (by omega)
    rw [Nat.sub_add_cancel least] at tuned cut scaled
    have found : (hwSwitchFreqPlan flavour)[k]? = some (planRow flavour k) := by
      rw [planRow, List.getD_eq_getElem _ _ (by omega), List.getElem?_eq_getElem]
    have below : freq.toNat < (1000000 * (planRow flavour k).lowCut).toNat := by
      rcases planIndex_stopped (i := 0) found (index.trans (Nat.zero_add k).symm) with
        below | untuned
      · exact below
      · exact absurd untuned tuned
    have positive : 0 < (tuningLoDiv (planRow flavour (k - 1))).toNat := by
      have divider := (tuning_cases flavour freq).1
      rw [row] at divider
      exact (loDiv_range divider).1
    have less := Nat.mul_lt_mul_of_pos_right
      (Nat.add_lt_add_right below (tuningOffset (planRow flavour (k - 1))).toNat) positive
    exact iff_of_true (Nat.lt_of_lt_of_le less scaled) (Nat.lt_of_lt_of_le below cut)

/-- **The coarse divider fits in its six bits below 3072 MHz, and no further.** -/
theorem coarse_lt_iff (flavour : HwFlavour) (freq : UInt32) :
    (softSynthesizer flavour freq).n.toNat < 64 ↔ freq.toNat < 3072000000 := by
  have exact := (pll_accuracy flavour freq).fvcoExact
  have quotient : (softSynthesizer flavour freq).n.toNat =
      (softSynthesizer flavour freq).fvco.toNat / 96000000 := UInt64.toNat_div ..
  rw [quotient, Nat.div_lt_iff_lt_mul (by omega), exact, scaled_lt_iff]

/-! ## The decoded frequency -/

/-- How far the low six bits of the coarse divider stay behind it. -/
def coarseLoss (flavour : HwFlavour) (freq : UInt32) : ℚ :=
  96000000 * (64 * ((softSynthesizer flavour freq).n.toNat / 64 : ℕ)) /
    (tuningLoDiv (switchPlan flavour freq)).toNat

/-- The fields of an accurate setting that have room hold it. -/
theorem synthesizer_fields (flavour : HwFlavour) (freq : UInt32) :
    (softSynthesizer flavour freq).frac.toNat % 2 ^ 12 =
        (softSynthesizer flavour freq).frac.toNat ∧
      (softSynthesizer flavour freq).thresh.toNat % 2 ^ 12 =
        (softSynthesizer flavour freq).thresh.toNat ∧
      (softSynthesizer flavour freq).afc.toNat % 2 ^ 12 =
        (softSynthesizer flavour freq).afc.toNat := by
  have accurate := pll_accuracy flavour freq
  have thresh := accurate.thresh.2
  have frac := UInt64.lt_iff_toNat_lt.mp accurate.frac
  have afc := accurate.afc
  refine ⟨Nat.mod_eq_of_lt ?_, Nat.mod_eq_of_lt ?_, Nat.mod_eq_of_lt ?_⟩ <;> omega

/-- **The registers stand for the frequency**, up to the error of the synthesizer and to what the
coarse divider loses. -/
theorem decodedLo_tuned (p : OpenDevice) (freq : UInt32) :
    decodedLo (tuned p freq).tuner =
      some (freq.toNat - tuningError freq (tuningOffset (switchPlan p.dev.hwFlavour freq))
          (tuningLoDiv (switchPlan p.dev.hwFlavour freq))
          (softSynthesizer p.dev.hwFlavour freq) -
        coarseLoss p.dev.hwFlavour freq) := by
  have coherent : SoftCoherent (tuned p freq) := msisdrSetGain_soft
    (msisdrSetSoft_soft { p with dev := { p.dev with freq := freq } })
  have flavour : (tuned p freq).dev.hwFlavour = p.dev.hwFlavour := rfl
  have frequency : (tuned p freq).dev.freq = freq := rfl
  obtain ⟨loDiv, offset⟩ := softReg0_decoded (tuned p freq).dev
  obtain ⟨numerator, coarse⟩ := softReg2_fields (tuned p freq).dev
  have fine := softReg3_field (tuned p freq).dev
  have denominator := softReg5_field (tuned p freq).dev
  obtain ⟨frac, thresh, afc⟩ := synthesizer_fields p.dev.hwFlavour freq
  rw [flavour, frequency] at loDiv offset numerator coarse fine denominator
  rw [frac] at numerator
  rw [thresh] at denominator
  rw [afc] at fine
  have split : ((softSynthesizer p.dev.hwFlavour freq).n.toNat : ℚ) =
      64 * ((softSynthesizer p.dev.hwFlavour freq).n.toNat / 64 : ℕ) +
        ((softSynthesizer p.dev.hwFlavour freq).n.toNat % 2 ^ 6 : ℕ) := by
    exact_mod_cast (Nat.div_add_mod _ 64).symm
  simp only [decodedLo, coherent.tuner0, coherent.tuner2, coherent.tuner3, coherent.tuner5,
    Option.bind_eq_bind, Option.bind_some, decodedFreq, loDiv, offset, numerator, coarse, fine,
    denominator, Option.map_some]
  rw [tuningError, synthesised, coarseLoss, split]
  congr 1
  push_cast
  ring

theorem coarseLoss_of_lt {flavour : HwFlavour} {freq : UInt32}
    (fits : (softSynthesizer flavour freq).n.toNat < 64) : coarseLoss flavour freq = 0 := by
  rw [coarseLoss, Nat.div_eq_of_lt fits, Nat.cast_zero, mul_zero, mul_zero, zero_div]

/-- What is cut off the coarse divider is no small step. -/
theorem le_coarseLoss {flavour : HwFlavour} {freq : UInt32}
    (cut : 64 ≤ (softSynthesizer flavour freq).n.toNat) : 192000000 ≤ coarseLoss flavour freq := by
  have divider := (tuning_cases flavour freq).1
  obtain ⟨positive, few⟩ := loDiv_range divider
  have whole : (1 : ℚ) ≤ ((softSynthesizer flavour freq).n.toNat / 64 : ℕ) := by
    exact_mod_cast Nat.div_pos cut (by omega)
  have few' : ((tuningLoDiv (switchPlan flavour freq)).toNat : ℚ) ≤ 32 := by exact_mod_cast few
  rw [coarseLoss, le_div_iff₀ (by exact_mod_cast positive)]
  linarith

/-- **The decoded frequency is within 6 Hz of the one that was asked for exactly below 3072 MHz.**
The device is tuned to the low 32 bits of what was asked for. -/
theorem decodedLo_near_iff (p : OpenDevice) {freq : UInt32} {asked : ℕ}
    (low : freq.toNat = asked % 2 ^ 32) :
    (∃ lo, decodedLo (tuned p freq).tuner = some lo ∧ |lo - asked| < 6) ↔
      asked < 3072000000 := by
  obtain ⟨above, below⟩ := abs_lt.mp (pll_accuracy p.dev.hwFlavour freq).sixHertz
  have whole : (asked : ℚ) = 2 ^ 32 * (asked / 2 ^ 32 : ℕ) + freq.toNat := by
    rw [low]
    exact_mod_cast (Nat.div_add_mod asked (2 ^ 32)).symm
  have coarse := coarse_lt_iff p.dev.hwFlavour freq
  rw [decodedLo_tuned]
  generalize tuningError freq _ _ _ = error at above below ⊢
  constructor
  · rintro ⟨lo, decoded, near⟩
    have most := (abs_lt.mp near).1
    rw [← Option.some_inj.mp decoded] at most
    have gain : 0 ≤ coarseLoss p.dev.hwFlavour freq := by
      by_cases fits : (softSynthesizer p.dev.hwFlavour freq).n.toNat < 64
      · exact (coarseLoss_of_lt fits).ge
      · exact le_trans (by norm_num) (le_coarseLoss (Nat.le_of_not_lt fits))
    have word : asked / 2 ^ 32 = 0 := by
      by_contra more
      have once : (1 : ℚ) ≤ (asked / 2 ^ 32 : ℕ) := by
        exact_mod_cast Nat.one_le_iff_ne_zero.mpr more
      linarith
    rw [word, Nat.cast_zero, mul_zero, zero_add] at whole
    have same : asked = freq.toNat := by exact_mod_cast whole
    rw [same, ← coarse]
    by_contra cut
    have loss := le_coarseLoss (Nat.le_of_not_lt cut)
    linarith
  · intro fits
    have same : freq.toNat = asked := low.trans (Nat.mod_eq_of_lt (by omega))
    refine ⟨_, rfl, ?_⟩
    rw [coarseLoss_of_lt (coarse.mpr (same ▸ fits)), same]
    exact abs_lt.mpr ⟨by linarith, by linarith⟩

end MsiSdrDriver.Driver
