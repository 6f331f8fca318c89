import Mathlib.Tactic.IntervalCases
import MsiSdrDriver.Driver.PllAccuracy
import MsiSdrDriver.Driver.RegisterCoherence

/-!
# Tuning and its history

What `msisdr_set_center_freq` leaves behind, on two devices with the same settings that have
been tuned to different stations before.

Each frequency plan has a row whose mode, 6, stands for no band: `msisdr_set_soft` compares the
mode with those of the five bands and leaves `p->band` as it was when none of them matches.
Tuned into such a row (`bandGap`), a device keeps the band of the station before, and with it
the gain word (`tuning_remembers`). Tuned anywhere else it forgets all stations before.

The reading of `msisdr_get_tuner_gain` depends in addition on the sign of `p->gain`, which stands
for the automatic gain. `tuned_alike_iff` says exactly when two devices cannot be told apart.
-/

set_option autoImplicit false

namespace MsiSdrDriver.Driver

open Foundations

/-! ## Two devices -/

/-- The two devices agree in everything that a setter of the tuner sets but the frequency. -/
structure SameSettings (p q : MsisdrDev) : Prop where
  hwFlavour : p.hwFlavour = q.hwFlavour
  ifFreq : p.ifFreq = q.ifFreq
  bandwidth : p.bandwidth = q.bandwidth
  xtal : p.xtal = q.xtal
  bias : p.bias = q.bias
  lna : p.gainReductionLna = q.gainReductionLna
  mixbuffer : p.gainReductionMixbuffer = q.gainReductionMixbuffer
  mixer : p.gainReductionMixer = q.gainReductionMixer
  baseband : p.gainReductionBaseband = q.gainReductionBaseband

/-- The device after `msisdr_set_center_freq`. -/
def tuned (p : OpenDevice) (freq : UInt32) : OpenDevice := (msisdrSetCenterFreq p freq).1

/-- The transfers that `msisdr_set_center_freq` sends. -/
def tuningTransfers (p : OpenDevice) (freq : UInt32) : List CtrlTransfer :=
  (tuned p freq).sent.drop p.sent.length

/-- The registers of the tuner that the driver writes. -/
def tunerRegisters : List (BitVec 4) := [0, 1, 2, 3, 5, 6, 0xd, 0xe]

/-- **Tuning makes two devices alike**: they have the same band, they have sent the same words,
their tuners hold the same words, and they report the same gain. -/
structure TunedAlike (p q : OpenDevice) (freq : UInt32) : Prop where
  band : (tuned p freq).dev.band = (tuned q freq).dev.band
  transfers : tuningTransfers p freq = tuningTransfers q freq
  registers : ∀ k ∈ tunerRegisters, (tuned p freq).tuner k = (tuned q freq).tuner k
  tunerGain : msisdrGetTunerGain (tuned p freq).dev = msisdrGetTunerGain (tuned q freq).dev

/-- **Tuning remembers the station before.** At 300 MHz a device that comes from 5 MHz is on an
AM input, and one that comes from 90 MHz is not. -/
theorem tuning_remembers :
    ¬ ∀ (stream : StreamCalls) (pid : UInt16) (transfer : Transfer) (setters : List Setter)
      (pid' : UInt16) (transfer' : Transfer) (setters' : List Setter) (freq : UInt32),
      SameSettings (runSetters stream (msisdrSetup stream pid transfer) setters).dev
        (runSetters stream (msisdrSetup stream pid' transfer') setters').dev →
      TunedAlike (runSetters stream (msisdrSetup stream pid transfer) setters)
        (runSetters stream (msisdrSetup stream pid' transfer') setters') freq := by
  intro alike
  have same := alike noStream 0x2500 .isoc [.centerFreq 5000000] 0x2500 .isoc [] 300000000
    ⟨rfl, rfl, rfl, rfl, rfl, rfl, rfl, rfl, rfl⟩
  have bands : Band.am2 = Band.vhf := same.band
  cases bands

/-! ## The rows without a band -/

/-- The lowest frequency of the row whose mode stands for no band, and that of the next row. -/
def gapStart : HwFlavour → UInt32
  | .hwDefault => 259000000
  | .sdrplay => 261000000

def gapEnd : HwFlavour → UInt32
  | .hwDefault => 330000000
  | .sdrplay => 404000000

/-- The frequencies of the row whose mode stands for no band. -/
def bandGap (flavour : HwFlavour) (freq : UInt32) : Prop :=
  gapStart flavour ≤ freq ∧ freq < gapEnd flavour

/-- The rows below the gap begin below it. -/
theorem rows_below_gap (flavour : HwFlavour) {k : ℕ} (below : k < 7) :
    ∃ plan, (hwSwitchFreqPlan flavour)[k]? = some plan ∧
      1000000 * plan.lowCut ≤ gapStart flavour ∧ 0 ≤ plan.mode := by
  cases flavour <;> interval_cases k <;> exact ⟨_, rfl, by decide, by decide⟩

/-- The row without a band is the seventh of each plan. -/
theorem planIndex_eq_seven_iff (flavour : HwFlavour) (freq : UInt32) :
    planIndex freq (hwSwitchFreqPlan flavour) 0 = 7 ↔ bandGap flavour freq := by
  obtain ⟨gap, gapFound, gapLow⟩ : ∃ plan, (hwSwitchFreqPlan flavour)[6]? = some plan ∧
      1000000 * plan.lowCut = gapStart flavour := by
    cases flavour <;> exact ⟨_, rfl, rfl⟩
  obtain ⟨next, nextFound, nextLow, nextTuned⟩ : ∃ plan,
      (hwSwitchFreqPlan flavour)[7]? = some plan ∧
        1000000 * plan.lowCut = gapEnd flavour ∧ 0 ≤ plan.mode := by
    cases flavour <;> exact ⟨_, rfl, rfl, by decide⟩
  constructor
  · intro index
    refine ⟨gapLow ▸ planIndex_passed gapFound (i := 0) (by omega), ?_⟩
    rcases planIndex_stopped nextFound (i := 0) (by omega) with below | untuned
    · exact nextLow ▸ below
    · omega
  · rintro ⟨low, high⟩
    by_contra other
    rcases Nat.lt_or_gt_of_ne other with before | after
    · obtain ⟨plan, found, start, tuned⟩ := rows_below_gap flavour before
      rcases planIndex_stopped found
        (show planIndex freq (hwSwitchFreqPlan flavour) 0 = 0 + _ by omega) with below | untuned
      · exact absurd (UInt32.lt_of_lt_of_le below (UInt32.le_trans start low)) (UInt32.lt_irrefl _)
      · omega
    · have passed := planIndex_passed nextFound
        (show 0 + 7 < planIndex freq (hwSwitchFreqPlan flavour) 0 by omega)
      rw [nextLow] at passed
      exact absurd (UInt32.lt_of_lt_of_le high passed) (UInt32.lt_irrefl _)

/-- The modes that `msisdr_set_soft` knows a band for. -/
def bandModes : List ℤ := [modeAm, modeVhf, modeB3, modeB45, modeBl]

/-- **The mode stands for a band exactly outside the gap.** -/
theorem mode_mem_bandModes_iff (flavour : HwFlavour) (freq : UInt32) :
    (switchPlan flavour freq).mode ∈ bandModes ↔ ¬ bandGap flavour freq := by
  rw [← planIndex_eq_seven_iff]
  obtain ⟨least, most⟩ := planIndex_range flavour freq
  unfold switchPlan
  generalize planIndex freq (hwSwitchFreqPlan flavour) 0 = index at least most
  cases flavour <;> interval_cases index <;> decide

theorem bandAfter_of_gap {flavour : HwFlavour} {freq : UInt32} (gap : bandGap flavour freq)
    (band : Band) : bandAfter (switchPlan flavour freq) band = band := by
  have mode := (mode_mem_bandModes_iff flavour freq).not.mpr (not_not.mpr gap)
  simp only [bandModes, List.mem_cons, List.not_mem_nil, or_false, not_or] at mode
  simp [bandAfter, mode]

theorem bandAfter_of_not_gap {flavour : HwFlavour} {freq : UInt32}
    (covered : ¬ bandGap flavour freq) (band band' : Band) :
    bandAfter (switchPlan flavour freq) band = bandAfter (switchPlan flavour freq) band' := by
  have mode := (mode_mem_bandModes_iff flavour freq).mpr covered
  simp only [bandModes, List.mem_cons, List.not_mem_nil, or_false] at mode
  rcases mode with mode | mode | mode | mode | mode
  · simp [bandAfter, mode]
  · simp [bandAfter, mode]
  · simp [bandAfter, mode]
  · simp [bandAfter, mode]
  · simp [bandAfter, mode]

/-! ## When tuning makes two devices alike -/

/-- The condition on the devices before: in the gap they have the same band already, and their
gains are both automatic or both manual, unless the manual gain happens to be -1, which stands
for the automatic one. -/
structure TuningDetermined (p q : MsisdrDev) (freq : UInt32) : Prop where
  band : bandGap p.hwFlavour freq → p.band = q.band
  gain : (p.gain < 0 ↔ q.gain < 0) ∨
    stageGain { p with band := bandAfter (switchPlan p.hwFlavour freq) p.band } = -1

theorem tuned_dev (p : OpenDevice) (freq : UInt32) :
    (tuned p freq).dev =
      { p.dev with
        freq := freq
        band := bandAfter (switchPlan p.dev.hwFlavour freq) p.dev.band
        reg8 := (switchPlan p.dev.hwFlavour freq).bandSelectWord } := rfl

/-- The words that `msisdr_set_center_freq` sends for the configuration that it leaves. -/
def tuningWords (p : MsisdrDev) : List CtrlTransfer :=
  [msisdrWriteReg 0x08 (reg8Word p), msisdrWriteReg 0x09 0x0e, msisdrWriteReg 0x09 (softReg3 p),
    msisdrWriteReg 0x09 (softReg0 p), msisdrWriteReg 0x09 (softReg5 p),
    msisdrWriteReg 0x09 (softReg2 p), msisdrWriteReg 0x09 (softRegd p),
    msisdrWriteReg 0x09 (gainReg1 p), msisdrWriteReg 0x09 gainReg6]

theorem tuned_sent (p : OpenDevice) (freq : UInt32) :
    (tuned p freq).sent = p.sent ++ tuningWords (tuned p freq).dev := by
  simp only [tuned, msisdrSetCenterFreq, softAndGain, msisdrSetSoft, msisdrSetGain, updateReg8,
    OpenDevice.write, List.append_assoc, List.cons_append, List.nil_append, tuningWords]

theorem tuningTransfers_eq (p : OpenDevice) (freq : UInt32) :
    tuningTransfers p freq = tuningWords (tuned p freq).dev := by
  rw [tuningTransfers, tuned_sent, List.drop_left]

variable {p q : OpenDevice} {freq : UInt32}

theorem SameSettings.softFields (same : SameSettings p.dev q.dev) (freq : UInt32) :
    Driver.softFields (tuned p freq).dev = Driver.softFields (tuned q freq).dev := by
  simp only [Driver.softFields, tuned_dev, same.hwFlavour, same.ifFreq, same.bandwidth, same.xtal,
    same.bias]

theorem SameSettings.gainFields (same : SameSettings p.dev q.dev)
    (band : (tuned p freq).dev.band = (tuned q freq).dev.band) :
    Driver.gainFields (tuned p freq).dev = Driver.gainFields (tuned q freq).dev := by
  simp only [Driver.gainFields, band]
  simp only [tuned_dev, same.lna, same.mixbuffer, same.mixer, same.baseband]

theorem stageGain_of_fields {p q : MsisdrDev} (fields : gainFields q = gainFields p) :
    stageGain q = stageGain p := by
  simp only [gainFields, Prod.mk.injEq] at fields
  obtain ⟨band, baseband, mixbuffer, mixer, lna⟩ := fields
  rw [stageGain, stageGain, band, baseband, mixbuffer, mixer, lna]

theorem tuned_band_iff (same : SameSettings p.dev q.dev) (freq : UInt32) :
    (tuned p freq).dev.band = (tuned q freq).dev.band ↔
      (bandGap p.dev.hwFlavour freq → p.dev.band = q.dev.band) := by
  simp only [tuned_dev, ← same.hwFlavour]
  by_cases gap : bandGap p.dev.hwFlavour freq
  · simp [bandAfter_of_gap gap, gap]
  · simp [bandAfter_of_not_gap gap p.dev.band q.dev.band, gap]

theorem SameSettings.transfers (same : SameSettings p.dev q.dev)
    (band : (tuned p freq).dev.band = (tuned q freq).dev.band) :
    tuningTransfers p freq = tuningTransfers q freq := by
  obtain ⟨reg0, reg2, reg3, reg5, regd, reg8⟩ := softWords_of_fields (same.softFields freq)
  rw [tuningTransfers_eq, tuningTransfers_eq, tuningWords, tuningWords, reg0, reg2, reg3, reg5,
    regd, reg8, gainReg1_of_fields (same.gainFields band)]

/-- The words write every register of the tuner. -/
theorem tuningWords_write (p : MsisdrDev) {k : BitVec 4} (member : k ∈ tunerRegisters) :
    (lastWrite CtrlTransfer.tunerTarget CtrlTransfer.word (tuningWords p) k).isSome := by
  simp only [tunerRegisters, List.mem_cons, List.not_mem_nil, or_false] at member
  rcases member with rfl | rfl | rfl | rfl | rfl | rfl | rfl | rfl <;>
    simp [tuningWords, lastWrite, msisdrWriteReg_tunerTarget]

theorem tuned_tuner (p : OpenDevice) (freq : UInt32) {k : BitVec 4} (member : k ∈ tunerRegisters) :
    (tuned p freq).tuner k =
      lastWrite CtrlTransfer.tunerTarget CtrlTransfer.word (tuningTransfers p freq) k := by
  rw [OpenDevice.tuner, tuned_sent, lastWrite_append, tuningTransfers_eq,
    Option.or_of_isSome (tuningWords_write _ member)]

/-- The reading of the gain, for two devices that the call leaves on the same band. -/
theorem tunerGain_iff (same : SameSettings p.dev q.dev)
    (band : (tuned p freq).dev.band = (tuned q freq).dev.band) :
    msisdrGetTunerGain (tuned p freq).dev = msisdrGetTunerGain (tuned q freq).dev ↔
      ((p.dev.gain < 0 ↔ q.dev.gain < 0) ∨ stageGain (tuned p freq).dev = -1) := by
  have stages := stageGain_of_fields (same.gainFields band)
  have kept : ∀ r : OpenDevice, (tuned r freq).dev.gain = r.dev.gain := fun _ => rfl
  rw [msisdrGetTunerGain, msisdrGetTunerGain, kept, kept, ← stages]
  by_cases automatic : p.dev.gain < 0 <;> by_cases automatic' : q.dev.gain < 0
  · simp [automatic, automatic']
  · simp [automatic, automatic', eq_comm]
  · simp [automatic, automatic']
  · simp [automatic, automatic']

/-- **Exactly when tuning makes two devices alike.** -/
theorem tuned_alike_iff (p q : OpenDevice) (freq : UInt32) (same : SameSettings p.dev q.dev) :
    TunedAlike p q freq ↔ TuningDetermined p.dev q.dev freq := by
  constructor
  · intro alike
    exact ⟨(tuned_band_iff same freq).mp alike.band,
      (tunerGain_iff same alike.band).mp alike.tunerGain⟩
  · intro determined
    have band := (tuned_band_iff same freq).mpr determined.band
    have transfers := same.transfers band
    refine ⟨band, transfers, fun k member => ?_, (tunerGain_iff same band).mpr determined.gain⟩
    rw [tuned_tuner p freq member, tuned_tuner q freq member, transfers]

/-- A device that comes from 5 MHz and one that comes from 90 MHz are alike at 100 MHz. -/
theorem tuned_alike_iff_outsideGap :
    TunedAlike (runSetters noStream (msisdrSetup noStream 0x2500 .isoc) [.centerFreq 5000000])
      (msisdrSetup noStream 0x2500 .isoc) 100000000 := by
  have same : SameSettings
      (runSetters noStream (msisdrSetup noStream 0x2500 .isoc) [.centerFreq 5000000]).dev
      (msisdrSetup noStream 0x2500 .isoc).dev := ⟨rfl, rfl, rfl, rfl, rfl, rfl, rfl, rfl, rfl⟩
  have covered : ¬ bandGap .hwDefault 100000000 := fun gap => absurd gap.1 (by decide)
  exact (tuned_alike_iff _ _ _ same).mpr ⟨fun gap => absurd gap covered, .inl Iff.rfl⟩

end MsiSdrDriver.Driver
