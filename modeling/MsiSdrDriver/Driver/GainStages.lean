import MsiSdrDriver.Driver.StreamCalls
import MsiSdrDriver.Driver.TuningHistory

/-!
# The gain stages

What the setters do to the gain, apart from everything else that they do. `Stages` has the gain that
was asked for and the reductions of the four stages, and `Stages.call` is the effect of a setter on
them: the setters of the gain change them, and no other setter does (`callSetter_stages`). Tuning
moves the band, which decides which of the stages are in the signal's path, and it never moves it to
the first AM input (`bandAfter_ne_am1`).
-/

set_option autoImplicit false

namespace MsiSdrDriver.Driver

/-! ## The stages -/

/-- The gain that was asked for and the reductions of the stages. -/
structure Stages where
  gain : ℤ
  lna : ℤ
  mixbuffer : ℤ
  mixer : ℤ
  baseband : ℤ
  deriving DecidableEq

/-- The stages of a device. -/
def MsisdrDev.stages (p : MsisdrDev) : Stages where
  gain := p.gain
  lna := p.gainReductionLna
  mixbuffer := p.gainReductionMixbuffer
  mixer := p.gainReductionMixer
  baseband := p.gainReductionBaseband

namespace Stages

/-- The stages that `msisdr_set_tuner_gain` chooses for a gain from 0 to 102. -/
def ofGain (gain : ℤ) : Stages :=
  if 43 ≤ gain then ⟨gain, 0, 0, 0, 59 - (gain - 43)⟩
  else if 19 ≤ gain then ⟨gain, 1, 3, 0, 59 - (gain - 19)⟩
  else ⟨gain, 1, 3, 1, 59 - gain⟩

/-- A gain is asked for. A negative one stands for the automatic gain and leaves the stages as they
are. -/
def request (s : Stages) (gain : ℤ) : Stages :=
  if gain < 0 then { s with gain := gain } else ofGain (min gain 102)

/-- The effect of a setter. -/
def call (s : Stages) : Setter → Stages
  | .tunerGain gain => s.request gain
  | .mixerGain gain => { s with mixer := if gain ≠ 0 then 0 else 1 }
  | .mixbufferGain gain =>
      if gain < 0 then s else { s with mixbuffer := (3 - min gain 18 / 6) % 4 }
  | .lnaGain gain => { s with lna := if gain ≠ 0 then 0 else 1 }
  | .basebandGain gain => { s with baseband := 59 - gain }
  | _ => s

end Stages

/-! ## The setters of the gain -/

theorem tunerGainReductions_stages (p : MsisdrDev) :
    (tunerGainReductions p).stages = .ofGain p.gain := by
  unfold tunerGainReductions Stages.ofGain
  split
  · rfl
  · split
    · rfl
    · rfl

/-- **`msisdr_set_tuner_gain` asks for a gain.** -/
theorem msisdrSetTunerGain_stages (p : OpenDevice) (gain : ℤ) :
    (msisdrSetTunerGain p gain).1.dev.stages = p.dev.stages.request gain := by
  unfold msisdrSetTunerGain Stages.request
  split
  · next above =>
      rw [if_neg (by omega), Int.min_eq_right (by omega)]
      exact tunerGainReductions_stages { p.dev with gain := 102 }
  · next within =>
      split
      · rfl
      · rw [Int.min_eq_left (by omega)]
        exact tunerGainReductions_stages { p.dev with gain := gain }

theorem msisdrSetTunerGain_band (p : OpenDevice) (gain : ℤ) :
    (msisdrSetTunerGain p gain).1.dev.band = p.dev.band := by
  unfold msisdrSetTunerGain
  split
  · exact (tunerGainReductions_same _).2.2.1
  · split
    · rfl
    · exact (tunerGainReductions_same _).2.2.1

theorem msisdrSetMixbufferGain_stages (p : OpenDevice) (gain : ℤ) :
    (msisdrSetMixbufferGain p gain).1.dev.stages = p.dev.stages.call (.mixbufferGain gain) := by
  simp only [msisdrSetMixbufferGain, Stages.call]
  split
  · rfl
  · have clamped : (if 18 < gain then 18 else gain) = min gain 18 := by
      split <;> omega
    rw [clamped]
    rfl

/-! ## The other setters -/

theorem SameConfig.stages {p q : MsisdrDev} (same : SameConfig p q) : q.stages = p.stages := by
  rw [same]
  rfl

theorem SameConfig.band {p q : MsisdrDev} (same : SameConfig p q) : q.band = p.band := by
  rw [same]

/-- **`msisdr_set_hard` leaves the stages and the band alone**, whatever becomes of the stream. -/
theorem msisdrSetHard_stages (answers : StreamAnswers) (p : OpenDevice) :
    (msisdrSetHard answers.calls p).1.dev.stages = p.dev.stages ∧
      (msisdrSetHard answers.calls p).1.dev.band = p.dev.band := by
  have stop := msisdrStopAsync_config answers.rounds p
  have start := fun q => msisdrStartAsync_config answers.submitted answers.startStatus q
  unfold msisdrSetHard
  split
  · dsimp only [StreamAnswers.calls]
    split
    · exact ⟨stop.stages, stop.band⟩
    · have start := start (programHard (msisdrAdcStop (msisdrStopAsync answers.rounds p).1))
      split
      · exact ⟨start.stages.trans stop.stages, start.band.trans stop.band⟩
      · exact ⟨start.stages.trans stop.stages, start.band.trans stop.band⟩
  · exact ⟨rfl, rfl⟩

/-- **A setter has its effect on the stages**, on a device without a stream. -/
theorem callSetter_stages (stream : StreamCalls) {p : OpenDevice}
    (idle : p.dev.asyncStatus = .inactive) (setter : Setter) :
    (callSetter stream p setter).1.dev.stages = p.dev.stages.call setter := by
  cases setter with
  | tunerGain gain => exact msisdrSetTunerGain_stages p gain
  | mixbufferGain gain => exact msisdrSetMixbufferGain_stages p gain
  | ifFreq freq =>
      rw [callSetter, msisdrSetIfFreq]
      split
      · rfl
      · rfl
  | transfer v =>
      rw [callSetter, msisdrSetTransfer]
      split_ifs
      · rfl
      · rfl
      · rfl
  | sampleRate rate =>
      rw [callSetter, msisdrSetSampleRate, msisdrSetHard_of_idle]
      · rfl
      · exact idle
  | sampleFormat v =>
      rw [callSetter, msisdrSetSampleFormat]
      split
      · rw [msisdrSetHard_of_idle]
        · rfl
        · exact idle
      · split
        · rw [msisdrSetHard_of_idle]
          · rfl
          · exact idle
        · rfl
  | mixerGain gain => rfl
  | lnaGain gain => rfl
  | basebandGain gain => rfl
  | centerFreq freq => rfl
  | xtalFreq freq => rfl
  | bandwidth bw => rfl
  | freqCorrection ppm => rfl
  | directSampling on => rfl
  | offsetTuning on => rfl
  | bias bias => rfl
  | hwFlavour flavour => rfl
  | gain => rfl
  | tunerGainMode mode => rfl

/-! ## The band -/

/-- No plan uses the first AM input. -/
theorem switchPlan_amPort (flavour : HwFlavour) (freq : UInt32) :
    (switchPlan flavour freq).mode = modeAm → (switchPlan flavour freq).amPort ≠ 0 := by
  have each : ∀ plan ∈ (hwSwitchFreqPlan flavour).take 9, plan.mode = modeAm → plan.amPort ≠ 0 := by
    cases flavour <;> decide
  exact each _ (switchPlan_mem flavour freq)

/-- **Tuning never moves to the first AM input.** -/
theorem bandAfter_ne_am1 (flavour : HwFlavour) (freq : UInt32) {band : Band} (other : band ≠ .am1) :
    bandAfter (switchPlan flavour freq) band ≠ .am1 := by
  have port := switchPlan_amPort flavour freq
  unfold bandAfter
  split
  · next am =>
      rw [if_neg (port am)]
      decide
  · split_ifs
    · decide
    · decide
    · decide
    · decide
    · exact other

end MsiSdrDriver.Driver
