import MsiSdrDriver.Driver.DecodedFrequency
import MsiSdrDriver.Server.DeviceCommands

/-!
# The frequency that a client asks for

Two ways lead to `msisdr_set_center_freq`: the frequency that `openAsync` is called with, a `jlong`,
and the command `TCP_SET_FREQ`, whose parameter has 32 bits. `openAsync` rejects a negative
frequency and takes every other one, cut to its low 32 bits; the command cannot be rejected at all.

Below 3072 MHz the tuner is then within 6 Hz of what was asked for, whatever the flavour of the
hardware, and from 3072 MHz on it never is, although nothing reports an error
(`tuned_as_asked_iff`).
-/

set_option autoImplicit false

namespace MsiSdrDriver.Server

open MsiSdrDriver.Driver

/-! ## What a request asks for -/

/-- The registers of the tuner stand for a frequency within 6 Hz of the one that was asked for. -/
def TunedTo (device : OpenDevice) (asked : ℤ) : Prop :=
  ∃ lo, decodedLo device.tuner = some lo ∧ |lo - asked| < 6

/-- **`openAsync` tunes to the frequency it is called with, or it fails.** -/
def OpenedAsAsked (answers : StreamAnswers) (device : OpenDevice) (args : OpenArgs) : Prop :=
  match openAsync answers device args with
  | .error _ => True
  | .ok device => TunedTo device args.frequency.toInt

/-- **`TCP_SET_FREQ` tunes to its parameter, or the setter reports an error.** -/
def CommandedAsAsked (answers : StreamAnswers) (dev : MsisdrAndroid) (device : OpenDevice)
    (parameter : UInt32) : Prop :=
  (msisdrSetCenterFreq device parameter).2 < 0 ∨
    ∃ device', (tcpCommandCallback answers { dev with miriDev := some device }
      ⟨0x01, parameter⟩).miriDev = some device' ∧ TunedTo device' parameter.toNat

/-! ## `TCP_SET_FREQ` -/

theorem tunedTo_tuned_iff (device : OpenDevice) {freq : UInt32} {asked : ℕ}
    (low : freq.toNat = asked % 2 ^ 32) :
    TunedTo (tuned device freq) asked ↔ asked < 3072000000 := by
  have near := decodedLo_near_iff device low
  unfold TunedTo
  rw [Int.cast_natCast]
  exact near

theorem commandedAsAsked_iff (answers : StreamAnswers) (dev : MsisdrAndroid) (device : OpenDevice)
    (parameter : UInt32) :
    CommandedAsAsked answers dev device parameter ↔ parameter.toNat < 3072000000 := by
  have small := parameter.toNat_lt
  have accepted : ¬ (msisdrSetCenterFreq device parameter).2 < 0 := by
    show ¬ (0 : ℤ) + 0 < 0
    decide
  have carried : (tcpCommandCallback answers { dev with miriDev := some device }
      ⟨0x01, parameter⟩).miriDev = some (tuned device parameter) := rfl
  rw [CommandedAsAsked, or_iff_right accepted, carried,
    ← tunedTo_tuned_iff device (Nat.mod_eq_of_lt small).symm]
  constructor
  · rintro ⟨device', same, near⟩
    rw [Option.some_inj.mp same]
    exact near
  · intro near
    exact ⟨_, rfl, near⟩

/-! ## `openAsync` -/

/-- The gain does not touch the registers of the frequency. -/
theorem msisdrSetGain_decodedLo (device : OpenDevice) :
    decodedLo (msisdrSetGain device).1.tuner = decodedLo device.tuner := by
  simp [decodedLo, msisdrSetGain]

theorem openGain_decodedLo (device : OpenDevice) (gain : Int32) :
    decodedLo (openGain device gain).tuner = decodedLo device.tuner := by
  unfold openGain
  split
  · rfl
  · simp only [msisdrSetTunerGainMode, msisdrSetTunerGain]
    split
    · exact msisdrSetGain_decodedLo _
    · split
      · rfl
      · exact msisdrSetGain_decodedLo _

/-- What the gain leaves of the stream. -/
theorem openGain_asyncStatus (device : OpenDevice) (gain : Int32) :
    (openGain device gain).dev.asyncStatus = device.dev.asyncStatus := by
  unfold openGain
  split
  · rfl
  · simp only [msisdrSetTunerGainMode, msisdrSetTunerGain]
    split
    · exact (tunerGainReductions_same _).2.2.2
    · split
      · rfl
      · exact (tunerGainReductions_same _).2.2.2

/-- The setters before the sample rate leave the stream alone. -/
theorem beforeRate_asyncStatus (answers : StreamAnswers) {device : OpenDevice}
    (inactive : device.dev.asyncStatus = .inactive) :
    (msisdrSetBandwidth (msisdrSetIfFreq (msisdrSetSampleFormat answers.calls device "AUTO").1
      0).1 8000000).1.dev.asyncStatus = .inactive := by
  have hard : (msisdrSetSampleFormat answers.calls device "AUTO").1 =
      programHard { device with dev := { device.dev with formatAuto := .on } } := by
    rw [msisdrSetSampleFormat, if_pos rfl, msisdrSetHard_of_idle]
    exact inactive
  rw [hard]
  exact inactive

theorem openSampleRate_of_inactive (answers : StreamAnswers) {device : OpenDevice}
    (samplingrate : Int64) (inactive : device.dev.asyncStatus = .inactive) :
    openSampleRate answers device samplingrate =
      if samplingrate < 0 then .error .wrongArgs
      else .ok (programHard
        { device with dev := { device.dev with rate := asUInt32 samplingrate } }) := by
  rw [openSampleRate, msisdrSetSampleRate, msisdrSetHard_of_idle]
  · rfl
  · exact inactive

/-- A frequency that is not negative is tuned to its low 32 bits. -/
theorem openFrequency_eq (device : OpenDevice) (frequency : Int64) :
    openFrequency device frequency =
      if frequency < 0 then .error .wrongArgs else .ok (tuned device (asUInt32 frequency)) := by
  have accepted : ¬ (msisdrSetCenterFreq device (asUInt32 frequency)).2 < 0 := by
    show ¬ (0 : ℤ) + 0 < 0
    decide
  rw [openFrequency]
  split
  · rfl
  · exact if_neg accepted

/-- The gain and the buffers, after the frequency. -/
theorem openEnd_of_inactive (answers : StreamAnswers) {device : OpenDevice} (gain : Int32)
    (inactive : device.dev.asyncStatus = .inactive) :
    (msisdrResetBuffer answers (openGain device gain)).1 = openGain device gain :=
  msisdrResetBuffer_of_inactive answers ((openGain_asyncStatus device gain).trans inactive)

/-- **What `openAsync` does with a device without a stream.** It tunes to the low 32 bits of a
frequency that is not negative. -/
theorem openAsync_cases (answers : StreamAnswers) {device : OpenDevice} (args : OpenArgs)
    (inactive : device.dev.asyncStatus = .inactive) :
    (args.samplingrate < 0 ∨ args.frequency < 0) ∧
        openAsync answers device args = .error .wrongArgs ∨
      ¬ args.samplingrate < 0 ∧ ¬ args.frequency < 0 ∧
        ∃ before, openAsync answers device args =
          .ok (openGain (tuned before (asUInt32 args.frequency)) args.gain) := by
  have quiet := beforeRate_asyncStatus answers inactive
  unfold openAsync
  simp only [msisdrSetFreqCorrection, apply_ite Prod.fst, ite_self, openFrequency_eq]
  rw [openSampleRate_of_inactive answers args.samplingrate quiet]
  generalize (msisdrSetBandwidth _ 8000000).1 = device at quiet ⊢
  generalize limited : programHard
    { device with dev := { device.dev with rate := asUInt32 args.samplingrate } } = before
  have idle : before.dev.asyncStatus = .inactive := by
    rw [← limited]
    exact quiet
  by_cases rate : args.samplingrate < 0
  · refine .inl ⟨.inl rate, ?_⟩
    rw [if_pos rate]
    rfl
  · rw [if_neg rate]
    by_cases frequency : args.frequency < 0
    · refine .inl ⟨.inr frequency, ?_⟩
      simp only [if_pos frequency]
      rfl
    · refine .inr ⟨rate, frequency, before, ?_⟩
      simp only [if_neg frequency]
      exact congrArg Except.ok (openEnd_of_inactive answers args.gain idle)

/-- The low 32 bits of a frequency that is not negative. -/
theorem asUInt32_toNat {value : Int64} {asked : ℕ} (same : value.toInt = asked) :
    (asUInt32 value).toNat = asked % 2 ^ 32 := by
  have small := value.toBitVec.isLt
  have number : value.toUInt64.toNat = asked := by
    have signed : value.toBitVec.toInt = asked := same
    rw [BitVec.toInt_eq_toNat_cond] at signed
    show value.toBitVec.toNat = asked
    split at signed <;> omega
  rw [asUInt32, UInt64.toNat_toUInt32, number]

theorem openedAsAsked_iff (answers : StreamAnswers) {device : OpenDevice} (args : OpenArgs)
    (inactive : device.dev.asyncStatus = .inactive) :
    OpenedAsAsked answers device args ↔
      args.samplingrate < 0 ∨ args.frequency.toInt < 3072000000 := by
  unfold OpenedAsAsked
  rcases openAsync_cases answers args inactive with
    ⟨rejected, opened⟩ | ⟨rate, frequency, before, opened⟩
  · rw [opened]
    refine iff_of_true trivial ?_
    rcases rejected with rate | negative
    · exact .inl rate
    · have sign : args.frequency.toInt < 0 := Int64.lt_iff_toInt_lt.mp negative
      exact .inr (by omega)
  · have sign : ¬ args.frequency.toInt < 0 := fun negative =>
      frequency (Int64.lt_iff_toInt_lt.mpr negative)
    obtain ⟨asked, value⟩ := Int.eq_ofNat_of_zero_le (Int.not_lt.mp sign)
    have near := tunedTo_tuned_iff before (asUInt32_toNat value)
    rw [opened, or_iff_right rate]
    show TunedTo _ _ ↔ _
    unfold TunedTo at near ⊢
    rw [value, openGain_decodedLo, near]
    omega

/-! ## Every request -/

/-- **A frequency above the range is folded into it.** `openAsync` takes 4384.967296 MHz for
90 MHz, and on `TCP_SET_FREQ` with 3200 MHz the tuner is left at 128 MHz; neither is refused. -/
theorem frequency_folded :
    ¬ OpenedAsAsked ⟨[], true, .paused⟩
        (msisdrSetup (StreamAnswers.calls ⟨[], true, .paused⟩) 0x2500 .bulk)
        ⟨0, 2000000, 4384967296, 0⟩ ∧
      ¬ CommandedAsAsked ⟨[], true, .paused⟩ ⟨none, false, true, 0, 0⟩
        (msisdrSetup (StreamAnswers.calls ⟨[], true, .paused⟩) 0x2500 .bulk) 3200000000 := by
  constructor
  · rw [openedAsAsked_iff _ _ (msisdrSetup_programmed _ _ _).idle]
    decide
  · rw [commandedAsAsked_iff]
    decide

/-- **What was asked for is tuned exactly below 3072 MHz.** `openAsync` fails in addition when the
sample rate is negative. -/
theorem tuned_as_asked_iff (answers : StreamAnswers) :
    (∀ (pid : UInt16) (transfer : Transfer) (args : OpenArgs),
      OpenedAsAsked answers (msisdrSetup answers.calls pid transfer) args ↔
        args.samplingrate < 0 ∨ args.frequency.toInt < 3072000000) ∧
      ∀ (dev : MsisdrAndroid) (device : OpenDevice) (parameter : UInt32),
        CommandedAsAsked answers dev device parameter ↔ parameter.toNat < 3072000000 := by
  refine ⟨?_, fun dev device parameter => commandedAsAsked_iff answers dev device parameter⟩
  intro pid transfer args
  exact openedAsAsked_iff answers args
    (msisdrSetup_programmed answers.calls pid transfer).idle

end MsiSdrDriver.Server
