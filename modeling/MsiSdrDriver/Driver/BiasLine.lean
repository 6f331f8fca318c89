import Mathlib.Tactic.IntervalCases
import MsiSdrDriver.Driver.DecodedFrequency

/-!
# The line of the bias tee

Chip register 8 has two writers. `msisdr_set_soft` chooses its word from the frequency plan, and
`msisdr_set_bias` has a bit of it set for the bias tee. Both go through `update_reg_8`, so that the
register always holds the row of the plan with the bias on top (`biasLine_iff`).

No row of the plan for SDRplay hardware has the bit. Three rows of the default plan do, from 12 to
30 MHz, from 108 to 250 MHz and from 960 MHz on (`DrivesBias`). Tuned there the line is on
whatever the bias, which `bias_line_follows_iff` turns into the exact condition on a run.
-/

set_option autoImplicit false

namespace MsiSdrDriver.Driver

/-! ## The line -/

/-- `BIAS_GPIO`. -/
def biasGpio : ℕ := 3

/-- The last word written to chip register 8 switches the bias tee on. -/
def OpenDevice.BiasLine (p : OpenDevice) : Prop :=
  ∃ word, p.chip 8 = some word ∧ word.getLsbD (biasGpio + 8) = true

/-! ## What the calls have set -/

/-- The flavour, the frequency and the bias that the calls so far have set. -/
structure Tuning where
  flavour : HwFlavour
  freq : UInt32
  bias : ℤ

/-- What a call sets. -/
def Tuning.call (t : Tuning) : Setter → Tuning
  | .centerFreq freq => { t with freq := freq }
  | .hwFlavour flavour => { t with flavour := flavour }
  | .bias bias => { t with bias := bias }
  | _ => t

/-- What is set before the first call: 90 MHz and no bias. -/
def Tuning.setup (pid : UInt16) : Tuning where
  flavour := if pid = 0x3000 ∨ pid = 0x3010 then .sdrplay else .hwDefault
  freq := 90000000
  bias := 0

/-- What is set after calls: the arguments of the last of each kind. -/
def Tuning.last (pid : UInt16) (calls : List Setter) : Tuning :=
  calls.foldl Tuning.call (Tuning.setup pid)

/-- The same of the configuration. -/
def MsisdrDev.tuning (p : MsisdrDev) : Tuning where
  flavour := p.hwFlavour
  freq := p.freq
  bias := p.bias

theorem tuning_of_softFields {p q : MsisdrDev} (soft : softFields q = softFields p) :
    q.tuning = p.tuning := by
  simp only [softFields, Prod.mk.injEq] at soft
  obtain ⟨flavour, freq, -, -, -, -, bias⟩ := soft
  simp only [MsisdrDev.tuning, flavour, freq, bias]

/-- **A call sets what it says** on a device without a stream. -/
theorem callSetter_tuning (stream : StreamCalls) {p : OpenDevice}
    (idle : p.dev.asyncStatus = .inactive) (setter : Setter) :
    (callSetter stream p setter).1.dev.tuning = p.dev.tuning.call setter := by
  cases setter with
  | ifFreq freq =>
      rw [callSetter, msisdrSetIfFreq]
      split
      · rfl
      · rfl
  | transfer v =>
      rw [callSetter, msisdrSetTransfer]
      split_ifs
      · rfl
      · rfl
      · rfl
  | tunerGain gain =>
      rw [callSetter, msisdrSetTunerGain]
      split_ifs
      · exact tuning_of_softFields (tunerGainReductions_same _).1
      · rfl
      · exact tuning_of_softFields (tunerGainReductions_same _).1
  | mixbufferGain gain =>
      rw [callSetter, msisdrSetMixbufferGain]
      split
      · rfl
      · rfl
  | sampleRate rate =>
      rw [callSetter, msisdrSetSampleRate, msisdrSetHard_of_idle]
      · rfl
      · exact idle
  | sampleFormat v =>
      rw [callSetter, msisdrSetSampleFormat]
      split
      · rw [msisdrSetHard_of_idle]
        · rfl
        · exact idle
      · split
        · rw [msisdrSetHard_of_idle]
          · rfl
          · exact idle
        · rfl
  | centerFreq freq => rfl
  | xtalFreq freq => rfl
  | bandwidth bw => rfl
  | freqCorrection ppm => rfl
  | directSampling on => rfl
  | offsetTuning on => rfl
  | bias bias => rfl
  | hwFlavour flavour => rfl
  | gain => rfl
  | tunerGainMode mode => rfl
  | mixerGain gain => rfl
  | lnaGain gain => rfl
  | basebandGain gain => rfl

theorem runSetters_tuning (stream : StreamCalls) {p : OpenDevice} (programmed : Programmed p)
    (setters : List Setter) :
    (runSetters stream p setters).dev.tuning = setters.foldl Tuning.call p.dev.tuning := by
  induction setters generalizing p with
  | nil => rfl
  | cons setter rest ih =>
      have next := ih (callSetter_programmed stream programmed setter)
      rw [callSetter_tuning stream programmed.idle] at next
      exact next

theorem msisdrSetup_tuning (stream : StreamCalls) (pid : UInt16) (transfer : Transfer) :
    (msisdrSetup stream pid transfer).dev.tuning = Tuning.setup pid := by
  rw [msisdrSetup, msisdrSetHard_of_idle stream rfl]
  rfl

/-! ## The rows of the plans -/

/-- **The selected row** begins at or below the frequency, and the next one above it. -/
theorem switchPlan_row (flavour : HwFlavour) (freq : UInt32) :
    ∃ i < 9, switchPlan flavour freq = planRow flavour i ∧
      1000000 * (planRow flavour i).lowCut ≤ freq ∧
      (i < 8 → freq < 1000000 * (planRow flavour (i + 1)).lowCut) := by
  obtain ⟨least, most⟩ := planIndex_range flavour freq
  have rows : ∀ i < 9, (hwSwitchFreqPlan flavour)[i]? = some (planRow flavour i) ∧
      0 ≤ (planRow flavour i).mode := by
    cases flavour <;> decide
  have passed : ∀ i, i < planIndex freq (hwSwitchFreqPlan flavour) 0 →
      1000000 * (planRow flavour i).lowCut ≤ freq := by
    intro i before
    exact planIndex_passed (rows i (by omega)).1 (i := 0) (by omega)
  refine ⟨planIndex freq (hwSwitchFreqPlan flavour) 0 - 1, by omega, rfl, passed _ (by omega), ?_⟩
  intro inner
  have next := rows (planIndex freq (hwSwitchFreqPlan flavour) 0) (by omega)
  rw [Nat.sub_add_cancel least]
  rcases planIndex_stopped next.1 (Nat.zero_add _).symm with below | untuned
  · exact below
  · omega

/-- The frequencies whose row of the default plan has the bit of the bias tee. -/
def DrivesBias (freq : UInt32) : Prop :=
  12000000 ≤ freq ∧ freq < 30000000 ∨ 108000000 ≤ freq ∧ freq < 250000000 ∨ 960000000 ≤ freq

/-- **Which rows have the bit.** -/
theorem bandSelectWord_bias_iff (flavour : HwFlavour) (freq : UInt32) :
    (switchPlan flavour freq).bandSelectWord.getLsbD (biasGpio + 8) = true ↔
      flavour = .hwDefault ∧ DrivesBias freq := by
  cases flavour with
  | sdrplay =>
      have free : ∀ plan ∈ (hwSwitchFreqPlan .sdrplay).take 9,
          plan.bandSelectWord.getLsbD (biasGpio + 8) = false := by decide
      rw [free _ (switchPlan_mem .sdrplay freq)]
      simp
  | hwDefault =>
      obtain ⟨i, small, selected, least, below⟩ := switchPlan_row .hwDefault freq
      rw [selected]
      simp only [DrivesBias, UInt32.le_iff_toNat_le, UInt32.lt_iff_toNat_lt] at least below ⊢
      interval_cases i <;>
        simp [planRow, hwSwitchFreqPlan, hwSwitchFreqPlanDefault, biasGpio] at least below ⊢ <;>
        omega

/-! ## The line over a run -/

/-- **The line is on** when the bias is, or the row of the plan has the bit. -/
theorem biasLine_iff {p : OpenDevice} (programmed : Programmed p) :
    p.BiasLine ↔
      p.dev.bias ≠ 0 ∨ p.dev.hwFlavour = .hwDefault ∧ DrivesBias p.dev.freq := by
  rw [← bandSelectWord_bias_iff, programmed.plan.switches, OpenDevice.BiasLine, programmed.chip8]
  by_cases bias : p.dev.bias = 0
  · simp [reg8Word, bias, biasGpio]
  · simp [reg8Word, bias, biasGpio]

/-- The line follows the bias after each of some calls on a device that has been set up. -/
def BiasLineFollows (stream : StreamCalls) (pid : UInt16) (transfer : Transfer)
    (setters : List Setter) : Prop :=
  ∀ calls, calls <+: setters →
    ((runSetters stream (msisdrSetup stream pid transfer) calls).BiasLine ↔
      (Tuning.last pid calls).bias ≠ 0)

/-- The setters that tune the device or switch the bias. -/
def Setter.Tunes : Setter → Prop
  | .centerFreq _ | .bandwidth _ | .ifFreq _ | .hwFlavour _ | .bias _ => True
  | _ => False

/-- **Tuning switches the antenna power on**: at 150 MHz the line is on without a bias. -/
theorem tuning_drives_bias_line :
    ¬∀ (stream : StreamCalls) (pid : UInt16) (transfer : Transfer) (setters : List Setter),
      (∀ setter ∈ setters, setter.Tunes) → BiasLineFollows stream pid transfer setters := by
  intro follows
  have tunes : ∀ setter ∈ [Setter.centerFreq 150000000], setter.Tunes := by
    intro setter member
    rw [List.mem_singleton.mp member]
    trivial
  have same := follows noStream 0x2500 .isoc [.centerFreq 150000000] tunes
    [.centerFreq 150000000] (List.prefix_refl _)
  have programmed := runSetters_programmed noStream (msisdrSetup_programmed noStream 0x2500 .isoc)
    [.centerFreq 150000000]
  have drives : DrivesBias 150000000 := .inr (.inl (by decide))
  exact same.mp ((biasLine_iff programmed).mpr (.inr ⟨rfl, drives⟩)) rfl

/-- **The line follows the bias over a run** exactly when, after each call, the bias is on, the
hardware is an SDRplay, or the frequency is in a row of the default plan without the bit. -/
theorem bias_line_follows_iff (stream : StreamCalls) (pid : UInt16) (transfer : Transfer)
    (setters : List Setter) :
    BiasLineFollows stream pid transfer setters ↔
      ∀ calls, calls <+: setters → (Tuning.last pid calls).bias ≠ 0 ∨
        (Tuning.last pid calls).flavour = .sdrplay ∨ ¬DrivesBias (Tuning.last pid calls).freq := by
  refine forall_congr' fun calls => imp_congr_right fun _ => ?_
  have programmed :=
    runSetters_programmed stream (msisdrSetup_programmed stream pid transfer) calls
  have tuning : (runSetters stream (msisdrSetup stream pid transfer) calls).dev.tuning =
      Tuning.last pid calls := by
    rw [runSetters_tuning stream (msisdrSetup_programmed stream pid transfer), msisdrSetup_tuning]
    rfl
  rw [biasLine_iff programmed, ← tuning]
  generalize (runSetters stream (msisdrSetup stream pid transfer) calls).dev = dev
  simp only [MsisdrDev.tuning]
  cases dev.hwFlavour with
  | sdrplay => simp
  | hwDefault =>
      simp only [true_and, reduceCtorEq, false_or]
      tauto

end MsiSdrDriver.Driver
