import MsiSdrDriver.Driver.RegisterCoherence

/-!
# Bandwidth and its history

What one bandwidth request leaves to the next one. `msisdr_set_bandwidth` always stores the
bandwidth, but the intermediate frequency in some branches only: below 600 kHz it is 450 kHz, up
to 1536 kHz and from 5 Msps on it is 1620 kHz, and else it stays what it was. A request that
leaves it alone inherits it from the request before, so that widening the filter after a narrow
setting keeps the narrow intermediate frequency.

The tuner depends on the history through that field only: `softAndGain` writes every tuner
register that it knows of (`softAndGain_tuner`), and a second program hides the first
(`programTuner_again`). `last_bandwidth_wins_iff` says exactly when the last request wins.
-/

set_option autoImplicit false

namespace MsiSdrDriver.Driver

/-! ## What the tuner holds -/

/-- The tuner after `msisdr_set_soft` and `msisdr_set_gain`, from what it held before. -/
def programTuner (p : MsisdrDev) (before : BitVec 4 → Option (BitVec 24)) (k : BitVec 4) :
    Option (BitVec 24) :=
  if 6 = k then some (gainReg6.setWidth 24)
  else if 1 = k then some ((gainReg1 p).setWidth 24)
  else if 0xd = k then some ((softRegd p).setWidth 24)
  else if 2 = k then some ((softReg2 p).setWidth 24)
  else if 5 = k then some ((softReg5 p).setWidth 24)
  else if 0 = k then some ((softReg0 p).setWidth 24)
  else if 3 = k then some ((softReg3 p).setWidth 24)
  else if 0xe = k then some 0xe
  else before k

theorem softAndGain_tuner (p : OpenDevice) :
    (softAndGain p).1.tuner = programTuner (softAndGain p).1.dev p.tuner := by
  funext k
  simp [softAndGain, msisdrSetSoft, msisdrSetGain, updateReg8, programTuner]

/-- **A second program hides the first one.** -/
theorem programTuner_again (p q : MsisdrDev) (before : BitVec 4 → Option (BitVec 24)) :
    programTuner p (programTuner q before) = programTuner p before := by
  funext k
  simp only [programTuner]
  split_ifs <;> rfl

/-- The fields that the words depend on decide the program. -/
theorem programTuner_of_fields {p q : MsisdrDev} (soft : softFields q = softFields p)
    (gain : gainFields q = gainFields p) : programTuner q = programTuner p := by
  obtain ⟨reg0, reg2, reg3, reg5, regd, -⟩ := softWords_of_fields soft
  funext before k
  simp only [programTuner, reg0, reg2, reg3, reg5, regd, gainReg1_of_fields gain]

/-! ## The intermediate frequency -/

/-- A bandwidth for which `msisdr_set_bandwidth` stores an intermediate frequency. -/
def StoresIfFreq (p : MsisdrDev) (bw : UInt32) : Prop :=
  bw ≤ 600000 ∨ bw ≤ 1536000 ∧ 5000000 ≤ p.rate

/-- A bandwidth that leaves the intermediate frequency as it is, or stores the same one. -/
def KeepsIfFreq (p : MsisdrDev) (bw : UInt32) : Prop :=
  (bw ≤ 600000 → p.ifFreq = .if450kHz) ∧
    (600000 < bw → bw ≤ 1536000 → 5000000 ≤ p.rate → p.ifFreq = .if1620kHz)

/-- The cascade of the source, as one decision. -/
theorem bandwidthIfFreq_eq (p : MsisdrDev) (bw : UInt32) :
    bandwidthIfFreq p bw =
      if bw ≤ 600000 then .if450kHz
      else if bw ≤ 1536000 ∧ 5000000 ≤ p.rate then .if1620kHz
      else p.ifFreq := by
  by_cases narrow : bw ≤ 600000
  · simp only [bandwidthIfFreq, narrow, if_true, ite_self]
  · have below : ∀ limit : UInt32, limit ≤ 600000 → ¬bw ≤ limit :=
      fun limit small inside => narrow (UInt32.le_trans inside small)
    simp only [bandwidthIfFreq, narrow, below 300000 (by decide), below 200000 (by decide),
      if_false, ite_and]

/-- **Where the last request decides**, or the one before changed nothing, the intermediate
frequency is the last request's. -/
theorem bandwidthIfFreq_again_iff (p : MsisdrDev) (a b : UInt32) :
    bandwidthIfFreq { p with bandwidth := bandwidthOf a, ifFreq := bandwidthIfFreq p a } b =
        bandwidthIfFreq p b ↔
      StoresIfFreq p b ∨ KeepsIfFreq p a := by
  simp only [bandwidthIfFreq_eq, StoresIfFreq]
  by_cases narrow : b ≤ 600000
  · simp only [narrow, if_true, true_or]
  by_cases middle : b ≤ 1536000 ∧ 5000000 ≤ p.rate
  · simp only [middle, narrow, and_self, if_true, if_false, or_true, true_or]
  -- the last request stores nothing, so the field is what the one before left
  simp only [narrow, middle, if_false, or_self, false_or, KeepsIfFreq]
  by_cases low : a ≤ 600000
  · have notHigh : ¬600000 < a := UInt32.not_lt.mpr low
    simp only [low, notHigh, if_true, true_imp_iff, false_imp_iff, and_true, eq_comm]
  · have high : 600000 < a := UInt32.not_le.mp low
    simp only [low, high, if_false, true_imp_iff, false_imp_iff, true_and]
    by_cases stores : a ≤ 1536000 ∧ 5000000 ≤ p.rate
    · simp only [stores, and_self, if_true, true_imp_iff, eq_comm]
    · simp only [stores, if_false, true_iff]
      intro below fast
      exact absurd ⟨below, fast⟩ stores

/-! ## Two requests -/

/-- The device after `msisdr_set_bandwidth`. -/
def banded (p : OpenDevice) (bw : UInt32) : OpenDevice := (msisdrSetBandwidth p bw).1

/-- The last of two requests leaves the device as if it were the only one: the fields for the
bandwidth and the intermediate frequency, and the registers of the tuner. -/
structure LastBandwidthWins (p : OpenDevice) (a b : UInt32) : Prop where
  bandwidth : (banded (banded p a) b).dev.bandwidth = (banded p b).dev.bandwidth
  ifFreq : (banded (banded p a) b).dev.ifFreq = (banded p b).dev.ifFreq
  tuner : (banded (banded p a) b).tuner = (banded p b).tuner

/-- **The last bandwidth request wins** exactly when it stores an intermediate frequency, or the
request before left the one there was. -/
theorem last_bandwidth_wins_iff (p : OpenDevice) (a b : UInt32) :
    LastBandwidthWins p a b ↔ StoresIfFreq p.dev b ∨ KeepsIfFreq p.dev a := by
  rw [← bandwidthIfFreq_again_iff]
  constructor
  · intro wins
    exact wins.ifFreq
  · intro same
    refine ⟨rfl, same, ?_⟩
    have twice : (banded (banded p a) b).tuner =
        programTuner (banded (banded p a) b).dev p.tuner := by
      rw [banded, msisdrSetBandwidth, softAndGain_tuner, OpenDevice.tuner_configure, banded,
        msisdrSetBandwidth, softAndGain_tuner, OpenDevice.tuner_configure, programTuner_again]
    have once : (banded p b).tuner = programTuner (banded p b).dev p.tuner := by
      rw [banded, msisdrSetBandwidth, softAndGain_tuner, OpenDevice.tuner_configure]
    rw [twice, once]
    refine congrFun (programTuner_of_fields ?_ ?_) p.tuner
    · simp only [softFields, Prod.mk.injEq]
      exact ⟨rfl, rfl, same, rfl, rfl, rfl, rfl⟩
    · simp only [gainFields, Prod.mk.injEq]
      exact ⟨bandAfter_again _ _, rfl, rfl, rfl, rfl⟩

/-- A request for 200 kHz and one for 8 MHz on a device that has just been set up: the
intermediate frequency stays at 450 kHz, and was zero. -/
theorem narrow_if_remains :
    ¬∀ (stream : StreamCalls) (pid : UInt16) (transfer : Transfer) (setters : List Setter)
      (a b : UInt32),
      LastBandwidthWins (runSetters stream (msisdrSetup stream pid transfer) setters) a b := by
  intro wins
  have same := (wins noStream 0x2500 .isoc [] 200000 8000000).ifFreq
  have frequencies : IfFreq.if450kHz = IfFreq.zero := same
  cases frequencies

end MsiSdrDriver.Driver
