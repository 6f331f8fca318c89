import MsiSdrDriver.Foundations.WriteLog
import MsiSdrDriver.Driver.Setters

/-!
# Register coherence

The registers cannot be read back, so a register holds what was last written to it. Three
writers program them: `msisdr_set_soft` the tuner registers 0, 2, 3, 5 and 0xd and chip
register 8, `msisdr_set_gain` the tuner registers 1 and 6, `msisdr_set_hard` chip registers 3,
4 and 7. Each leaves its own registers with the encoding of the configuration and the other
registers alone, and a setter that changes a field calls the writers of the registers that
encode it.

Only the band takes an argument. It is encoded by register 1, which `msisdr_set_gain` writes,
and stored by `msisdr_set_soft`: a setter that does not restore the gain must not move the
band. `msisdr_set_offset_tuning` changes neither the frequency nor the flavour, and the band
is already the one that these select (`Programmed.band`).

`registers_coherent` is the result, for every sequence of calls after `msisdr_setup`.
-/

set_option autoImplicit false

namespace MsiSdrDriver.Driver

open Foundations

/-! ## What the hardware holds -/

/-- The chip register that a transfer writes, if it writes one. -/
def CtrlTransfer.chipTarget (transfer : CtrlTransfer) : Option (BitVec 8) :=
  if transfer.request = cmdWreg then some transfer.reg else none

/-- The tuner register that a transfer writes through chip register 9. -/
def CtrlTransfer.tunerTarget (transfer : CtrlTransfer) : Option (BitVec 4) :=
  if transfer.request = cmdWreg ∧ transfer.reg = 0x09 then some (transfer.word.setWidth 4)
  else none

/-- The last word written to a chip register. -/
def OpenDevice.chip (p : OpenDevice) : BitVec 8 → Option (BitVec 24) :=
  lastWrite CtrlTransfer.chipTarget CtrlTransfer.word p.sent

/-- The last word written to a tuner register. -/
def OpenDevice.tuner (p : OpenDevice) : BitVec 4 → Option (BitVec 24) :=
  lastWrite CtrlTransfer.tunerTarget CtrlTransfer.word p.sent

@[simp] theorem OpenDevice.write_dev (p : OpenDevice) (reg : BitVec 8) (val : BitVec 32) :
    (p.write reg val).dev = p.dev := rfl

@[simp] theorem OpenDevice.chip_configure (p : OpenDevice) (dev : MsisdrDev) :
    (OpenDevice.mk dev p.sent).chip = p.chip := rfl

@[simp] theorem OpenDevice.tuner_configure (p : OpenDevice) (dev : MsisdrDev) :
    (OpenDevice.mk dev p.sent).tuner = p.tuner := rfl

theorem msisdrWriteReg_chipTarget (reg : BitVec 8) (val : BitVec 32) :
    (msisdrWriteReg reg val).chipTarget = some reg := by
  rw [CtrlTransfer.chipTarget, msisdrWriteReg_reg]
  exact if_pos rfl

theorem msisdrWriteReg_tunerTarget (reg : BitVec 8) (val : BitVec 32) :
    (msisdrWriteReg reg val).tunerTarget = if reg = 0x09 then some (val.setWidth 4) else none := by
  rw [CtrlTransfer.tunerTarget, msisdrWriteReg_reg, msisdrWriteReg_word,
    BitVec.setWidth_setWidth_of_le val (by decide)]
  simp [msisdrWriteReg]

/-- A write of a chip register changes that register only. -/
@[simp] theorem OpenDevice.chip_write (p : OpenDevice) (reg : BitVec 8) (val : BitVec 32)
    (k : BitVec 8) :
    (p.write reg val).chip k = if reg = k then some (val.setWidth 24) else p.chip k := by
  rw [OpenDevice.chip, OpenDevice.write, lastWrite_concat, msisdrWriteReg_chipTarget,
    msisdrWriteReg_word]
  simp [OpenDevice.chip]

/-- A write of chip register 9 changes the tuner register that the word selects; no other write
reaches the tuner. -/
@[simp] theorem OpenDevice.tuner_write (p : OpenDevice) (reg : BitVec 8) (val : BitVec 32)
    (k : BitVec 4) :
    (p.write reg val).tuner k =
      if reg = 0x09 ∧ val.setWidth 4 = k then some (val.setWidth 24) else p.tuner k := by
  rw [OpenDevice.tuner, OpenDevice.write, lastWrite_concat, msisdrWriteReg_tunerTarget,
    msisdrWriteReg_word]
  simp [OpenDevice.tuner]

/-! ## The register numbers in the tuner words -/

@[simp] theorem planBits_number (plan : HwSwitchFreqPlan) :
    (planBits plan).setWidth 4 = 0 := by
  rw [planBits]
  split
  · simp
  · simp

@[simp] theorem softReg0_number (p : MsisdrDev) : (softReg0 p).setWidth 4 = 0 := by
  simp [softReg0]

@[simp] theorem softReg2_number (p : MsisdrDev) : (softReg2 p).setWidth 4 = 2 := by
  simp [softReg2]

@[simp] theorem softReg3_number (p : MsisdrDev) : (softReg3 p).setWidth 4 = 3 := by
  simp [softReg3]

@[simp] theorem softReg5_number (p : MsisdrDev) : (softReg5 p).setWidth 4 = 5 := by
  simp [softReg5]

@[simp] theorem softRegd_number (p : MsisdrDev) : (softRegd p).setWidth 4 = 0xd := by
  rw [softRegd]
  split
  · decide
  · decide

@[simp] theorem gainReg1_number (p : MsisdrDev) : (gainReg1 p).setWidth 4 = 1 := by
  simp [gainReg1]

@[simp] theorem gainReg6_number : gainReg6.setWidth 4 = 6 := by decide

/-! ## Coherence -/

/-- The registers of `msisdr_set_soft` hold the encoding of the configuration. -/
structure SoftCoherent (p : OpenDevice) : Prop where
  tuner0 : p.tuner 0 = some ((softReg0 p.dev).setWidth 24)
  tuner2 : p.tuner 2 = some ((softReg2 p.dev).setWidth 24)
  tuner3 : p.tuner 3 = some ((softReg3 p.dev).setWidth 24)
  tuner5 : p.tuner 5 = some ((softReg5 p.dev).setWidth 24)
  tunerd : p.tuner 0xd = some ((softRegd p.dev).setWidth 24)
  chip8 : p.chip 8 = some ((reg8Word p.dev).setWidth 24)

/-- The register of `msisdr_set_gain` holds the encoding of the configuration. -/
structure GainCoherent (p : OpenDevice) : Prop where
  tuner1 : p.tuner 1 = some ((gainReg1 p.dev).setWidth 24)

/-- The registers of `msisdr_set_hard` hold the encoding of the configuration. -/
structure HardCoherent (p : OpenDevice) : Prop where
  chip3 : p.chip 3 = some ((hardReg3 p.dev).setWidth 24)
  chip4 : p.chip 4 = some ((hardReg4 p.dev).setWidth 24)
  chip7 : p.chip 7 = some ((formatWord p.dev.format).setWidth 24)

/-- **Register coherence.** Every register holds the encoding of the configuration. -/
structure RegistersCoherent (p : OpenDevice) : Prop extends
  SoftCoherent p, GainCoherent p, HardCoherent p

/-! ## The fields that the registers encode -/

/-- The fields that the registers of `msisdr_set_soft` encode. -/
def softFields (p : MsisdrDev) : HwFlavour × UInt32 × IfFreq × Bandwidth × Xtal × BitVec 32 × ℤ :=
  (p.hwFlavour, p.freq, p.ifFreq, p.bandwidth, p.xtal, p.reg8, p.bias)

/-- The fields that the register of `msisdr_set_gain` encodes. -/
def gainFields (p : MsisdrDev) : Band × ℤ × ℤ × ℤ × ℤ :=
  (p.band, p.gainReductionBaseband, p.gainReductionMixbuffer, p.gainReductionMixer,
    p.gainReductionLna)

/-- The fields that the registers of `msisdr_set_hard` encode. -/
def hardFields (p : MsisdrDev) : UInt32 × Format := (p.rate, p.format)

theorem OpenDevice.tuner_of_sent {p q : OpenDevice} (sent : q.sent = p.sent) :
    q.tuner = p.tuner := by
  rw [OpenDevice.tuner, sent, OpenDevice.tuner]

theorem OpenDevice.chip_of_sent {p q : OpenDevice} (sent : q.sent = p.sent) :
    q.chip = p.chip := by
  rw [OpenDevice.chip, sent, OpenDevice.chip]

/-- The fields decide the words of `msisdr_set_soft`. -/
theorem softWords_of_fields {p q : MsisdrDev} (fields : softFields q = softFields p) :
    softReg0 q = softReg0 p ∧ softReg2 q = softReg2 p ∧ softReg3 q = softReg3 p ∧
      softReg5 q = softReg5 p ∧ softRegd q = softRegd p ∧ reg8Word q = reg8Word p := by
  simp only [softFields, Prod.mk.injEq] at fields
  obtain ⟨flavour, freq, ifFreq, bandwidth, xtal, reg8, bias⟩ := fields
  refine ⟨?_, ?_, ?_, ?_, ?_, ?_⟩
  · simp only [softReg0, flavour, freq, ifFreq, bandwidth, xtal]
  · simp only [softReg2, flavour, freq]
  · simp only [softReg3, flavour, freq]
  · simp only [softReg5, flavour, freq]
  · simp only [softRegd, bandwidth]
  · simp only [reg8Word, reg8, bias]

/-- The fields decide the word of `msisdr_set_gain`. -/
theorem gainReg1_of_fields {p q : MsisdrDev} (fields : gainFields q = gainFields p) :
    gainReg1 q = gainReg1 p := by
  simp only [gainFields, Prod.mk.injEq] at fields
  obtain ⟨band, baseband, mixbuffer, mixer, lna⟩ := fields
  simp only [gainReg1, mixbufferBits, lnaBits, band, baseband, mixbuffer, mixer, lna]

theorem SoftCoherent.of_fields {p q : OpenDevice} (coherent : SoftCoherent p)
    (sent : q.sent = p.sent) (fields : softFields q.dev = softFields p.dev) : SoftCoherent q := by
  obtain ⟨reg0, reg2, reg3, reg5, regd, reg8⟩ := softWords_of_fields fields
  constructor
  · rw [OpenDevice.tuner_of_sent sent, coherent.tuner0, reg0]
  · rw [OpenDevice.tuner_of_sent sent, coherent.tuner2, reg2]
  · rw [OpenDevice.tuner_of_sent sent, coherent.tuner3, reg3]
  · rw [OpenDevice.tuner_of_sent sent, coherent.tuner5, reg5]
  · rw [OpenDevice.tuner_of_sent sent, coherent.tunerd, regd]
  · rw [OpenDevice.chip_of_sent sent, coherent.chip8, reg8]

theorem GainCoherent.of_fields {p q : OpenDevice} (coherent : GainCoherent p)
    (sent : q.sent = p.sent) (fields : gainFields q.dev = gainFields p.dev) : GainCoherent q := by
  constructor
  rw [OpenDevice.tuner_of_sent sent, coherent.tuner1, gainReg1_of_fields fields]

theorem HardCoherent.of_fields {p q : OpenDevice} (coherent : HardCoherent p)
    (sent : q.sent = p.sent) (fields : hardFields q.dev = hardFields p.dev) : HardCoherent q := by
  simp only [hardFields, Prod.mk.injEq] at fields
  obtain ⟨rate, format⟩ := fields
  constructor
  · rw [OpenDevice.chip_of_sent sent, coherent.chip3]
    simp only [hardReg3, rate, format]
  · rw [OpenDevice.chip_of_sent sent, coherent.chip4]
    simp only [hardReg4, rate]
  · rw [OpenDevice.chip_of_sent sent, coherent.chip7, format]

/-! ## The writers -/

@[simp] theorem updateReg8_dev (p : OpenDevice) : (updateReg8 p).dev = p.dev := rfl

theorem msisdrSetSoft_dev (p : OpenDevice) :
    (msisdrSetSoft p).1.dev =
      { p.dev with
        band := bandAfter (switchPlan p.dev.hwFlavour p.dev.freq) p.dev.band
        reg8 := (switchPlan p.dev.hwFlavour p.dev.freq).bandSelectWord } := rfl

/-- `msisdr_set_soft` leaves its registers coherent, whatever they held. -/
theorem msisdrSetSoft_soft (p : OpenDevice) : SoftCoherent (msisdrSetSoft p).1 := by
  constructor
  · simp [msisdrSetSoft, updateReg8]
  · simp [msisdrSetSoft, updateReg8]
  · simp [msisdrSetSoft, updateReg8]
  · simp [msisdrSetSoft, updateReg8]
  · simp [msisdrSetSoft, updateReg8]
  · simp [msisdrSetSoft, updateReg8]

theorem msisdrSetSoft_tuner1 (p : OpenDevice) : (msisdrSetSoft p).1.tuner 1 = p.tuner 1 := by
  simp [msisdrSetSoft, updateReg8]

theorem msisdrSetSoft_chip (p : OpenDevice) {k : BitVec 8} (tuner : 9#8 ≠ k)
    (switches : 8#8 ≠ k) : (msisdrSetSoft p).1.chip k = p.chip k := by
  simp [msisdrSetSoft, updateReg8, tuner, switches]

/-- It keeps the gain register coherent when it keeps the band. -/
theorem msisdrSetSoft_gain {p : OpenDevice} (coherent : GainCoherent p)
    (band : bandAfter (switchPlan p.dev.hwFlavour p.dev.freq) p.dev.band = p.dev.band) :
    GainCoherent (msisdrSetSoft p).1 := by
  constructor
  rw [msisdrSetSoft_tuner1, coherent.tuner1, msisdrSetSoft_dev, band]
  rfl

theorem msisdrSetSoft_hard {p : OpenDevice} (coherent : HardCoherent p) :
    HardCoherent (msisdrSetSoft p).1 := by
  constructor
  · rw [msisdrSetSoft_chip p (by decide) (by decide), coherent.chip3]
    rfl
  · rw [msisdrSetSoft_chip p (by decide) (by decide), coherent.chip4]
    rfl
  · rw [msisdrSetSoft_chip p (by decide) (by decide), coherent.chip7]
    rfl

/-- `msisdr_set_gain` leaves its register coherent, whatever it held. -/
theorem msisdrSetGain_gain (p : OpenDevice) : GainCoherent (msisdrSetGain p).1 := by
  constructor
  simp [msisdrSetGain]

theorem msisdrSetGain_soft {p : OpenDevice} (coherent : SoftCoherent p) :
    SoftCoherent (msisdrSetGain p).1 := by
  constructor
  · simpa [msisdrSetGain] using coherent.tuner0
  · simpa [msisdrSetGain] using coherent.tuner2
  · simpa [msisdrSetGain] using coherent.tuner3
  · simpa [msisdrSetGain] using coherent.tuner5
  · simpa [msisdrSetGain] using coherent.tunerd
  · simpa [msisdrSetGain] using coherent.chip8

theorem msisdrSetGain_hard {p : OpenDevice} (coherent : HardCoherent p) :
    HardCoherent (msisdrSetGain p).1 := by
  constructor
  · simpa [msisdrSetGain] using coherent.chip3
  · simpa [msisdrSetGain] using coherent.chip4
  · simpa [msisdrSetGain] using coherent.chip7

/-- `msisdr_set_hard` leaves its registers coherent, whatever they held. -/
theorem programHard_hard (p : OpenDevice) : HardCoherent (programHard p) := by
  constructor
  · simp [programHard]
  · simp [programHard]
  · simp [programHard]

theorem programHard_tuner (p : OpenDevice) : (programHard p).tuner = p.tuner := by
  funext k
  simp [programHard]

theorem programHard_chip8 (p : OpenDevice) : (programHard p).chip 8 = p.chip 8 := by
  simp [programHard]

theorem programHard_soft {p : OpenDevice} (coherent : SoftCoherent p) :
    SoftCoherent (programHard p) := by
  constructor
  · rw [programHard_tuner]
    exact coherent.tuner0
  · rw [programHard_tuner]
    exact coherent.tuner2
  · rw [programHard_tuner]
    exact coherent.tuner3
  · rw [programHard_tuner]
    exact coherent.tuner5
  · rw [programHard_tuner]
    exact coherent.tunerd
  · rw [programHard_chip8]
    exact coherent.chip8

theorem programHard_gain {p : OpenDevice} (coherent : GainCoherent p) :
    GainCoherent (programHard p) := by
  constructor
  rw [programHard_tuner]
  exact coherent.tuner1

/-! ## The setters -/

theorem bandAfter_again (plan : HwSwitchFreqPlan) (band : Band) :
    bandAfter plan (bandAfter plan band) = bandAfter plan band := by
  simp only [bandAfter]
  split_ifs <;> rfl

/-- The band and the band switches are those that the frequency and the flavour select. -/
structure PlanStored (p : MsisdrDev) : Prop where
  band : bandAfter (switchPlan p.hwFlavour p.freq) p.band = p.band
  switches : (switchPlan p.hwFlavour p.freq).bandSelectWord = p.reg8

theorem PlanStored.of_fields {p q : MsisdrDev} (stored : PlanStored p)
    (fields : softFields q = softFields p) (band : q.band = p.band) : PlanStored q := by
  simp only [softFields, Prod.mk.injEq] at fields
  obtain ⟨flavour, freq, -, -, -, reg8, -⟩ := fields
  constructor
  · rw [flavour, freq, band, stored.band]
  · rw [flavour, freq, reg8, stored.switches]

/-- `msisdr_set_soft` stores the plan. -/
theorem msisdrSetSoft_plan (p : OpenDevice) : PlanStored (msisdrSetSoft p).1.dev where
  band := bandAfter_again _ _
  switches := rfl

/-- What every call of a setter preserves. No stream runs. -/
structure Programmed (p : OpenDevice) : Prop extends RegistersCoherent p where
  plan : PlanStored p.dev
  idle : p.dev.asyncStatus = .inactive

/-- After `msisdr_set_soft` and `msisdr_set_gain` only the registers of `msisdr_set_hard` depend
on what was before. -/
theorem softAndGain_programmed {p : OpenDevice} (hard : HardCoherent p)
    (idle : p.dev.asyncStatus = .inactive) : Programmed (msisdrSetGain (msisdrSetSoft p).1).1 where
  toSoftCoherent := msisdrSetGain_soft (msisdrSetSoft_soft p)
  toGainCoherent := msisdrSetGain_gain _
  toHardCoherent := msisdrSetGain_hard (msisdrSetSoft_hard hard)
  plan := msisdrSetSoft_plan p
  idle := idle

/-- Fields of `msisdr_set_soft` may change before it and `msisdr_set_gain`. -/
theorem Programmed.retune {p : OpenDevice} (programmed : Programmed p) (dev : MsisdrDev)
    (hard : hardFields dev = hardFields p.dev) (status : dev.asyncStatus = p.dev.asyncStatus) :
    Programmed (softAndGain { p with dev := dev }).1 :=
  softAndGain_programmed (programmed.toHardCoherent.of_fields rfl hard)
    (status.trans programmed.idle)

/-- The gain reductions may change before `msisdr_set_gain`. -/
theorem Programmed.regain {p : OpenDevice} (programmed : Programmed p) (dev : MsisdrDev)
    (soft : softFields dev = softFields p.dev) (hard : hardFields dev = hardFields p.dev)
    (band : dev.band = p.dev.band) (status : dev.asyncStatus = p.dev.asyncStatus) :
    Programmed (msisdrSetGain { p with dev := dev }).1 where
  toSoftCoherent := msisdrSetGain_soft (programmed.toSoftCoherent.of_fields rfl soft)
  toGainCoherent := msisdrSetGain_gain _
  toHardCoherent := msisdrSetGain_hard (programmed.toHardCoherent.of_fields rfl hard)
  plan := programmed.plan.of_fields soft band
  idle := status.trans programmed.idle

theorem msisdrSetHard_of_idle (stream : StreamCalls) {p : OpenDevice}
    (idle : p.dev.asyncStatus = .inactive) : msisdrSetHard stream p = (programHard p, 0) := by
  rw [msisdrSetHard, if_neg]
  rw [idle]
  decide

/-- The rate and the format may change before `msisdr_set_hard`. -/
theorem Programmed.reclock {p : OpenDevice} (programmed : Programmed p) (stream : StreamCalls)
    (dev : MsisdrDev) (soft : softFields dev = softFields p.dev)
    (gain : gainFields dev = gainFields p.dev) (status : dev.asyncStatus = p.dev.asyncStatus) :
    Programmed (msisdrSetHard stream { p with dev := dev }).1 := by
  have band : dev.band = p.dev.band := by
    simp only [gainFields, Prod.mk.injEq] at gain
    exact gain.1
  have idle := status.trans programmed.idle
  rw [msisdrSetHard_of_idle stream idle]
  exact
    { toSoftCoherent := programHard_soft (programmed.toSoftCoherent.of_fields rfl soft)
      toGainCoherent := programHard_gain (programmed.toGainCoherent.of_fields rfl gain)
      toHardCoherent := programHard_hard _
      plan := programmed.plan.of_fields soft band
      idle := idle }

/-- Fields that no register encodes may change. -/
theorem Programmed.of_fields {p : OpenDevice} (programmed : Programmed p) (dev : MsisdrDev)
    (soft : softFields dev = softFields p.dev) (gain : gainFields dev = gainFields p.dev)
    (hard : hardFields dev = hardFields p.dev) (status : dev.asyncStatus = p.dev.asyncStatus) :
    Programmed { p with dev := dev } := by
  have band : dev.band = p.dev.band := by
    simp only [gainFields, Prod.mk.injEq] at gain
    exact gain.1
  exact
    { toSoftCoherent := programmed.toSoftCoherent.of_fields rfl soft
      toGainCoherent := programmed.toGainCoherent.of_fields rfl gain
      toHardCoherent := programmed.toHardCoherent.of_fields rfl hard
      plan := programmed.plan.of_fields soft band
      idle := status.trans programmed.idle }

/-- `msisdr_set_offset_tuning` keeps the band, and so the gain register. -/
theorem msisdrSetOffsetTuning_programmed {p : OpenDevice} (programmed : Programmed p) (on : ℤ) :
    Programmed (msisdrSetOffsetTuning p on).1 where
  toSoftCoherent := msisdrSetSoft_soft _
  toGainCoherent :=
    msisdrSetSoft_gain (programmed.toGainCoherent.of_fields rfl rfl) programmed.plan.band
  toHardCoherent := msisdrSetSoft_hard (programmed.toHardCoherent.of_fields rfl rfl)
  plan := msisdrSetSoft_plan _
  idle := programmed.idle

theorem msisdrSetBias_tuner (p : OpenDevice) (bias : ℤ) (k : BitVec 4) :
    (msisdrSetBias p bias).1.tuner k = p.tuner k := by
  simp [msisdrSetBias, updateReg8]

theorem msisdrSetBias_chip (p : OpenDevice) (bias : ℤ) {k : BitVec 8} (other : 8#8 ≠ k) :
    (msisdrSetBias p bias).1.chip k = p.chip k := by
  simp [msisdrSetBias, updateReg8, other]

/-- `msisdr_set_bias` rewrites chip register 8, the only one that encodes the bias. -/
theorem msisdrSetBias_programmed {p : OpenDevice} (programmed : Programmed p) (bias : ℤ) :
    Programmed (msisdrSetBias p bias).1 where
  tuner0 := (msisdrSetBias_tuner p bias _).trans programmed.tuner0
  tuner2 := (msisdrSetBias_tuner p bias _).trans programmed.tuner2
  tuner3 := (msisdrSetBias_tuner p bias _).trans programmed.tuner3
  tuner5 := (msisdrSetBias_tuner p bias _).trans programmed.tuner5
  tunerd := (msisdrSetBias_tuner p bias _).trans programmed.tunerd
  chip8 := by simp [msisdrSetBias, updateReg8]
  tuner1 := (msisdrSetBias_tuner p bias _).trans programmed.tuner1
  chip3 := (msisdrSetBias_chip p bias (by decide)).trans programmed.chip3
  chip4 := (msisdrSetBias_chip p bias (by decide)).trans programmed.chip4
  chip7 := (msisdrSetBias_chip p bias (by decide)).trans programmed.chip7
  plan := ⟨programmed.plan.band, programmed.plan.switches⟩
  idle := programmed.idle

/-! ## Every sequence of calls -/

/-- What `msisdr_set_tuner_gain` chooses is the gain reductions. -/
theorem tunerGainReductions_same (p : MsisdrDev) :
    softFields (tunerGainReductions p) = softFields p ∧
      hardFields (tunerGainReductions p) = hardFields p ∧
      (tunerGainReductions p).band = p.band ∧
      (tunerGainReductions p).asyncStatus = p.asyncStatus := by
  rw [tunerGainReductions]
  split_ifs
  · exact ⟨rfl, rfl, rfl, rfl⟩
  · exact ⟨rfl, rfl, rfl, rfl⟩
  · exact ⟨rfl, rfl, rfl, rfl⟩

theorem msisdrSetTunerGain_programmed {p : OpenDevice} (programmed : Programmed p) (gain : ℤ) :
    Programmed (msisdrSetTunerGain p gain).1 := by
  rw [msisdrSetTunerGain]
  split_ifs
  · obtain ⟨soft, hard, band, status⟩ := tunerGainReductions_same { p.dev with gain := 102 }
    exact programmed.regain _ soft hard band status
  · exact programmed.of_fields _ rfl rfl rfl rfl
  · obtain ⟨soft, hard, band, status⟩ := tunerGainReductions_same { p.dev with gain := gain }
    exact programmed.regain _ soft hard band status

theorem msisdrSetSampleFormat_programmed {p : OpenDevice} (programmed : Programmed p)
    (stream : StreamCalls) (v : String) :
    Programmed (msisdrSetSampleFormat stream p v).1 := by
  rw [msisdrSetSampleFormat]
  split
  · exact programmed.reclock stream _ rfl rfl rfl
  · split
    · exact programmed.reclock stream _ rfl rfl rfl
    -- the format is kept, and so is its encoding
    · exact programmed.of_fields _ rfl rfl rfl rfl

/-- **One call.** A setter keeps every register coherent, also when it returns an error. -/
theorem callSetter_programmed (stream : StreamCalls) {p : OpenDevice} (programmed : Programmed p)
    (setter : Setter) : Programmed (callSetter stream p setter).1 := by
  cases setter with
  | centerFreq freq => exact programmed.retune _ rfl rfl
  | ifFreq freq =>
      rw [callSetter, msisdrSetIfFreq]
      split
      · exact programmed.retune _ rfl rfl
      · exact programmed
  | xtalFreq freq => exact programmed
  | bandwidth bw => exact programmed.retune _ rfl rfl
  | freqCorrection ppm => exact programmed
  | directSampling on => exact programmed
  | offsetTuning on => exact msisdrSetOffsetTuning_programmed programmed on
  | transfer v =>
      rw [callSetter, msisdrSetTransfer]
      split_ifs
      · exact programmed.of_fields _ rfl rfl rfl rfl
      · exact programmed.of_fields _ rfl rfl rfl rfl
      · exact programmed
  | bias bias => exact msisdrSetBias_programmed programmed bias
  | hwFlavour flavour => exact programmed.retune _ rfl rfl
  | gain => exact programmed.regain _ rfl rfl rfl rfl
  | tunerGain gain => exact msisdrSetTunerGain_programmed programmed gain
  | tunerGainMode mode => exact programmed
  | mixerGain gain => exact programmed.regain _ rfl rfl rfl rfl
  | mixbufferGain gain =>
      rw [callSetter, msisdrSetMixbufferGain]
      split
      · exact programmed
      · exact programmed.regain _ rfl rfl rfl rfl
  | lnaGain gain => exact programmed.regain _ rfl rfl rfl rfl
  | basebandGain gain => exact programmed.regain _ rfl rfl rfl rfl
  | sampleRate rate => exact programmed.reclock stream _ rfl rfl rfl
  | sampleFormat v => exact msisdrSetSampleFormat_programmed programmed stream v

/-- `msisdr_setup` programs every register, after the words of the converters. -/
theorem msisdrSetup_programmed (stream : StreamCalls) (pid : UInt16) (transfer : Transfer) :
    Programmed (msisdrSetup stream pid transfer) := by
  rw [msisdrSetup, msisdrSetHard_of_idle stream rfl]
  exact softAndGain_programmed (programHard_hard _) rfl

theorem runSetters_programmed (stream : StreamCalls) {p : OpenDevice} (programmed : Programmed p)
    (setters : List Setter) : Programmed (runSetters stream p setters) := by
  induction setters generalizing p with
  | nil => exact programmed
  | cons setter rest ih => exact ih (callSetter_programmed stream programmed setter)

/-- **Register coherence.** After `msisdr_setup` and any sequence of calls of setters, every
register holds the encoding of the configuration. -/
theorem registers_coherent (stream : StreamCalls) (pid : UInt16) (transfer : Transfer)
    (setters : List Setter) :
    RegistersCoherent (runSetters stream (msisdrSetup stream pid transfer) setters) :=
  (runSetters_programmed stream (msisdrSetup_programmed stream pid transfer)
    setters).toRegistersCoherent

end MsiSdrDriver.Driver
