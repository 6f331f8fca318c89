import MsiSdrDriver.Driver.Soft
import MsiSdrDriver.Driver.Gain
import MsiSdrDriver.Driver.Hard

/-!
# The setters

The setters of `soft.c`, the setter of the hardware flavour and `msisdr_setup`, which programs a
device when it is opened. `Setter` is a call of one of the public setters with its arguments,
and `runSetters` makes a sequence of calls. Every transfer succeeds here.

Most setters of `soft.c` rewrite the gain after `msisdr_set_soft`, since the band may have
changed; `msisdr_set_offset_tuning` does not.
-/

set_option autoImplicit false

namespace MsiSdrDriver.Driver

/-! ## `soft.c` -/

/-- `msisdr_set_soft` and then `msisdr_set_gain`, to restore the gain. -/
def softAndGain (p : OpenDevice) : OpenDevice × ℤ :=
  let (p, r) := msisdrSetSoft p
  let (p, s) := msisdrSetGain p
  (p, r + s)

/-- `msisdr_set_center_freq`. -/
def msisdrSetCenterFreq (p : OpenDevice) (freq : UInt32) : OpenDevice × ℤ :=
  softAndGain { p with dev := { p.dev with freq := freq } }

/-- The intermediate frequencies that `msisdr_set_if_freq` supports. -/
def ifFreqOf (freq : UInt32) : Option IfFreq :=
  if freq = 0 then some .zero
  else if freq = 450000 then some .if450kHz
  else if freq = 1620000 then some .if1620kHz
  else if freq = 2048000 then some .if2048kHz
  else none

/-- `msisdr_set_if_freq`. -/
def msisdrSetIfFreq (p : OpenDevice) (freq : UInt32) : OpenDevice × ℤ :=
  match ifFreqOf freq with
  | some ifFreq => softAndGain { p with dev := { p.dev with ifFreq := ifFreq } }
  | none => (p, -1)

/-- `msisdr_set_xtal_freq`, which is not supported. -/
def msisdrSetXtalFreq (p : OpenDevice) (_freq : UInt32) : OpenDevice × ℤ := (p, -1)

/-- `p->bandwidth` after the assignments of `msisdr_set_bandwidth`, in its order. -/
def bandwidthOf (bw : UInt32) : Bandwidth :=
  let bandwidth := Bandwidth.bwMax
  let bandwidth := if bw ≤ 8000000 then .bw8MHz else bandwidth
  let bandwidth := if bw ≤ 7000000 then .bw7MHz else bandwidth
  let bandwidth := if bw ≤ 6000000 then .bw6MHz else bandwidth
  let bandwidth := if bw ≤ 5000000 then .bw5MHz else bandwidth
  let bandwidth := if bw ≤ 1536000 then .bw1536kHz else bandwidth
  let bandwidth := if bw ≤ 600000 then .bw600kHz else bandwidth
  let bandwidth := if bw ≤ 300000 then .bw300kHz else bandwidth
  if bw ≤ 200000 then .bw200kHz else bandwidth

/-- `p->if_freq` after them. -/
def bandwidthIfFreq (p : MsisdrDev) (bw : UInt32) : IfFreq :=
  let ifFreq := p.ifFreq
  let ifFreq :=
    if bw ≤ 1536000 then if 5000000 ≤ p.rate then .if1620kHz else ifFreq else ifFreq
  let ifFreq := if bw ≤ 600000 then .if450kHz else ifFreq
  let ifFreq := if bw ≤ 300000 then .if450kHz else ifFreq
  if bw ≤ 200000 then .if450kHz else ifFreq

/-- `msisdr_set_bandwidth`. -/
def msisdrSetBandwidth (p : OpenDevice) (bw : UInt32) : OpenDevice × ℤ :=
  softAndGain
    { p with
      dev := { p.dev with bandwidth := bandwidthOf bw, ifFreq := bandwidthIfFreq p.dev bw } }

/-- `msisdr_set_freq_correction`, which is not implemented. -/
def msisdrSetFreqCorrection (p : OpenDevice) (_ppm : ℤ) : OpenDevice × ℤ := (p, -1)

/-- `msisdr_set_direct_sampling`, which is not implemented. -/
def msisdrSetDirectSampling (p : OpenDevice) (_on : ℤ) : OpenDevice × ℤ := (p, -1)

/-- `msisdr_set_offset_tuning`. It does not restore the gain. -/
def msisdrSetOffsetTuning (p : OpenDevice) (on : ℤ) : OpenDevice × ℤ :=
  msisdrSetSoft
    { p with dev := { p.dev with ifFreq := if on ≠ 0 then .if450kHz else .zero } }

/-- `msisdr_set_transfer`. -/
def msisdrSetTransfer (p : OpenDevice) (v : String) : OpenDevice × ℤ :=
  if v = "BULK" then ({ p with dev := { p.dev with transfer := .bulk } }, 0)
  else if v = "ISOC" then ({ p with dev := { p.dev with transfer := .isoc } }, 0)
  else (p, -1)

/-- `msisdr_set_bias`. -/
def msisdrSetBias (p : OpenDevice) (bias : ℤ) : OpenDevice × ℤ :=
  (updateReg8 { p with dev := { p.dev with bias := bias } }, 0)

/-! ## `libmsisdr.c` -/

/-- `msisdr_set_hw_flavour`. -/
def msisdrSetHwFlavour (p : OpenDevice) (flavour : HwFlavour) : OpenDevice × ℤ :=
  let (p, _) := msisdrSetSoft { p with dev := { p.dev with hwFlavour := flavour } }
  let (p, _) := msisdrSetGain p
  (p, 0)

/-- `CMD_STOP_STREAMING`. -/
def cmdStopStreaming : BitVec 8 := 0x45

/-- `msisdr_streaming_stop`. -/
def msisdrStreamingStop (p : OpenDevice) : OpenDevice :=
  { p with sent := p.sent ++ [{ request := cmdStopStreaming, value := 0, index := 0 }] }

/-- The structure that `memset` has cleared, with the product number stored. -/
def clearedDev (pid : UInt16) : MsisdrDev where
  pid := pid
  freq := 0
  rate := 0
  gain := 0
  gainReductionLna := 0
  gainReductionMixbuffer := 0
  gainReductionMixer := 0
  gainReductionBaseband := 0
  hwFlavour := .hwDefault
  band := .am1
  formatAuto := .on
  format := .s16x252
  bandwidth := .bw200kHz
  ifFreq := .zero
  xtal := .xtal19M2
  transfer := .bulk
  asyncStatus := .inactive
  addr := 0
  bias := 0
  reg8 := 0

/-- The defaults of `msisdr_setup`. The platform decides the transfer. -/
def defaultDev (transfer : Transfer) (p : MsisdrDev) : MsisdrDev :=
  { p with
    freq := 90000000
    rate := 2000000
    gain := 43
    band := .vhf
    gainReductionLna := 0
    gainReductionMixer := 0
    gainReductionBaseband := 43
    ifFreq := .zero
    formatAuto := .on
    bandwidth := .bw8MHz
    xtal := .xtal24M
    bias := 0
    hwFlavour := if p.pid = 0x3000 ∨ p.pid = 0x3010 then .sdrplay else .hwDefault
    transfer := transfer }

/-- `msisdr_setup`, from the reset of the device to its success. -/
def msisdrSetup (stream : StreamCalls) (pid : UInt16) (transfer : Transfer) : OpenDevice :=
  let p := msisdrAdcStop (msisdrStreamingStop ⟨clearedDev pid, []⟩)
  let p := msisdrAdcInit { p with dev := defaultDev transfer p.dev }
  let (p, _) := msisdrSetHard stream p
  let (p, _) := msisdrSetSoft p
  let (p, _) := msisdrSetGain p
  p

/-! ## Sequences of calls -/

/-- A call of a public setter. -/
inductive Setter where
  | centerFreq (freq : UInt32)
  | ifFreq (freq : UInt32)
  | xtalFreq (freq : UInt32)
  | bandwidth (bw : UInt32)
  | freqCorrection (ppm : ℤ)
  | directSampling (on : ℤ)
  | offsetTuning (on : ℤ)
  | transfer (v : String)
  | bias (bias : ℤ)
  | hwFlavour (flavour : HwFlavour)
  | gain
  | tunerGain (gain : ℤ)
  | tunerGainMode (mode : ℤ)
  | mixerGain (gain : ℤ)
  | mixbufferGain (gain : ℤ)
  | lnaGain (gain : ℤ)
  | basebandGain (gain : ℤ)
  | sampleRate (rate : UInt32)
  | sampleFormat (v : String)
  deriving DecidableEq

/-- What a call does and what it returns. -/
def callSetter (stream : StreamCalls) (p : OpenDevice) : Setter → OpenDevice × ℤ
  | .centerFreq freq => msisdrSetCenterFreq p freq
  | .ifFreq freq => msisdrSetIfFreq p freq
  | .xtalFreq freq => msisdrSetXtalFreq p freq
  | .bandwidth bw => msisdrSetBandwidth p bw
  | .freqCorrection ppm => msisdrSetFreqCorrection p ppm
  | .directSampling on => msisdrSetDirectSampling p on
  | .offsetTuning on => msisdrSetOffsetTuning p on
  | .transfer v => msisdrSetTransfer p v
  | .bias bias => msisdrSetBias p bias
  | .hwFlavour flavour => msisdrSetHwFlavour p flavour
  | .gain => msisdrSetGain p
  | .tunerGain gain => msisdrSetTunerGain p gain
  | .tunerGainMode mode => msisdrSetTunerGainMode p mode
  | .mixerGain gain => msisdrSetMixerGain p gain
  | .mixbufferGain gain => msisdrSetMixbufferGain p gain
  | .lnaGain gain => msisdrSetLnaGain p gain
  | .basebandGain gain => msisdrSetBasebandGain p gain
  | .sampleRate rate => msisdrSetSampleRate stream p rate
  | .sampleFormat v => msisdrSetSampleFormat stream p v

/-- The device after the calls, one after the other. -/
def runSetters (stream : StreamCalls) (p : OpenDevice) (setters : List Setter) : OpenDevice :=
  setters.foldl (fun p setter => (callSetter stream p setter).1) p

end MsiSdrDriver.Driver
