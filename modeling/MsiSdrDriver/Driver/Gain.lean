import Mathlib.Algebra.Ring.Int.Defs
import MsiSdrDriver.Driver.Device

/-!
# Gain: `msisdr_set_gain`

`gain.c`: tuner registers 1 and 6, and the setters of the gain reductions. The parts of
register 1 that belong to the mixbuffer and to the low-noise amplifier depend on the band that
`msisdr_set_soft` has stored.
-/

set_option autoImplicit false

namespace MsiSdrDriver.Driver

/-! ## The registers -/

/-- The bits of register 1 for the mixbuffer, which is on the AM inputs only. -/
def mixbufferBits (p : MsisdrDev) : BitVec 32 :=
  match p.band with
  | .am1 => BitVec.ofInt 32 p.gainReductionMixbuffer &&& 0x03
  | .am2 => if p.gainReductionMixbuffer = 0 then 0x0 else 0x03
  | .vhf | .band3 | .band45 | .l => 0x0

/-- The bit of register 1 for the amplifier, which is not on the AM inputs. -/
def lnaBits (p : MsisdrDev) : BitVec 32 :=
  match p.band with
  | .am1 | .am2 => 0x0
  | .vhf | .band3 | .band45 | .l => BitVec.ofInt 32 p.gainReductionLna

/-- Tuner register 1: the gain reductions and the calibration of the DC offset. -/
def gainReg1 (p : MsisdrDev) : BitVec 32 :=
  1 ||| BitVec.ofInt 32 p.gainReductionBaseband <<< 4 ||| mixbufferBits p <<< 10 |||
    BitVec.ofInt 32 p.gainReductionMixer <<< 12 ||| lnaBits p <<< 13 ||| 2 <<< 14 ||| 0 <<< 17

/-- Tuner register 6. -/
def gainReg6 : BitVec 32 := 6 ||| 0x1F <<< 4 ||| 0x800 <<< 10

/-- `msisdr_set_gain`. -/
def msisdrSetGain (p : OpenDevice) : OpenDevice × ℤ :=
  let p := p.write 0x09 (gainReg1 p.dev)
  let p := p.write 0x09 gainReg6
  (p, 0)

/-! ## The setters -/

/-- `msisdr_set_tuner_gain_mode`, all of which is commented out. -/
def msisdrSetTunerGainMode (p : OpenDevice) (_mode : ℤ) : OpenDevice × ℤ := (p, 0)

/-- The gain reductions that `msisdr_set_tuner_gain` chooses. -/
def tunerGainReductions (p : MsisdrDev) : MsisdrDev :=
  if 43 ≤ p.gain then
    { p with
      gainReductionLna := 0
      gainReductionMixbuffer := 0
      gainReductionMixer := 0
      gainReductionBaseband := 59 - (p.gain - 43) }
  else if 19 ≤ p.gain then
    { p with
      gainReductionLna := 1
      gainReductionMixbuffer := 3
      gainReductionMixer := 0
      gainReductionBaseband := 59 - (p.gain - 19) }
  else
    { p with
      gainReductionLna := 1
      gainReductionMixbuffer := 3
      gainReductionMixer := 1
      gainReductionBaseband := 59 - p.gain }

/-- `msisdr_set_tuner_gain`. -/
def msisdrSetTunerGain (p : OpenDevice) (gain : ℤ) : OpenDevice × ℤ :=
  if 102 < gain then
    msisdrSetGain { p with dev := tunerGainReductions { p.dev with gain := 102 } }
  else if gain < 0 then msisdrSetTunerGainMode { p with dev := { p.dev with gain := gain } } 0
  else msisdrSetGain { p with dev := tunerGainReductions { p.dev with gain := gain } }

/-- `msisdr_set_mixer_gain`. -/
def msisdrSetMixerGain (p : OpenDevice) (gain : ℤ) : OpenDevice × ℤ :=
  msisdrSetGain { p with dev := { p.dev with gainReductionMixer := if gain ≠ 0 then 0 else 1 } }

/-- `msisdr_set_mixbuffer_gain`. The mask `0x03` is the remainder modulo 4. -/
def msisdrSetMixbufferGain (p : OpenDevice) (gain : ℤ) : OpenDevice × ℤ :=
  if gain < 0 then (p, -1)
  else
    let gain := if 18 < gain then 18 else gain
    msisdrSetGain { p with dev := { p.dev with gainReductionMixbuffer := (3 - gain / 6) % 4 } }

/-- `msisdr_set_lna_gain`. -/
def msisdrSetLnaGain (p : OpenDevice) (gain : ℤ) : OpenDevice × ℤ :=
  msisdrSetGain { p with dev := { p.dev with gainReductionLna := if gain ≠ 0 then 0 else 1 } }

/-- `msisdr_set_baseband_gain`. -/
def msisdrSetBasebandGain (p : OpenDevice) (gain : ℤ) : OpenDevice × ℤ :=
  msisdrSetGain { p with dev := { p.dev with gainReductionBaseband := 59 - gain } }

/-! ## Reading the gain -/

/-- The gain of the stages, on the band of the device. -/
def stageGain (p : MsisdrDev) : ℤ :=
  59 - p.gainReductionBaseband +
    (match p.band with
    | .am1 => 18 - 6 * p.gainReductionMixbuffer
    | .am2 => if p.gainReductionMixbuffer = 0 then 24 else 0
    | .vhf | .band3 | .band45 | .l => if p.gainReductionLna = 0 then 24 else 0) +
    if p.gainReductionMixer = 0 then 19 else 0

/-- `msisdr_get_tuner_gain`. -/
def msisdrGetTunerGain (p : MsisdrDev) : ℤ := if p.gain < 0 then -1 else stageGain p

end MsiSdrDriver.Driver
