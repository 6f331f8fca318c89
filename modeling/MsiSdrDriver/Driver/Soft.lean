import MsiSdrDriver.Driver.Device

/-!
# Tuning: `msisdr_set_soft`

`soft.c` up to `msisdr_set_soft`. The frequency plan of the hardware flavour selects the
antenna path, the divider `lo_div` and, below 50 MHz, an upconversion of 120 MHz. The
synthesizer then reaches the frequency with a coarse divider `n`, a fraction
`frac / thresh` of twelve bits each and a fine term `afc`, all in `uint64_t` arithmetic.
-/

set_option autoImplicit false

namespace MsiSdrDriver.Driver

/-! ## The frequency plans -/

/-- `hw_switch_freq_plan_t`. -/
structure HwSwitchFreqPlan where
  lowCut : UInt32
  mode : ℤ
  upconvertMixerOn : BitVec 32
  amPort : BitVec 32
  loDiv : UInt64
  bandSelectWord : BitVec 32
  deriving DecidableEq

def modeAm : ℤ := 0x01
def modeVhf : ℤ := 0x02
def modeB3 : ℤ := 0x04
def modeB45 : ℤ := 0x08
def modeBl : ℤ := 0x10

def hwSwitchFreqPlanDefault : List HwSwitchFreqPlan :=
  [⟨0, modeAm, 1, 1, 16, 0xf780⟩,
   ⟨12, modeAm, 1, 1, 16, 0xff80⟩,
   ⟨30, modeAm, 1, 1, 16, 0xf280⟩,
   ⟨50, modeVhf, 0, 0, 32, 0xf380⟩,
   ⟨108, modeB3, 0, 0, 16, 0xfa80⟩,
   ⟨250, modeB3, 0, 0, 16, 0xf680⟩,
   ⟨259, 6, 0, 0, 8, 0xf680⟩,
   ⟨330, modeB45, 0, 0, 4, 0xf380⟩,
   ⟨960, modeBl, 0, 0, 2, 0xfa80⟩,
   ⟨2400, -1, 0, 0, 0, 0x0000⟩]

def hwSwitchFreqPlanSdrplay : List HwSwitchFreqPlan :=
  [⟨0, modeAm, 1, 1, 16, 0xf580⟩,
   ⟨12, modeAm, 1, 1, 16, 0xf580⟩,
   ⟨30, modeAm, 1, 1, 16, 0xf580⟩,
   ⟨50, modeVhf, 0, 0, 32, 0xf180⟩,
   ⟨112, modeB3, 0, 0, 16, 0xf580⟩,
   ⟨250, modeB3, 0, 0, 16, 0xf480⟩,
   ⟨261, 6, 0, 0, 8, 0xf480⟩,
   ⟨404, modeB45, 0, 0, 4, 0xf580⟩,
   ⟨1000, modeBl, 0, 0, 2, 0xf580⟩,
   ⟨2400, -1, 0, 0, 0, 0x0000⟩]

def hwSwitchFreqPlan : HwFlavour → List HwSwitchFreqPlan
  | .hwDefault => hwSwitchFreqPlanDefault
  | .sdrplay => hwSwitchFreqPlanSdrplay

/-- The `while` loop over the plan: the value of `i` after it. -/
def planIndex (freq : UInt32) : List HwSwitchFreqPlan → ℕ → ℕ
  | [], i => i
  | plan :: rest, i =>
      if 1000000 * plan.lowCut ≤ freq then
        if plan.mode < 0 then i else planIndex freq rest (i + 1)
      else i

/-- The plan's entry before the one at which the loop stopped. -/
def switchPlan (flavour : HwFlavour) (freq : UInt32) : HwSwitchFreqPlan :=
  (hwSwitchFreqPlan flavour).getD (planIndex freq (hwSwitchFreqPlan flavour) 0 - 1)
    ⟨0, -1, 0, 0, 0, 0⟩

/-- `offset`. -/
def tuningOffset (plan : HwSwitchFreqPlan) : UInt64 :=
  if plan.mode = modeAm then if plan.upconvertMixerOn ≠ 0 then 120000000 else 0 else 0

/-- `lo_div`. -/
def tuningLoDiv (plan : HwSwitchFreqPlan) : UInt64 :=
  if plan.mode = modeAm then 16 else plan.loDiv

/-- The assignment to `p->band`, which no branch makes for a mode without a band. -/
def bandAfter (plan : HwSwitchFreqPlan) (band : Band) : Band :=
  if plan.mode = modeAm then if plan.amPort = 0 then .am1 else .am2
  else if plan.mode = modeVhf then .vhf
  else if plan.mode = modeB3 then .band3
  else if plan.mode = modeB45 then .band45
  else if plan.mode = modeBl then .l
  else band

/-! ## The synthesizer -/

/-- The loop that leaves the greatest common divisor in `b`. -/
def gcdLoop (a b : UInt64) : UInt64 :=
  if a = 0 then b else gcdLoop (b % a) a
termination_by a.toNat
decreasing_by
  next nonzero =>
    rw [UInt64.toNat_mod]
    exact Nat.mod_lt _ (Nat.pos_of_ne_zero fun zero => nonzero (UInt64.toNat_inj.mp zero))

/-- The floored frequency that a setting of the synthesizer realises. -/
def rfvco (loDiv n thresh frac afc : UInt64) : UInt64 :=
  (96000000 * (n * thresh * 4096 + (frac * 4096 + afc))) / (thresh * 4096 * loDiv)

/-- The locals of `msisdr_set_soft` where the registers are packed, with the divisors and the
numerator before the decrement. -/
structure Synthesizer where
  fvco : UInt64
  n : UInt64
  /-- `b` after the loop: the common divisor -/
  divisor : UInt64
  /-- `a`: the factor that brings `thresh` down to twelve bits -/
  factor : UInt64
  thresh : UInt64
  /-- `frac` before the decrement -/
  rounded : UInt64
  frac : UInt64
  rfvco : UInt64
  afc : UInt64

/-- The computation of `msisdr_set_soft`. -/
def synthesize (freq : UInt32) (offset loDiv : UInt64) : Synthesizer :=
  let fvco := (freq.toUInt64 + offset) * loDiv
  let n := fvco / 96000000
  let thresh := 96000000 / loDiv
  let frac := fvco % 96000000 / loDiv
  let b := gcdLoop thresh frac
  let thresh := thresh / b
  let frac := frac / b
  let a := (thresh + 4094) / 4095
  let thresh := (thresh + a / 2) / a
  let rounded := (frac + a / 2) / a
  let frac := if freq.toUInt64 + offset < rfvco loDiv n thresh rounded 0 then rounded - 1
    else rounded
  let reached := rfvco loDiv n thresh frac 0
  { fvco := fvco
    n := n
    divisor := b
    factor := a
    thresh := thresh
    rounded := rounded
    frac := frac
    rfvco := reached
    afc := ((freq.toUInt64 + offset - reached) * thresh * 4096 * loDiv) / 96000000 }

/-- The setting for the frequency and the flavour of a device. -/
def softSynthesizer (flavour : HwFlavour) (freq : UInt32) : Synthesizer :=
  synthesize freq (tuningOffset (switchPlan flavour freq)) (tuningLoDiv (switchPlan flavour freq))

/-! ## The registers -/

def ifModeBits : IfFreq → BitVec 32
  | .zero => 3
  | .if450kHz => 2
  | .if1620kHz => 1
  | .if2048kHz => 0

def bandwidthBits : Bandwidth → BitVec 32
  | .bw200kHz => 0x00
  | .bw300kHz => 0x01
  | .bw600kHz => 0x02
  | .bw1536kHz => 0x03
  | .bw5MHz => 0x04
  | .bw6MHz => 0x05
  | .bw7MHz => 0x06
  | .bw8MHz => 0x07
  | .bwMax => 0x07

def xtalBits : Xtal → BitVec 32
  | .xtal19M2 => 0x00
  | .xtal22M => 0x01
  | .xtal24M => 0x02
  | .xtal24M576 => 0x02
  | .xtal26M => 0x03
  | .xtal38M4 => 0x04

/-- The bits of register 0 that the plan gives. -/
def planBits (plan : HwSwitchFreqPlan) : BitVec 32 :=
  if plan.mode = modeAm then
    BitVec.ofInt 32 modeAm <<< 4 ||| plan.upconvertMixerOn <<< 9 ||| plan.amPort <<< 11
  else BitVec.ofInt 32 plan.mode <<< 4

/-- Tuner register 0. -/
def softReg0 (p : MsisdrDev) : BitVec 32 :=
  0 ||| planBits (switchPlan p.hwFlavour p.freq) ||| 1 <<< 10 ||| ifModeBits p.ifFreq <<< 12 |||
    bandwidthBits p.bandwidth <<< 14 ||| xtalBits p.xtal <<< 17 ||| 0 <<< 20 ||| 0 <<< 23

/-- Tuner register 2: the numerator and the coarse divider. -/
def softReg2 (p : MsisdrDev) : BitVec 32 :=
  let s := softSynthesizer p.hwFlavour p.freq
  2 ||| ((0xFFF &&& s.frac) <<< 4).toUInt32.toBitVec ||| ((0x3F &&& s.n) <<< 16).toUInt32.toBitVec
    ||| 0 <<< 22

/-- Tuner register 3: the fine term. -/
def softReg3 (p : MsisdrDev) : BitVec 32 :=
  3 ||| (((softSynthesizer p.hwFlavour p.freq).afc &&& 4095) <<< 4).toUInt32.toBitVec

/-- Tuner register 5: the denominator. -/
def softReg5 (p : MsisdrDev) : BitVec 32 :=
  5 ||| ((0xFFF &&& (softSynthesizer p.hwFlavour p.freq).thresh) <<< 4).toUInt32.toBitVec |||
    0x28 <<< 16

/-- Tuner register 0xd. -/
def softRegd (p : MsisdrDev) : BitVec 32 :=
  0x0d ||| if p.bandwidth = .bwMax then 1 <<< 4 else 0

/-- The word that `update_reg_8` writes: the band switches and the bias tee. -/
def reg8Word (p : MsisdrDev) : BitVec 32 :=
  p.reg8 ||| if p.bias ≠ 0 then 1 <<< (3 + 8) else 0

/-- `update_reg_8`. -/
def updateReg8 (p : OpenDevice) : OpenDevice := p.write 0x08 (reg8Word p.dev)

/-- `msisdr_set_soft`. -/
def msisdrSetSoft (p : OpenDevice) : OpenDevice × ℤ :=
  let plan := switchPlan p.dev.hwFlavour p.dev.freq
  let dev := { p.dev with band := bandAfter plan p.dev.band, reg8 := plan.bandSelectWord }
  let p := updateReg8 { p with dev := dev }
  let p := p.write 0x09 0x0e
  let p := p.write 0x09 (softReg3 dev)
  let p := p.write 0x09 (softReg0 dev)
  let p := p.write 0x09 (softReg5 dev)
  let p := p.write 0x09 (softReg2 dev)
  let p := p.write 0x09 (softRegd dev)
  (p, 0)

end MsiSdrDriver.Driver
