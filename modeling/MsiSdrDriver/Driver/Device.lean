import Mathlib.Data.Int.Notation
import Mathlib.Data.Nat.Notation

/-!
# The tuner device

`msisdr_dev_t` as far as the setters read and write it, and the control transfers that program
the hardware. A register write packs an 8-bit register number and the low 24 bits of a word
into the `wValue` and `wIndex` of one transfer. Chip register 9 is the window to the tuner,
whose own register is selected by the low four bits of the word.
-/

set_option autoImplicit false

namespace MsiSdrDriver.Driver

/-! ## The configuration -/

/-- `msisdr_hw_flavour_t`. -/
inductive HwFlavour where
  | hwDefault
  | sdrplay
  deriving DecidableEq

/-- `msisdr_band_t`. -/
inductive Band where
  | am1
  | am2
  | vhf
  | band3
  | band45
  | l
  deriving DecidableEq

inductive FormatAuto where
  | on
  | off
  deriving DecidableEq

inductive Format where
  | s16x252
  | s16x336
  | s16x384
  | s16x504
  | s8x504
  deriving DecidableEq

inductive Bandwidth where
  | bw200kHz
  | bw300kHz
  | bw600kHz
  | bw1536kHz
  | bw5MHz
  | bw6MHz
  | bw7MHz
  | bw8MHz
  | bwMax
  deriving DecidableEq

inductive IfFreq where
  | zero
  | if450kHz
  | if1620kHz
  | if2048kHz
  deriving DecidableEq

inductive Xtal where
  | xtal19M2
  | xtal22M
  | xtal24M
  | xtal24M576
  | xtal26M
  | xtal38M4
  deriving DecidableEq

inductive Transfer where
  | bulk
  | isoc
  deriving DecidableEq

inductive AsyncStatus where
  | inactive
  | canceling
  | running
  | paused
  | failed
  deriving DecidableEq

/-- The configuration in `msisdr_dev_t`. -/
structure MsisdrDev where
  pid : UInt16
  freq : UInt32
  rate : UInt32
  gain : ℤ
  gainReductionLna : ℤ
  gainReductionMixbuffer : ℤ
  gainReductionMixer : ℤ
  gainReductionBaseband : ℤ
  hwFlavour : HwFlavour
  band : Band
  formatAuto : FormatAuto
  format : Format
  bandwidth : Bandwidth
  ifFreq : IfFreq
  xtal : Xtal
  transfer : Transfer
  asyncStatus : AsyncStatus
  addr : UInt32
  bias : ℤ
  reg8 : BitVec 32
  deriving DecidableEq

/-! ## Control transfers -/

/-- A vendor control transfer without a data stage. -/
structure CtrlTransfer where
  request : BitVec 8
  value : BitVec 16
  index : BitVec 16
  deriving DecidableEq

/-- `CMD_WREG`. -/
def cmdWreg : BitVec 8 := 0x41

/-- The transfer that `msisdr_write_reg` sends. -/
def msisdrWriteReg (reg : BitVec 8) (val : BitVec 32) : CtrlTransfer where
  request := cmdWreg
  value := ((val &&& 0xff) <<< 8 ||| reg.setWidth 32).setWidth 16
  index := ((val >>> 8) &&& 0xffff).setWidth 16

/-- The register that a transfer writes. -/
def CtrlTransfer.reg (transfer : CtrlTransfer) : BitVec 8 := transfer.value.setWidth 8

/-- The 24 bits that a transfer writes. -/
def CtrlTransfer.word (transfer : CtrlTransfer) : BitVec 24 :=
  transfer.index.setWidth 24 <<< 8 ||| (transfer.value >>> 8).setWidth 24

/-- An opened device: its configuration and the transfers sent to it, the oldest first. -/
structure OpenDevice where
  dev : MsisdrDev
  sent : List CtrlTransfer

/-- Write a register of an opened device. -/
def OpenDevice.write (p : OpenDevice) (reg : BitVec 8) (val : BitVec 32) : OpenDevice :=
  { p with sent := p.sent ++ [msisdrWriteReg reg val] }

/-- **A transfer carries the register and the low 24 bits of the word.** -/
theorem msisdrWriteReg_reg (reg : BitVec 8) (val : BitVec 32) :
    (msisdrWriteReg reg val).reg = reg := by
  apply BitVec.eq_of_getLsbD_eq
  intro i small
  simp [msisdrWriteReg, CtrlTransfer.reg]

theorem msisdrWriteReg_word (reg : BitVec 8) (val : BitVec 32) :
    (msisdrWriteReg reg val).word = val.setWidth 24 := by
  apply BitVec.eq_of_getLsbD_eq
  intro i small
  have lowMask : ∀ i < 8, (255#16).getLsbD i = true := by decide
  have highMask : ∀ i < 16, (65535#24).getLsbD i = true := by decide
  by_cases low : i < 8
  · have inside : 8 + i < 16 := by omega
    have below : 8 + i < 24 := by omega
    have shifted : ¬ 8 + i < 8 := by omega
    have ones := lowMask i low
    rw [BitVec.getLsbD_eq_getElem (by omega)] at ones
    simp [msisdrWriteReg, CtrlTransfer.word, low, small, inside, below, shifted, ones]
  · have high : i - 8 < 16 := by omega
    have place : 8 + (i - 8) = i := by omega
    have outside : ¬ 8 + i < 16 := by omega
    simp [msisdrWriteReg, CtrlTransfer.word, low, highMask, small, high, place, outside]

end MsiSdrDriver.Driver
