import MsiSdrDriver.Foundations.PackedWords
import MsiSdrDriver.Driver.GainStages

/-!
# The gain word

`msisdr_set_gain` assembles tuner register 1 from `int` fields that it shifts without a mask, so
each must stay within its bits. Four of the five setters see to that: whatever they are called with,
the reduction of the mixer and that of the amplifier are 0 or 1, that of the mixbuffer is 0 to 3,
and `msisdr_set_tuner_gain` keeps the baseband reduction between 0 and 59 (`Stages.call_switches`,
`Stages.call_baseband`). `msisdr_set_baseband_gain` stores `59 - gain` for any gain, and one outside
0..59 spills into the bits of the other stages (`baseband_spills`).

After `msisdr_setup` and any calls of the setters the word decodes to the state exactly when the
last call that stored a baseband reduction has stored one in range (`gain_word_decodes_iff`).
-/

set_option autoImplicit false

namespace MsiSdrDriver.Driver

open Foundations

/-! ## The ranges of the stages -/

/-- The reductions that are switched in steps are in range. -/
structure Stages.Switched (s : Stages) : Prop where
  lna : s.lna = 0 ∨ s.lna = 1
  mixbuffer : 0 ≤ s.mixbuffer ∧ s.mixbuffer ≤ 3
  mixer : s.mixer = 0 ∨ s.mixer = 1

/-- The baseband reduction is in range. -/
def Stages.BasebandFits (s : Stages) : Prop := 0 ≤ s.baseband ∧ s.baseband ≤ 59

theorem Stages.ofGain_switched (gain : ℤ) : (Stages.ofGain gain).Switched := by
  have off : (0 : ℤ) ≤ 0 ∧ (0 : ℤ) ≤ 3 := by decide
  have on : (0 : ℤ) ≤ 3 ∧ (3 : ℤ) ≤ 3 := by decide
  unfold ofGain
  split_ifs
  · exact ⟨.inl rfl, off, .inl rfl⟩
  · exact ⟨.inr rfl, on, .inl rfl⟩
  · exact ⟨.inr rfl, on, .inr rfl⟩

theorem Stages.ofGain_baseband {gain : ℤ} (low : 0 ≤ gain) (high : gain ≤ 102) :
    (Stages.ofGain gain).BasebandFits := by
  unfold ofGain BasebandFits
  split_ifs <;> dsimp only <;> omega

/-- **Every setter keeps the switched stages in range**, whatever it is called with. -/
theorem Stages.call_switches {s : Stages} (switched : s.Switched) (setter : Setter) :
    (s.call setter).Switched := by
  have onOff : ∀ gain : ℤ, (if gain ≠ 0 then 0 else 1 : ℤ) = 0 ∨
      (if gain ≠ 0 then 0 else 1 : ℤ) = 1 := by
    intro gain
    split
    · exact .inl rfl
    · exact .inr rfl
  cases setter with
  | tunerGain gain =>
      simp only [call, request]
      split
      · exact ⟨switched.lna, switched.mixbuffer, switched.mixer⟩
      · exact ofGain_switched _
  | mixerGain gain => exact ⟨switched.lna, switched.mixbuffer, onOff gain⟩
  | lnaGain gain => exact ⟨onOff gain, switched.mixbuffer, switched.mixer⟩
  | mixbufferGain gain =>
      simp only [call]
      split
      · exact switched
      · refine ⟨switched.lna, ⟨?_, ?_⟩, switched.mixer⟩ <;> dsimp only <;> omega
  | _ => exact ⟨switched.lna, switched.mixbuffer, switched.mixer⟩

/-- Whether the baseband reduction is in range after a call, given whether it was before. -/
def basebandFitsAfter (before : Prop) : Setter → Prop
  | .tunerGain gain => if gain < 0 then before else True
  | .basebandGain gain => 0 ≤ gain ∧ gain ≤ 59
  | _ => before

/-- **The last call that stored a baseband reduction** was no `msisdr_set_baseband_gain` outside
0..59. -/
def basebandCallsFit (setters : List Setter) : Prop := setters.foldl basebandFitsAfter True

theorem Stages.call_baseband (s : Stages) (setter : Setter) :
    (s.call setter).BasebandFits ↔ basebandFitsAfter s.BasebandFits setter := by
  cases setter with
  | tunerGain gain =>
      simp only [call, request, basebandFitsAfter]
      split
      · rfl
      · exact iff_of_true (ofGain_baseband (by omega) (by omega)) trivial
  | basebandGain gain =>
      simp only [call, BasebandFits, basebandFitsAfter]
      omega
  | mixbufferGain gain =>
      simp only [call, basebandFitsAfter]
      split
      · rfl
      · rfl
  | _ => rfl

/-! ## The word -/

/-- The code of the mixbuffer in the word. -/
def mixbufferCode (p : MsisdrDev) : ℤ :=
  match p.band with
  | .am1 => p.gainReductionMixbuffer
  | .am2 => if p.gainReductionMixbuffer = 0 then 0 else 3
  | .vhf | .band3 | .band45 | .l => 0

/-- The bit of the amplifier in the word. -/
def lnaCode (p : MsisdrDev) : ℤ :=
  match p.band with
  | .am1 | .am2 => 0
  | .vhf | .band3 | .band45 | .l => p.gainReductionLna

/-- **The gain word decodes to the state that it was built from**, field by field. -/
structure GainWordDecodes (p : MsisdrDev) (word : ℕ) : Prop where
  number : bitField word 0 4 = 1
  baseband : (bitField word 4 6 : ℤ) = p.gainReductionBaseband ∧ p.gainReductionBaseband ≤ 59
  mixbuffer : (bitField word 10 2 : ℤ) = mixbufferCode p
  mixer : (bitField word 12 1 : ℤ) = p.gainReductionMixer
  lna : (bitField word 13 1 : ℤ) = lnaCode p
  calibration : bitField word 14 4 = 2
  above : word / 2 ^ 18 = 0

/-- A number that fits in few bits is stored as it is. -/
theorem ofInt_toNat {value : ℤ} (low : 0 ≤ value) (high : value ≤ 59) :
    ((BitVec.ofInt 32 value).toNat : ℤ) = value := by
  rw [BitVec.toNat_ofInt]
  omega

theorem ofInt_switch {value : ℤ} (switch : value = 0 ∨ value = 1) :
    ((BitVec.ofInt 32 value).toNat : ℤ) = value := by
  rcases switch with rfl | rfl
  · rfl
  · rfl

theorem mixbufferBits_toNat {p : MsisdrDev} (switched : p.stages.Switched) :
    ((mixbufferBits p).toNat : ℤ) = mixbufferCode p := by
  obtain ⟨low, high⟩ : 0 ≤ p.gainReductionMixbuffer ∧ p.gainReductionMixbuffer ≤ 3 :=
    switched.mixbuffer
  have code := ofInt_toNat low (by omega)
  unfold mixbufferBits mixbufferCode
  cases p.band with
  | am1 =>
      have masked : (BitVec.ofInt 32 p.gainReductionMixbuffer &&& 0x03).toNat =
          (BitVec.ofInt 32 p.gainReductionMixbuffer).toNat % 2 ^ 2 :=
        Nat.and_two_pow_sub_one_eq_mod _ 2
      dsimp only
      rw [masked]
      omega
  | am2 =>
      dsimp only
      split
      · rfl
      · rfl
  | vhf | band3 | band45 | l => rfl

theorem lnaBits_toNat {p : MsisdrDev} (switched : p.stages.Switched) :
    ((lnaBits p).toNat : ℤ) = lnaCode p := by
  unfold lnaBits lnaCode
  cases p.band with
  | am1 | am2 => rfl
  | vhf | band3 | band45 | l => exact ofInt_switch switched.lna

theorem mixbufferCode_range {p : MsisdrDev} (switched : p.stages.Switched) :
    0 ≤ mixbufferCode p ∧ mixbufferCode p ≤ 3 := by
  unfold mixbufferCode
  cases p.band with
  | am1 => exact switched.mixbuffer
  | am2 =>
      dsimp only
      split <;> omega
  | vhf | band3 | band45 | l =>
      dsimp only
      omega

theorem lnaCode_range {p : MsisdrDev} (switched : p.stages.Switched) :
    lnaCode p = 0 ∨ lnaCode p = 1 := by
  unfold lnaCode
  cases p.band with
  | am1 | am2 => exact .inl rfl
  | vhf | band3 | band45 | l => exact switched.lna

/-- **With every stage in range the fields do not collide.** -/
theorem gainReg1_packs {p : MsisdrDev} (switched : p.stages.Switched)
    (fits : p.stages.BasebandFits) :
    Packs (gainReg1 p) [⟨1, 4⟩, ⟨(BitVec.ofInt 32 p.gainReductionBaseband).toNat, 6⟩,
      ⟨(mixbufferBits p).toNat, 2⟩, ⟨(BitVec.ofInt 32 p.gainReductionMixer).toNat, 1⟩,
      ⟨(lnaBits p).toNat, 1⟩, ⟨2, 4⟩] := by
  have baseband := ofInt_toNat fits.1 fits.2
  have mixbuffer := mixbufferBits_toNat switched
  have mixbufferRange := mixbufferCode_range switched
  have mixer := ofInt_switch switched.mixer
  have mixerRange := switched.mixer
  have lna := lnaBits_toNat switched
  have lnaRange := lnaCode_range switched
  have high : p.gainReductionBaseband ≤ 59 := fits.2
  change p.gainReductionMixer = 0 ∨ p.gainReductionMixer = 1 at mixerRange
  change ((BitVec.ofInt 32 p.gainReductionBaseband).toNat : ℤ) = p.gainReductionBaseband at baseband
  change ((BitVec.ofInt 32 p.gainReductionMixer).toNat : ℤ) = p.gainReductionMixer at mixer
  unfold gainReg1
  generalize BitVec.ofInt 32 p.gainReductionBaseband = basebandBits at baseband ⊢
  generalize BitVec.ofInt 32 p.gainReductionMixer = mixerBits at mixer ⊢
  generalize mixbufferBits p = bits at mixbuffer ⊢
  generalize lnaBits p = bit at lna ⊢
  have number : Packs (1 : BitVec 32) [⟨1, 4⟩] := .single 4 (by decide) rfl
  have packedBaseband := number.orBits basebandBits 4 6 (by omega) rfl (by decide)
  have packedMixbuffer := packedBaseband.orBits bits 10 2 (by omega) rfl (by decide)
  have packedMixer := packedMixbuffer.orBits mixerBits 12 1 (by omega) rfl (by decide)
  have packedLna := packedMixer.orBits bit 13 1 (by omega) rfl (by decide)
  have packedMode := packedLna.orBits 2 14 4 (by decide) rfl (by decide)
  change Packs (_ ||| 0#32) _
  rw [BitVec.or_zero]
  exact packedMode

theorem gainReg1_decodes {p : MsisdrDev} (switched : p.stages.Switched)
    (fits : p.stages.BasebandFits) :
    GainWordDecodes p ((gainReg1 p).setWidth 24).toNat := by
  have packs := (gainReg1_packs switched fits).setWidth 24 (by simp [packedWidth])
  constructor
  · exact packs.read 0 rfl
  · exact ⟨(congrArg Nat.cast (packs.read 1 rfl)).trans (ofInt_toNat fits.1 fits.2), fits.2⟩
  · exact (congrArg Nat.cast (packs.read 2 rfl)).trans (mixbufferBits_toNat switched)
  · exact (congrArg Nat.cast (packs.read 3 rfl)).trans (ofInt_switch switched.mixer)
  · exact (congrArg Nat.cast (packs.read 4 rfl)).trans (lnaBits_toNat switched)
  · exact packs.read 5 rfl
  · exact packs.above

/-! ## Every sequence of calls -/

/-- The stages of a device that has just been set up. -/
def setupStages : Stages := ⟨43, 0, 0, 0, 43⟩

theorem runSetters_stages (stream : StreamCalls) {p : OpenDevice} (programmed : Programmed p)
    (setters : List Setter) :
    (runSetters stream p setters).dev.stages = setters.foldl Stages.call p.dev.stages := by
  induction setters generalizing p with
  | nil => rfl
  | cons setter rest ih =>
      have once := callSetter_stages stream programmed.idle setter
      have further := ih (callSetter_programmed stream programmed setter)
      rw [once] at further
      exact further

theorem msisdrSetup_stages (stream : StreamCalls) (pid : UInt16) (transfer : Transfer) :
    (msisdrSetup stream pid transfer).dev.stages = setupStages := by
  rw [msisdrSetup, msisdrSetHard_of_idle stream rfl]
  rfl

/-- **The switched stages stay in range** over any calls. -/
theorem Stages.calls_switched {s : Stages} (switched : s.Switched) (setters : List Setter) :
    (setters.foldl Stages.call s).Switched := by
  induction setters generalizing s with
  | nil => exact switched
  | cons setter rest ih => exact ih (call_switches switched setter)

/-- **The baseband reduction** over any calls. -/
theorem Stages.calls_baseband (s : Stages) (setters : List Setter) :
    (setters.foldl Stages.call s).BasebandFits ↔
      setters.foldl basebandFitsAfter s.BasebandFits := by
  induction setters generalizing s with
  | nil => rfl
  | cons setter rest ih =>
      rw [List.foldl_cons, List.foldl_cons, ih, propext (call_baseband s setter)]

/-- The word in tuner register 1 decodes to the state of the device. -/
def GainRegisterDecodes (p : OpenDevice) : Prop :=
  ∃ word, p.tuner 1 = some word ∧ GainWordDecodes p.dev word.toNat

/-- **A baseband gain below 0 spills** into the bits of the mixbuffer. -/
theorem baseband_spills :
    ¬ ∀ (stream : StreamCalls) (pid : UInt16) (transfer : Transfer) (setters : List Setter),
      GainRegisterDecodes (runSetters stream (msisdrSetup stream pid transfer) setters) := by
  intro decodes
  obtain ⟨word, held, decoded⟩ := decodes noStream 0x2500 .bulk [.basebandGain (-5)]
  have reduction := decoded.baseband.2
  have stored : (64 : ℤ) ≤ 59 := reduction
  exact absurd stored (by decide)

/-- **The gain word decodes to the state** after any calls of the setters exactly when the last call
that stored a baseband reduction has stored one in range. -/
theorem gain_word_decodes_iff (stream : StreamCalls) (pid : UInt16) (transfer : Transfer)
    (setters : List Setter) :
    GainRegisterDecodes (runSetters stream (msisdrSetup stream pid transfer) setters) ↔
      basebandCallsFit setters := by
  have programmed := msisdrSetup_programmed stream pid transfer
  have word := (runSetters_programmed stream programmed setters).tuner1
  have stages := runSetters_stages stream programmed setters
  rw [msisdrSetup_stages] at stages
  generalize runSetters stream (msisdrSetup stream pid transfer) setters = p at word stages ⊢
  have start : setupStages.Switched := ⟨.inl rfl, by decide, .inl rfl⟩
  have switched := Stages.calls_switched start setters
  have baseband := Stages.calls_baseband setupStages setters
  rw [← stages] at switched baseband
  have fitsAtFirst : setupStages.BasebandFits := ⟨by decide, by decide⟩
  rw [eq_true fitsAtFirst] at baseband
  rw [basebandCallsFit, ← baseband]
  constructor
  · rintro ⟨held, found, decodes⟩
    obtain ⟨value, most⟩ := decodes.baseband
    have low : 0 ≤ p.dev.gainReductionBaseband := by omega
    exact ⟨low, most⟩
  · intro fits
    exact ⟨_, word, gainReg1_decodes switched fits⟩

end MsiSdrDriver.Driver
