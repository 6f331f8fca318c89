import Mathlib.Tactic.FieldSimp
import Mathlib.Tactic.IntervalCases
import MsiSdrDriver.Foundations.PackedWords
import MsiSdrDriver.Driver.RegisterCoherence
import MsiSdrDriver.Driver.StreamCalls

/-!
# The sample clock

The clock of the converters is 48 MHz times `n + fract / 2^21`, divided by twelve and by an even
`i`. `msisdr_set_hard` takes the smallest `i` with which the oscillator runs at 202 MHz or more, so
that `n` is at least 4, and cuts the rest of the ratio off after 21 bits. `n`, `i` and the top bit
of the fraction go to chip register 3, the other twenty bits of the fraction to chip register 4.

Whatever rate is asked for, it is brought into the range first, and then some `i` is found
(`rateVco_spec`), every number has room in its field, and the rate that the two registers stand for
is at most half a hertz below the one that is stored (`sample_clock`). Only a RUNNING stream that
cannot be stopped keeps its old registers, with the rate as it was asked for (`sample_clock_iff`).
-/

set_option autoImplicit false

namespace MsiSdrDriver.Driver

open Foundations

/-! ## Reading the registers -/

/-- The numbers that chip registers 3 and 4 hold: `i / 2 - 1`, `n` and the fraction. -/
def decodedDivider (reg3 : ℕ) : ℕ := bitField reg3 2 3

def decodedN (reg3 : ℕ) : ℕ := bitField reg3 8 4

def decodedFract (reg3 reg4 : ℕ) : ℕ := bitField reg3 7 1 * 2 ^ 20 + bitField reg4 0 20

/-- The rate that the two registers stand for. -/
def decodedRate (reg3 reg4 : ℕ) : ℚ :=
  48000000 * ((decodedN reg3 : ℚ) + (decodedFract reg3 reg4 : ℚ) / 2 ^ 21) /
    (12 * (2 * ((decodedDivider reg3 : ℚ) + 1)))

/-! ## The search for the divider -/

theorem limitRate_toNat (rate : UInt32) :
    (limitRate rate).toNat = min (max rate.toNat 1300000) 15000000 := by
  unfold limitRate sampleRateMax sampleRateMin
  split
  · next above =>
      have above : 15000000 < rate.toNat := UInt32.lt_iff_toNat_lt.mp above
      show 15000000 = _
      omega
  · next within =>
      have within : ¬ 15000000 < rate.toNat := fun lt => within (UInt32.lt_iff_toNat_lt.mpr lt)
      split
      · next below =>
          have below : rate.toNat < 1300000 := UInt32.lt_iff_toNat_lt.mp below
          show 1300000 = _
          omega
      · next enough =>
          have enough : ¬ rate.toNat < 1300000 := fun lt => enough (UInt32.lt_iff_toNat_lt.mpr lt)
          omega

/-- The product in the loop does not overflow. -/
theorem vco_toNat (rate : UInt32) {i : UInt64} (small : i.toNat ≤ 16) :
    (rate.toUInt64 * i * 12).toNat = rate.toNat * i.toNat * 12 := by
  have word := rate.toNat_lt
  have bound := Nat.mul_le_mul (Nat.le_of_lt word) small
  have first : (rate.toUInt64 * i).toNat = rate.toNat * i.toNat := by
    rw [UInt64.toNat_mul, UInt32.toNat_toUInt64]
    exact Nat.mod_eq_of_lt (by omega)
  rw [UInt64.toNat_mul, first]
  show rate.toNat * i.toNat * 12 % 2 ^ 64 = _
  exact Nat.mod_eq_of_lt (by omega)

/-- **The loop leaves by its `break`** if any of its values would do, with the first that does. -/
theorem vcoLoop_spec {rate : UInt32} {values : List UInt64}
    (small : ∀ i ∈ values, i.toNat ≤ 16)
    (enough : ∃ i ∈ values, 202000000 ≤ rate.toNat * i.toNat * 12) (vco : UInt64) :
    ∃ (k : ℕ) (i : UInt64), values[k]? = some i ∧ (vcoLoop rate values vco).1 = i ∧
      (vcoLoop rate values vco).2.toNat = rate.toNat * i.toNat * 12 ∧
      202000000 ≤ rate.toNat * i.toNat * 12 ∧
      ∀ j < k, ∀ i' : UInt64, values[j]? = some i' → rate.toNat * i'.toNat * 12 < 202000000 := by
  induction values generalizing vco with
  | nil =>
      obtain ⟨i, member, -⟩ := enough
      cases member
  | cons first rest ih =>
      have exact := vco_toNat rate (small first (List.mem_cons_self ..))
      have test : (202000000 : UInt64) ≤ rate.toUInt64 * first * 12 ↔
          202000000 ≤ rate.toNat * first.toNat * 12 := by
        rw [UInt64.le_iff_toNat_le, exact]
        rfl
      by_cases found : 202000000 ≤ rate.toNat * first.toNat * 12
      · have broke : vcoLoop rate (first :: rest) vco =
            (first, rate.toUInt64 * first * 12) := if_pos (test.mpr found)
        rw [broke]
        refine ⟨0, first, rfl, rfl, exact, found, ?_⟩
        intro j before
        omega
      · have next : vcoLoop rate (first :: rest) vco =
            vcoLoop rate rest (rate.toUInt64 * first * 12) := if_neg fun le => found (test.mp le)
        have later : ∃ i ∈ rest, 202000000 ≤ rate.toNat * i.toNat * 12 := by
          obtain ⟨i, member, enough⟩ := enough
          rcases List.mem_cons.mp member with rfl | member
          · exact absurd enough found
          · exact ⟨i, member, enough⟩
        obtain ⟨k, i, place, broke, reached, enough, fewer⟩ :=
          ih (fun i member => small i (List.mem_cons_of_mem _ member)) later
            (rate.toUInt64 * first * 12)
        rw [next]
        refine ⟨k + 1, i, place, broke, reached, enough, ?_⟩
        intro j before i' found'
        cases j with
        | zero =>
            obtain rfl : first = i' := Option.some_inj.mp found'
            exact Nat.lt_of_not_le found
        | succ j => exact fewer j (Nat.lt_of_succ_lt_succ before) i' found'

/-- The values of the loop. -/
theorem loopValue {k : ℕ} {i : UInt64}
    (place : ([4, 6, 8, 10, 12, 14] : List UInt64)[k]? = some i) :
    k < 6 ∧ i.toNat = 2 * (k + 2) := by
  have inside : k < 6 := (List.getElem?_eq_some_iff.mp place).1
  have each : ∀ k < 6, ([4, 6, 8, 10, 12, 14] : List UInt64)[k]?.map UInt64.toNat =
      some (2 * (k + 2)) := by decide
  have value := each k inside
  rw [place] at value
  exact ⟨inside, Option.some_inj.mp value⟩

/-- **The divider.** Within the range of rates the loop finds one, and `n` has four bits. -/
theorem rateVco_spec {rate : UInt32} (low : 1300000 ≤ rate.toNat) (high : rate.toNat ≤ 15000000) :
    ∃ k < 6, (rateVco rate).1 ∈ ([4, 6, 8, 10, 12, 14] : List UInt64) ∧
      (rateVco rate).1.toNat = 2 * (k + 2) ∧
      (rateVco rate).2.toNat = rate.toNat * (12 * (2 * (k + 2))) ∧
      202000000 ≤ (rateVco rate).2.toNat ∧ (rateVco rate).2.toNat < 16 * 48000000 := by
  have most : ∃ i ∈ ([4, 6, 8, 10, 12, 14] : List UInt64),
      202000000 ≤ rate.toNat * i.toNat * 12 := by
    refine ⟨14, by decide, ?_⟩
    show _ ≤ rate.toNat * 14 * 12
    omega
  obtain ⟨k, i, place, broke, reached, enough, fewer⟩ := vcoLoop_spec (by simp) most 0
  obtain ⟨inside, value⟩ := loopValue place
  rw [value] at reached enough
  rw [rateVco, broke, value, reached]
  refine ⟨k, inside, List.mem_of_getElem? place, rfl, by ring, enough, ?_⟩
  cases k with
  | zero => omega
  | succ k =>
      -- the value before was too small, so this one is not much too large
      obtain ⟨i', place'⟩ : ∃ i', ([4, 6, 8, 10, 12, 14] : List UInt64)[k]? = some i' :=
        ⟨_, List.getElem?_eq_getElem (Nat.lt_of_succ_lt inside)⟩
      have before := fewer k (Nat.lt_succ_self k) i' place'
      rw [(loopValue place').2] at before
      have few : k < 5 := Nat.lt_of_succ_lt_succ inside
      interval_cases k <;> omega

/-- The fraction has 21 bits. -/
theorem rateFract_toNat (rate : UInt32) :
    (rateFract rate).toNat = 2 ^ 21 * ((rateVco rate).2.toNat % 48000000) / 48000000 := by
  have rest : ((rateVco rate).2 % 48000000).toNat = (rateVco rate).2.toNat % 48000000 :=
    UInt64.toNat_mod ..
  have below := Nat.mod_lt (rateVco rate).2.toNat (by omega : 0 < 48000000)
  unfold rateFract
  rw [UInt64.toNat_div, UInt64.toNat_mul, rest]
  show 2 ^ 21 * _ % 2 ^ 64 / 48000000 = _
  rw [Nat.mod_eq_of_lt (by omega)]

theorem rateFract_lt (rate : UInt32) : (rateFract rate).toNat < 2 ^ 21 := by
  have below := Nat.mod_lt (rateVco rate).2.toNat (by omega : 0 < 48000000)
  rw [rateFract_toNat, Nat.div_lt_iff_lt_mul (by omega)]
  omega

/-! ## The fields of the words -/

theorem hardReg3_packs (p : MsisdrDev) :
    Packs (hardReg3 p) [⟨3, 2⟩, ⟨((rateVco p.rate).1 / 2 - 1).toNat % 2 ^ 3, 3⟩, ⟨0, 2⟩,
      ⟨(rateFract p.rate >>> 20).toNat % 2 ^ 1, 1⟩,
      ⟨((rateVco p.rate).2 / 48000000).toNat % 2 ^ 4, 4⟩,
      ⟨(0x0f &&& formatAgc p.format).toNat, 4⟩, ⟨1, 1⟩] := by
  have agc : (0x0f &&& formatAgc p.format).toNat < 2 ^ 4 := by cases p.format <;> decide
  unfold hardReg3
  generalize 0x0f &&& formatAgc p.format = agcBits at agc ⊢
  generalize rateFract p.rate = fract
  generalize rateVco p.rate = clock
  obtain ⟨i, vco⟩ := clock
  have start : Packs ((0 : BitVec 32) ||| (0x03 &&& 3 : BitVec 32) <<< 0) [⟨3, 2⟩] :=
    .single 2 (by decide) rfl
  have divider := start.orMasked 0x07 2 (i / 2 - 1) 3 rfl rfl (by decide)
  have gap := divider.orBits (0x03 &&& 0) 5 2 (by decide) rfl (by decide)
  have top := gap.orMasked 0x01 7 (fract >>> 20) 1 rfl rfl (by decide)
  have coarse := top.orMasked 0x0f 8 (vco / 48000000) 4 rfl rfl (by decide)
  have gain := coarse.orBits agcBits 12 4 agc rfl (by decide)
  exact gain.orBits (0x01 &&& 1) 16 1 (by decide) rfl (by decide)

theorem hardReg4_packs (p : MsisdrDev) :
    Packs (hardReg4 p) [⟨(rateFract p.rate).toNat % 2 ^ 20, 20⟩] := by
  unfold hardReg4
  generalize rateFract p.rate = fract
  exact Packs.nil.orMasked 0xfffff 0 fract 20 rfl rfl (by decide)

/-- The numbers are read back from the words as they are sent. -/
theorem hardReg_fields {p : MsisdrDev} (low : 1300000 ≤ p.rate.toNat)
    (high : p.rate.toNat ≤ 15000000) :
    decodedDivider ((hardReg3 p).setWidth 24).toNat = (rateVco p.rate).1.toNat / 2 - 1 ∧
      decodedN ((hardReg3 p).setWidth 24).toNat = (rateVco p.rate).2.toNat / 48000000 ∧
      decodedFract ((hardReg3 p).setWidth 24).toNat ((hardReg4 p).setWidth 24).toNat =
        (rateFract p.rate).toNat := by
  obtain ⟨k, few, -, value, -, enough, most⟩ := rateVco_spec low high
  have small := rateFract_lt p.rate
  have reg3 := (hardReg3_packs p).setWidth 24 (by simp [packedWidth])
  have reg4 := (hardReg4_packs p).setWidth 24 (by simp [packedWidth])
  have divider := reg3.read 1 rfl
  have top := reg3.read 3 rfl
  have coarse := reg3.read 4 rfl
  have rest := reg4.read 0 rfl
  refine ⟨divider.trans ?_, coarse.trans ?_, ?_⟩
  · have half : ((rateVco p.rate).1 / 2).toNat = k + 2 := by
      rw [UInt64.toNat_div, value]
      exact Nat.mul_div_cancel_left _ (by decide)
    have one : (1 : UInt64) ≤ (rateVco p.rate).1 / 2 := by
      rw [UInt64.le_iff_toNat_le, half]
      exact Nat.le_add_left 1 (k + 1)
    show ((rateVco p.rate).1 / 2 - 1).toNat % 2 ^ 3 = _
    rw [UInt64.toNat_sub_of_le _ _ one, half, value]
    show (k + 2 - 1) % 2 ^ 3 = _
    omega
  · show ((rateVco p.rate).2 / 48000000).toNat % 2 ^ 4 = _
    rw [UInt64.toNat_div]
    show (rateVco p.rate).2.toNat / 48000000 % 2 ^ 4 = _
    omega
  · have high : (rateFract p.rate >>> 20).toNat = (rateFract p.rate).toNat / 2 ^ 20 := by
      rw [UInt64.toNat_shiftRight, Nat.shiftRight_eq_div_pow]
      rfl
    have top : bitField ((hardReg3 p).setWidth 24).toNat 7 1 =
        (rateFract p.rate >>> 20).toNat % 2 ^ 1 := top
    have rest : bitField ((hardReg4 p).setWidth 24).toNat 0 20 =
        (rateFract p.rate).toNat % 2 ^ 20 := rest
    rw [decodedFract, top, rest, high]
    omega

/-! ## The accuracy -/

/-- **The rate that the registers stand for**: at most the rate that is stored, and less than half a
hertz below it. -/
theorem decodedRate_bounds {p : MsisdrDev} (low : 1300000 ≤ p.rate.toNat)
    (high : p.rate.toNat ≤ 15000000) :
    decodedRate ((hardReg3 p).setWidth 24).toNat ((hardReg4 p).setWidth 24).toNat ≤ p.rate.toNat ∧
      p.rate.toNat - 1 / 2 <
        decodedRate ((hardReg3 p).setWidth 24).toNat ((hardReg4 p).setWidth 24).toNat := by
  obtain ⟨k, few, -, value, vco, enough, most⟩ := rateVco_spec low high
  obtain ⟨divider, coarse, fract⟩ := hardReg_fields low high
  have fraction := rateFract_toNat p.rate
  have floor := Nat.mul_div_le (2 ^ 21 * ((rateVco p.rate).2.toNat % 48000000)) 48000000
  have ceiling := Nat.lt_mul_div_succ (2 ^ 21 * ((rateVco p.rate).2.toNat % 48000000))
    (by omega : 0 < 48000000)
  rw [← fraction] at floor ceiling
  have split := Nat.div_add_mod (rateVco p.rate).2.toNat 48000000
  rw [decodedRate, divider, coarse, fract, value, Nat.mul_div_cancel_left _ (by decide)]
  rw [show k + 2 - 1 = k + 1 from rfl]
  generalize (rateVco p.rate).2.toNat / 48000000 = n at *
  generalize (rateVco p.rate).2.toNat % 48000000 = rest at *
  generalize (rateFract p.rate).toNat = f at *
  have scaled : (48000000 * n + rest : ℚ) = p.rate.toNat * (12 * (2 * (k + 2))) := by
    exact_mod_cast split.trans vco
  have floor' : (48000000 * f : ℚ) ≤ 2 ^ 21 * rest := by exact_mod_cast floor
  have ceiling' : (2 ^ 21 * rest : ℚ) < 48000000 * (f + 1) := by exact_mod_cast ceiling
  have several : (0 : ℚ) ≤ k := Nat.cast_nonneg k
  have positive : (0 : ℚ) < 12 * (2 * ((k + 1 : ℕ) + 1)) := by positivity
  rw [div_le_iff₀ positive, lt_div_iff₀ positive]
  push_cast
  constructor
  · linarith
  · linarith

/-! ## `msisdr_set_hard` -/

/-- The command that starts the stream is no write of a register. -/
theorem msisdrStartAsync_chip (submitted : Bool) (startStatus : AsyncStatus) (p : OpenDevice) :
    (msisdrStartAsync submitted startStatus p).1.chip = p.chip := by
  have started : ∀ q : OpenDevice, (msisdrStreamingStart q).chip = q.chip := by
    intro q
    funext k
    rw [OpenDevice.chip, msisdrStreamingStart, lastWrite_concat]
    exact if_neg (by simp [CtrlTransfer.chipTarget, cmdStartStreaming, cmdWreg])
  rw [msisdrStartAsync]
  split
  · rfl
  · dsimp only
    split
    · rfl
    · split
      · rfl
      · exact started _

theorem SameConfig.hardFields {p q : MsisdrDev} (same : SameConfig p q) :
    hardFields q = hardFields p := by
  rw [same]
  rfl

/-- The words are coherent as long as neither they nor the fields change. -/
theorem HardCoherent.of_chip {p q : OpenDevice} (coherent : HardCoherent p)
    (chip : q.chip = p.chip) (fields : hardFields q.dev = hardFields p.dev) : HardCoherent q := by
  simp only [Driver.hardFields, Prod.mk.injEq] at fields
  obtain ⟨rate, format⟩ := fields
  constructor
  · rw [chip, coherent.chip3]
    simp only [hardReg3, rate, format]
  · rw [chip, coherent.chip4]
    simp only [hardReg4, rate]
  · rw [chip, coherent.chip7, format]

/-- **What `msisdr_set_hard` leaves** when it gets as far as the registers: the configuration that
`limitHard` makes of the one before, and the words for it. -/
theorem msisdrSetHard_reprograms (answers : StreamAnswers) (p : OpenDevice)
    (stopped : p.dev.asyncStatus = .running → 0 ≤ (msisdrStopAsync answers.rounds p).2) :
    (msisdrSetHard answers.calls p).1.dev.rate = limitRate p.dev.rate ∧
      HardCoherent (msisdrSetHard answers.calls p).1 := by
  rw [msisdrSetHard]
  split
  · next running =>
      have stop := msisdrStopAsync_config answers.rounds p
      have succeeds := stopped running
      dsimp only [StreamAnswers.calls]
      rw [if_neg (Int.not_lt.mpr succeeds)]
      generalize (msisdrStopAsync answers.rounds p).1 = q at stop ⊢
      have start := msisdrStartAsync_config answers.submitted answers.startStatus
        (programHard (msisdrAdcStop q))
      have chip := msisdrStartAsync_chip answers.submitted answers.startStatus
        (programHard (msisdrAdcStop q))
      have words := programHard_hard (msisdrAdcStop q)
      generalize msisdrStartAsync _ _ _ = result at start chip ⊢
      have restarted : (if result.2 < 0 then (result.1, (-1 : ℤ)) else (result.1, 0)).1 =
          result.1 := by
        split <;> rfl
      rw [restarted]
      have fields := start.hardFields
      refine ⟨?_, words.of_chip chip fields⟩
      have rate : result.1.dev.rate = limitRate q.dev.rate := congrArg Prod.fst fields
      have before : q.dev.rate = p.dev.rate := congrArg Prod.fst stop.hardFields
      rw [rate, before]
  · exact ⟨rfl, programHard_hard p⟩

/-- **The sample clock** that a device has, when a rate was asked for. -/
structure SampleClock (requested : UInt32) (p : OpenDevice) : Prop where
  clamped : p.dev.rate.toNat = min (max requested.toNat 1300000) 15000000
  /-- the loop has left by its `break` -/
  leaves : (rateVco p.dev.rate).1 ∈ ([4, 6, 8, 10, 12, 14] : List UInt64) ∧
    (rateVco p.dev.rate).2 = p.dev.rate.toUInt64 * (rateVco p.dev.rate).1 * 12 ∧
    202000000 ≤ (rateVco p.dev.rate).2
  divider : (rateVco p.dev.rate).1.toNat / 2 - 1 < 2 ^ 3
  n : 4 ≤ (rateVco p.dev.rate).2.toNat / 48000000 ∧ (rateVco p.dev.rate).2.toNat / 48000000 ≤ 15
  fract : (rateFract p.dev.rate).toNat < 2 ^ 21
  /-- the two registers hold these numbers, and the rate that they stand for is accurate -/
  registers : ∃ reg3 reg4, p.chip 3 = some reg3 ∧ p.chip 4 = some reg4 ∧
    decodedDivider reg3.toNat = (rateVco p.dev.rate).1.toNat / 2 - 1 ∧
    decodedN reg3.toNat = (rateVco p.dev.rate).2.toNat / 48000000 ∧
    decodedFract reg3.toNat reg4.toNat = (rateFract p.dev.rate).toNat ∧
    decodedRate reg3.toNat reg4.toNat ≤ p.dev.rate.toNat ∧
    p.dev.rate.toNat - 1 / 2 < decodedRate reg3.toNat reg4.toNat

/-- **Sample-clock synthesis.** Whatever rate is stored before `msisdr_set_hard`, and whatever it
was for, the registers hold an accurate clock after it. A stream that cannot be stopped is not
touched. -/
theorem sample_clock (answers : StreamAnswers) (p : OpenDevice)
    (stopped : p.dev.asyncStatus = .running → 0 ≤ (msisdrStopAsync answers.rounds p).2) :
    SampleClock p.dev.rate (msisdrSetHard answers.calls p).1 := by
  obtain ⟨rate, coherent⟩ := msisdrSetHard_reprograms answers p stopped
  have clamped := (congrArg UInt32.toNat rate).trans (limitRate_toNat p.dev.rate)
  generalize (msisdrSetHard answers.calls p).1 = q at clamped coherent ⊢
  have low : 1300000 ≤ q.dev.rate.toNat := by omega
  have high : q.dev.rate.toNat ≤ 15000000 := by omega
  obtain ⟨k, few, member, value, vco, enough, most⟩ := rateVco_spec low high
  obtain ⟨divider, coarse, fract⟩ := hardReg_fields low high
  obtain ⟨below, above⟩ := decodedRate_bounds low high
  refine ⟨clamped, ?_, ?_, ?_, rateFract_lt _, ?_⟩
  · refine ⟨member, UInt64.toNat_inj.mp ?_, UInt64.le_iff_toNat_le.mpr enough⟩
    rw [vco_toNat q.dev.rate (by omega), vco, value]
    ring
  · omega
  · omega
  · exact ⟨_, _, coherent.chip3, coherent.chip4, divider, coarse, fract, below, above⟩

/-! ## A stream that cannot be stopped -/

/-- Where `msisdr_stop_async` fails, `msisdr_set_hard` returns before it looks at the rate. -/
theorem msisdrSetHard_of_failedStop (answers : StreamAnswers) {p : OpenDevice}
    (running : p.dev.asyncStatus = .running) (fails : ¬ KeepRunning answers.rounds) :
    (msisdrSetHard answers.calls p).1.dev.rate = p.dev.rate := by
  have stop := msisdrStopAsync_config answers.rounds p
  have refused : (msisdrStopAsync answers.rounds p).2 < 0 :=
    Int.not_le.mp fun accepted => fails ((msisdrStopAsync_succeeds_iff running _).mp accepted)
  rw [msisdrSetHard, if_pos running]
  dsimp only [StreamAnswers.calls]
  rw [if_pos refused]
  exact congrArg Prod.fst stop.hardFields

/-- **When the clock follows every request**: as long as the stream is not RUNNING, or
`msisdr_stop_async` gets through. A request of 0 shows the other direction: it is left as it is. -/
theorem sample_clock_iff (answers : StreamAnswers) (p : OpenDevice) :
    (∀ rate, SampleClock rate (msisdrSetSampleRate answers.calls p rate).1) ↔
      (p.dev.asyncStatus = .running → KeepRunning answers.rounds) := by
  constructor
  · intro clock running
    by_contra fails
    have unclamped := msisdrSetHard_of_failedStop answers
      (p := { p with dev := { p.dev with rate := 0 } }) running fails
    have clamped := (clock 0).clamped
    rw [msisdrSetSampleRate, unclamped] at clamped
    have zero : (0 : UInt32).toNat = min (max (0 : UInt32).toNat 1300000) 15000000 := clamped
    exact absurd zero (by decide)
  · intro keeps rate
    refine sample_clock answers { p with dev := { p.dev with rate := rate } } fun running => ?_
    exact (msisdrStopAsync_succeeds_iff (p := { p with dev := { p.dev with rate := rate } }) running
      answers.rounds).mpr (keeps running)

/-- A stream at 6 Msps whose `libusb_handle_events_timeout` fails in `msisdr_stop_async`, with a
request of 20 Msps: nothing brings the rate into the range. -/
theorem failed_stop_unclamped :
    ¬ SampleClock 20000000 (msisdrSetSampleRate
      (StreamAnswers.calls ⟨[⟨.failed, .running, 0⟩], true, .paused⟩)
      ⟨{ clearedDev 0x2500 with rate := 6000000, asyncStatus := .running }, []⟩ 20000000).1 :=
  fun clock => absurd clock.clamped (by decide)

end MsiSdrDriver.Driver
