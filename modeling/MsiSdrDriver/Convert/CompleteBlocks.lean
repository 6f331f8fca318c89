import MsiSdrDriver.Convert.PassThrough

/-!
# Only received blocks are decoded

A buffer of `cnt` bytes holds `cnt / 1024` complete blocks, and what follows them, if anything, is
left over from an earlier transfer. The four converters to 16-bit samples decode the complete blocks
and nothing else. The pass-through goes by the offset: it copies one block more if more than the
header of it is there, and it reads the first header of a buffer even if no block is there.
`decodes_complete_iff` gives the lengths at which a converter keeps to the complete blocks.
-/

set_option autoImplicit false

namespace MsiSdrDriver.Convert

open MsiSdrDriver.Driver
open MsiSdrDriver.Foundations

/-! ## What it means -/

/-- The number of complete blocks in a buffer. -/
def completeBlocks (cnt : ℤ) : ℕ := (cnt / 1024).toNat

/-- Two buffers with the same complete blocks. -/
def SameBlocks (cnt : ℤ) (buf buf' : ℕ → UInt8) : Prop :=
  ∀ i < 1024 * completeBlocks cnt, buf i = buf' i

/-- The high byte of an `int16_t`. -/
def highByte (sample : ℤ) : UInt8 := UInt8.ofInt (sample >>> (8 : ℕ))

/-- **A converter decodes the complete blocks** of the buffers of a length, and nothing else. -/
structure DecodesComplete (format : Format) (cnt : ℤ) : Prop where
  independent : ∀ p buf buf', SameBlocks cnt buf buf' →
    convert format p buf cnt = convert format p buf' cnt
  length : ∀ p buf,
    (convert format p buf cnt).dst.length = completeBlocks cnt * blockBytes format
  returns : ∀ p buf, (convert format p buf cnt).used = completeBlocks cnt * blockBytes format
  highBytes : format = .s8x504 → ∀ p q buf,
    (convert format p buf cnt).dst = (msisdrSamplesConvert504S16 q buf cnt).dst.map highByte

/-! ## The 8-bit samples -/

theorem ofInt_signedByte (byte : UInt8) :
    UInt8.ofInt (signedField byte.toNat 0 8) = byte := by
  have small := byte.toNat_lt
  apply UInt8.toNat_inj.mp
  have number : (signedField byte.toNat 0 8) % 2 ^ 8 = byte.toNat := by
    rw [signedField, bitField, Nat.pow_zero, Nat.div_one, Nat.mod_eq_of_lt small]
    have whole : ((2 : ℤ) ^ 8) = ((2 ^ 8 : ℕ) : ℤ) := rfl
    rw [whole, Int.bmod_emod]
    omega
  rw [UInt8.ofInt, number, Int.toNat_natCast, UInt8.ofNat_toNat]

/-- The high byte of a sample is the byte it was decoded from. -/
theorem highByte_sampleAt (buf : ℕ → UInt8) (block : ℕ) {i : ℕ} (inside : i < 1008) :
    highByte (S16Format.sampleAt buf block i .s16x504) = buf (block + 16 + i) := by
  have field : signedField (littleEndian buf (block + 16) 1008) (8 * i) 8 =
      signedField (buf (block + 16 + i)).toNat 0 8 := by
    rw [signedField_window buf (block + 16) i 1 0 (by omega) (by omega) (by omega),
      littleEndian_one]
  have shifted : ∀ value : ℤ, (2 ^ (16 - 8) * value) >>> (8 : ℕ) = value := by
    intro value
    rw [Int.shiftRight_eq_div_pow]
    exact Int.mul_ediv_cancel_left value (by decide)
  rw [S16Format.sampleAt, field, highByte, shifted, ofInt_signedByte]

/-- **The pass-through stores the high bytes** of the samples of the wide converter, for each block
that it reads. -/
theorem blockOutput_highBytes (buf : ℕ → UInt8) (block : ℕ) :
    blockOutput .s8x504 buf block =
      ((List.range 1008).map fun i => S16Format.sampleAt buf block i .s16x504).map highByte := by
  simp only [blockOutput, layout?]
  rw [payload, List.map_map]
  refine List.map_congr_left fun i member => ?_
  exact (highByte_sampleAt buf block (List.mem_range.mp member)).symm

/-! ## The bytes that a converter depends on -/

/-- **Where a converter reads only complete blocks and a header only of a block that is there, it
depends on the complete blocks only.** -/
theorem convert_congr {format : Format} {cnt : ℤ}
    (reads : blocksRead format cnt = completeBlocks cnt)
    (checks : Checks format cnt → 0 < completeBlocks cnt) (p : SampleSync) {buf buf' : ℕ → UInt8}
    (same : SameBlocks cnt buf buf') :
    convert format p buf cnt = convert format p buf' cnt := by
  have header : ∀ block < completeBlocks cnt,
      wordAt buf (1024 * block) = wordAt buf' (1024 * block) := by
    intro block inside
    exact wordAt_congr fun j small => same _ (by omega)
  have dst : (convert format p buf cnt).dst = (convert format p buf' cnt).dst := by
    rw [convert_dst_eq, convert_dst_eq, reads]
    refine List.flatMap_congr fun block member => blockOutput_congr format fun j small => ?_
    have inside := List.mem_range.mp member
    exact same _ (by omega)
  have used : (convert format p buf cnt).used = (convert format p buf' cnt).used := by
    rw [convert_used, convert_used, dst]
  have last : lastHeader format buf cnt = lastHeader format buf' cnt := by
    rw [lastHeader, lastHeader, reads]
    by_cases empty : completeBlocks cnt = 0
    · rw [if_pos empty, if_pos empty]
    · rw [if_neg empty, if_neg empty]
      exact header _ (by omega)
  have fields : (convert format p buf cnt).p = (convert format p buf' cnt).p := by
    rw [convert_p, convert_p, last]
    by_cases checked : Checks format cnt
    · have first := header 0 (checks checked)
      rw [Nat.mul_zero] at first
      rw [first]
    · have wide : format ≠ .s8x504 := fun narrow => checked (.inl narrow)
      rw [if_neg wide, if_neg wide, if_neg fun both => checked both.1,
        if_neg fun both => checked both.1]
  generalize convert format p buf cnt = left at dst used fields ⊢
  generalize convert format p buf' cnt = right at dst used fields ⊢
  obtain ⟨p, bytes, count⟩ := left
  obtain ⟨q, bytes', count'⟩ := right
  dsimp only at dst used fields
  rw [dst, used, fields]

/-! ## The lengths -/

theorem blocksRead_eq_iff (format : Format) (cnt : ℤ) :
    blocksRead format cnt = completeBlocks cnt ↔
      format ≠ .s8x504 ∨ cnt ≤ 16 ∨ cnt % 1024 ≤ 16 := by
  rw [blocksRead, completeBlocks]
  by_cases narrow : format = .s8x504
  · rw [if_pos narrow]
    constructor
    · intro same
      right
      omega
    · rintro (wide | lengths)
      · exact absurd narrow wide
      · omega
  · rw [if_neg narrow]
    exact ⟨fun _ => .inl narrow, fun _ => rfl⟩

/-- The resynchronising read ends in the middle of a block, and the pass-through decodes that block
as well. -/
theorem decodes_incomplete : ¬ ∀ (format : Format) (cnt : ℤ), DecodesComplete format cnt := by
  intro complete
  have length := (complete .s8x504 15872).length ⟨0, 0⟩ (fun _ => 0)
  rw [convert_length] at length
  have differ : 16 * 1008 = 15 * 1008 := length
  exact absurd differ (by decide)

/-- Without a complete block, the pass-through takes the header from behind what it is given, and
counts a loss or not by what is there. -/
theorem header_without_block {cnt : ℤ} (empty : cnt < 1024) : ¬ DecodesComplete .s8x504 cnt := by
  intro complete
  have none : completeBlocks cnt = 0 := by
    rw [completeBlocks]
    omega
  have same : SameBlocks cnt (fun _ => 0) (fun _ => 1) := by
    intro i inside
    rw [none] at inside
    omega
  have quiet : (convert .s8x504 ⟨0, 0⟩ (fun _ => 0) cnt).p.syncLossCnt = 0 := by
    rw [convert_syncLossCnt, if_neg fun lost => lost.2 (by decide), Int.add_zero]
  have counted : (convert .s8x504 ⟨0, 0⟩ (fun _ => 1) cnt).p.syncLossCnt = 1 := by
    rw [convert_syncLossCnt, if_pos ⟨.inl rfl, by decide⟩]
    rfl
  rw [complete.independent ⟨0, 0⟩ _ _ same, counted] at quiet
  exact absurd quiet (by decide)

/-- **A converter decodes the complete blocks and nothing else**, unless it is the pass-through and
either no complete block is there or more than the header of a further one. -/
theorem decodes_complete_iff (format : Format) (cnt : ℤ) :
    DecodesComplete format cnt ↔ format ≠ .s8x504 ∨ 1024 ≤ cnt ∧ cnt % 1024 ≤ 16 := by
  constructor
  · intro complete
    by_contra fails
    rw [not_or, not_not] at fails
    obtain ⟨rfl, short⟩ := fails
    by_cases empty : cnt < 1024
    · exact header_without_block empty complete
    · have length := complete.length ⟨0, 0⟩ (fun _ => 0)
      rw [convert_length] at length
      have reads := Nat.eq_of_mul_eq_mul_right (by decide) length
      rcases (blocksRead_eq_iff .s8x504 cnt).mp reads with wide | few | short'
      · exact wide rfl
      · omega
      · omega
  · intro lengths
    have reads : blocksRead format cnt = completeBlocks cnt := by
      rw [blocksRead_eq_iff]
      rcases lengths with wide | ⟨-, short⟩
      · exact .inl wide
      · exact .inr (.inr short)
    have checks : Checks format cnt → 0 < completeBlocks cnt := by
      rintro (narrow | some)
      · rcases lengths with wide | ⟨large, -⟩
        · exact absurd narrow wide
        · rw [completeBlocks]
          omega
      · rwa [reads] at some
    refine ⟨fun p buf buf' same => convert_congr reads checks p same, fun p buf => ?_,
      fun p buf => ?_, ?_⟩
    · rw [convert_length, reads]
    · rw [convert_used, convert_length, reads]
      push_cast
      rfl
    · rintro rfl p q buf
      have wide : (msisdrSamplesConvert504S16 q buf cnt).dst = _ := convert_dst .s16x504 q buf cnt
      rw [convert_dst_eq, wide, List.map_flatMap, reads]
      exact List.flatMap_congr fun block _ => blockOutput_highBytes buf (1024 * block)

end MsiSdrDriver.Convert
