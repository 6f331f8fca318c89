import MsiSdrDriver.Convert.BitExact
import MsiSdrDriver.Driver.Device

/-!
# The 8-bit pass-through and the five formats

`convert/504_s8.c`, and the five converters side by side, as `_libusb_callback` chooses between
them: what a converter stores is then a run of bytes. The pass-through copies the payload of a
block as it is. It looks at one header only, the first of the buffer, and its loop goes by the
offset in the buffer, where the loops of the others go by the number of blocks.

What a converter stores (`convert_dst_eq`, `convert_used`) and what it leaves in the two fields of
the device (`convert_syncLossCnt`, `convert_addr`) is one statement for all of them, in terms of
the number of blocks its loop goes through (`blocksRead`).
-/

set_option autoImplicit false

namespace MsiSdrDriver.Convert

open MsiSdrDriver.Driver
open MsiSdrDriver.Foundations

/-! ## The 8-bit converter -/

/-- What a converter leaves, with the bytes it stores. -/
structure Converted where
  p : SampleSync
  dst : List UInt8
  used : ℤ

/-- The 1008 bytes that follow a header. -/
def payload (src : ℕ → UInt8) (start : ℕ) : List UInt8 :=
  (List.range 1008).map fun j => src (start + j)

/-- The loop of the 8-bit converter from the offset `i` on: the device and the bytes stored. -/
def copyBlocks (src : ℕ → UInt8) (cnt : ℤ) (i : ℕ) (p : SampleSync) : SampleSync × List UInt8 :=
  if (i : ℤ) < cnt then
    let rest := copyBlocks src cnt (i + 1024) { p with addr := p.addr + 504 }
    (rest.1, payload src i ++ rest.2)
  else (p, [])
termination_by (cnt - i).toNat

/-- `msisdr_samples_convert_504_s8`. -/
def msisdrSamplesConvert504S8 (p : SampleSync) (src : ℕ → UInt8) (cnt : ℤ) : Converted :=
  let addr := wordAt src 0
  let p := if p.addr ≠ addr then { addr := addr, syncLossCnt := p.syncLossCnt + 1 } else p
  let walk := copyBlocks src cnt 16 p
  { p := walk.1, dst := walk.2, used := walk.2.length }

/-! ## The five formats -/

/-- An `int16_t` in memory, the least significant byte first. -/
def sampleBytes (sample : ℤ) : List UInt8 :=
  [UInt8.ofInt sample, UInt8.ofInt (sample >>> (8 : ℕ))]

theorem sampleBytes_length (sample : ℤ) : (sampleBytes sample).length = 2 := rfl

/-- The stored samples as bytes. -/
def Conversion.stored (conversion : Conversion) : Converted where
  p := conversion.p
  dst := conversion.dst.flatMap sampleBytes
  used := conversion.used

/-- The converter that `_libusb_callback` calls for a format. -/
def convert (format : Format) (p : SampleSync) (buf : ℕ → UInt8) (cnt : ℤ) : Converted :=
  match format with
  | .s16x252 => (msisdrSamplesConvert252S16 p buf cnt).stored
  | .s16x336 => (msisdrSamplesConvert336S16 p buf cnt).stored
  | .s16x384 => (msisdrSamplesConvert384S16 p buf cnt).stored
  | .s16x504 => (msisdrSamplesConvert504S16 p buf cnt).stored
  | .s8x504 => msisdrSamplesConvert504S8 p buf cnt

/-- The layout of a format with 16-bit samples. -/
def layout? : Format → Option S16Format
  | .s16x252 => some .s16x252
  | .s16x336 => some .s16x336
  | .s16x384 => some .s16x384
  | .s16x504 => some .s16x504
  | .s8x504 => none

theorem layout?_eq_none_iff {format : Format} : layout? format = none ↔ format = .s8x504 := by
  cases format with
  | s16x252 | s16x336 | s16x384 | s16x504 => exact ⟨nofun, nofun⟩
  | s8x504 => exact ⟨fun _ => rfl, fun _ => rfl⟩

theorem convert_of_layout {format : Format} {layout : S16Format}
    (wide : layout? format = some layout) (p : SampleSync) (buf : ℕ → UInt8) (cnt : ℤ) :
    convert format p buf cnt = (layout.convert p buf cnt).stored := by
  cases format with
  | s16x252 | s16x336 | s16x384 | s16x504 =>
      obtain rfl := Option.some.inj wide
      rfl
  | s8x504 => cases wide

/-- What a block adds to the sample counter. -/
def pairs : Format → UInt32
  | .s16x252 => 252
  | .s16x336 => 336
  | .s16x384 => 384
  | .s16x504 | .s8x504 => 504

/-- The bytes that a converter stores for a block. -/
def blockBytes : Format → ℕ
  | .s16x252 | .s8x504 => 1008
  | .s16x336 => 1344
  | .s16x384 => 1536
  | .s16x504 => 2016

/-- The number of blocks that the loop of a converter goes through. -/
def blocksRead (format : Format) (cnt : ℤ) : ℕ :=
  if format = .s8x504 then ((cnt + 1007) / 1024).toNat else (cnt / 1024).toNat

/-- What a converter stores for the block that starts at `block`. -/
def blockOutput (format : Format) (buf : ℕ → UInt8) (block : ℕ) : List UInt8 :=
  match layout? format with
  | some layout =>
      ((List.range layout.perBlock).map fun i => layout.sampleAt buf block i).flatMap sampleBytes
  | none => payload buf (block + 16)

/-- Pieces of one length. -/
theorem length_flatMap_same {α β : Type} {f : α → List β} {size : ℕ}
    (same : ∀ a, (f a).length = size) (list : List α) :
    (list.flatMap f).length = list.length * size := by
  induction list with
  | nil => exact (Nat.zero_mul size).symm
  | cons a rest ih =>
      rw [List.flatMap_cons, List.length_append, same, ih, List.length_cons, Nat.add_mul]
      omega

theorem blockOutput_length (format : Format) (buf : ℕ → UInt8) (block : ℕ) :
    (blockOutput format buf block).length = blockBytes format := by
  cases format with
  | s16x252 | s16x336 | s16x384 | s16x504 =>
      simp only [blockOutput, layout?]
      rw [length_flatMap_same sampleBytes_length, List.length_map, List.length_range]
      rfl
  | s8x504 =>
      simp only [blockOutput, layout?]
      rw [payload, List.length_map, List.length_range]
      rfl

/-! ## What a block depends on -/

theorem wordAt_congr {buf buf' : ℕ → UInt8} {src src' : ℕ}
    (same : ∀ j < 4, buf (src + j) = buf' (src' + j)) : wordAt buf src = wordAt buf' src' := by
  apply UInt32.toNat_inj.mp
  rw [wordAt_toNat, wordAt_toNat, littleEndian_congr same]

/-- The output of a block depends on the bytes of the block. -/
theorem blockOutput_congr (format : Format) {buf buf' : ℕ → UInt8} {block block' : ℕ}
    (same : ∀ j < 1024, buf (block + j) = buf' (block' + j)) :
    blockOutput format buf block = blockOutput format buf' block' := by
  rw [blockOutput, blockOutput]
  cases layout? format with
  | some layout =>
      dsimp only
      refine congrArg (List.flatMap sampleBytes) (List.map_congr_left fun i member => ?_)
      exact sampleAt_congr layout (List.mem_range.mp member) same
  | none =>
      refine List.map_congr_left fun j member => ?_
      have inside := List.mem_range.mp member
      have byte := same (16 + j) (by omega)
      rwa [← Nat.add_assoc, ← Nat.add_assoc] at byte

/-! ## The loop by offset -/

/-- The loop goes through every block that starts before the end, even if it does not end
there. -/
theorem copyBlocks_eq (src : ℕ → UInt8) (cnt : ℤ) (i : ℕ) (p : SampleSync) :
    copyBlocks src cnt i p =
      ({ p with addr := p.addr + 504 * UInt32.ofNat ((cnt - i + 1023) / 1024).toNat },
        (List.range ((cnt - i + 1023) / 1024).toNat).flatMap fun b =>
          payload src (i + 1024 * b)) := by
  induction i, p using copyBlocks.induct src cnt with
  | case1 i p inside ih =>
      have count : ((cnt - i + 1023) / 1024).toNat =
          ((cnt - (i + 1024 : ℕ) + 1023) / 1024).toNat + 1 := by omega
      rw [copyBlocks, if_pos inside]
      dsimp only at ih ⊢
      rw [ih, count, List.range_succ_eq_map, List.flatMap_cons, List.flatMap_map]
      refine congrArg₂ Prod.mk ?_ (congrArg₂ _ rfl (List.flatMap_congr fun b _ => ?_))
      · refine congrArg (SampleSync.mk · p.syncLossCnt) ?_
        rw [UInt32.ofNat_add, UInt32.mul_add, UInt32.add_assoc, UInt32.add_comm 504]
        rfl
      · exact congrArg (payload src) (by omega)
  | case2 i p outside =>
      have count : ((cnt - i + 1023) / 1024).toNat = 0 := by omega
      rw [copyBlocks, if_neg outside, count]
      refine congrArg₂ Prod.mk ?_ rfl
      refine congrArg (SampleSync.mk · p.syncLossCnt) ?_
      exact (UInt32.add_zero _).symm

theorem copyBlocks_start (src : ℕ → UInt8) (cnt : ℤ) (p : SampleSync) :
    copyBlocks src cnt 16 p =
      ({ p with addr := p.addr + 504 * UInt32.ofNat (blocksRead .s8x504 cnt) },
        (List.range (blocksRead .s8x504 cnt)).flatMap fun b =>
          blockOutput .s8x504 src (1024 * b)) := by
  have count : ((cnt - (16 : ℕ) + 1023) / 1024).toNat = blocksRead .s8x504 cnt := by
    rw [blocksRead, if_pos rfl]
    congr 2
    omega
  rw [copyBlocks_eq, count]
  refine congrArg₂ Prod.mk rfl (List.flatMap_congr fun b _ => ?_)
  exact congrArg (payload src) (by omega)

/-! ## What a converter leaves -/

/-- **What a converter stores**: the output of each block it reads. -/
theorem convert_dst_eq (format : Format) (p : SampleSync) (buf : ℕ → UInt8) (cnt : ℤ) :
    (convert format p buf cnt).dst =
      (List.range (blocksRead format cnt)).flatMap fun b => blockOutput format buf (1024 * b) := by
  cases wide : layout? format with
  | none =>
      obtain rfl := layout?_eq_none_iff.mp wide
      rw [convert, msisdrSamplesConvert504S8]
      dsimp only
      rw [copyBlocks_start]
  | some layout =>
      have other : format ≠ .s8x504 := by
        rintro rfl
        cases wide
      rw [convert_of_layout wide, Conversion.stored, convert_dst, List.flatMap_assoc, blocksRead,
        if_neg other]
      dsimp only
      refine List.flatMap_congr fun b _ => ?_
      rw [blockOutput, wide]

theorem convert_length (format : Format) (p : SampleSync) (buf : ℕ → UInt8) (cnt : ℤ) :
    (convert format p buf cnt).dst.length = blocksRead format cnt * blockBytes format := by
  rw [convert_dst_eq, length_flatMap_same fun b => blockOutput_length format buf (1024 * b),
    List.length_range]

/-- A converter returns the number of bytes that it has stored. -/
theorem convert_used (format : Format) (p : SampleSync) (buf : ℕ → UInt8) (cnt : ℤ) :
    (convert format p buf cnt).used = (convert format p buf cnt).dst.length := by
  cases wide : layout? format with
  | none =>
      obtain rfl := layout?_eq_none_iff.mp wide
      rfl
  | some layout =>
      have used := ((samples_bit_exact layout p).1 buf cnt).2.2
      have length := ((samples_bit_exact layout p).1 buf cnt).2.1
      rw [convert_of_layout wide]
      simp only [Conversion.stored]
      rw [used, length_flatMap_same sampleBytes_length, length]
      push_cast
      rfl

/-- Only the first header of a buffer is checked. -/
theorem convertBlocks_later (buf : ℕ → UInt8) (decode : Decoder) (skip left i src : ℕ)
    (addr : UInt32) (p : SampleSync) (later : i ≠ 0) :
    (convertBlocks buf decode skip left i src addr p).1 = p := by
  induction left generalizing i src addr with
  | zero => rfl
  | succ left ih =>
      rw [convertBlocks]
      dsimp only
      rw [if_neg fun lost => later lost.1]
      exact ih (i + 1) _ _ (Nat.succ_ne_zero i)

theorem convertBlocks_checked (buf : ℕ → UInt8) (decode : Decoder) (skip left : ℕ)
    (addr : UInt32) (p : SampleSync) :
    (convertBlocks buf decode skip left 0 0 addr p).1 =
      { p with syncLossCnt := p.syncLossCnt +
          if 0 < left ∧ wordAt buf 0 ≠ p.addr then 1 else 0 } := by
  cases left with
  | zero =>
      rw [if_neg fun lost => Nat.lt_irrefl 0 lost.1, Int.add_zero]
      rfl
  | succ left =>
      rw [convertBlocks]
      dsimp only
      rw [convertBlocks_later _ _ _ _ _ _ _ _ (Nat.succ_ne_zero 0)]
      by_cases lost : wordAt buf 0 ≠ p.addr
      · rw [if_pos ⟨rfl, lost⟩, if_pos ⟨Nat.succ_pos left, lost⟩]
      · rw [if_neg fun both => lost both.2, if_neg fun both => lost both.2, Int.add_zero]

/-- The walk over the blocks ends with the header of the last one. -/
theorem convertBlocks_last {decode : Decoder} {skip moved : ℕ} {buf : ℕ → UInt8}
    (whole : 16 + moved + skip = 1024)
    (decodes : ∀ block, (decode buf (block + 16)).2 = block + 16 + moved)
    (left i src : ℕ) (addr : UInt32) (p : SampleSync) :
    (convertBlocks buf decode skip left i src addr p).2.1 =
      if left = 0 then addr else wordAt buf (src + 1024 * (left - 1)) := by
  induction left generalizing i src addr p with
  | zero => rfl
  | succ left ih =>
      rw [convertBlocks]
      dsimp only
      rw [decodes, ih, if_neg (Nat.succ_ne_zero left), Nat.add_sub_cancel]
      by_cases last : left = 0
      · rw [if_pos last, last]
        rfl
      · rw [if_neg last]
        exact congrArg (wordAt buf) (by omega)

/-- The header that a converter has in `addr` when its loop is done. -/
def lastHeader (format : Format) (buf : ℕ → UInt8) (cnt : ℤ) : UInt32 :=
  if blocksRead format cnt = 0 then 0 else wordAt buf (1024 * (blocksRead format cnt - 1))

/-- A converter looks at the first header, if its loop reads a block; the pass-through always
does. -/
def Checks (format : Format) (cnt : ℤ) : Prop := format = .s8x504 ∨ 0 < blocksRead format cnt

instance (format : Format) (cnt : ℤ) : Decidable (Checks format cnt) :=
  inferInstanceAs (Decidable (_ ∨ _))

theorem convert504S8_p (p : SampleSync) (buf : ℕ → UInt8) (cnt : ℤ) :
    (msisdrSamplesConvert504S8 p buf cnt).p =
      { addr := wordAt buf 0 + 504 * UInt32.ofNat (blocksRead .s8x504 cnt)
        syncLossCnt := p.syncLossCnt + if wordAt buf 0 ≠ p.addr then 1 else 0 } := by
  rw [msisdrSamplesConvert504S8]
  dsimp only
  rw [copyBlocks_start]
  by_cases same : p.addr = wordAt buf 0
  · rw [if_neg (not_not.mpr same), if_neg (not_not.mpr same.symm), Int.add_zero, ← same]
  · rw [if_pos same, if_pos fun equal => same equal.symm]

/-- **What a converter leaves in the device.** -/
theorem convert_p (format : Format) (p : SampleSync) (buf : ℕ → UInt8) (cnt : ℤ) :
    (convert format p buf cnt).p =
      { addr :=
          if format = .s8x504 then wordAt buf 0 + 504 * UInt32.ofNat (blocksRead format cnt)
          else lastHeader format buf cnt + pairs format
        syncLossCnt := p.syncLossCnt +
          if Checks format cnt ∧ wordAt buf 0 ≠ p.addr then 1 else 0 } := by
  have wide : ∀ (other : Format) (decode : Decoder) (skip moved : ℕ), other ≠ .s8x504 →
      16 + moved + skip = 1024 →
      (∀ block, (decode buf (block + 16)).2 = block + 16 + moved) →
      (convertS16 buf decode skip (pairs other) p cnt).p =
        { addr := lastHeader other buf cnt + pairs other
          syncLossCnt := p.syncLossCnt +
            if Checks other cnt ∧ wordAt buf 0 ≠ p.addr then 1 else 0 } := by
    intro other decode skip moved different whole decodes
    have blocks : (cnt >>> (10 : ℕ)).toNat = blocksRead other cnt := by
      rw [Int.shiftRight_eq_div_pow, blocksRead, if_neg different]
      rfl
    have last := convertBlocks_last whole decodes (blocksRead other cnt) 0 0 0 p
    rw [Nat.zero_add] at last
    simp only [convertS16]
    rw [blocks, convertBlocks_checked, last, lastHeader]
    simp only [Checks, different, false_or]
  cases format with
  | s16x252 =>
      exact wide .s16x252 decode252 1008 0 (by decide) (by decide) fun block => by
        rw [decode252_eq]
  | s16x336 =>
      exact wide .s16x336 decode336 1008 0 (by decide) (by decide) fun block => by
        rw [decode336_eq]
  | s16x384 =>
      exact wide .s16x384 decode384 24 984 (by decide) (by decide) fun block => by
        rw [decode384_eq]
  | s16x504 =>
      exact wide .s16x504 decode504 1008 0 (by decide) (by decide) fun block => by
        rw [decode504_eq]
  | s8x504 =>
      have checks : Checks .s8x504 cnt := .inl rfl
      have passed : (convert .s8x504 p buf cnt).p = _ := convert504S8_p p buf cnt
      rw [passed, if_pos (rfl : Format.s8x504 = .s8x504)]
      by_cases lost : wordAt buf 0 ≠ p.addr
      · rw [if_pos lost, if_pos ⟨checks, lost⟩]
      · rw [if_neg lost, if_neg fun both => lost both.2]

theorem convert_syncLossCnt (format : Format) (p : SampleSync) (buf : ℕ → UInt8) (cnt : ℤ) :
    (convert format p buf cnt).p.syncLossCnt =
      p.syncLossCnt + if Checks format cnt ∧ wordAt buf 0 ≠ p.addr then 1 else 0 := by
  rw [convert_p]

theorem convert_addr (format : Format) (p : SampleSync) (buf : ℕ → UInt8) (cnt : ℤ) :
    (convert format p buf cnt).p.addr =
      if format = .s8x504 then wordAt buf 0 + 504 * UInt32.ofNat (blocksRead format cnt)
      else lastHeader format buf cnt + pairs format := by
  rw [convert_p]

end MsiSdrDriver.Convert
