import Mathlib.Data.List.Basic
import Mathlib.Data.List.GetD
import MsiSdrDriver.Foundations.LittleEndianBits
import MsiSdrDriver.Convert.Converters

/-!
# The converters are bit exact

Each sample that a converter stores is one field of the block's payload, read as a
little-endian bit string, sign-extended and scaled to sixteen bits (`sampleAt`). The masks
and shifts of a layout are checked once for all bytes, as a number and its remainder
(`packed_field`), and the pointer arithmetic of the loops is the
counting of blocks, groups and runs.
-/

set_option autoImplicit false

namespace MsiSdrDriver.Convert

open MsiSdrDriver.Foundations

/-! ## What the samples should be -/

/-- Samples in a block. -/
def S16Format.perBlock : S16Format → ℕ
  | .s16x252 => 504
  | .s16x336 => 672
  | .s16x384 => 768
  | .s16x504 => 1008

/-- The 384 format's shift code of the sample `i` of a group. -/
def shiftCode (buf : ℕ → UInt8) (group i : ℕ) : ℕ :=
  bitField (littleEndian buf (group + 160) 4) (2 * (i / 8)) 2

/-- The sample `i` of the block that starts at `block`. -/
def S16Format.sampleAt (buf : ℕ → UInt8) (block : ℕ) (i : ℕ) : S16Format → ℤ
  | .s16x252 => 2 ^ (16 - 14) * signedField (littleEndian buf (block + 16) 1008) (16 * i) 14
  | .s16x336 => 2 ^ (16 - 12) * signedField (littleEndian buf (block + 16) 1008) (12 * i) 12
  | .s16x384 =>
      let group := block + 16 + 164 * (i / 128)
      2 ^ (4 + min (shiftCode buf group (i % 128)) 2) *
        signedField (littleEndian buf group 160) (10 * (i % 128)) 10
  | .s16x504 => 2 ^ (16 - 8) * signedField (littleEndian buf (block + 16) 1008) (8 * i) 8

/-! ## Masks and shifts -/

/-- Bits that do not overlap are added. -/
theorem or_low {high low shift : ℕ} (multiple : 2 ^ shift ∣ high) (below : low < 2 ^ shift) :
    high ||| low = high + low := by
  obtain ⟨value, rfl⟩ := multiple
  rw [Nat.mul_comm, ← Nat.shiftLeft_eq, Nat.shiftLeft_add_eq_or_of_lt below]

theorem or_shiftLeft {low shift : ℕ} (high : ℕ) (below : low < 2 ^ shift) :
    low ||| high <<< shift = high * 2 ^ shift + low := by
  rw [Nat.or_comm, Nat.shiftLeft_eq, or_low (Nat.dvd_mul_left _ _) below]

/-- A mask that clears the low bits of a byte. -/
theorem and_high {value cut : ℕ} (byte : value < 256) (le : cut ≤ 8) :
    value &&& (256 - 2 ^ cut) = value / 2 ^ cut * 2 ^ cut := by
  have each : ∀ cut ≤ 8, ∀ value < 256,
      value &&& (256 - 2 ^ cut) = value / 2 ^ cut * 2 ^ cut := by decide +kernel
  exact each cut le value byte

/-- **Two masked and shifted bytes are the field that starts in the first and ends in the
second**, moved to the top of sixteen bits. -/
theorem packed_field {lo hi cut keep width : ℕ} (first : lo < 256)
    (cutByte : cut ≤ 8) (keepByte : keep ≤ 8) (total : width + cut = 8 + keep) :
    (lo &&& (256 - 2 ^ cut)) <<< (16 - width - cut) ||| (hi &&& (2 ^ keep - 1)) <<< (16 - keep) =
      (lo + 256 * hi) / 2 ^ cut % 2 ^ width * 2 ^ (16 - width) := by
  obtain ⟨rest, whole⟩ := Nat.exists_eq_add_of_le cutByte
  have split : width = rest + keep := by omega
  have bytes : 256 = 2 ^ cut * 2 ^ rest := by rw [← Nat.pow_add, ← whole]
  have part : lo / 2 ^ cut < 2 ^ rest := by
    rw [Nat.div_lt_iff_lt_mul (Nat.two_pow_pos cut), Nat.mul_comm, ← bytes]
    exact first
  have field : (lo + 256 * hi) / 2 ^ cut % 2 ^ width =
      lo / 2 ^ cut + 2 ^ rest * (hi % 2 ^ keep) := by
    rw [bytes, Nat.mul_assoc, Nat.add_mul_div_left _ _ (Nat.two_pow_pos cut), split, Nat.pow_add,
      Nat.mod_mul, Nat.add_mul_mod_self_left, Nat.mod_eq_of_lt part,
      Nat.add_mul_div_left _ _ (Nat.two_pow_pos rest), Nat.div_eq_of_lt part, Nat.zero_add]
  have low : lo / 2 ^ cut * 2 ^ cut * 2 ^ (16 - width - cut) = lo / 2 ^ cut * 2 ^ (16 - width) := by
    rw [Nat.mul_assoc, ← Nat.pow_add]
    congr 2
    omega
  have place : 2 ^ (16 - keep) = 2 ^ rest * 2 ^ (16 - width) := by
    rw [← Nat.pow_add]
    congr 1
    omega
  have below : lo / 2 ^ cut * 2 ^ (16 - width) < 2 ^ (16 - keep) := by
    rw [place]
    exact Nat.mul_lt_mul_of_pos_right part (Nat.two_pow_pos _)
  rw [and_high first cutByte, Nat.and_two_pow_sub_one_eq_mod, Nat.shiftLeft_eq _ (16 - width - cut),
    low, or_shiftLeft _ below, field, place]
  ring

/-- The conversion to `int16_t` of a field at the top of sixteen bits. -/
theorem toInt16_scaled (value : ℕ) {width : ℕ} (some : 0 < width) (le : width ≤ 16) :
    toInt16 (value * 2 ^ (16 - width)) =
      2 ^ (16 - width) * Int.bmod ((value % 2 ^ width : ℕ) : ℤ) (2 ^ width) := by
  have scaled := bmod_scaled value width (16 - width) some
  rwa [Nat.add_sub_cancel' le] at scaled

section Fields

variable (buf : ℕ → UInt8) (src : ℕ)

/-- **What a converter computes from two bytes is the signed field in them, scaled.** -/
theorem toInt16_packed (cut keep width : ℕ)
    (fits : cut ≤ 8 ∧ keep ≤ 8 ∧ width + cut = 8 + keep ∧ 0 < width ∧ width ≤ 16) :
    toInt16 ((byteAt buf src &&& (256 - 2 ^ cut)) <<< (16 - width - cut) |||
        (byteAt buf (src + 1) &&& (2 ^ keep - 1)) <<< (16 - keep)) =
      2 ^ (16 - width) * signedField (littleEndian buf src 2) cut width := by
  obtain ⟨cutByte, keepByte, total, some, le⟩ := fits
  rw [packed_field (buf src).toNat_lt cutByte keepByte total, toInt16_scaled _ some le,
    littleEndian_two, Nat.mod_mod]
  rfl

/-- Two bytes that hold a field and some bits above it, in a container of sixteen bits. -/
theorem toInt16_container :
    toInt16 (byteAt buf src <<< 2 ||| byteAt buf (src + 1) <<< 10) =
      2 ^ (16 - 14) * signedField (littleEndian buf src 2) 0 14 := by
  have first : byteAt buf src < 256 := (buf src).toNat_lt
  have below : byteAt buf src <<< 2 < 2 ^ 10 := by
    rw [Nat.shiftLeft_eq]
    omega
  have number : byteAt buf (src + 1) * 2 ^ 10 + byteAt buf src <<< 2 =
      littleEndian buf src 2 * 2 ^ (16 - 14) := by
    rw [Nat.shiftLeft_eq, littleEndian_two]
    unfold byteAt
    omega
  rw [or_shiftLeft _ below, number, toInt16_scaled _ (by omega) (by omega)]
  unfold signedField bitField
  rw [Nat.pow_zero, Nat.div_one]

theorem toInt16_byte :
    toInt16 (byteAt buf src <<< 8) = 2 ^ (16 - 8) * signedField (littleEndian buf src 1) 0 8 := by
  rw [Nat.shiftLeft_eq, littleEndian_one, show 2 ^ 8 = 2 ^ (16 - 8) from rfl,
    toInt16_scaled _ (by omega) (by omega)]
  unfold signedField bitField
  rw [Nat.pow_zero, Nat.div_one]

/-- A field of a longer payload, read from the bytes it touches. -/
theorem signedField_window {len offset width : ℕ} (skip keep bit : ℕ)
    (place : offset = 8 * skip + bit) (inside : skip + keep ≤ len)
    (fits : bit + width ≤ 8 * keep) :
    signedField (littleEndian buf src len) offset width =
      signedField (littleEndian buf (src + skip) keep) bit width := by
  unfold signedField
  rw [place, bitField_window buf src inside fits]

end Fields

/-! ## The layouts -/

section Layouts

variable (buf : ℕ → UInt8) (src : ℕ)

theorem decode252_eq (block : ℕ) :
    decode252 buf (block + 16) =
      ((List.range 504).map fun i => S16Format.sampleAt buf block i .s16x252, block + 16 + 0) := by
  unfold decode252 S16Format.sampleAt
  dsimp only
  rw [congrArg List.range (by omega : 504 = 252 * 2), map_range_mul]
  refine congrArg₂ Prod.mk (List.flatMap_congr fun r member => ?_) rfl
  have inside := List.mem_range.mp member
  have pair : List.range 2 = [0, 1] := rfl
  rw [pair, List.map_cons, List.map_cons, List.map_nil,
    signedField_window buf (block + 16) (4 * r) 2 0 (by omega) (by omega) (by omega),
    signedField_window buf (block + 16) (4 * r + 2) 2 0 (by omega) (by omega) (by omega),
    ← toInt16_container, ← toInt16_container]
  rfl

theorem decode336_eq (block : ℕ) :
    decode336 buf (block + 16) =
      ((List.range 672).map fun i => S16Format.sampleAt buf block i .s16x336, block + 16 + 0) := by
  unfold decode336 S16Format.sampleAt
  dsimp only
  rw [congrArg List.range (by omega : 672 = 336 * 2), map_range_mul]
  refine congrArg₂ Prod.mk (List.flatMap_congr fun r member => ?_) rfl
  have inside := List.mem_range.mp member
  have pair : List.range 2 = [0, 1] := rfl
  rw [pair, List.map_cons, List.map_cons, List.map_nil,
    signedField_window buf (block + 16) (3 * r) 2 0 (by omega) (by omega) (by omega),
    signedField_window buf (block + 16) (3 * r + 1) 2 4 (by omega) (by omega) (by omega),
    ← toInt16_packed buf _ 0 4 12 (by decide), ← toInt16_packed buf _ 4 8 12 (by decide)]
  rfl

theorem decode504_eq (block : ℕ) :
    decode504 buf (block + 16) =
      ((List.range 1008).map fun i => S16Format.sampleAt buf block i .s16x504, block + 16 + 0) := by
  unfold decode504 S16Format.sampleAt
  dsimp only
  rw [congrArg List.range (by omega : 1008 = 504 * 2), map_range_mul]
  refine congrArg₂ Prod.mk (List.flatMap_congr fun r member => ?_) rfl
  have inside := List.mem_range.mp member
  have pair : List.range 2 = [0, 1] := rfl
  rw [pair, List.map_cons, List.map_cons, List.map_nil,
    signedField_window buf (block + 16) (2 * r) 1 0 (by omega) (by omega) (by omega),
    signedField_window buf (block + 16) (2 * r + 1) 1 0 (by omega) (by omega) (by omega),
    ← toInt16_byte, ← toInt16_byte]
  rfl

/-- Ten bytes hold eight fields of ten bits. -/
theorem decodeTen_eq :
    decodeTen buf src = (List.range 8).map fun m =>
      2 ^ (16 - 10) * signedField (littleEndian buf src 10) (10 * m) 10 := by
  have eight : List.range 8 = [0, 1, 2, 3, 4, 5, 6, 7] := rfl
  simp only [eight, List.map_cons, List.map_nil]
  rw [signedField_window buf src 0 2 0 (by omega) (by omega) (by omega),
    signedField_window buf src 1 2 2 (by omega) (by omega) (by omega),
    signedField_window buf src 2 2 4 (by omega) (by omega) (by omega),
    signedField_window buf src 3 2 6 (by omega) (by omega) (by omega),
    signedField_window buf src 5 2 0 (by omega) (by omega) (by omega),
    signedField_window buf src 6 2 2 (by omega) (by omega) (by omega),
    signedField_window buf src 7 2 4 (by omega) (by omega) (by omega),
    signedField_window buf src 8 2 6 (by omega) (by omega) (by omega),
    ← toInt16_packed buf _ 0 2 10 (by decide), ← toInt16_packed buf _ 2 4 10 (by decide),
    ← toInt16_packed buf _ 4 6 10 (by decide), ← toInt16_packed buf _ 6 8 10 (by decide),
    ← toInt16_packed buf _ 0 2 10 (by decide), ← toInt16_packed buf _ 2 4 10 (by decide),
    ← toInt16_packed buf _ 4 6 10 (by decide), ← toInt16_packed buf _ 6 8 10 (by decide)]
  rfl

/-- The shift code decides by how much a sample of ten bits is scaled. -/
theorem shiftSamples_map {α : Type} (code : ℕ) (fields : List α) (f : α → ℤ) :
    shiftSamples code (fields.map fun m => 2 ^ (16 - 10) * f m) =
      fields.map fun m => 2 ^ (4 + min code 2) * f m := by
  match code with
  | 0 =>
      simp only [shiftSamples, List.map_map]
      refine List.map_congr_left fun m _ => ?_
      simp only [Function.comp_apply, Int.shiftRight_eq_div_pow]
      show 2 ^ (16 - 10) * f m / ((2 ^ 2 : ℕ) : ℤ) = 2 ^ 4 * f m
      omega
  | 1 =>
      simp only [shiftSamples, List.map_map]
      refine List.map_congr_left fun m _ => ?_
      simp only [Function.comp_apply, Int.shiftRight_eq_div_pow]
      show 2 ^ (16 - 10) * f m / ((2 ^ 1 : ℕ) : ℤ) = 2 ^ 5 * f m
      omega
  | more + 2 =>
      have top : min (more + 2) 2 = 2 := by omega
      rw [top]
      rfl

/-- A four-byte word is the number stored there. -/
theorem wordAt_toNat : (wordAt buf src).toNat = littleEndian buf src 4 := by
  have b0 := (buf src).toNat_lt
  have b1 := (buf (src + 1)).toNat_lt
  have b2 := (buf (src + 2)).toNat_lt
  have b3 := (buf (src + 3)).toNat_lt
  have two : (buf (src + 3)).toNat * 2 ^ 24 ||| (buf (src + 2)).toNat * 2 ^ 16 =
      (buf (src + 3)).toNat * 2 ^ 24 + (buf (src + 2)).toNat * 2 ^ 16 :=
    or_low (Nat.dvd_mul_left (2 ^ 24) _) (by omega)
  have three : (buf (src + 3)).toNat * 2 ^ 24 + (buf (src + 2)).toNat * 2 ^ 16 |||
      (buf (src + 1)).toNat * 2 ^ 8 = (buf (src + 3)).toNat * 2 ^ 24 +
        (buf (src + 2)).toNat * 2 ^ 16 + (buf (src + 1)).toNat * 2 ^ 8 :=
    or_low (by omega : 2 ^ 16 ∣ _) (by omega)
  have four : (buf (src + 3)).toNat * 2 ^ 24 + (buf (src + 2)).toNat * 2 ^ 16 +
      (buf (src + 1)).toNat * 2 ^ 8 ||| (buf src).toNat * 2 ^ 0 = (buf (src + 3)).toNat * 2 ^ 24 +
        (buf (src + 2)).toNat * 2 ^ 16 + (buf (src + 1)).toNat * 2 ^ 8 +
        (buf src).toNat * 2 ^ 0 :=
    or_low (by omega : 2 ^ 8 ∣ _) (by omega)
  unfold wordAt byteAt
  simp only [Nat.shiftLeft_eq]
  rw [two, three, four, UInt32.toNat_ofNat', littleEndian_four]
  omega

/-- The position of a run in its group: after `k` runs the loop has moved `src` by `10 * k`. -/
theorem decodeRuns_eq (shift group left k : ℕ) (inside : k + left ≤ 16)
    (place : src = group + 10 * k) :
    decodeRuns buf shift left k src =
      ((List.range left).flatMap fun r => (List.range 8).map fun m =>
        2 ^ (4 + min (bitField shift (2 * (k + r)) 2) 2) *
          signedField (littleEndian buf group 160) (10 * (8 * (k + r) + m)) 10,
        group + 10 * (k + left)) := by
  subst place
  induction left generalizing k with
  | zero => simp [decodeRuns]
  | succ left ih =>
      have rest := ih (k + 1) (by omega)
      have code : shift >>> (2 * k) &&& 0x3 = bitField shift (2 * k) 2 := by
        rw [Nat.shiftRight_eq_div_pow]
        exact Nat.and_two_pow_sub_one_eq_mod _ 2
      have run : decodeTen buf (group + 10 * k) = (List.range 8).map fun m =>
          2 ^ (16 - 10) * signedField (littleEndian buf group 160) (10 * (8 * k + m)) 10 := by
        rw [decodeTen_eq]
        refine List.map_congr_left fun m member => ?_
        have few := List.mem_range.mp member
        rw [signedField_window buf group (10 * k) 10 (10 * m) (by omega) (by omega) (by omega)]
      have split : List.range (left + 1) = 0 :: (List.range left).map Nat.succ :=
        List.range_succ_eq_map
      unfold decodeRuns
      dsimp only
      rw [show group + 10 * k + 10 = group + 10 * (k + 1) from by omega, rest, code, run,
        shiftSamples_map, split, List.flatMap_cons, List.flatMap_map]
      simp only [Nat.add_zero, Nat.succ_eq_add_one, Nat.add_assoc, Nat.add_comm 1]

/-- The samples of a group, in the order of the block. -/
theorem decodeGroups_eq (start left group : ℕ) (place : src = start + 164 * group) :
    decodeGroups buf left src =
      ((List.range left).flatMap fun g => (List.range 128).map fun i =>
        2 ^ (4 + min (shiftCode buf (start + 164 * (group + g)) i) 2) *
          signedField (littleEndian buf (start + 164 * (group + g)) 160) (10 * i) 10,
        start + 164 * (group + left)) := by
  subst place
  induction left generalizing group with
  | zero => simp [decodeGroups]
  | succ left ih =>
      have rest := ih (group + 1)
      have runs := decodeRuns_eq buf (start + 164 * group)
        (littleEndian buf (start + 164 * group + 160) 4) (start + 164 * group) 16 0 (by omega) rfl
      have split : List.range (left + 1) = 0 :: (List.range left).map Nat.succ :=
        List.range_succ_eq_map
      have first : ((List.range 16).flatMap fun r => (List.range 8).map fun m =>
          2 ^ (4 + min (bitField (littleEndian buf (start + 164 * group + 160) 4) (2 * (0 + r)) 2)
            2) * signedField (littleEndian buf (start + 164 * group) 160)
              (10 * (8 * (0 + r) + m)) 10) =
          (List.range 128).map fun i =>
            2 ^ (4 + min (shiftCode buf (start + 164 * group) i) 2) *
              signedField (littleEndian buf (start + 164 * group) 160) (10 * i) 10 := by
        rw [congrArg List.range (by omega : 128 = 16 * 8), map_range_mul]
        refine List.flatMap_congr fun r _ => List.map_congr_left fun m member => ?_
        have few := List.mem_range.mp member
        unfold shiftCode
        rw [Nat.zero_add, show (r * 8 + m) / 8 = r from by omega, Nat.mul_comm 8 r]
      unfold decodeGroups
      dsimp only
      rw [wordAt_toNat, runs, show start + 164 * group + 10 * (0 + 16) + 4 =
        start + 164 * (group + 1) from by omega, rest, split, List.flatMap_cons,
        List.flatMap_map, first]
      simp only [Nat.add_zero, Nat.succ_eq_add_one, Nat.add_assoc, Nat.add_comm 1]

theorem decode384_eq (block : ℕ) :
    decode384 buf (block + 16) =
      ((List.range 768).map fun i => S16Format.sampleAt buf block i .s16x384,
        block + 16 + 984) := by
  have groups := decodeGroups_eq buf (block + 16) (block + 16) 6 0 rfl
  unfold decode384
  rw [groups, congrArg List.range (by omega : 768 = 6 * 128), map_range_mul]
  refine congrArg₂ Prod.mk ?_ (by omega)
  refine List.flatMap_congr fun g _ => List.map_congr_left fun i member => ?_
  have few := List.mem_range.mp member
  unfold S16Format.sampleAt
  dsimp only
  rw [Nat.zero_add, show (g * 128 + i) / 128 = g from by omega,
    show (g * 128 + i) % 128 = i from by omega]

end Layouts

/-! ## The walk over the blocks -/

/-- **A converter decodes one block of 1024 bytes after another.** -/
theorem convertBlocks_samples {decode : Decoder} {skip moved : ℕ} {buf : ℕ → UInt8}
    {samples : ℕ → List ℤ} (whole : 16 + moved + skip = 1024)
    (decodes : ∀ block, decode buf (block + 16) = (samples block, block + 16 + moved))
    (left i src : ℕ) (addr : UInt32) (p : SampleSync) :
    (convertBlocks buf decode skip left i src addr p).2.2 =
      (List.range left).flatMap fun b => samples (src + 1024 * b) := by
  induction left generalizing i src addr p with
  | zero => rfl
  | succ left ih =>
      have split : List.range (left + 1) = 0 :: (List.range left).map Nat.succ :=
        List.range_succ_eq_map
      unfold convertBlocks
      dsimp only
      rw [decodes, ih, split, List.flatMap_cons, List.flatMap_map]
      refine congrArg₂ _ rfl (List.flatMap_congr fun b _ => congrArg samples ?_)
      dsimp only
      omega

/-- **Each converter stores the samples of its blocks.** -/
theorem convert_dst (format : S16Format) (p : SampleSync) (buf : ℕ → UInt8) (cnt : ℤ) :
    (format.convert p buf cnt).dst =
      (List.range (cnt / 1024).toNat).flatMap fun b =>
        (List.range format.perBlock).map fun i => format.sampleAt buf (1024 * b) i := by
  have blocks : (cnt >>> (10 : ℕ)).toNat = (cnt / 1024).toNat := by
    rw [Int.shiftRight_eq_div_pow]
    rfl
  have walk : ∀ (decode : Decoder) (skip moved : ℕ) (pairs : UInt32),
      16 + moved + skip = 1024 →
      (∀ block, decode buf (block + 16) =
        ((List.range format.perBlock).map fun i => format.sampleAt buf block i,
          block + 16 + moved)) →
      (convertS16 buf decode skip pairs p cnt).dst =
        (List.range (cnt / 1024).toNat).flatMap fun b =>
          (List.range format.perBlock).map fun i => format.sampleAt buf (1024 * b) i := by
    intro decode skip moved pairs whole decodes
    unfold convertS16
    dsimp only
    rw [convertBlocks_samples whole decodes, blocks]
    simp only [Nat.zero_add]
  cases format with
  | s16x252 => exact walk decode252 1008 0 252 (by omega) (decode252_eq buf)
  | s16x336 => exact walk decode336 1008 0 336 (by omega) (decode336_eq buf)
  | s16x384 => exact walk decode384 24 984 384 (by omega) (decode384_eq buf)
  | s16x504 => exact walk decode504 1008 0 504 (by omega) (decode504_eq buf)

/-- A sample depends only on the bytes of its block. -/
theorem sampleAt_congr (format : S16Format) {buf buf' : ℕ → UInt8} {block block' i : ℕ}
    (inside : i < format.perBlock) (same : ∀ j < 1024, buf (block + j) = buf' (block' + j)) :
    format.sampleAt buf block i = format.sampleAt buf' block' i := by
  have payload : ∀ start len, start + len ≤ 1024 →
      littleEndian buf (block + start) len = littleEndian buf' (block' + start) len := by
    intro start len fits
    refine littleEndian_congr fun j small => ?_
    rw [Nat.add_assoc, Nat.add_assoc]
    exact same (start + j) (by omega)
  cases format with
  | s16x252 | s16x336 | s16x504 =>
      unfold S16Format.sampleAt
      dsimp only
      rw [payload 16 1008 (by omega)]
  | s16x384 =>
      have few : i < 768 := inside
      have group := payload (16 + 164 * (i / 128)) 160 (by omega)
      have code := payload (16 + 164 * (i / 128) + 160) 4 (by omega)
      simp only [← Nat.add_assoc] at group code
      unfold S16Format.sampleAt shiftCode
      dsimp only
      rw [group, code]

/-- A buffer given by its bytes. -/
def memory (bytes : List UInt8) : ℕ → UInt8 := fun i => bytes.getD i 0

/-- **The converters are bit exact.** A converter stores `cnt / 1024` blocks of samples and
returns their size in bytes, and each sample is its field of the payload, scaled. Buffers of
whole blocks can therefore be decoded one after the other. -/
theorem samples_bit_exact (format : S16Format) (p : SampleSync) :
    (∀ buf cnt,
      (format.convert p buf cnt).dst =
          ((List.range (cnt / 1024).toNat).flatMap fun b =>
            (List.range format.perBlock).map fun i => format.sampleAt buf (1024 * b) i) ∧
        (format.convert p buf cnt).dst.length = (cnt / 1024).toNat * format.perBlock ∧
        (format.convert p buf cnt).used = (cnt / 1024).toNat * format.perBlock * 2) ∧
      ∀ x y : List UInt8, 1024 ∣ x.length → 1024 ∣ y.length → ∀ q r,
        (format.convert p (memory (x ++ y)) (x ++ y).length).dst =
          (format.convert q (memory x) x.length).dst ++
            (format.convert r (memory y) y.length).dst := by
  have count : ∀ buf cnt, (format.convert p buf cnt).dst.length =
      (cnt / 1024).toNat * format.perBlock := by
    intro buf cnt
    rw [convert_dst, List.length_flatMap]
    simp
  refine ⟨fun buf cnt => ⟨convert_dst format p buf cnt, count buf cnt, ?_⟩, ?_⟩
  · have returned :
        (format.convert p buf cnt).used = (format.convert p buf cnt).dst.length * 2 := by
      cases format <;> rfl
    rw [returned, count]
    push_cast
    ring
  · rintro x y ⟨m, whole⟩ ⟨n, wholeToo⟩ q r
    have blocks : ∀ k : ℕ, (((1024 * k : ℕ) : ℤ) / 1024).toNat = k := by
      intro k
      omega
    have total : (x ++ y).length = 1024 * (m + n) := by
      rw [List.length_append, whole, wholeToo, Nat.mul_add]
    rw [convert_dst, convert_dst, convert_dst, total, whole, wholeToo, blocks, blocks, blocks,
      List.range_add, List.flatMap_append, List.flatMap_map]
    refine congrArg₂ (· ++ ·) ?_ ?_
    · refine List.flatMap_congr fun b member => List.map_congr_left fun i inside => ?_
      have few := List.mem_range.mp member
      refine sampleAt_congr format (List.mem_range.mp inside) fun j small => ?_
      unfold memory
      rw [List.getD_append _ _ _ _ (by omega)]
    · refine List.flatMap_congr fun b member => List.map_congr_left fun i inside => ?_
      refine sampleAt_congr format (List.mem_range.mp inside) fun j small => ?_
      unfold memory
      rw [List.getD_append_right _ _ _ _ (by omega)]
      congr 1
      omega

theorem samples_bit_exact_two_blocks :
    (S16Format.s16x384.convert ⟨0, 0⟩
        (memory (List.replicate 1024 0xff ++ List.replicate 1024 0x80)) ((2048 : ℕ) : ℤ)).dst =
      (S16Format.s16x384.convert ⟨0, 0⟩ (memory (List.replicate 1024 0xff)) ((1024 : ℕ) : ℤ)).dst ++
        (S16Format.s16x384.convert ⟨384, 0⟩ (memory (List.replicate 1024 0x80))
          ((1024 : ℕ) : ℤ)).dst := by
  have exact := (samples_bit_exact .s16x384 ⟨0, 0⟩).2 (List.replicate 1024 0xff)
    (List.replicate 1024 0x80) (by rw [List.length_replicate]) (by rw [List.length_replicate])
    ⟨0, 0⟩ ⟨384, 0⟩
  rwa [List.length_append, List.length_replicate, List.length_replicate] at exact

end MsiSdrDriver.Convert
