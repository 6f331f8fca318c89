import Mathlib.Algebra.Ring.Int.Defs
import Mathlib.Algebra.Ring.Nat

/-!
# The sample converters

`convert/252_s16.c`, `336_s16.c`, `384_s16.c` and `504_s16.c`. A USB buffer is a run of blocks
of 1024 bytes, each with a header of 16 bytes. The four converters share the walk over the
blocks and the check of the sample counter in the header, and differ in how they unpack the
rest. A buffer is the memory from its start on, so that the moving `src` pointer is a
position in it. The samples that a converter stores one after another are a list.
-/

set_option autoImplicit false

namespace MsiSdrDriver.Convert

/-- The conversion of an `int` to `int16_t`. -/
def toInt16 (value : ℕ) : ℤ := Int.bmod value (2 ^ 16)

/-- The fields of the device that a converter reads and writes. -/
structure SampleSync where
  addr : UInt32
  syncLossCnt : ℤ

/-- What a converter leaves: the fields of the device, the samples stored and the number of
bytes they take, which it returns. -/
structure Conversion where
  p : SampleSync
  dst : List ℤ
  used : ℤ

section Blocks

variable (buf : ℕ → UInt8)

/-- A byte, promoted to `int`. -/
abbrev byteAt (src : ℕ) : ℕ := (buf src).toNat

/-- Four bytes as a `uint32_t`, the least significant first. -/
def wordAt (src : ℕ) : UInt32 :=
  UInt32.ofNat (byteAt buf (src + 3) <<< 24 ||| byteAt buf (src + 2) <<< 16 |||
    byteAt buf (src + 1) <<< 8 ||| byteAt buf src <<< 0)

/-- How a converter unpacks the block whose header ends at a position: the samples, and the
position to which `src` has moved. -/
abbrev Decoder := (ℕ → UInt8) → ℕ → List ℤ × ℕ

/-- The loop over the blocks. `skip` is added to `src` after each block. -/
def convertBlocks (decode : Decoder) (skip : ℕ) :
    ℕ → ℕ → ℕ → UInt32 → SampleSync → SampleSync × UInt32 × List ℤ
  | 0, _, _, addr, p => (p, addr, [])
  | left + 1, i, src, _, p =>
      let addr := wordAt buf src
      let p := if i = 0 ∧ addr ≠ p.addr then { p with syncLossCnt := p.syncLossCnt + 1 } else p
      let block := decode buf (src + 16)
      let rest := convertBlocks decode skip left (i + 1) (block.2 + skip) addr p
      (rest.1, rest.2.1, block.1 ++ rest.2.2)

/-- A converter to 16-bit samples. `pairs` is what one block adds to the sample counter. -/
def convertS16 (decode : Decoder) (skip : ℕ) (pairs : UInt32) (p : SampleSync) (cnt : ℤ) :
    Conversion :=
  let walk := convertBlocks buf decode skip (cnt >>> (10 : ℕ)).toNat 0 0 0 p
  { p := { walk.1 with addr := walk.2.1 + pairs }
    dst := walk.2.2
    used := walk.2.2.length * 2 }

end Blocks

/-! ## The four layouts -/

section Layouts

variable (buf : ℕ → UInt8) (src : ℕ)

/-- 252 pairs, each sample in two bytes. -/
def decode252 : List ℤ × ℕ :=
  ((List.range 252).flatMap fun r =>
    let j := 4 * r
    [toInt16 (byteAt buf (src + (j + 0)) <<< 2 ||| byteAt buf (src + (j + 1)) <<< 10),
     toInt16 (byteAt buf (src + (j + 2)) <<< 2 ||| byteAt buf (src + (j + 3)) <<< 10)], src)

/-- 336 pairs, each in three bytes. -/
def decode336 : List ℤ × ℕ :=
  ((List.range 336).flatMap fun r =>
    let j := 3 * r
    [toInt16 ((byteAt buf (src + (j + 0)) &&& 0xff) <<< 4 |||
       (byteAt buf (src + (j + 1)) &&& 0x0f) <<< 12),
     toInt16 ((byteAt buf (src + (j + 1)) &&& 0xf0) <<< 0 |||
       (byteAt buf (src + (j + 2)) &&& 0xff) <<< 8)], src)

/-- Eight samples from ten bytes. -/
def decodeTen : List ℤ :=
  [toInt16 ((byteAt buf (src + 0) &&& 0xff) <<< 6 ||| (byteAt buf (src + 1) &&& 0x03) <<< 14),
   toInt16 ((byteAt buf (src + 1) &&& 0xfc) <<< 4 ||| (byteAt buf (src + 2) &&& 0x0f) <<< 12),
   toInt16 ((byteAt buf (src + 2) &&& 0xf0) <<< 2 ||| (byteAt buf (src + 3) &&& 0x3f) <<< 10),
   toInt16 ((byteAt buf (src + 3) &&& 0xc0) <<< 0 ||| (byteAt buf (src + 4) &&& 0xff) <<< 8),
   toInt16 ((byteAt buf (src + 5) &&& 0xff) <<< 6 ||| (byteAt buf (src + 6) &&& 0x03) <<< 14),
   toInt16 ((byteAt buf (src + 6) &&& 0xfc) <<< 4 ||| (byteAt buf (src + 7) &&& 0x0f) <<< 12),
   toInt16 ((byteAt buf (src + 7) &&& 0xf0) <<< 2 ||| (byteAt buf (src + 8) &&& 0x3f) <<< 10),
   toInt16 ((byteAt buf (src + 8) &&& 0xc0) <<< 0 ||| (byteAt buf (src + 9) &&& 0xff) <<< 8)]

/-- The `switch` that shifts eight samples to the right, with their sign. -/
def shiftSamples (code : ℕ) (samples : List ℤ) : List ℤ :=
  match code with
  | 0 => samples.map fun sample : ℤ => sample >>> (2 : ℕ)
  | 1 => samples.map fun sample : ℤ => sample >>> (1 : ℕ)
  | _ => samples

/-- The loop over the sixteen runs of ten bytes of a group. -/
def decodeRuns (shift : ℕ) : ℕ → ℕ → ℕ → List ℤ × ℕ
  | 0, _, src => ([], src)
  | left + 1, k, src =>
      let rest := decodeRuns shift left (k + 1) (src + 10)
      (shiftSamples (shift >>> (2 * k) &&& 0x3) (decodeTen buf src) ++ rest.1, rest.2)

/-- The loop over the groups, each with its shift word after 160 bytes. -/
def decodeGroups : ℕ → ℕ → List ℤ × ℕ
  | 0, src => ([], src)
  | left + 1, src =>
      let shift := wordAt buf (src + 160)
      let runs := decodeRuns buf shift.toNat 16 0 src
      let rest := decodeGroups left (runs.2 + 4)
      (runs.1 ++ rest.1, rest.2)

/-- 384 pairs in six groups. -/
def decode384 : List ℤ × ℕ := decodeGroups buf 6 src

/-- 504 pairs, each sample in one byte. -/
def decode504 : List ℤ × ℕ :=
  ((List.range 504).flatMap fun r =>
    let j := 2 * r
    [toInt16 (byteAt buf (src + (j + 0)) <<< 8), toInt16 (byteAt buf (src + (j + 1)) <<< 8)], src)

end Layouts

/-- `msisdr_samples_convert_252_s16`. -/
def msisdrSamplesConvert252S16 (p : SampleSync) (buf : ℕ → UInt8) (cnt : ℤ) : Conversion :=
  convertS16 buf decode252 1008 252 p cnt

/-- `msisdr_samples_convert_336_s16`. -/
def msisdrSamplesConvert336S16 (p : SampleSync) (buf : ℕ → UInt8) (cnt : ℤ) : Conversion :=
  convertS16 buf decode336 1008 336 p cnt

/-- `msisdr_samples_convert_384_s16`. -/
def msisdrSamplesConvert384S16 (p : SampleSync) (buf : ℕ → UInt8) (cnt : ℤ) : Conversion :=
  convertS16 buf decode384 24 384 p cnt

/-- `msisdr_samples_convert_504_s16`. -/
def msisdrSamplesConvert504S16 (p : SampleSync) (buf : ℕ → UInt8) (cnt : ℤ) : Conversion :=
  convertS16 buf decode504 1008 504 p cnt

/-- The formats with 16-bit samples. -/
inductive S16Format where
  | s16x252
  | s16x336
  | s16x384
  | s16x504
  deriving DecidableEq

/-- The converter that `_libusb_callback` calls for a format. -/
def S16Format.convert : S16Format → SampleSync → (ℕ → UInt8) → ℤ → Conversion
  | .s16x252 => msisdrSamplesConvert252S16
  | .s16x336 => msisdrSamplesConvert336S16
  | .s16x384 => msisdrSamplesConvert384S16
  | .s16x504 => msisdrSamplesConvert504S16

end MsiSdrDriver.Convert
