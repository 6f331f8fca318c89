import MsiSdrDriver.Async.Feed
import MsiSdrDriver.Convert.PassThrough
import MsiSdrDriver.Driver.Hard

/-!
# Completed transfers

`_libusb_callback` as it handles a transfer that has completed: it makes room for the samples,
converts what has arrived, feeds the application and chooses the length with which a BULK transfer
is submitted again. A run is a sequence of such transfers, between which `msisdr_set_hard` may
choose another format.

The samples of every format go to one buffer, which only grows. A converter that would write
outside of it fails here, so that a run that returns has stayed inside.
-/

set_option autoImplicit false

namespace MsiSdrDriver.Async

open MsiSdrDriver.Convert
open MsiSdrDriver.Driver

/-! ## Transfers -/

/-- `DEFAULT_ISO_BUFFERS`. -/
def defaultIsoBuffers : ℕ := 3

/-- `DEFAULT_ISO_PACKETS`. -/
def defaultIsoPackets : ℕ := 8

/-- `DEFAULT_BULK_BUFFER`. -/
def defaultBulkBuffer : ℕ := 16384

/-- What a converter is given: the memory from the start of a buffer on, and how many bytes of it
have arrived. -/
structure Packet where
  buffer : ℕ → UInt8
  actualLength : ℕ

/-- A completed transfer. -/
inductive CompletedXfer where
  | bulk (packet : Packet)
  | isoc (packets : Fin defaultIsoPackets → Packet)

/-- `xfer->type`. -/
def CompletedXfer.type : CompletedXfer → Transfer
  | .bulk _ => .bulk
  | .isoc _ => .isoc

/-- What is converted. The loop over the packets of an ISOC transfer leaves out the empty ones. -/
def CompletedXfer.converted : CompletedXfer → List Packet
  | .bulk packet => [packet]
  | .isoc packets => (List.ofFn packets).filter fun packet => 0 < packet.actualLength

/-- The size that is asked of `samples_realloc`. -/
def samplesSize : Transfer → Format → ℕ
  | .isoc, .s16x252 => 504 * defaultIsoBuffers * defaultIsoPackets * 2
  | .isoc, .s16x336 => 672 * defaultIsoBuffers * defaultIsoPackets * 2
  | .isoc, .s16x384 => 768 * defaultIsoBuffers * defaultIsoPackets * 2
  | .isoc, .s16x504 => 1008 * defaultIsoBuffers * defaultIsoPackets * 2
  | .isoc, .s8x504 => 1008 * defaultIsoBuffers * defaultIsoPackets
  | .bulk, .s16x252 => defaultBulkBuffer / 1024 * 1008
  | .bulk, .s16x336 => defaultBulkBuffer / 1024 * 1344
  | .bulk, .s16x384 => defaultBulkBuffer / 1024 * 1536
  | .bulk, .s16x504 => defaultBulkBuffer / 1024 * 2016
  | .bulk, .s8x504 => defaultBulkBuffer / 1024 * 1008

/-! ## The callback -/

/-- The fields of `msisdr_dev_t` that the callback uses. `samples_size` is the length of
`samples`. -/
structure TransferDev where
  format : Format
  sync : SampleSync
  samples : List UInt8
  xferBufNum : ℕ
  feed : FeedDev

/-- A device whose stream has been started in a 16-bit format, with `xfer_out_len = 0`. -/
def startedStream : TransferDev where
  format := .s16x252
  sync := ⟨254, 0⟩
  samples := []
  xferBufNum := 32
  feed := ⟨true, 0, 0, [], by decide, by decide⟩

/-- `samples_realloc`. -/
def TransferDev.samplesRealloc (p : TransferDev) (size : ℕ) : TransferDev :=
  if p.samples.length < size then { p with samples := List.replicate size 0 } else p

/-- The bytes that a converter stores from `start` on. -/
def overwrite (samples : List UInt8) (start : ℕ) (dst : List UInt8) : Option (List UInt8) :=
  if start + dst.length ≤ samples.length then
    some (samples.take start ++ dst ++ samples.drop (start + dst.length))
  else none

/-- The converter calls of a transfer, each at `samples + bytes`. -/
def TransferDev.convertPackets (p : TransferDev) (bytes : ℤ) :
    List Packet → Option (TransferDev × ℤ)
  | [] => some (p, bytes)
  | packet :: rest =>
      let conversion := convert p.format p.sync packet.buffer packet.actualLength
      (overwrite p.samples bytes.toNat conversion.dst).bind fun samples =>
        { p with sync := conversion.p, samples := samples }.convertPackets
          (bytes + conversion.used) rest

/-- The bytes that `msisdr_feed_async` is called with. Its length is a `uint32_t`. -/
def TransferDev.converted (p : TransferDev) (bytes : ℤ) : Samples where
  data := p.samples.take (bytes.toNat % 2 ^ 32)
  word := by
    rw [List.length_take]
    omega

/-- The call of `msisdr_feed_async`: the device, and what the application's callback was handed. -/
def TransferDev.feedAsync (p : TransferDev) (bytes : ℤ) :
    Option (TransferDev × List (List UInt8)) :=
  if 0 < bytes then
    (msisdrFeedAsync p.feed (p.converted bytes)).map fun (feed, calls, _) =>
      ({ p with feed := feed }, calls)
  else some (p, [])

/-- The conversion of a `size_t` to `int`. -/
def sizeToInt (value : ℤ) : ℤ := Int.bmod value (2 ^ 32)

/-- `xfer->length` of the next read, where the callback stores it: a BULK read is shortened by half
a block if the counter of losses is above the number of transfers. -/
def resynchronize (type : Transfer) (xferBufNum : ℕ) (sync : SampleSync) :
    SampleSync × Option ℕ :=
  match type with
  | .bulk =>
      if sync.syncLossCnt > sizeToInt xferBufNum then
        ({ sync with syncLossCnt := sizeToInt (-xferBufNum + 1) }, some (defaultBulkBuffer - 512))
      else (sync, some defaultBulkBuffer)
  | .isoc => (sync, none)

/-- What the callback leaves: the device, the calls of the application, and the length. -/
structure Completed where
  p : TransferDev
  calls : List (List UInt8)
  length : Option ℕ

/-- `_libusb_callback` on a transfer with the status `LIBUSB_TRANSFER_COMPLETED`, up to the call of
`libusb_submit_transfer`. -/
def libusbCallback (p : TransferDev) (xfer : CompletedXfer) : Option Completed := do
  let p := p.samplesRealloc (samplesSize xfer.type p.format)
  let (p, bytes) ← p.convertPackets 0 xfer.converted
  let (p, calls) ← p.feedAsync bytes
  let (sync, length) := resynchronize xfer.type p.xferBufNum p.sync
  return { p := { p with sync := sync }, calls := calls, length := length }

/-! ## Runs -/

/-- What happens to the device while it streams. -/
inductive StreamEvent where
  | completes (xfer : CompletedXfer)
  | setHard (format : Format)

/-- What `msisdr_set_hard` stores of the fields used here. -/
def TransferDev.setHard (p : TransferDev) (format : Format) : TransferDev :=
  { p with format := format, sync := { p.sync with addr := formatAddr format } }

/-- A run, and what each of its transfers left. -/
def TransferDev.run (p : TransferDev) : List StreamEvent → Option (TransferDev × List Completed)
  | [] => some (p, [])
  | .setHard format :: rest => (p.setHard format).run rest
  | .completes xfer :: rest =>
      (libusbCallback p xfer).bind fun completed =>
        (completed.p.run rest).map fun (q, more) => (q, completed :: more)

/-- The format after a run. -/
def formatAfter (format : Format) : List StreamEvent → Format
  | [] => format
  | .setHard next :: rest => formatAfter next rest
  | .completes _ :: rest => formatAfter format rest

/-! ## The conversions of a transfer -/

/-- The conversions of buffers one after another: the fields of the device and all bytes stored. -/
def convertAll (format : Format) (p : SampleSync) : List Packet → SampleSync × List UInt8
  | [] => (p, [])
  | packet :: rest =>
      let conversion := convert format p packet.buffer packet.actualLength
      let more := convertAll format conversion.p rest
      (more.1, conversion.dst ++ more.2)

theorem convertAll_append (format : Format) (p : SampleSync) (first second : List Packet) :
    convertAll format p (first ++ second) =
      ((convertAll format (convertAll format p first).1 second).1,
        (convertAll format p first).2 ++
          (convertAll format (convertAll format p first).1 second).2) := by
  induction first generalizing p with
  | nil => rfl
  | cons packet rest ih =>
      rw [List.cons_append, convertAll, convertAll]
      dsimp only
      rw [ih, List.append_assoc]

theorem converted_data (p : TransferDev) {bytes : ℕ} (word : bytes < 2 ^ 32) :
    (p.converted bytes).data = p.samples.take bytes := by
  have index : (bytes : ℤ).toNat % 2 ^ 32 = bytes := by
    rw [Int.toNat_natCast, Nat.mod_eq_of_lt word]
  exact congrArg p.samples.take index

theorem overwrite_eq {samples dst : List UInt8} {start : ℕ}
    (inside : start + dst.length ≤ samples.length) :
    ∃ written, overwrite samples start dst = some written ∧ written.length = samples.length ∧
      written.take (start + dst.length) = samples.take start ++ dst := by
  refine ⟨_, if_pos inside, ?_, ?_⟩
  · simp only [List.length_append, List.length_take, List.length_drop]
    omega
  · refine List.take_left' ?_
    rw [List.length_append, List.length_take]
    omega

/-- **The conversions of a transfer stay inside the buffer**, if it has room for all that they
store. Then they leave the stored bytes one after another, and return their number. -/
theorem convertPackets_eq (p : TransferDev) (packets : List Packet) (start : ℕ)
    (room : start + (convertAll p.format p.sync packets).2.length ≤ p.samples.length) :
    ∃ samples : List UInt8,
      p.convertPackets start packets =
        some ({ p with sync := (convertAll p.format p.sync packets).1, samples := samples },
          ((start + (convertAll p.format p.sync packets).2.length : ℕ) : ℤ)) ∧
      samples.length = p.samples.length ∧
      samples.take (start + (convertAll p.format p.sync packets).2.length) =
        p.samples.take start ++ (convertAll p.format p.sync packets).2 := by
  induction packets generalizing p start with
  | nil => exact ⟨p.samples, rfl, rfl, (List.append_nil _).symm⟩
  | cons packet rest ih =>
      rw [convertAll] at room
      rw [convertAll, TransferDev.convertPackets]
      dsimp only at room ⊢
      have returned := convert_used p.format p.sync packet.buffer packet.actualLength
      generalize convert p.format p.sync packet.buffer packet.actualLength = conversion
        at room returned ⊢
      rw [List.length_append] at room
      have inside : start + conversion.dst.length ≤ p.samples.length := by omega
      obtain ⟨written, stored, size, front⟩ := overwrite_eq inside
      obtain ⟨samples, ran, size', front'⟩ :=
        ih { p with sync := conversion.p, samples := written } (start + conversion.dst.length)
          (by dsimp only; omega)
      refine ⟨samples, ?_, size'.trans size, ?_⟩
      · rw [Int.toNat_natCast, stored, Option.bind_some, returned, ← Nat.cast_add, ran,
          List.length_append, Nat.add_assoc]
      · rw [List.length_append, ← Nat.add_assoc, front', front, List.append_assoc]

end MsiSdrDriver.Async
