import MsiSdrDriver.Async.TransferSizes
import MsiSdrDriver.Foundations.HeapPrograms

/-!
# The memory of a device

What a device allocates from `msisdr_open_fd` to `msisdr_close`: itself, the context and the handle
of libusb, the buffer of the samples, and for as long as `msisdr_read_async` runs the transfers,
their buffers and the two arrays that point to them. The calls are made one after the other. Inside
of each, any events are handled in any order, and any call of libusb for a transfer fails or not.

An access to an address that holds no cell of the right kind fails here, and so does one that would
leave the cell, so that a program that returns has kept to its memory. An allocation succeeds, that
of a transfer too, as the code relies on it. Where it is placed is up to the allocator. What libusb
itself does with a transfer that is freed before it is done with it is not seen here.
-/

set_option autoImplicit false

namespace MsiSdrDriver.Async

open MsiSdrDriver.Foundations
open MsiSdrDriver.Foundations.HeapProgram
open MsiSdrDriver.Convert
open MsiSdrDriver.Driver

/-! ## Memory -/

/-- An address. -/
abbrev Address := ℕ

/-- The null pointer. -/
def NULL : Address := 0

/-- The fields of `msisdr_dev_t` that the memory depends on. `samples_size` is the length of the
samples in `stream`, and `xfer_buf_num` and `xfer_out_len` are there as well. -/
structure DeviceFields where
  ctx : Address
  dh : Address
  transfer : Transfer
  xfer : Address
  xferBuf : Address
  xferOut : Address
  samples : Address
  stream : TransferDev

/-- What an address holds. -/
inductive Block where
  /-- a `msisdr_dev_t` -/
  | device (dev : DeviceFields)
  /-- what `libusb_init` allocates -/
  | context
  /-- what `libusb_open2` allocates -/
  | handle
  /-- a `libusb_transfer` with room for some packets -/
  | transfer (isoPackets : ℕ)
  | pointers (slots : List Address)
  | bytes (size : ℕ)
  /-- the characters of a Java string -/
  | chars
  /-- a `msisdr_android_t` -/
  | android (miriDev convBuf : Address)

namespace Block

def device? : Block → Option DeviceFields
  | .device dev => some dev
  | _ => none

def context? : Block → Option Unit
  | .context => some ()
  | _ => none

def handle? : Block → Option Unit
  | .handle => some ()
  | _ => none

def isoPackets? : Block → Option ℕ
  | .transfer isoPackets => some isoPackets
  | _ => none

def slots? : Block → Option (List Address)
  | .pointers slots => some slots
  | _ => none

def size? : Block → Option ℕ
  | .bytes size => some size
  | _ => none

def android? : Block → Option (Address × Address)
  | .android miriDev convBuf => some (miriDev, convBuf)
  | _ => none

end Block

/-- A computation on the memory. -/
abbrev Program (α : Type) := HeapProgram Address Block α

/-- What is done with a pointer that is not null. -/
def unlessNull (a : Address) (action : Program Unit) : Program Unit :=
  if a = NULL then pure () else action

/-- What a null pointer is replaced by. -/
def ifNull (a : Address) (allocation : Program Address) : Program Address :=
  if a = NULL then allocation else pure a

/-- The first `count` elements of an array. -/
def elements (a : Address) (count : ℕ) : Program (List Address) := do
  let slots ← load a Block.slots?
  require (count ≤ slots.length)
  return slots.take count

variable (place : Heap Address Block → Address)

/-! ## Buffers and transfers -/

/-- The size of the buffer of a transfer. -/
def bufferSize : Transfer → ℕ
  | .bulk => defaultBulkBuffer
  | .isoc => 1024 * defaultIsoBuffers * defaultIsoPackets

/-- The argument of `libusb_alloc_transfer`. -/
def isoPackets : Transfer → ℕ
  | .bulk => 0
  | .isoc => defaultIsoPackets

/-- An array of pointers to new cells. The elements are stored when the loop has ended, as nothing
reads them before. -/
def allocArray (block : Block) (count : ℕ) : Program Address := do
  let array ← malloc place (.pointers [])
  let slots ← mallocEach place block count
  store array (.pointers slots)
  return array

/-- `msisdr_async_alloc`. -/
def msisdrAsyncAlloc (p : Address) : Program Unit := do
  let dev ← load p Block.device?
  let xfer ← ifNull dev.xfer
    (allocArray place (.transfer (isoPackets dev.transfer)) dev.stream.xferBufNum)
  let xferBuf ← ifNull dev.xferBuf
    (allocArray place (.bytes (bufferSize dev.transfer)) dev.stream.xferBufNum)
  let xferOut ← ifNull dev.xferOut
    (if dev.stream.feed.xferOutLen = 0 then pure NULL
      else malloc place (.bytes dev.stream.feed.xferOutLen.toNat))
  store p (.device { dev with xfer := xfer, xferBuf := xferBuf, xferOut := xferOut })

/-- Frees the cells that an array points to, and the array. -/
def freeArray (array : Address) (count : ℕ) : Program Unit := do
  let slots ← elements array count
  slots.forM fun slot => unlessNull slot (free slot)
  free array

/-- `msisdr_async_free`. -/
def msisdrAsyncFree (p : Address) : Program Unit := do
  let dev ← load p Block.device?
  unlessNull dev.xfer (freeArray dev.xfer dev.stream.xferBufNum)
  unlessNull dev.xferBuf (freeArray dev.xferBuf dev.stream.xferBufNum)
  unlessNull dev.xferOut (free dev.xferOut)
  store p (.device { dev with xfer := NULL, xferBuf := NULL, xferOut := NULL })

/-- `libusb_fill_bulk_transfer` or `libusb_fill_iso_transfer`: libusb may use the packets and the
buffer from now on. -/
def fillTransfer (transfer : Transfer) (xfer buffer : Address) : Program Unit := do
  let packets ← load xfer Block.isoPackets?
  let size ← load buffer Block.size?
  require (isoPackets transfer ≤ packets ∧ bufferSize transfer ≤ size)

/-- The loop that submits the transfers, from one with the index `i` on. The result is the index of
the first that libusb refuses. -/
def submitEach (dh : Address) (transfer : Transfer) (submits : ℕ → Bool) (i : ℕ) :
    List (Address × Address) → Program (Option ℕ)
  | [] => return none
  | (xfer, buffer) :: rest => do
      fillTransfer transfer xfer buffer
      load dh Block.handle?
      if submits i then submitEach dh transfer submits (i + 1) rest else return some i

/-! ## Events -/

/-- What happens while events are handled. -/
inductive AsyncEvent where
  /-- a transfer has completed -/
  | completes (i : ℕ) (xfer : CompletedXfer)
  /-- `msisdr_set_hard` chooses a format -/
  | setHard (format : Format)
  /-- a loop looks at all transfers, and cancels or submits them -/
  | scans

/-- How far into its buffer a transfer has received something. -/
def received : CompletedXfer → ℕ
  | .bulk packet => packet.actualLength
  | .isoc packets => (List.ofFn fun i => 1024 * defaultIsoBuffers * i.val +
      (packets i).actualLength).foldr max 0

/-- `samples_realloc`. -/
def samplesRealloc (p : Address) (size : ℕ) : Program Unit := do
  let dev ← load p Block.device?
  if dev.stream.samples.length < size then
    unlessNull dev.samples (free dev.samples)
    let samples ← malloc place (.bytes size)
    store p (.device { dev with samples := samples, stream := dev.stream.samplesRealloc size })

/-- The output buffer is written to if its length is fixed. -/
def requireOut (dev : DeviceFields) : Program Unit :=
  if dev.stream.feed.xferOutLen = 0 then pure ()
  else do
    let size ← load dev.xferOut Block.size?
    require (dev.stream.feed.xferOutLen.toNat ≤ size)

/-- `_libusb_callback` on a transfer that has completed. -/
def completeXfer (p : Address) (i : ℕ) (xfer : CompletedXfer) : Program Unit := do
  let dev ← load p Block.device?
  let slots ← elements dev.xfer (i + 1)
  let _ ← load (slots.getD i NULL) Block.isoPackets?
  let buffers ← elements dev.xferBuf (i + 1)
  let size ← load (buffers.getD i NULL) Block.size?
  require (received xfer ≤ size)
  samplesRealloc place p (samplesSize xfer.type dev.stream.format)
  let dev ← load p Block.device?
  let room ← load dev.samples Block.size?
  require (dev.stream.samples.length ≤ room)
  requireOut dev
  let completed ← libusbCallback dev.stream xfer
  store p (.device { dev with stream := completed.p })

/-- A transfer is looked at, and cancelled or submitted. -/
def scanXfer (dh xfer : Address) : Program Unit := do
  let _ ← load xfer Block.isoPackets?
  load dh Block.handle?

/-- A loop through the first transfers. -/
def scanXfers (p : Address) (count : ℕ) : Program Unit := do
  let dev ← load p Block.device?
  let slots ← elements dev.xfer count
  slots.forM (scanXfer dev.dh)

/-- What an event does to the memory. -/
def handleEvent (p : Address) : AsyncEvent → Program Unit
  | .completes i xfer => completeXfer place p i xfer
  | .setHard format => do
      let dev ← load p Block.device?
      store p (.device { dev with stream := dev.stream.setHard format })
  | .scans => do
      let dev ← load p Block.device?
      scanXfers p dev.stream.xferBufNum

/-! ## Reading -/

/-- How an attempt to read goes, with one type of transfers: whether the alternate setting is there,
which transfers libusb accepts, what happens until the accepted ones are cancelled, what happens
while the stream runs, whether it fails, and what happens until it is drained then. -/
structure Attempt where
  altSetting : Bool
  submits : ℕ → Bool
  handled : List AsyncEvent
  streamed : List AsyncEvent
  fails : Bool
  drained : List AsyncEvent

/-- The label `failed_free`. -/
def failedFree (p : Address) (attempt : Attempt) : Program ℤ := do
  (AsyncEvent.scans :: attempt.drained).forM (handleEvent place p)
  msisdrAsyncFree p
  let dev ← load p Block.device?
  load dev.dh Block.handle?
  return -1

/-- `goto retry_transfer`, with BULK transfers. -/
def fallBack (p : Address) : Program (Option ℤ) := do
  let dev ← load p Block.device?
  store p (.device { dev with transfer := .bulk })
  return none

/-- What follows when the transfer with the index `i` was refused. -/
def submitFailed (p : Address) (transfer : Transfer) (attempt : Attempt) (i : ℕ) :
    Program (Option ℤ) :=
  match transfer with
  | .isoc => do
      scanXfers p i
      (if i > 0 then attempt.handled else []).forM (handleEvent place p)
      msisdrAsyncFree p
      fallBack p
  | .bulk => some <$> failedFree place p attempt

/-- What follows when all transfers were accepted. -/
def streamData (p : Address) (attempt : Attempt) : Program (Option ℤ) := do
  let dev ← load p Block.device?
  load dev.dh Block.handle?
  attempt.streamed.forM (handleEvent place p)
  if attempt.fails then some <$> failedFree place p attempt
  else do
    msisdrAsyncFree p
    let dev ← load p Block.device?
    load dev.dh Block.handle?
    return some 0

/-- `msisdr_read_async` from `retry_transfer` on. There is no result if it is tried again. -/
def attemptTransfer (p : Address) (attempts : Transfer → Attempt) : Program (Option ℤ) := do
  let dev ← load p Block.device?
  let attempt := attempts dev.transfer
  load dev.dh Block.handle?
  if dev.transfer = .isoc ∧ ¬attempt.altSetting then fallBack p
  else do
    msisdrAsyncAlloc place p
    let dev ← load p Block.device?
    let slots ← elements dev.xfer dev.stream.xferBufNum
    let buffers ← elements dev.xferBuf dev.stream.xferBufNum
    match ← submitEach dev.dh dev.transfer attempt.submits 0 (slots.zip buffers) with
    | some i => submitFailed place p dev.transfer attempt i
    | none => streamData place p attempt

/-- A call of `msisdr_read_async`: its arguments, as far as they matter, and how it goes. -/
structure ReadCall where
  cb : Bool
  num : UInt32
  len : UInt32
  attempts : Transfer → Attempt

/-- What `msisdr_read_async` stores at its start. -/
def TransferDev.starts (p : TransferDev) (call : ReadCall) : TransferDev where
  format := p.format
  sync := { p.sync with syncLossCnt := 0 }
  samples := p.samples
  xferBufNum := if call.num = 0 then 32 else call.num.toNat
  feed :=
    { cb := call.cb
      xferOutLen := call.len.toUInt64
      xferOutPos := 0
      xferOut := List.replicate call.len.toNat 0
      allocated := List.length_replicate
      word := call.len.toNat_lt }

/-- `msisdr_read_async`, on a device that does not stream. A second retry does not happen. -/
def msisdrReadAsync (p : Address) (call : ReadCall) : Program ℤ := do
  let dev ← load p Block.device?
  if dev.dh = NULL then return -1
  else do
    store p (.device { dev with stream := dev.stream.starts call })
    match ← attemptTransfer place p call.attempts with
    | some r => return r
    | none =>
        match ← attemptTransfer place p call.attempts with
        | some r => return r
        | none => failure

/-! ## Opening and closing -/

theorem cleared_allocated : ([] : List UInt8).length = (0 : UInt64).toNat := rfl

theorem cleared_word : (0 : UInt64).toNat < 2 ^ 32 := by decide

/-- A `msisdr_dev_t` after `memset`. -/
def clearedFields : DeviceFields where
  ctx := NULL
  dh := NULL
  transfer := .bulk
  xfer := NULL
  xferBuf := NULL
  xferOut := NULL
  samples := NULL
  stream :=
    { format := .s16x252
      sync := ⟨0, 0⟩
      samples := []
      xferBufNum := 0
      feed := ⟨false, 0, 0, [], cleared_allocated, cleared_word⟩ }

/-- How an opening goes: whether libusb has a context, knows the device, opens it and can claim its
interface, and which transfers the platform has. -/
structure Opening where
  inits : Bool
  knows : Bool
  opens : Bool
  claims : Bool
  transfer : Transfer

def libusbExit (ctx : Address) : Program Unit := do
  load ctx Block.context?
  free ctx

def libusbClose (dh : Address) : Program Unit := do
  load dh Block.handle?
  free dh

/-- `msisdr_setup`. The format is the one for `DEFAULT_RATE`. -/
def setupFields (p : Address) (opening : Opening) : Program (Option Address) := do
  let dev ← load p Block.device?
  load dev.dh Block.handle?
  if opening.claims then
    store p (.device
      { dev with
        transfer := opening.transfer
        stream := dev.stream.setHard (autoFormat 8000000) })
    return some p
  else
    unlessNull dev.dh (libusbClose dev.dh)
    unlessNull dev.ctx (libusbExit dev.ctx)
    free p
    return none

/-- `msisdr_open_fd`. There is no device if it fails. -/
def msisdrOpenFd (opening : Opening) : Program (Option Address) := do
  let p ← malloc place (.device clearedFields)
  if ¬opening.inits then
    free p
    return none
  else
    let ctx ← malloc place .context
    store p (.device { clearedFields with ctx := ctx })
    if ¬opening.knows then
      libusbExit ctx
      free p
      return none
    else
      load ctx Block.context?
      if ¬opening.opens then
        libusbExit ctx
        free p
        return none
      else
        let dh ← malloc place .handle
        store p (.device { clearedFields with ctx := ctx, dh := dh })
        setupFields p opening

/-- `msisdr_close`, on a device that does not stream. -/
def msisdrClose (p : Address) : Program Unit := do
  let dev ← load p Block.device?
  unlessNull dev.dh (libusbClose dev.dh)
  unlessNull dev.ctx (libusbExit dev.ctx)
  unlessNull dev.samples (free dev.samples)
  free p

def readEach (p : Address) : List ReadCall → Program Unit
  | [] => pure ()
  | call :: later => do
      let _ ← msisdrReadAsync place p call
      readEach p later

/-- A device from its opening to its close. -/
def deviceLife (opening : Opening) (calls : List ReadCall) : Program Unit := do
  match ← msisdrOpenFd place opening with
  | none => pure ()
  | some p => do
      readEach place p calls
      msisdrClose p

end MsiSdrDriver.Async
