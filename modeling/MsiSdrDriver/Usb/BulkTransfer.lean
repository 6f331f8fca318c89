import MsiSdrDriver.Async.Stream
import MsiSdrDriver.Foundations.FlatMemory

/-!
# Bulk transfers of usbfs

How libusb hands a bulk transfer to the kernel and gets it back. `submit_bulk_transfer` cuts the
buffer into URBs, `op_cancel_transfer` discards them, and `handle_bulk_completion` is called for
each one that the kernel gives back. The transfers are those of an IN endpoint.

Of the kernel this is assumed. It gives back each URB once, with no more data than the URB has room
for; a URB gets data only when those before it have been given back; and an endpoint that is stalled
or has gone delivers nothing more. URBs without data come back in any order.
-/

set_option autoImplicit false

namespace MsiSdrDriver.Usb

open MsiSdrDriver.Async
open MsiSdrDriver.Foundations

/-! ## URBs -/

/-- The error numbers that the backend tells apart. -/
inductive Errno where
  | enoent
  | econnreset
  | enodev
  | eshutdown
  | epipe
  | eoverflow
  | etime
  | eproto
  | eilseq
  | ecomm
  | enosr
  | exdev
  | eremoteio
  | einval
  | other
  deriving DecidableEq

/-- What libusb returns other than success. -/
inductive LibusbError where
  | invalidParam
  | noDevice
  | notFound
  | busy
  | noMem
  | io
  | other
  deriving DecidableEq

/-- `enum reap_action`. -/
inductive ReapAction where
  | normal
  | submitFailed
  | cancelled
  | completedEarly
  | error
  deriving DecidableEq

/-- `usbi_handle_transfer_cancellation`, or `usbi_handle_transfer_completion` with a status. -/
inductive Completion where
  | cancellation
  | completion (status : XferStatus)
  deriving DecidableEq

/-- The capabilities of usbfs that decide how a transfer is cut. -/
structure UsbfsCaps where
  bulkScatterGather : Bool
  bulkContinuation : Bool
  noPacketSizeLim : Bool
  deriving DecidableEq

/-- `MAX_BULK_BUFFER_LENGTH`. -/
def maxBulkBufferLength : ℕ := 16384

/-- `bulk_buffer_len`. -/
def UsbfsCaps.bulkBufferLen (caps : UsbfsCaps) (length : ℕ) : ℕ :=
  if caps.bulkScatterGather then
    if length ≠ 0 then length else 1
  else if caps.bulkContinuation then maxBulkBufferLength
  else if caps.noPacketSizeLim then
    if length ≠ 0 then length else 1
  else maxBulkBufferLength

/-- `use_bulk_continuation`. -/
def UsbfsCaps.useBulkContinuation (caps : UsbfsCaps) : Bool :=
  !caps.bulkScatterGather && caps.bulkContinuation

/-- `num_urbs`. -/
def UsbfsCaps.numUrbs (caps : UsbfsCaps) (length : ℕ) : ℕ :=
  if length = 0 then 1
  else if length % caps.bulkBufferLen length > 0 then length / caps.bulkBufferLen length + 1
  else length / caps.bulkBufferLen length

/-- `struct usbfs_urb`. Its buffer starts `start` bytes behind that of the transfer. -/
structure UsbfsUrb where
  start : ℕ
  bufferLength : ℕ
  shortNotOk : Bool
  bulkContinuation : Bool
  deriving DecidableEq

/-- The URB with the number `i`. -/
def UsbfsCaps.bulkUrb (caps : UsbfsCaps) (length i : ℕ) : UsbfsUrb where
  start := i * caps.bulkBufferLen length
  bufferLength :=
    if i = caps.numUrbs length - 1 ∧ length % caps.bulkBufferLen length > 0 then
      length % caps.bulkBufferLen length
    else if length = 0 then 0
    else caps.bulkBufferLen length
  shortNotOk := caps.useBulkContinuation && decide (i < caps.numUrbs length - 1)
  bulkContinuation := caps.useBulkContinuation && decide (0 < i)

/-- `urbs`. -/
def UsbfsCaps.bulkUrbs (caps : UsbfsCaps) (length : ℕ) : List UsbfsUrb :=
  (List.range (caps.numUrbs length)).map (caps.bulkUrb length)

/-! ## Transfers -/

/-- The buffer of a transfer, `transferred`, and its `linux_transfer_priv`. -/
structure BulkTransfer where
  buffer : ℕ → UInt8
  transferred : ℕ
  urbs : Option (List UsbfsUrb)
  numUrbs : ℕ
  numRetired : ℕ
  reapAction : ReapAction
  reapStatus : XferStatus

/-- The loop over `IOCTL_USBFS_SUBMITURB`: the URBs that the kernel has taken, and the one that it
has refused. -/
def submitUrbs (answer : ℕ → Option Errno) : List ℕ → List ℕ × Option (ℕ × Errno)
  | [] => ([], none)
  | i :: rest =>
      match answer i with
      | some errno => ([], some (i, errno))
      | none => (i :: (submitUrbs answer rest).1, (submitUrbs answer rest).2)

/-- `discard_urbs`, from the last one to the first. -/
def discardUrbs (answer : ℕ → Option Errno) (first lastPlusOne : ℕ) : Option LibusbError :=
  (List.range' first (lastPlusOne - first)).reverse.foldl
    (fun ret i =>
      match answer i with
      | none => ret
      | some .einval => if i = lastPlusOne - 1 then some .notFound else ret
      | some .enodev => some .noDevice
      | some _ => some .other)
    none

namespace BulkTransfer

/-- `libusb_alloc_transfer`, which clears the structure. -/
def alloc : BulkTransfer := ⟨fun _ => 0, 0, none, 0, 0, .normal, .completed⟩

/-- `submit_bulk_transfer`: the transfer, the URBs that the kernel has, and the error. A URB that is
not the first may be refused; the transfer then counts as submitted. -/
def submit (t : BulkTransfer) (caps : UsbfsCaps) (length : ℕ) (callocs : Bool)
    (answer : ℕ → Option Errno) : BulkTransfer × List ℕ × Option LibusbError :=
  let n := caps.numUrbs length
  if callocs then
    let t := { t with
      urbs := some (caps.bulkUrbs length)
      numUrbs := n
      numRetired := 0
      reapAction := .normal
      reapStatus := .completed }
    match submitUrbs answer (List.range n) with
    | (taken, none) => (t, taken, none)
    | (taken, some (i, errno)) =>
        if i = 0 then
          ({ t with urbs := none }, taken, some (if errno = .enodev then .noDevice else .io))
        else
          -- the URBs that are not submitted count as retired; the others are discarded
          ({ t with
              reapAction := if errno = .eremoteio then .completedEarly else .submitFailed
              numRetired := t.numRetired + (n - i) }, taken, none)
  else (t, [], some .noMem)

/-- `op_cancel_transfer`. -/
def cancel (t : BulkTransfer) (answer : ℕ → Option Errno) : BulkTransfer × Option LibusbError :=
  if t.urbs.isSome then
    match discardUrbs answer 0 t.numUrbs with
    | some error => (t, some error)
    | none => ({ t with reapAction := if t.reapAction = .error then .error else .cancelled }, none)
  else (t, some .notFound)

/-- The label `completed` of `handle_bulk_completion`. -/
def completed (t : BulkTransfer) : BulkTransfer × Option Completion :=
  ({ t with urbs := none },
    some (if t.reapAction = .cancelled then .cancellation else .completion t.reapStatus))

/-- The label `cancel_remaining`. The discards are asked for; what comes of them is reaped. -/
def cancelRemaining (t : BulkTransfer) : BulkTransfer × Option Completion :=
  let t := { t with
    reapStatus := if t.reapAction = .error ∧ t.reapStatus = .completed then .error
      else t.reapStatus }
  if t.numRetired = t.numUrbs then t.completed else (t, none)

/-- A URB that comes back when the transfer is being torn down. Its data closes up to what has been
received before. -/
def reapAbnormal (t : BulkTransfer) (urb : UsbfsUrb) (actualLength : ℕ) :
    BulkTransfer × Option Completion :=
  let t := if 0 < actualLength then
    { t with
      buffer := if urb.start ≠ t.transferred then
          moveAt t.buffer t.transferred urb.start actualLength
        else t.buffer
      transferred := t.transferred + actualLength }
  else t
  if t.numRetired = t.numUrbs then
    completed { t with
      reapStatus := if t.reapAction ≠ .completedEarly ∧ t.reapStatus = .completed then .error
        else t.reapStatus }
  else (t, none)

/-- Behind the switch: the last URB, or one with less data than it has room for, ends the
transfer. -/
def reapDone (t : BulkTransfer) (urbIdx : ℕ) (urb : UsbfsUrb) (actualLength : ℕ) :
    BulkTransfer × Option Completion :=
  if urbIdx = t.numUrbs - 1 then t.completed
  else if actualLength < urb.bufferLength then
    cancelRemaining { t with
      reapAction := if t.reapAction = .normal then .completedEarly else t.reapAction }
  else (t, none)

/-- A URB that comes back while all is well. -/
def reapNormal (t : BulkTransfer) (urbIdx : ℕ) (urb : UsbfsUrb) (status : Option Errno)
    (actualLength : ℕ) : BulkTransfer × Option Completion :=
  let t := { t with transferred := t.transferred + actualLength }
  match status with
  | none | some .eremoteio | some .enoent | some .econnreset => t.reapDone urbIdx urb actualLength
  | some .enodev | some .eshutdown => cancelRemaining { t with reapStatus := .noDevice }
  | some .epipe =>
      cancelRemaining { t with
        reapStatus := if t.reapStatus = .completed then .stall else t.reapStatus }
  | some .eoverflow =>
      completed { t with
        reapStatus := if t.reapStatus = .completed then .overflow else t.reapStatus }
  | some .etime | some .eproto | some .eilseq | some .ecomm | some .enosr | some .exdev
  | some .einval | some .other => cancelRemaining { t with reapAction := .error }

/-- `handle_bulk_completion`. -/
def handleCompletion (t : BulkTransfer) (urbIdx : ℕ) (urb : UsbfsUrb) (status : Option Errno)
    (actualLength : ℕ) : BulkTransfer × Option Completion :=
  let t := { t with numRetired := t.numRetired + 1 }
  if t.reapAction ≠ .normal then t.reapAbnormal urb actualLength
  else t.reapNormal urbIdx urb status actualLength

end BulkTransfer

end MsiSdrDriver.Usb
