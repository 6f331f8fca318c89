import MsiSdrDriver.Foundations.GreedyGroups
import MsiSdrDriver.Foundations.LabelledRuns
import MsiSdrDriver.Usb.BulkTransfer

/-!
# Isochronous transfers of usbfs

`submit_iso_transfer` cuts the packets of a transfer into URBs. A first loop counts how many are
needed, and a second one fills them. `handle_iso_completion` copies the results of the packets of
each URB to the descriptors behind those that it has written before. So they are the right ones if
the URBs come back in order, and then every packet has its own result and its bytes where
`libusb_get_iso_packet_buffer` looks for them (`iso_placed`).

Of the kernel this is assumed. It gives back each URB once, with a result for each of its packets,
none of which has got more than it has room for, and the bytes of a packet behind the room of those
before it. The lengths of the packets add up to an `int`, so that the sums and products of the code
do not overflow.
-/

set_option autoImplicit false

namespace MsiSdrDriver.Usb

open MsiSdrDriver.Async
open MsiSdrDriver.Foundations

/-! ## Transfers -/

/-- `MAX_ISO_BUFFER_LENGTH`. -/
def maxIsoBufferLength : ℕ := 49152 * 128

/-- `struct libusb_iso_packet_descriptor`. -/
structure IsoPacketDescriptor where
  length : ℕ
  actualLength : ℕ
  status : XferStatus
  deriving DecidableEq

/-- A URB: where its buffer starts behind that of the transfer, and the lengths of its packets. -/
structure IsoUrb where
  start : ℕ
  lengths : List ℕ
  deriving DecidableEq

/-- The URBs of groups of packets, side by side. -/
def isoUrbs (start : ℕ) : List (List ℕ) → List IsoUrb
  | [] => []
  | lengths :: rest => ⟨start, lengths⟩ :: isoUrbs (start + lengths.sum) rest

/-- The buffer of a transfer, its packets, and its `linux_transfer_priv`. -/
structure IsoTransfer where
  buffer : ℕ → UInt8
  packets : List IsoPacketDescriptor
  urbs : Option (List IsoUrb)
  numUrbs : ℕ
  numRetired : ℕ
  reapAction : ReapAction
  isoPacketOffset : ℕ

/-- The result of a packet: its status and how much of it has arrived. -/
abbrev PacketResult := Option Errno × ℕ

/-- The status of a packet. -/
def isoPacketStatus : Option Errno → XferStatus
  | none | some .enoent | some .econnreset => .completed
  | some .enodev | some .eshutdown => .noDevice
  | some .epipe => .stall
  | some .eoverflow => .overflow
  | some .etime | some .eproto | some .eilseq | some .ecomm | some .enosr | some .exdev
  | some .eremoteio | some .einval | some .other => .error

/-- The status of a transfer whose last URB comes back. -/
def isoStatus : Option Errno → XferStatus
  | none | some .enoent | some .econnreset => .completed
  | some .eshutdown => .noDevice
  | some _ => .error

/-- A descriptor with the result of its packet. -/
def IsoPacketDescriptor.filled (packet : IsoPacketDescriptor) (result : PacketResult) :
    IsoPacketDescriptor :=
  { packet with status := isoPacketStatus result.1, actualLength := result.2 }

/-- The loop that copies the results back in. -/
def copyResults (packets : List IsoPacketDescriptor) (offset : ℕ) :
    List PacketResult → List IsoPacketDescriptor
  | [] => packets
  | result :: rest =>
      copyResults (packets.modify offset fun packet => packet.filled result) (offset + 1) rest

/-- `libusb_get_iso_packet_buffer`: where the buffer of a packet starts. -/
def isoPacketBuffer (packets : List IsoPacketDescriptor) (packet : ℕ) : ℕ :=
  ((packets.take packet).map IsoPacketDescriptor.length).sum

/-- `libusb_get_iso_packet_buffer_simple`, which goes by the length of the first packet. -/
def isoPacketBufferSimple : List IsoPacketDescriptor → ℕ → ℕ
  | [], _ => 0
  | first :: _, packet => first.length * packet

namespace IsoTransfer

/-- The lengths of the packets. -/
def lengths (t : IsoTransfer) : List ℕ := t.packets.map IsoPacketDescriptor.length

/-- `submit_iso_transfer`: the transfer, the URBs that the kernel has, and the error. -/
def submit (t : IsoTransfer) (callocs urbsCalloc : Bool) (answer : ℕ → Option Errno) :
    IsoTransfer × List ℕ × Option LibusbError :=
  match countGroups maxIsoBufferLength 1 0 t.lengths with
  | none => (t, [], some .invalidParam)
  | some n =>
      if callocs then
        let t := { t with
          urbs := some (isoUrbs 0 (groups maxIsoBufferLength n t.lengths))
          numUrbs := n
          numRetired := 0
          reapAction := .normal
          isoPacketOffset := 0 }
        if urbsCalloc then
          match submitUrbs answer (List.range n) with
          | (taken, none) => (t, taken, none)
          | (taken, some (i, errno)) =>
              if i = 0 then
                ({ t with urbs := none }, taken,
                  some (if errno = .enodev then .noDevice
                    else if errno = .einval then .invalidParam else .io))
              else
                -- the URBs that are not submitted count as retired; the others are discarded
                ({ t with reapAction := .submitFailed, numRetired := n - i }, taken, none)
        else ({ t with urbs := none }, [], some .noMem)
      else (t, [], some .noMem)

/-- `op_cancel_transfer`. -/
def cancel (t : IsoTransfer) (answer : ℕ → Option Errno) : IsoTransfer × Option LibusbError :=
  if t.urbs.isSome then
    match discardUrbs answer 0 t.numUrbs with
    | some error => (t, some error)
    | none => ({ t with reapAction := .cancelled }, none)
  else (t, some .notFound)

/-- `handle_iso_completion`. -/
def handleCompletion (t : IsoTransfer) (urbIdx : ℕ) (status : Option Errno)
    (results : List PacketResult) : IsoTransfer × Option Completion :=
  let t := { t with
    packets := copyResults t.packets t.isoPacketOffset results
    isoPacketOffset := t.isoPacketOffset + results.length
    numRetired := t.numRetired + 1 }
  if t.reapAction ≠ .normal then
    if t.numRetired = t.numUrbs then
      ({ t with urbs := none },
        some (if t.reapAction = .cancelled then .cancellation else .completion .error))
    else (t, none)
  else if urbIdx + 1 = t.numUrbs then
    ({ t with urbs := none }, some (.completion (isoStatus status)))
  else (t, none)

end IsoTransfer

/-! ## Runs -/

/-- A transfer and the URBs that have not come back. The results and the bytes that have come back,
and what the callback has been told, are history. -/
structure Iso where
  transfer : IsoTransfer
  pending : List ℕ
  results : List PacketResult
  received : List UInt8
  told : List Completion

/-- A URB comes back, or the transfer is cancelled. -/
inductive IsoEvent where
  | reap (urbIdx : ℕ) (status : Option Errno) (results : List PacketResult) (data : List UInt8)
  | cancel (answer : ℕ → Option Errno)

namespace Iso

/-- What the kernel may give back. -/
def Gives (w : Iso) (urbIdx : ℕ) (urb : IsoUrb) (results : List PacketResult)
    (data : List UInt8) : Prop :=
  urbIdx ∈ w.pending ∧ results.length = urb.lengths.length ∧ data.length = urb.lengths.sum ∧
    ∀ packet ∈ urb.lengths.zip results, packet.2.2 ≤ packet.1

instance (w : Iso) (urbIdx : ℕ) (urb : IsoUrb) (results : List PacketResult)
    (data : List UInt8) : Decidable (w.Gives urbIdx urb results data) :=
  inferInstanceAs (Decidable (_ ∧ _))

/-- `handle_iso_completion` on a URB whose bytes the kernel has copied to their place. -/
def handle (w : Iso) (urbIdx : ℕ) (urb : IsoUrb) (status : Option Errno)
    (results : List PacketResult) (data : List UInt8) : IsoTransfer × Option Completion :=
  { w.transfer with buffer := storeAt w.transfer.buffer urb.start data }.handleCompletion urbIdx
    status results

/-- A URB has come back. -/
def reaped (w : Iso) (urbIdx : ℕ) (urb : IsoUrb) (status : Option Errno)
    (results : List PacketResult) (data : List UInt8) : Iso where
  transfer := (w.handle urbIdx urb status results data).1
  pending := w.pending.erase urbIdx
  results := w.results ++ results
  received := w.received ++ data
  told := w.told ++ (w.handle urbIdx urb status results data).2.toList

/-- One event. There is none with a URB that has been freed. -/
def step (w : Iso) : IsoEvent → Option Iso
  | .reap urbIdx status results data =>
      (w.transfer.urbs.bind fun urbs => urbs[urbIdx]?).bind fun urb =>
        if w.Gives urbIdx urb results data then
          some (w.reaped urbIdx urb status results data)
        else none
  | .cancel answer => some { w with transfer := (w.transfer.cancel answer).1 }

/-- URBs come back in the order in which they were submitted. -/
def InOrder (w : Iso) : IsoEvent → Prop
  | .reap urbIdx _ _ _ => ∀ other ∈ w.pending, urbIdx ≤ other
  | .cancel _ => True

/-- They do, if there is more than one. -/
def Orderly (lengths : List ℕ) (w : Iso) (event : IsoEvent) : Prop :=
  maxIsoBufferLength < lengths.sum → w.InOrder event

/-- A transfer with packets of these lengths that `submit_iso_transfer` has just submitted. In all
they are no longer than an `int` can say. -/
def Submitted (lengths : List ℕ) (w : Iso) : Prop :=
  lengths.sum < 2 ^ 31 ∧ ∃ (t : IsoTransfer) (answer : ℕ → Option Errno), t.lengths = lengths ∧
    t.submit true true answer = (w.transfer, w.pending, none) ∧
    w = ⟨w.transfer, w.pending, [], [], []⟩

end Iso

end MsiSdrDriver.Usb
