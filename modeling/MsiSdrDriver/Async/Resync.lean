import MsiSdrDriver.Async.TransferSizes

/-!
# When a BULK stream is resynchronised

The callback counts the transfers whose first header is not the one it expects. When it has counted
more than there are transfers in flight, it takes the stream to be out of step with the blocks, and
makes the next read half a block shorter.

The counter is set to zero when the stream is started and never again, however many transfers
begin as expected. Losses of whole blocks, which leave the stream aligned, add up over the run, and
when there have been enough of them the shortened read moves the blocks of an aligned stream
(`aligned_stream_cut`). `never_shortened_iff` says exactly which runs keep to the full length.
-/

set_option autoImplicit false

namespace MsiSdrDriver.Async

open MsiSdrDriver.Convert
open MsiSdrDriver.Driver

/-! ## Runs of BULK transfers -/

/-- What happens to a BULK stream. A transfer begins with the header of a block. -/
inductive BulkEvent where
  | completes (packet : Packet)
  | setHard (format : Format)

def BulkEvent.event : BulkEvent → StreamEvent
  | .completes packet => .completes (.bulk packet)
  | .setHard format => .setHard format

/-- The header that follows a transfer. -/
def headerAfter (format : Format) (packet : Packet) : UInt32 :=
  if format = .s8x504 then
    wordAt packet.buffer 0 + 504 * UInt32.ofNat (blocksRead format packet.actualLength)
  else lastHeader format packet.buffer packet.actualLength + pairs format

/-- Whether a transfer begins with another header than the one expected, as a number. -/
def jump (format : Format) (expected : UInt32) (packet : Packet) : ℕ :=
  if Checks format packet.actualLength ∧ wordAt packet.buffer 0 ≠ expected then 1 else 0

/-- The number of transfers that do not begin with the header that follows the transfer before, or
with the one that `msisdr_set_hard` has stored. -/
def jumps (format : Format) (expected : UInt32) : List BulkEvent → ℕ
  | [] => 0
  | .setHard next :: rest => jumps next (formatAddr next) rest
  | .completes packet :: rest =>
      jump format expected packet + jumps format (headerAfter format packet) rest

/-- Every transfer of a run is submitted again with the full length. -/
def FullLength (completed : List Completed) : Prop :=
  ∀ done ∈ completed, done.length = some defaultBulkBuffer

/-- No transfer of a run has received more than was asked for. -/
def BulkFit (events : List BulkEvent) : Prop :=
  ∀ packet, .completes packet ∈ events → packet.actualLength ≤ defaultBulkBuffer

/-- Nothing completes in a run. -/
def Idle (events : List BulkEvent) : Prop := ∀ packet, .completes packet ∉ events

theorem jumps_of_idle {events : List BulkEvent} (idle : Idle events) (format : Format)
    (expected : UInt32) : jumps format expected events = 0 := by
  induction events generalizing format expected with
  | nil => rfl
  | cons event rest ih =>
      cases event with
      | completes packet => exact absurd List.mem_cons_self (idle packet)
      | setHard next =>
          exact ih (fun packet member => idle packet (List.mem_cons_of_mem _ member)) _ _

/-! ## One transfer -/

theorem convert_jump (format : Format) (p : SampleSync) (packet : Packet) :
    (convert format p packet.buffer packet.actualLength).p =
      ⟨headerAfter format packet, p.syncLossCnt + jump format p.addr packet⟩ := by
  rw [convert_p, jump, Nat.cast_ite, Nat.cast_one, Nat.cast_zero]
  rfl

/-- The callback on a BULK transfer: the counter goes up by one if the transfer jumps, and the
length is full unless the counter is then above the number of transfers. -/
theorem bulk_handled {p : TransferDev} {packet : Packet} {done : Completed}
    (handles : Handles p (.bulk packet) done) :
    (done.length = some defaultBulkBuffer ↔
        p.sync.syncLossCnt + jump p.format p.sync.addr packet ≤ sizeToInt p.xferBufNum) ∧
      (p.sync.syncLossCnt + jump p.format p.sync.addr packet ≤ sizeToInt p.xferBufNum →
        done.p.sync = ⟨headerAfter p.format packet,
          p.sync.syncLossCnt + jump p.format p.sync.addr packet⟩) := by
  have resubmits := handles.resubmits
  have converted : (convertAll p.format p.sync (CompletedXfer.bulk packet).converted).1 = _ :=
    convert_jump p.format p.sync packet
  generalize p.sync.syncLossCnt + (jump p.format p.sync.addr packet : ℤ) = counter
    at converted ⊢
  rw [converted, CompletedXfer.type, resynchronize] at resubmits
  dsimp only at resubmits
  by_cases above : counter > sizeToInt p.xferBufNum
  · rw [if_pos above] at resubmits
    obtain ⟨-, length⟩ := Prod.mk.inj resubmits
    refine ⟨⟨fun full => ?_, fun below => absurd above (not_lt.mpr below)⟩,
      fun below => absurd above (not_lt.mpr below)⟩
    rw [length] at full
    exact absurd full (by decide)
  · rw [if_neg above] at resubmits
    obtain ⟨sync, length⟩ := Prod.mk.inj resubmits
    exact ⟨⟨fun _ => not_lt.mp above, fun _ => length⟩, fun _ => sync⟩

/-! ## Every run -/

/-- A run from any value of the counter. -/
theorem fullLength_iff {p : TransferDev} (ready : FeedReady p.feed) {events : List BulkEvent}
    (fit : BulkFit events) :
    ∃ q completed, p.run (events.map BulkEvent.event) = some (q, completed) ∧
      (FullLength completed ↔ Idle events ∨
        p.sync.syncLossCnt + jumps p.format p.sync.addr events ≤ sizeToInt p.xferBufNum) := by
  induction events generalizing p with
  | nil => exact ⟨p, [], rfl, fun _ => .inl nofun, fun _ => nofun⟩
  | cons event rest ih =>
      have later : BulkFit rest := fun packet member => fit packet (List.mem_cons_of_mem _ member)
      cases event with
      | setHard format =>
          obtain ⟨q, completed, ran, full⟩ := ih (p := p.setHard format) ready later
          refine ⟨q, completed, ran, full.trans (or_congr ?_ Iff.rfl)⟩
          refine ⟨fun idle packet member => ?_,
            fun idle packet member => idle packet (List.mem_cons_of_mem _ member)⟩
          exact idle packet ((List.mem_cons.mp member).resolve_left nofun)
      | completes packet =>
          have fits : (CompletedXfer.bulk packet).Fits := fit packet List.mem_cons_self
          obtain ⟨done, called, handles⟩ := callback_handles ready fits
          obtain ⟨q, completed, ran, full⟩ := ih handles.ready later
          obtain ⟨length, sync⟩ := bulk_handled handles
          have busy : ¬ Idle (.completes packet :: rest) :=
            fun idle => idle packet List.mem_cons_self
          refine ⟨q, done :: completed, ?_, ?_⟩
          · rw [List.map_cons, BulkEvent.event, TransferDev.run, called, Option.bind_some, ran]
            rfl
          · rw [FullLength, List.forall_mem_cons, length, ← FullLength, full, jumps,
              or_iff_right busy, handles.xferBufNum, handles.format, Nat.cast_add, ← Int.add_assoc]
            generalize p.sync.syncLossCnt + (jump p.format p.sync.addr packet : ℤ) = counter
              at sync ⊢
            constructor
            · rintro ⟨below, idle | few⟩
              · rw [jumps_of_idle idle]
                omega
              · rwa [sync below] at few
            · intro few
              have below : counter ≤ sizeToInt p.xferBufNum := by omega
              exact ⟨below, .inr (by simpa only [sync below] using few)⟩

/-! ## Losses add up -/

/-- A block with a header. -/
def blockOf (header : UInt32) : Packet where
  buffer := fun i => if i < 4 then (header >>> (8 * UInt32.ofNat i)).toUInt8 else 0
  actualLength := 1024

/-- A stream in which one block is lost before every block that arrives. -/
def lossyEvents (count : ℕ) : List BulkEvent :=
  (List.range count).map fun k => .completes (blockOf (504 * UInt32.ofNat k))

/-- **An aligned stream is cut.** After 33 losses of a whole block, however far apart, a shortened
read moves the blocks of a stream that was in step with them. -/
theorem aligned_stream_cut :
    ¬ ∀ (p : TransferDev) (events : List BulkEvent), p.feed.xferOutPos = 0 →
      p.sync.syncLossCnt = 0 → BulkFit events →
        ∃ q completed, p.run (events.map BulkEvent.event) = some (q, completed) ∧
          FullLength completed := by
  intro aligned
  have fit : BulkFit (lossyEvents 33) := by
    intro packet member
    obtain ⟨k, -, same⟩ := List.mem_map.mp member
    obtain rfl := BulkEvent.completes.inj same
    exact show 1024 ≤ 16384 by decide
  obtain ⟨q, completed, ran, full⟩ := aligned startedStream (lossyEvents 33) rfl rfl fit
  obtain ⟨q', completed', ran', iff⟩ := fullLength_iff (p := startedStream) (.inl rfl) fit
  obtain ⟨rfl, rfl⟩ := Prod.mk.inj (Option.some.inj (ran.symm.trans ran'))
  rcases iff.mp full with idle | few
  · exact idle (blockOf 0) List.mem_cons_self
  · exact absurd few (by decide)

/-- **Exactly the runs with few losses are never shortened**: the transfers that do not begin with
the header that follows the transfer before are, over the whole run, no more than there are
transfers. -/
theorem never_shortened_iff (p : TransferDev) (events : List BulkEvent)
    (fresh : p.feed.xferOutPos = 0) (started : p.sync.syncLossCnt = 0) (fit : BulkFit events) :
    ∃ q completed, p.run (events.map BulkEvent.event) = some (q, completed) ∧
      (FullLength completed ↔
        Idle events ∨ (jumps p.format p.sync.addr events : ℤ) ≤ sizeToInt p.xferBufNum) := by
  obtain ⟨q, completed, ran, full⟩ := fullLength_iff (feedReady_of_fresh fresh) fit
  rw [started, Int.zero_add] at full
  exact ⟨q, completed, ran, full⟩

/-- After 32 losses the length is still full. -/
theorem never_shortened_iff_fewLosses :
    ∃ q completed, startedStream.run ((lossyEvents 32).map BulkEvent.event) = some (q, completed) ∧
      FullLength completed := by
  obtain ⟨q, completed, ran, full⟩ := never_shortened_iff startedStream (lossyEvents 32) rfl rfl (by
    intro packet member
    obtain ⟨k, -, same⟩ := List.mem_map.mp member
    obtain rfl := BulkEvent.completes.inj same
    exact show 1024 ≤ 16384 by decide)
  exact ⟨q, completed, ran, full.mpr (.inr (by decide))⟩

end MsiSdrDriver.Async
