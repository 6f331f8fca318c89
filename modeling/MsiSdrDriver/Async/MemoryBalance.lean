import MsiSdrDriver.Async.DeviceMemory

/-!
# The memory of a device is freed

There is a rule for each part of the code: what the device owns before and after it, besides
whatever else is owned. A device at rest owns itself, the context, the handle and the samples
(`Rests`), and one that reads also the transfers and their buffers (`Streams`). No event changes
that (`Streams.handlesAll`): the buffer of the samples may be replaced, and the old one is freed.

The transfers are allocated and freed twice if ISOC transfers cannot be submitted and BULK ones are
tried. However a read goes, it leaves a device at rest (`Rests.reads`), and after the close, or
after an opening that has failed, every allocation has been freed once (`life_frees_all`).
-/

set_option autoImplicit false

namespace MsiSdrDriver.Async

open MsiSdrDriver.Foundations
open MsiSdrDriver.Foundations.HeapProgram
open MsiSdrDriver.Convert
open MsiSdrDriver.Driver

/-! ## Rules -/

section Rules

variable {place : Heap Address Block → Address} {base h h' : Heap Address Block}
  {owned rest : List (Address × Block)} {a : Address} {block old : Block}

theorem run_unlessNull {action : Program Unit} (notNull : a ≠ NULL)
    (ran : action h = some ((), h')) : unlessNull a action h = some ((), h') := by
  rw [unlessNull, if_neg notNull]
  exact ran

theorem run_ifNull {allocation : Program Address} {b : Address} (null : a = NULL)
    (ran : allocation h = some (b, h')) : ifNull a allocation h = some (b, h') := by
  rw [ifNull, if_pos null]
  exact ran

/-! ## Arrays -/

/-- An array and the cells that it points to. -/
def arrayCells (block : Block) (array : Address) (slots : List Address) : List (Address × Block) :=
  (array, .pointers slots) :: slots.map (·, block)

/-- An array of pointers to cells of one kind, with as many elements as the code goes through. -/
structure IsArray (array : Address) (slots : List Address) (count : ℕ) : Prop where
  notNull : array ≠ NULL
  length : slots.length = count
  slotsNotNull : ∀ slot ∈ slots, slot ≠ NULL

theorem allocArray_owned (allocates : Allocates NULL place base) (block : Block) (count : ℕ)
    (owns : Owns base owned h) :
    ∃ array slots h', allocArray place block count h = some (array, h') ∧
      IsArray array slots count ∧ Owns base (arrayCells block array slots ++ owned) h' := by
  obtain ⟨array, h₁, allocated, notNull, owns⟩ := malloc_owned allocates owns (.pointers [])
  obtain ⟨slots, h₂, others, length, slotsNotNull, owns⟩ :=
    mallocEach_owned allocates owns block count
  obtain ⟨h₃, stored, owns⟩ := store_owned (owns.perm List.perm_middle) (.pointers slots)
  refine ⟨array, slots, h₃, ?_, ⟨notNull, length, slotsNotNull⟩, owns⟩
  rw [allocArray, run_bind allocated, run_bind others, run_bind stored]
  rfl

theorem elements_owned {array : Address} {slots : List Address} {count : ℕ}
    (owns : Owns base owned h) (member : (array, .pointers slots) ∈ owned)
    (enough : count ≤ slots.length) : elements array count h = some (slots.take count, h) := by
  have found : load array Block.slots? h = some (slots, h) := load_owned owns member rfl
  rw [elements, run_bind found, run_bind (run_require enough)]
  rfl

theorem freeEach_owned {slots : List Address} (notNull : ∀ slot ∈ slots, slot ≠ NULL)
    (owns : Owns base ((a, old) :: (slots.map (·, block) ++ owned)) h) :
    ∃ h', slots.forM (fun slot => unlessNull slot (free slot)) h = some ((), h') ∧
      Owns base ((a, old) :: owned) h' := by
  induction slots generalizing h with
  | nil => exact ⟨h, rfl, owns⟩
  | cons slot later ih =>
      obtain ⟨h₁, freed, owns⟩ := free_owned (owns.perm (List.Perm.swap ..))
      obtain ⟨h₂, others, owns⟩ := ih (fun s m => notNull s (List.mem_cons_of_mem _ m)) owns
      refine ⟨h₂, ?_, owns⟩
      have first := run_unlessNull (notNull slot List.mem_cons_self) freed
      exact (run_forM_cons (fun slot => unlessNull slot (free slot)) first).trans others

/-- The elements are freed, and the array. -/
theorem freeArray_owned {array : Address} {slots : List Address} {count : ℕ}
    (isArray : IsArray array slots count)
    (owns : Owns base (arrayCells block array slots ++ owned) h) :
    ∃ h', freeArray array count h = some ((), h') ∧ Owns base owned h' := by
  have found := elements_owned owns List.mem_cons_self isArray.length.ge
  rw [List.take_of_length_le isArray.length.le] at found
  obtain ⟨h₁, freed, owns⟩ := freeEach_owned isArray.slotsNotNull owns
  obtain ⟨h₂, last, owns⟩ := free_owned owns
  refine ⟨h₂, ?_, owns⟩
  rw [freeArray, run_bind found, run_bind freed]
  exact last

/-! ## A device -/

/-- The cell of the samples, if there is one. -/
def samplesCells (dev : DeviceFields) : List (Address × Block) :=
  if dev.samples = NULL then [] else [(dev.samples, .bytes dev.stream.samples.length)]

/-- What a device at rest owns. -/
def restCells (p : Address) (dev : DeviceFields) : List (Address × Block) :=
  (p, .device dev) :: (samplesCells dev ++ [(dev.ctx, .context), (dev.dh, .handle)])

/-- The cell of the output buffer, if its length is fixed. -/
def outCells (dev : DeviceFields) : List (Address × Block) :=
  if dev.stream.feed.xferOutLen = 0 then []
  else [(dev.xferOut, .bytes dev.stream.feed.xferOutLen.toNat)]

/-- What a device owns besides while it reads. -/
def streamCells (dev : DeviceFields) (xfers buffers : List Address) : List (Address × Block) :=
  arrayCells (.transfer (isoPackets dev.transfer)) dev.xfer xfers ++
    (arrayCells (.bytes (bufferSize dev.transfer)) dev.xferBuf buffers ++ outCells dev)

/-- A device that is open. -/
structure Opened (dev : DeviceFields) : Prop where
  ctx : dev.ctx ≠ NULL
  dh : dev.dh ≠ NULL
  samples : dev.samples = NULL → dev.stream.samples = []
  ready : FeedReady dev.stream.feed

/-- A device that does not read. -/
structure NotReading (dev : DeviceFields) : Prop extends Opened dev where
  xfer : dev.xfer = NULL
  xferBuf : dev.xferBuf = NULL
  xferOut : dev.xferOut = NULL

/-- A device with its transfers and their buffers. -/
structure Reads (dev : DeviceFields) (xfers buffers : List Address) : Prop extends Opened dev where
  xfer : IsArray dev.xfer xfers dev.stream.xferBufNum
  xferBuf : IsArray dev.xferBuf buffers dev.stream.xferBufNum
  xferOut : dev.xferOut = NULL ↔ dev.stream.feed.xferOutLen = 0

/-- A device that does not read, and its memory. Other cells may be owned as well. -/
structure Rests (base : Heap Address Block) (others : List (Address × Block)) (p : Address)
    (dev : DeviceFields) (h : Heap Address Block) : Prop where
  idle : NotReading dev
  owns : Owns base (restCells p dev ++ others) h

/-- A device that reads, and its memory. -/
structure Streams (base : Heap Address Block) (others : List (Address × Block)) (p : Address)
    (xfers buffers : List Address) (dev : DeviceFields) (h : Heap Address Block) : Prop where
  reads : Reads dev xfers buffers
  owns : Owns base (restCells p dev ++ (streamCells dev xfers buffers ++ others)) h

/-- The fields that the memory depends on are as they were, but for the samples. -/
structure Follows (dev dev' : DeviceFields) : Prop where
  transfer : dev'.transfer = dev.transfer
  xferBufNum : dev'.stream.xferBufNum = dev.stream.xferBufNum

theorem Follows.refl (dev : DeviceFields) : Follows dev dev := ⟨rfl, rfl⟩

theorem Follows.trans {dev dev' dev'' : DeviceFields} (first : Follows dev dev')
    (second : Follows dev' dev'') : Follows dev dev'' :=
  ⟨second.transfer.trans first.transfer, second.xferBufNum.trans first.xferBufNum⟩

variable {others : List (Address × Block)} {p : Address} {dev : DeviceFields}
  {xfers buffers : List Address}

theorem load_device (owns : Owns base (restCells p dev ++ owned) h) :
    load p Block.device? h = some (dev, h) :=
  load_owned owns List.mem_cons_self rfl

theorem load_handle (owns : Owns base (restCells p dev ++ owned) h) :
    load dev.dh Block.handle? h = some ((), h) :=
  load_owned owns (List.mem_append_left _
    (.tail _ (List.mem_append_right _ (.tail _ (.head _))))) rfl

/-- Four groups of cells in the opposite order. -/
theorem perm_opposite (w x y z others : List (Address × Block)) :
    (w ++ (x ++ (y ++ (z ++ others)))).Perm (z ++ (y ++ (x ++ w) ++ others)) := by
  have inner : (x ++ (y ++ z)).Perm (z ++ y ++ x) :=
    List.perm_append_comm.trans (List.perm_append_comm.append_right x)
  have all : (w ++ (x ++ (y ++ z))).Perm (z ++ y ++ x ++ w) :=
    List.perm_append_comm.trans (inner.append_right w)
  simpa only [List.append_assoc] using all.append_right others

/-- **The transfers, their buffers and the output buffer are allocated.** -/
theorem Rests.allocates (allocates : Allocates NULL place base)
    (rests : Rests base others p dev h) :
    ∃ dev' xfers buffers h', msisdrAsyncAlloc place p h = some ((), h') ∧ Follows dev dev' ∧
      Streams base others p xfers buffers dev' h' := by
  obtain ⟨idle, owns⟩ := rests
  have found := load_device owns
  obtain ⟨xfer, xfers, h₁, allocated, isXfer, owns⟩ := allocArray_owned allocates
    (.transfer (isoPackets dev.transfer)) dev.stream.xferBufNum owns
  obtain ⟨xferBuf, buffers, h₂, allocatedBuf, isXferBuf, owns⟩ := allocArray_owned allocates
    (.bytes (bufferSize dev.transfer)) dev.stream.xferBufNum owns
  obtain ⟨xferOut, h₃, allocatedOut, isOut, owns⟩ : ∃ xferOut h₃,
      (if dev.stream.feed.xferOutLen = 0 then pure NULL
        else malloc place (.bytes dev.stream.feed.xferOutLen.toNat)) h₂ = some (xferOut, h₃) ∧
      (xferOut = NULL ↔ dev.stream.feed.xferOutLen = 0) ∧
      Owns base (outCells { dev with xferOut := xferOut } ++
        (arrayCells (.bytes (bufferSize dev.transfer)) xferBuf buffers ++
          (arrayCells (.transfer (isoPackets dev.transfer)) xfer xfers ++
            (restCells p dev ++ others)))) h₃ := by
    by_cases whole : dev.stream.feed.xferOutLen = 0
    · refine ⟨NULL, h₂, ?_, iff_of_true rfl whole, ?_⟩
      · rw [if_pos whole]
        rfl
      · rw [outCells, if_pos whole]
        exact owns
    · obtain ⟨xferOut, h₃, allocatedOut, notNull, owns⟩ := malloc_owned allocates owns
        (.bytes dev.stream.feed.xferOutLen.toNat)
      refine ⟨xferOut, h₃, ?_, iff_of_false notNull whole, ?_⟩
      · rw [if_neg whole]
        exact allocatedOut
      · rw [outCells, if_neg whole]
        exact owns
  obtain ⟨h₄, stored, owns⟩ := store_owned (owns.perm (perm_opposite ..))
    (.device { dev with xfer := xfer, xferBuf := xferBuf, xferOut := xferOut })
  refine ⟨{ dev with xfer := xfer, xferBuf := xferBuf, xferOut := xferOut }, xfers, buffers, h₄, ?_,
    ⟨rfl, rfl⟩, ⟨⟨idle.ctx, idle.dh, idle.samples, idle.ready⟩, isXfer, isXferBuf, isOut⟩, owns⟩
  rw [msisdrAsyncAlloc, run_bind found, run_bind (run_ifNull idle.xfer allocated),
    run_bind (run_ifNull idle.xferBuf allocatedBuf),
    run_bind (run_ifNull idle.xferOut allocatedOut)]
  exact stored

/-- **They are freed again.** -/
theorem Streams.frees (streams : Streams base others p xfers buffers dev h) :
    ∃ dev' h', msisdrAsyncFree p h = some ((), h') ∧ Follows dev dev' ∧
      Rests base others p dev' h' := by
  obtain ⟨reads, owns⟩ := streams
  have found := load_device owns
  obtain ⟨h₁, freedXfer, owns⟩ := freeArray_owned reads.xfer
    (owns.perm (by
      rw [streamCells, List.append_assoc, List.append_assoc]
      exact List.perm_append_comm_assoc ..))
  obtain ⟨h₂, freedXferBuf, owns⟩ := freeArray_owned reads.xferBuf
    (owns.perm (List.perm_append_comm_assoc ..))
  obtain ⟨h₃, freedOut, owns⟩ : ∃ h₃, unlessNull dev.xferOut (free dev.xferOut) h₂ =
      some ((), h₃) ∧ Owns base (restCells p dev ++ others) h₃ := by
    by_cases whole : dev.stream.feed.xferOutLen = 0
    · refine ⟨h₂, ?_, ?_⟩
      · rw [unlessNull, if_pos (reads.xferOut.mpr whole)]
        rfl
      · rw [outCells, if_pos whole] at owns
        exact owns
    · rw [outCells, if_neg whole] at owns
      obtain ⟨h₃, freed, owns⟩ := free_owned (owns.perm (List.perm_append_comm_assoc ..))
      exact ⟨h₃, run_unlessNull (fun null => whole (reads.xferOut.mp null)) freed, owns⟩
  obtain ⟨h₄, stored, owns⟩ := store_owned owns
    (.device { dev with xfer := NULL, xferBuf := NULL, xferOut := NULL })
  refine ⟨{ dev with xfer := NULL, xferBuf := NULL, xferOut := NULL }, h₄, ?_, ⟨rfl, rfl⟩,
    ⟨⟨reads.ctx, reads.dh, reads.samples, reads.ready⟩, rfl, rfl, rfl⟩, owns⟩
  rw [msisdrAsyncFree, run_bind found, run_bind (run_unlessNull reads.xfer.notNull freedXfer),
    run_bind (run_unlessNull reads.xferBuf.notNull freedXferBuf), run_bind freedOut]
  exact stored

/-! ## Events -/

theorem Streams.elements_xfer (streams : Streams base others p xfers buffers dev h) {count : ℕ}
    (enough : count ≤ xfers.length) : elements dev.xfer count h = some (xfers.take count, h) := by
  refine elements_owned streams.owns ?_ enough
  exact List.mem_append_right _ (List.mem_append_left _
    (List.mem_append_left _ List.mem_cons_self))

theorem Streams.elements_xferBuf (streams : Streams base others p xfers buffers dev h) {count : ℕ}
    (enough : count ≤ buffers.length) :
    elements dev.xferBuf count h = some (buffers.take count, h) := by
  refine elements_owned streams.owns ?_ enough
  exact List.mem_append_right _ (List.mem_append_left _ (List.mem_append_right _
    (List.mem_append_left _ List.mem_cons_self)))

theorem Streams.load_xfer (streams : Streams base others p xfers buffers dev h) {xfer : Address}
    (member : xfer ∈ xfers) :
    load xfer Block.isoPackets? h = some (isoPackets dev.transfer, h) := by
  have owned : (xfer, Block.transfer (isoPackets dev.transfer)) ∈
      restCells p dev ++ (streamCells dev xfers buffers ++ others) :=
    List.mem_append_right _ (List.mem_append_left _ (List.mem_append_left _
      (List.mem_cons_of_mem _ (List.mem_map_of_mem member))))
  exact load_owned streams.owns owned rfl

theorem Streams.load_buffer (streams : Streams base others p xfers buffers dev h) {buffer : Address}
    (member : buffer ∈ buffers) :
    load buffer Block.size? h = some (bufferSize dev.transfer, h) := by
  have owned : (buffer, Block.bytes (bufferSize dev.transfer)) ∈
      restCells p dev ++ (streamCells dev xfers buffers ++ others) :=
    List.mem_append_right _ (List.mem_append_left _ (List.mem_append_right _
      (List.mem_append_left _ (List.mem_cons_of_mem _ (List.mem_map_of_mem member)))))
  exact load_owned streams.owns owned rfl

/-- The output buffer has the length that `msisdr_feed_async` may fill. -/
theorem Streams.outFits (streams : Streams base others p xfers buffers dev h) :
    requireOut dev h = some ((), h) := by
  rw [requireOut]
  by_cases whole : dev.stream.feed.xferOutLen = 0
  · rw [if_pos whole]
    rfl
  · have member : (dev.xferOut, Block.bytes dev.stream.feed.xferOutLen.toNat) ∈
        restCells p dev ++ (streamCells dev xfers buffers ++ others) := by
      refine List.mem_append_right _ (List.mem_append_left _
        (List.mem_append_right _ (List.mem_append_right _ ?_)))
      rw [outCells, if_neg whole]
      exact List.mem_cons_self
    have found : load dev.xferOut Block.size? h = some (dev.stream.feed.xferOutLen.toNat, h) :=
      load_owned streams.owns member rfl
    rw [if_neg whole, run_bind found]
    exact run_require (Nat.le_refl _)

/-- **The buffer of the samples is large enough afterwards**, and the old one is freed. -/
theorem Streams.reallocates (allocates : Allocates NULL place base)
    (streams : Streams base others p xfers buffers dev h) (size : ℕ) :
    ∃ samples h', samplesRealloc place p size h = some ((), h') ∧
      Streams base others p xfers buffers
        { dev with samples := samples, stream := dev.stream.samplesRealloc size } h' := by
  have found := load_device streams.owns
  have reads := streams.reads
  rw [samplesRealloc, run_bind found]
  by_cases short : dev.stream.samples.length < size
  · have grown : dev.stream.samplesRealloc size =
        { dev.stream with samples := List.replicate size 0 } := if_pos short
    rw [if_pos short, grown]
    obtain ⟨h₁, freed, owns⟩ : ∃ h₁, unlessNull dev.samples (free dev.samples) h =
        some ((), h₁) ∧ Owns base ((p, .device dev) :: ([(dev.ctx, .context), (dev.dh, .handle)] ++
          (streamCells dev xfers buffers ++ others))) h₁ := by
      have owns := streams.owns
      by_cases none : dev.samples = NULL
      · refine ⟨h, ?_, ?_⟩
        · rw [unlessNull, if_pos none]
          rfl
        · rw [restCells, samplesCells, if_pos none] at owns
          exact owns
      · rw [restCells, samplesCells, if_neg none] at owns
        obtain ⟨h₁, freed, owns⟩ := free_owned (owns.perm (List.Perm.swap ..))
        exact ⟨h₁, run_unlessNull none freed, owns⟩
    obtain ⟨samples, h₂, allocated, notNull, owns⟩ := malloc_owned allocates owns (.bytes size)
    obtain ⟨h₃, stored, owns⟩ := store_owned (owns.perm (List.Perm.swap ..))
      (.device { dev with samples := samples,
                          stream := { dev.stream with samples := List.replicate size 0 } })
    refine ⟨samples, h₃, ?_, ⟨⟨⟨reads.ctx, reads.dh, fun null => absurd null notNull, reads.ready⟩,
      reads.xfer, reads.xferBuf, reads.xferOut⟩, ?_⟩⟩
    · rw [run_bind freed, run_bind allocated]
      exact stored
    · rw [restCells, samplesCells, if_neg notNull, List.length_replicate]
      exact owns
  · have same : dev.stream.samplesRealloc size = dev.stream := if_neg short
    rw [if_neg short, same]
    exact ⟨dev.samples, h, rfl, streams⟩

/-- A transfer has received no more than its buffer holds. -/
theorem received_le {xfer : CompletedXfer} (fits : xfer.Fits) :
    received xfer ≤ bufferSize xfer.type := by
  cases xfer with
  | bulk packet => exact fits
  | isoc packets =>
      have each : ∀ i : Fin defaultIsoPackets,
          1024 * defaultIsoBuffers * i.val + (packets i).actualLength ≤ bufferSize .isoc := by
        intro i
        have bound : (packets i).actualLength ≤ 1024 * defaultIsoBuffers := fits i
        have index : i.val + 1 ≤ defaultIsoPackets := i.isLt
        calc 1024 * defaultIsoBuffers * i.val + (packets i).actualLength
            ≤ 1024 * defaultIsoBuffers * (i.val + 1) := by rw [Nat.mul_add_one]; omega
          _ ≤ 1024 * defaultIsoBuffers * defaultIsoPackets := Nat.mul_le_mul_left _ index
      show (List.ofFn _).foldr max 0 ≤ _
      generalize found : (List.ofFn fun i : Fin defaultIsoPackets =>
        1024 * defaultIsoBuffers * i.val + (packets i).actualLength) = lengths
      have all : ∀ length ∈ lengths, length ≤ bufferSize .isoc := by
        intro length member
        rw [← found] at member
        obtain ⟨i, rfl⟩ := List.mem_ofFn.mp member
        exact each i
      clear found
      induction lengths with
      | nil => exact Nat.zero_le _
      | cons length later ih =>
          exact max_le (all length List.mem_cons_self)
            (ih fun other member => all other (List.mem_cons_of_mem _ member))

theorem overwrite_length {samples dst written : List UInt8} {start : ℕ}
    (wrote : overwrite samples start dst = some written) : written.length = samples.length := by
  unfold overwrite at wrote
  split at wrote
  · cases wrote
    simp only [List.length_append, List.length_take, List.length_drop]
    omega
  · cases wrote

theorem convertPackets_length {q q' : TransferDev} {bytes bytes' : ℤ} {packets : List Packet}
    (converted : q.convertPackets bytes packets = some (q', bytes')) :
    q'.samples.length = q.samples.length := by
  induction packets generalizing q bytes with
  | nil =>
      cases converted
      rfl
  | cons packet later ih =>
      obtain ⟨written, wrote, rest⟩ := Option.bind_eq_some_iff.mp converted
      exact (ih rest).trans (overwrite_length wrote)

theorem feedAsync_samples {q q' : TransferDev} {bytes : ℤ} {calls : List (List UInt8)}
    (fed : q.feedAsync bytes = some (q', calls)) : q'.samples = q.samples := by
  unfold TransferDev.feedAsync at fed
  split at fed
  · obtain ⟨⟨feed, calls', result⟩, -, returned⟩ := Option.map_eq_some_iff.mp fed
    cases returned
    rfl
  · cases fed
    rfl

/-- The callback writes over the samples, and leaves their buffer. -/
theorem callback_length {q : TransferDev} {xfer : CompletedXfer} {completed : Completed}
    (called : libusbCallback q xfer = some completed) :
    completed.p.samples.length =
      (q.samplesRealloc (samplesSize xfer.type q.format)).samples.length := by
  obtain ⟨⟨q₁, bytes⟩, converted, called⟩ := Option.bind_eq_some_iff.mp called
  obtain ⟨⟨q₂, calls⟩, fed, called⟩ := Option.bind_eq_some_iff.mp called
  cases called
  exact (congrArg List.length (feedAsync_samples fed)).trans (convertPackets_length converted)

theorem samplesSize_pos (type : Transfer) (format : Format) : 0 < samplesSize type format := by
  cases type with
  | bulk | isoc =>
      cases format with
      | s16x252 | s16x336 | s16x384 | s16x504 | s8x504 => decide

/-- An event that libusb and the setters can give rise to. -/
def AsyncEvent.Fits (transfer : Transfer) (count : ℕ) : AsyncEvent → Prop
  | .completes i xfer => i < count ∧ xfer.type = transfer ∧ xfer.Fits
  | .setHard _ | .scans => True

/-- Fields of the stream that no size depends on are stored. -/
theorem Streams.stores (streams : Streams base others p xfers buffers dev h) (stream : TransferDev)
    (xferBufNum : stream.xferBufNum = dev.stream.xferBufNum)
    (samples : stream.samples.length = dev.stream.samples.length)
    (xferOutLen : stream.feed.xferOutLen = dev.stream.feed.xferOutLen)
    (ready : FeedReady stream.feed) :
    ∃ h', store p (.device { dev with stream := stream }) h = some ((), h') ∧
      Streams base others p xfers buffers { dev with stream := stream } h' := by
  have reads := streams.reads
  obtain ⟨h', stored, owns⟩ := store_owned streams.owns (.device { dev with stream := stream })
  refine ⟨h', stored, ⟨⟨⟨reads.ctx, reads.dh, fun null => ?_, ready⟩, ?_, ?_, ?_⟩, ?_⟩⟩
  · exact List.length_eq_zero_iff.mp (samples.trans (congrArg List.length (reads.samples null)))
  · exact xferBufNum ▸ reads.xfer
  · exact xferBufNum ▸ reads.xferBuf
  · exact xferOutLen ▸ reads.xferOut
  · have cells : samplesCells { dev with stream := stream } = samplesCells dev := by
      rw [samplesCells, samplesCells, samples]
    have out : outCells { dev with stream := stream } = outCells dev := by
      rw [outCells, outCells, xferOutLen]
    rw [restCells, streamCells, cells, out]
    exact owns

/-- **A transfer that completes** stays inside of the memory of the device. -/
theorem Streams.completes (allocates : Allocates NULL place base)
    (streams : Streams base others p xfers buffers dev h) {i : ℕ} {xfer : CompletedXfer}
    (index : i < dev.stream.xferBufNum) (type : xfer.type = dev.transfer) (fits : xfer.Fits) :
    ∃ dev' h', completeXfer place p i xfer h = some ((), h') ∧ Follows dev dev' ∧
      Streams base others p xfers buffers dev' h' := by
  have inXfers : i < xfers.length := streams.reads.xfer.length ▸ index
  have inBuffers : i < buffers.length := streams.reads.xferBuf.length ▸ index
  have slot : (xfers.take (i + 1)).getD i NULL = xfers[i] := by
    simp [List.getD_eq_getElem?_getD, inXfers]
  have buffer : (buffers.take (i + 1)).getD i NULL = buffers[i] := by
    simp [List.getD_eq_getElem?_getD, inBuffers]
  have room : received xfer ≤ bufferSize dev.transfer := type ▸ received_le fits
  obtain ⟨samples, h₁, grown, streams₁⟩ := streams.reallocates allocates
    (samplesSize xfer.type dev.stream.format)
  obtain ⟨list, realloc, enough, -⟩ :=
    samplesRealloc_eq dev.stream (samplesSize xfer.type dev.stream.format)
  rw [realloc] at streams₁
  have positive := samplesSize_pos xfer.type dev.stream.format
  have notNull : samples ≠ NULL := fun null => by
    have empty : list = [] := streams₁.reads.samples null
    rw [empty, List.length_nil] at enough
    omega
  have samplesCell : (samples, Block.bytes list.length) ∈
      restCells p { dev with samples := samples, stream := { dev.stream with samples := list } } ++
        (streamCells { dev with samples := samples, stream := { dev.stream with samples := list } }
          xfers buffers ++ others) := by
    refine List.mem_append_left _ (.tail _ (List.mem_append_left _ ?_))
    rw [samplesCells, if_neg notNull]
    exact List.mem_cons_self
  have found : load samples Block.size? h₁ = some (list.length, h₁) :=
    load_owned streams₁.owns samplesCell rfl
  obtain ⟨completed, called, handles⟩ := callback_handles streams₁.reads.ready fits
  have length : completed.p.samples.length = list.length := by
    rw [callback_length called, TransferDev.samplesRealloc, if_neg (by dsimp only; omega)]
  obtain ⟨h₂, stored, streams₂⟩ := streams₁.stores completed.p handles.xferBufNum length
    handles.xferOutLen handles.ready
  refine ⟨{ dev with samples := samples, stream := completed.p }, h₂, ?_,
    ⟨rfl, handles.xferBufNum⟩, streams₂⟩
  rw [completeXfer, run_bind (load_device streams.owns),
    run_bind (streams.elements_xfer inXfers), slot,
    run_bind (streams.load_xfer (List.getElem_mem inXfers)),
    run_bind (streams.elements_xferBuf inBuffers), buffer,
    run_bind (streams.load_buffer (List.getElem_mem inBuffers)), run_bind (run_require room),
    run_bind grown, run_bind (load_device streams₁.owns), run_bind found,
    run_bind (run_require (Nat.le_refl _)), run_bind streams₁.outFits]
  have lifted : (liftM (libusbCallback { dev.stream with samples := list } xfer) :
      Program Completed) h₁ = some (completed, h₁) := by
    rw [called]
    rfl
  rw [run_bind lifted]
  exact stored

/-- A loop goes through the first transfers. -/
theorem Streams.scans (streams : Streams base others p xfers buffers dev h) {count : ℕ}
    (enough : count ≤ dev.stream.xferBufNum) : scanXfers p count h = some ((), h) := by
  have inXfers : count ≤ xfers.length := streams.reads.xfer.length ▸ enough
  have each : ∀ {slots : List Address}, (∀ slot ∈ slots, slot ∈ xfers) →
      slots.forM (scanXfer dev.dh) h = some ((), h) := by
    intro slots inside
    induction slots with
    | nil => rfl
    | cons slot later ih =>
        have first : scanXfer dev.dh slot h = some ((), h) := by
          rw [scanXfer, run_bind (streams.load_xfer (inside slot List.mem_cons_self))]
          exact load_handle streams.owns
        exact (run_forM_cons _ first).trans (ih fun other member =>
          inside other (List.mem_cons_of_mem _ member))
  rw [scanXfers, run_bind (load_device streams.owns),
    run_bind (streams.elements_xfer inXfers)]
  exact each fun slot member => List.mem_of_mem_take member

/-- **An event** leaves a device that reads, and stays inside of its memory. -/
theorem Streams.handles (allocates : Allocates NULL place base)
    (streams : Streams base others p xfers buffers dev h) {event : AsyncEvent}
    (fits : event.Fits dev.transfer dev.stream.xferBufNum) :
    ∃ dev' h', handleEvent place p event h = some ((), h') ∧ Follows dev dev' ∧
      Streams base others p xfers buffers dev' h' := by
  cases event with
  | completes i xfer => exact streams.completes allocates fits.1 fits.2.1 fits.2.2
  | setHard format =>
      obtain ⟨h', stored, streams'⟩ :=
        streams.stores (dev.stream.setHard format) rfl rfl rfl streams.reads.ready
      refine ⟨{ dev with stream := dev.stream.setHard format }, h', ?_, ⟨rfl, rfl⟩, streams'⟩
      rw [handleEvent, run_bind (load_device streams.owns)]
      exact stored
  | scans =>
      refine ⟨dev, h, ?_, .refl dev, streams⟩
      rw [handleEvent, run_bind (load_device streams.owns)]
      exact streams.scans (Nat.le_refl _)

/-- **Any events, in any order.** -/
theorem Streams.handlesAll (allocates : Allocates NULL place base) {events : List AsyncEvent}
    (streams : Streams base others p xfers buffers dev h)
    (fit : ∀ event ∈ events, event.Fits dev.transfer dev.stream.xferBufNum) :
    ∃ dev' h', events.forM (handleEvent place p) h = some ((), h') ∧ Follows dev dev' ∧
      Streams base others p xfers buffers dev' h' := by
  induction events generalizing dev h with
  | nil => exact ⟨dev, h, rfl, .refl dev, streams⟩
  | cons event later ih =>
      obtain ⟨dev₁, h₁, first, follows, streams⟩ :=
        streams.handles allocates (fit event List.mem_cons_self)
      have fit' : ∀ event ∈ later, event.Fits dev₁.transfer dev₁.stream.xferBufNum := by
        intro event member
        rw [follows.transfer, follows.xferBufNum]
        exact fit event (List.mem_cons_of_mem _ member)
      obtain ⟨dev₂, h₂, others, follows', streams⟩ := ih streams fit'
      exact ⟨dev₂, h₂, (run_forM_cons _ first).trans others, follows.trans follows', streams⟩

/-! ## Reading -/

/-- The events of an attempt can happen with its transfers. -/
structure Attempt.Fits (transfer : Transfer) (count : ℕ) (attempt : Attempt) : Prop where
  handled : ∀ event ∈ attempt.handled, event.Fits transfer count
  streamed : ∀ event ∈ attempt.streamed, event.Fits transfer count
  drained : ∀ event ∈ attempt.drained, event.Fits transfer count

/-- What fits a device fits it when it has gone on. -/
theorem Follows.fit {dev' : DeviceFields} (follows : Follows dev dev') {events : List AsyncEvent}
    (fit : ∀ event ∈ events, event.Fits dev.transfer dev.stream.xferBufNum) :
    ∀ event ∈ events, event.Fits dev'.transfer dev'.stream.xferBufNum := by
  rw [follows.transfer, follows.xferBufNum]
  exact fit

/-- The transfers are submitted, up to one that is refused. -/
theorem Streams.submits (streams : Streams base others p xfers buffers dev h)
    (submits : ℕ → Bool) (i : ℕ) {pairs : List (Address × Address)}
    (inside : ∀ pair ∈ pairs, pair.1 ∈ xfers ∧ pair.2 ∈ buffers) :
    ∃ r, submitEach dev.dh dev.transfer submits i pairs h = some (r, h) ∧
      ∀ k, r = some k → k < i + pairs.length := by
  induction pairs generalizing i with
  | nil => exact ⟨none, rfl, fun k refused => nomatch refused⟩
  | cons pair later ih =>
      obtain ⟨xfer, buffer⟩ := pair
      have here := inside _ List.mem_cons_self
      have filled : fillTransfer dev.transfer xfer buffer h = some ((), h) := by
        rw [fillTransfer, run_bind (streams.load_xfer here.1),
          run_bind (streams.load_buffer here.2)]
        exact run_require ⟨Nat.le_refl _, Nat.le_refl _⟩
      rw [submitEach, run_bind filled, run_bind (load_handle streams.owns)]
      by_cases accepted : submits i = true
      · obtain ⟨r, ran, refused⟩ := ih (i + 1) fun other member =>
          inside other (List.mem_cons_of_mem _ member)
        rw [if_pos accepted]
        refine ⟨r, ran, fun k found => ?_⟩
        have bound := refused k found
        rw [List.length_cons]
        omega
      · rw [if_neg accepted]
        refine ⟨some i, rfl, fun k found => ?_⟩
        obtain rfl := Option.some.inj found
        rw [List.length_cons]
        omega

/-- **A failure frees everything.** -/
theorem Streams.failedFree (allocates : Allocates NULL place base) {attempt : Attempt}
    (streams : Streams base others p xfers buffers dev h)
    (fit : ∀ event ∈ attempt.drained, event.Fits dev.transfer dev.stream.xferBufNum) :
    ∃ dev' h', failedFree place p attempt h = some (-1, h') ∧ Rests base others p dev' h' := by
  have fit' : ∀ event ∈ AsyncEvent.scans :: attempt.drained,
      event.Fits dev.transfer dev.stream.xferBufNum := by
    intro event member
    rcases List.mem_cons.mp member with rfl | later
    · trivial
    · exact fit event later
  obtain ⟨dev₁, h₁, drained, -, streams⟩ := streams.handlesAll allocates fit'
  obtain ⟨dev₂, h₂, freed, -, rests⟩ := streams.frees
  refine ⟨dev₂, h₂, ?_, rests⟩
  rw [Async.failedFree, run_bind drained, run_bind freed, run_bind (load_device rests.owns),
    run_bind (load_handle rests.owns)]
  rfl

/-- The retry with BULK transfers. -/
theorem Rests.fallsBack (rests : Rests base others p dev h) :
    ∃ h', fallBack p h = some (none, h') ∧
      Rests base others p { dev with transfer := .bulk } h' := by
  obtain ⟨h', stored, owns⟩ := store_owned rests.owns (.device { dev with transfer := .bulk })
  have idle := rests.idle
  refine ⟨h', ?_, ⟨⟨⟨idle.ctx, idle.dh, idle.samples, idle.ready⟩, idle.xfer, idle.xferBuf,
    idle.xferOut⟩, owns⟩⟩
  rw [fallBack, run_bind (load_device rests.owns), run_bind stored]
  rfl

/-- When a transfer is refused, ISOC transfers are freed for a retry, and BULK ones for good. -/
theorem Streams.refused (allocates : Allocates NULL place base) {attempt : Attempt} {i : ℕ}
    (streams : Streams base others p xfers buffers dev h) (index : i < dev.stream.xferBufNum)
    (fits : attempt.Fits dev.transfer dev.stream.xferBufNum) :
    ∃ r dev' h', submitFailed place p dev.transfer attempt i h = some (r, h') ∧
      Rests base others p dev' h' ∧
      (r = none → dev.transfer = .isoc ∧ dev'.transfer = .bulk ∧
        dev'.stream.xferBufNum = dev.stream.xferBufNum) := by
  cases type : dev.transfer with
  | bulk =>
      obtain ⟨dev', h', failed, rests⟩ := streams.failedFree allocates fits.drained
      refine ⟨some (-1), dev', h', ?_, rests, fun none => nomatch none⟩
      rw [submitFailed, run_map failed]
  | isoc =>
      have handled : ∀ event ∈ if i > 0 then attempt.handled else [],
          event.Fits dev.transfer dev.stream.xferBufNum := by
        split
        · exact fits.handled
        · exact fun event member => absurd member List.not_mem_nil
      obtain ⟨dev₁, h₁, ran, follows, streams₁⟩ := streams.handlesAll allocates handled
      obtain ⟨dev₂, h₂, freed, follows', rests⟩ := streams₁.frees
      obtain ⟨h₃, retried, rests⟩ := rests.fallsBack
      refine ⟨none, { dev₂ with transfer := .bulk }, h₃, ?_, rests, fun _ =>
        ⟨rfl, rfl, follows'.xferBufNum.trans follows.xferBufNum⟩⟩
      rw [submitFailed, run_bind (streams.scans index.le), run_bind ran, run_bind freed]
      exact retried

/-- When all transfers are accepted, the stream runs, and everything is freed at its end. -/
theorem Streams.streamsData (allocates : Allocates NULL place base) {attempt : Attempt}
    (streams : Streams base others p xfers buffers dev h)
    (fits : attempt.Fits dev.transfer dev.stream.xferBufNum) :
    ∃ r dev' h', streamData place p attempt h = some (some r, h') ∧
      Rests base others p dev' h' := by
  obtain ⟨dev₁, h₁, ran, follows, streams₁⟩ := streams.handlesAll allocates fits.streamed
  rw [streamData, run_bind (load_device streams.owns), run_bind (load_handle streams.owns),
    run_bind ran]
  by_cases fails : attempt.fails = true
  · obtain ⟨dev₂, h₂, failed, rests⟩ :=
      streams₁.failedFree allocates (follows.fit fits.drained)
    refine ⟨-1, dev₂, h₂, ?_, rests⟩
    rw [if_pos fails, run_map failed]
  · obtain ⟨dev₂, h₂, freed, -, rests⟩ := streams₁.frees
    refine ⟨0, dev₂, h₂, ?_, rests⟩
    rw [if_neg fails, run_bind freed, run_bind (load_device rests.owns),
      run_bind (load_handle rests.owns)]
    rfl

/-- **An attempt** leaves a device that rests. It is repeated only if it was made with ISOC
transfers, and then with BULK ones. -/
theorem Rests.attempts (allocates : Allocates NULL place base) (rests : Rests base others p dev h)
    {attempts : Transfer → Attempt}
    (fits : (attempts dev.transfer).Fits dev.transfer dev.stream.xferBufNum) :
    ∃ r dev' h', attemptTransfer place p attempts h = some (r, h') ∧ Rests base others p dev' h' ∧
      (r = none → dev.transfer = .isoc ∧ dev'.transfer = .bulk ∧
        dev'.stream.xferBufNum = dev.stream.xferBufNum) := by
  rw [attemptTransfer, run_bind (load_device rests.owns), run_bind (load_handle rests.owns)]
  by_cases missing : dev.transfer = .isoc ∧ ¬(attempts dev.transfer).altSetting
  · obtain ⟨h', retried, rests⟩ := rests.fallsBack
    rw [if_pos missing]
    exact ⟨none, _, h', retried, rests, fun _ => ⟨missing.1, rfl, rfl⟩⟩
  · obtain ⟨dev₁, xfers, buffers, h₁, allocated, follows, streams⟩ := rests.allocates allocates
    have reads := streams.reads
    have allXfers := streams.elements_xfer (reads.xfer.length.ge)
    have allBuffers := streams.elements_xferBuf (reads.xferBuf.length.ge)
    rw [List.take_of_length_le reads.xfer.length.le] at allXfers
    rw [List.take_of_length_le reads.xferBuf.length.le] at allBuffers
    obtain ⟨r, submitted, bound⟩ := streams.submits (attempts dev.transfer).submits 0
      fun pair member => List.of_mem_zip member
    have fits₁ : (attempts dev.transfer).Fits dev₁.transfer dev₁.stream.xferBufNum :=
      ⟨follows.fit fits.handled, follows.fit fits.streamed, follows.fit fits.drained⟩
    rw [if_neg missing, run_bind allocated, run_bind (load_device streams.owns),
      run_bind allXfers, run_bind allBuffers, run_bind submitted]
    cases r with
    | none =>
        obtain ⟨r, dev', h', ran, rests⟩ := streams.streamsData allocates fits₁
        exact ⟨some r, dev', h', ran, rests, fun none => nomatch none⟩
    | some i =>
        have index : i < dev₁.stream.xferBufNum := by
          have below := bound i rfl
          rw [List.length_zip, reads.xfer.length, reads.xferBuf.length, Nat.min_self,
            Nat.zero_add] at below
          exact below
        obtain ⟨r, dev', h', ran, rests, retried⟩ := streams.refused allocates index fits₁
        refine ⟨r, dev', h', ran, rests, fun none => ?_⟩
        obtain ⟨isoc, bulk, count⟩ := retried none
        exact ⟨follows.transfer ▸ isoc, bulk, count.trans follows.xferBufNum⟩

/-- The number of transfers that a call asks for. -/
def ReadCall.xferBufNum (call : ReadCall) : ℕ := if call.num = 0 then 32 else call.num.toNat

/-- The events of a call can happen with its transfers, of whichever type. -/
def ReadCall.Fits (call : ReadCall) : Prop :=
  ∀ transfer, (call.attempts transfer).Fits transfer call.xferBufNum

/-- **A read** leaves a device that rests, whatever the arguments are and however it goes. -/
theorem Rests.reads (allocates : Allocates NULL place base) (rests : Rests base others p dev h)
    {call : ReadCall} (fits : call.Fits) :
    ∃ r dev' h', msisdrReadAsync place p call h = some (r, h') ∧ Rests base others p dev' h' := by
  have idle := rests.idle
  obtain ⟨h₁, stored, owns⟩ :=
    store_owned rests.owns (.device { dev with stream := dev.stream.starts call })
  have rests₁ : Rests base others p { dev with stream := dev.stream.starts call } h₁ :=
    ⟨⟨⟨idle.ctx, idle.dh, idle.samples, feedReady_of_fresh rfl⟩, idle.xfer, idle.xferBuf,
      idle.xferOut⟩, owns⟩
  obtain ⟨r, dev₂, h₂, ran, rests₂, retried⟩ := rests₁.attempts allocates (fits dev.transfer)
  rw [msisdrReadAsync, run_bind (load_device rests.owns), if_neg idle.dh, run_bind stored,
    run_bind ran]
  cases r with
  | some r => exact ⟨r, dev₂, h₂, rfl, rests₂⟩
  | none =>
      obtain ⟨-, bulk, count⟩ := retried rfl
      have fits₂ : (call.attempts dev₂.transfer).Fits dev₂.transfer dev₂.stream.xferBufNum :=
        count ▸ fits dev₂.transfer
      obtain ⟨r, dev₃, h₃, ran, rests₃, retried⟩ := rests₂.attempts allocates fits₂
      dsimp only
      rw [run_bind ran]
      cases r with
      | some r => exact ⟨r, dev₃, h₃, rfl, rests₃⟩
      | none =>
          rw [bulk] at retried
          cases (retried rfl).1

/-- Any reads, one after the other. -/
theorem Rests.readsAll (allocates : Allocates NULL place base) {calls : List ReadCall}
    (rests : Rests base others p dev h) (fit : ∀ call ∈ calls, call.Fits) :
    ∃ dev' h', readEach place p calls h = some ((), h') ∧ Rests base others p dev' h' := by
  induction calls generalizing dev h with
  | nil => exact ⟨dev, h, rfl, rests⟩
  | cons call later ih =>
      obtain ⟨r, dev₁, h₁, ran, rests⟩ := rests.reads allocates (fit call List.mem_cons_self)
      obtain ⟨dev₂, h₂, more, rests⟩ :=
        ih rests fun other member => fit other (List.mem_cons_of_mem _ member)
      refine ⟨dev₂, h₂, ?_, rests⟩
      rw [readEach, run_bind ran]
      exact more

/-! ## A life -/

theorem libusbExit_owned {ctx : Address} (owns : Owns base ((ctx, .context) :: rest) h) :
    ∃ h', libusbExit ctx h = some ((), h') ∧ Owns base rest h' := by
  have found : load ctx Block.context? h = some ((), h) := load_owned owns List.mem_cons_self rfl
  obtain ⟨h', freed, owns⟩ := free_owned owns
  refine ⟨h', ?_, owns⟩
  rw [libusbExit, run_bind found]
  exact freed

theorem libusbClose_owned {dh : Address} (owns : Owns base ((dh, .handle) :: rest) h) :
    ∃ h', libusbClose dh h = some ((), h') ∧ Owns base rest h' := by
  have found : load dh Block.handle? h = some ((), h) := load_owned owns List.mem_cons_self rfl
  obtain ⟨h', freed, owns⟩ := free_owned owns
  refine ⟨h', ?_, owns⟩
  rw [libusbClose, run_bind found]
  exact freed

/-- The handle and the context go first. -/
theorem Rests.releases (rests : Rests base others p dev h) :
    ∃ h₁ h₂, unlessNull dev.dh (libusbClose dev.dh) h = some ((), h₁) ∧
      unlessNull dev.ctx (libusbExit dev.ctx) h₁ = some ((), h₂) ∧
      Owns base ((p, .device dev) :: (samplesCells dev ++ others)) h₂ := by
  have front : (restCells p dev ++ others).Perm
      ((dev.dh, .handle) :: (dev.ctx, .context) :: (p, .device dev) ::
        (samplesCells dev ++ others)) := by
    rw [restCells, List.cons_append, List.append_assoc]
    refine (List.Perm.cons _ (List.perm_append_comm_assoc ..)).trans ?_
    exact (List.Perm.cons _ (.swap ..)).trans
      ((List.Perm.swap ..).trans (.cons _ (List.Perm.swap ..)))
  obtain ⟨h₁, closed, owns⟩ := libusbClose_owned (rests.owns.perm front)
  obtain ⟨h₂, exited, owns⟩ := libusbExit_owned owns
  exact ⟨h₁, h₂, run_unlessNull rests.idle.dh closed, run_unlessNull rests.idle.ctx exited, owns⟩

/-- **The close frees what is left.** -/
theorem Rests.closes (rests : Rests base others p dev h) :
    ∃ h', msisdrClose p h = some ((), h') ∧ Owns base others h' := by
  obtain ⟨h₁, h₂, closed, exited, owns⟩ := rests.releases
  obtain ⟨h₃, freed, owns⟩ : ∃ h₃, unlessNull dev.samples (free dev.samples) h₂ = some ((), h₃) ∧
      Owns base ((p, .device dev) :: others) h₃ := by
    by_cases none : dev.samples = NULL
    · refine ⟨h₂, ?_, ?_⟩
      · rw [unlessNull, if_pos none]
        rfl
      · rw [samplesCells, if_pos none] at owns
        exact owns
    · rw [samplesCells, if_neg none] at owns
      obtain ⟨h₃, freed, owns⟩ := free_owned (owns.perm (List.Perm.swap ..))
      exact ⟨h₃, run_unlessNull none freed, owns⟩
  obtain ⟨h₄, last, owns⟩ := free_owned owns
  refine ⟨h₄, ?_, owns⟩
  rw [msisdrClose, run_bind (load_device rests.owns), run_bind closed, run_bind exited,
    run_bind freed]
  exact last

/-- Nothing is left of an opening that has failed, and otherwise a device that rests. -/
def AfterOpening (base : Heap Address Block) (others : List (Address × Block))
    (r : Option Address) (h : Heap Address Block) : Prop :=
  match r with
  | none => Owns base others h
  | some p => ∃ dev, Rests base others p dev h

/-- `msisdr_setup` on a device without samples. -/
theorem Rests.setUp (rests : Rests base others p dev h) (without : dev.samples = NULL)
    (opening : Opening) :
    ∃ r h', setupFields p opening h = some (r, h') ∧ AfterOpening base others r h' := by
  rw [setupFields, run_bind (load_device rests.owns), run_bind (load_handle rests.owns)]
  by_cases claims : opening.claims = true
  · obtain ⟨h', stored, owns⟩ := store_owned rests.owns
      (.device { dev with transfer := opening.transfer
                          stream := dev.stream.setHard (autoFormat 8000000) })
    have idle := rests.idle
    rw [if_pos claims, run_bind stored]
    exact ⟨some p, h', rfl, { dev with transfer := opening.transfer
                                       stream := dev.stream.setHard (autoFormat 8000000) },
      ⟨⟨idle.ctx, idle.dh, idle.samples, idle.ready⟩, idle.xfer, idle.xferBuf, idle.xferOut⟩, owns⟩
  · obtain ⟨h₁, h₂, closed, exited, owns⟩ := rests.releases
    rw [samplesCells, if_pos without] at owns
    obtain ⟨h₃, freed, owns⟩ := free_owned owns
    rw [if_neg claims, run_bind closed, run_bind exited, run_bind freed]
    exact ⟨none, h₃, rfl, owns⟩

/-- **An opening** that fails frees what it has allocated. -/
theorem openFd_owned (allocates : Allocates NULL place base) (owns : Owns base others h)
    (opening : Opening) :
    ∃ r h', msisdrOpenFd place opening h = some (r, h') ∧ AfterOpening base others r h' := by
  obtain ⟨p, h₁, allocated, -, owns⟩ := malloc_owned allocates owns (.device clearedFields)
  rw [msisdrOpenFd, run_bind allocated]
  by_cases inits : opening.inits = true
  · obtain ⟨ctx, h₂, hasContext, ctxNotNull, owns⟩ := malloc_owned allocates owns .context
    obtain ⟨h₃, stored, owns⟩ := store_owned (owns.perm (List.Perm.swap ..))
      (.device { clearedFields with ctx := ctx })
    rw [if_neg (not_not_intro inits), run_bind hasContext, run_bind stored]
    have closes : ∀ {h}, Owns base ((p, .device { clearedFields with ctx := ctx }) ::
        (ctx, .context) :: others) h →
        ∃ h', (do libusbExit ctx; free p; return none : Program (Option Address)) h =
          some (none, h') ∧ Owns base others h' := by
      intro h owns
      obtain ⟨h₁, exited, owns⟩ := libusbExit_owned (owns.perm (List.Perm.swap ..))
      obtain ⟨h₂, freed, owns⟩ := free_owned owns
      refine ⟨h₂, ?_, owns⟩
      rw [run_bind exited, run_bind freed]
      rfl
    by_cases knows : opening.knows = true
    · have found : load ctx Block.context? h₃ = some ((), h₃) :=
        load_owned owns (.tail _ (.head _)) rfl
      rw [if_neg (not_not_intro knows), run_bind found]
      by_cases opens : opening.opens = true
      · obtain ⟨dh, h₄, opened, dhNotNull, owns⟩ := malloc_owned allocates owns .handle
        obtain ⟨h₅, stored, owns⟩ := store_owned (owns.perm (List.Perm.swap ..))
          (.device { clearedFields with ctx := ctx, dh := dh })
        have rests : Rests base others p { clearedFields with ctx := ctx, dh := dh } h₅ :=
          ⟨⟨⟨ctxNotNull, dhNotNull, fun _ => rfl, feedReady_of_fresh rfl⟩, rfl, rfl, rfl⟩,
            owns.perm (.cons _ (.swap ..))⟩
        rw [if_neg (not_not_intro opens), run_bind opened, run_bind stored]
        exact rests.setUp rfl opening
      · obtain ⟨h', closed, owns⟩ := closes owns
        rw [if_pos opens]
        exact ⟨none, h', closed, owns⟩
    · obtain ⟨h', closed, owns⟩ := closes owns
      rw [if_pos knows]
      exact ⟨none, h', closed, owns⟩
  · obtain ⟨h₂, freed, owns⟩ := free_owned owns
    refine ⟨none, h₂, ?_, owns⟩
    rw [if_pos inits, run_bind freed]
    rfl

/-- **Every allocation of a life is freed once**, however its opening and its reads go: the memory
is then as it was. -/
theorem life_frees_all (allocates : Allocates NULL place h) (opening : Opening)
    {calls : List ReadCall} (fit : ∀ call ∈ calls, call.Fits) :
    ∃ h', deviceLife place opening calls h = some ((), h') ∧ h'.cells = h.cells ∧
      h'.freed.Perm (h.freed ++ List.range' h.allocated (h'.allocated - h.allocated)) := by
  obtain ⟨r, h₁, opened, left⟩ := openFd_owned allocates (.refl h) opening
  rw [deviceLife, run_bind opened]
  cases r with
  | none =>
      have owns : Owns h [] h₁ := left
      exact ⟨h₁, rfl, owns.cells_eq, owns.freed_once⟩
  | some p =>
      obtain ⟨dev, rests⟩ : ∃ dev, Rests h [] p dev h₁ := left
      obtain ⟨dev₂, h₂, ran, rests⟩ := rests.readsAll allocates fit
      obtain ⟨h₃, closed, owns⟩ := rests.closes
      refine ⟨h₃, ?_, owns.cells_eq, owns.freed_once⟩
      dsimp only
      rw [run_bind ran]
      exact closed

end Rules

/-- Libusb refuses the second of two ISOC transfers, and accepts two BULK ones. One of these
completes, with a block, and then the device is lost. -/
def retriedRead : ReadCall where
  cb := true
  num := 2
  len := 4096
  attempts
    | .isoc => ⟨true, fun i => i = 0, [.scans], [], false, []⟩
    | .bulk => ⟨true, fun _ => true, [],
        [.setHard .s16x252, .completes 1 (.bulk ⟨fun _ => 7, 1024⟩), .scans], true, [.scans]⟩

theorem retriedRead_fits : retriedRead.Fits := by
  intro transfer
  cases transfer with
  | bulk =>
      refine ⟨?_, ?_, ?_⟩
      · exact fun event member => absurd member List.not_mem_nil
      · intro event member
        rcases List.mem_cons.mp member with rfl | member
        · trivial
        rcases List.mem_cons.mp member with rfl | member
        · exact ⟨by decide, rfl, show 1024 ≤ 16384 by decide⟩
        · obtain rfl := List.mem_singleton.mp member
          trivial
      · intro event member
        obtain rfl := List.mem_singleton.mp member
        trivial
  | isoc =>
      refine ⟨?_, ?_, ?_⟩
      · intro event member
        obtain rfl := List.mem_singleton.mp member
        trivial
      · exact fun event member => absurd member List.not_mem_nil
      · exact fun event member => absurd member List.not_mem_nil

theorem life_frees_all_retriedRead :
    ∃ h', deviceLife firstFit ⟨true, true, true, true, .isoc⟩ [retriedRead] Heap.empty =
        some ((), h') ∧ (∀ a, h'.cells a = none) ∧ h'.freed.Perm (List.range' 0 h'.allocated) := by
  have fit : ∀ call ∈ [retriedRead], call.Fits := fun call member =>
    List.mem_singleton.mp member ▸ retriedRead_fits
  obtain ⟨h', ran, cells, freed⟩ :=
    life_frees_all firstFit_allocates ⟨true, true, true, true, .isoc⟩ fit
  exact ⟨h', ran, fun a => congrFun cells a, freed⟩

end MsiSdrDriver.Async
