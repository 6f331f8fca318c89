import Mathlib.Data.List.OfFn
import MsiSdrDriver.Async.Transfers

/-!
# The buffer of the samples is large enough

The callback asks for ten sizes, one for each format and type of transfer. All of them are the bytes
that a block becomes, times the blocks that a full transfer can have (`samplesSize_eq`), and no
length of a packet makes a converter go through more blocks than that: not the pass-through either,
which counts a block of which little has arrived (`blocksRead_le`). Since the buffer never shrinks,
a transfer of any format fits in whatever an earlier one has left (`callback_handles`), and a run
never leaves the buffer (`run_returns`).
-/

set_option autoImplicit false

namespace MsiSdrDriver.Async

open MsiSdrDriver.Convert
open MsiSdrDriver.Driver

/-! ## Sizes -/

/-- What libusb can have received: no more than was asked for. -/
def CompletedXfer.Fits : CompletedXfer → Prop
  | .bulk packet => packet.actualLength ≤ defaultBulkBuffer
  | .isoc packets => ∀ i, (packets i).actualLength ≤ 1024 * defaultIsoBuffers

theorem blocksRead_le (format : Format) {length blocks : ℕ} (fits : length ≤ 1024 * blocks) :
    blocksRead format length ≤ blocks := by
  rw [blocksRead]
  split
  · omega
  · omega

/-- The bytes that the packets of a transfer become. -/
theorem convertAll_length_le (format : Format) (p : SampleSync) {packets : List Packet}
    {blocks : ℕ} (fits : ∀ packet ∈ packets, packet.actualLength ≤ 1024 * blocks) :
    (convertAll format p packets).2.length ≤ packets.length * (blocks * blockBytes format) := by
  induction packets generalizing p with
  | nil => exact Nat.zero_le _
  | cons packet rest ih =>
      have first : (convert format p packet.buffer packet.actualLength).dst.length ≤
          blocks * blockBytes format := by
        rw [convert_length]
        exact Nat.mul_le_mul_right _ (blocksRead_le format (fits packet List.mem_cons_self))
      have more := ih (convert format p packet.buffer packet.actualLength).p
        fun other member => fits other (List.mem_cons_of_mem _ member)
      rw [convertAll]
      dsimp only
      rw [List.length_append, List.length_cons, Nat.add_mul, Nat.one_mul]
      omega

/-- The ten sizes. -/
theorem samplesSize_eq (format : Format) :
    samplesSize .bulk format = 1 * (16 * blockBytes format) ∧
      samplesSize .isoc format = defaultIsoPackets * (defaultIsoBuffers * blockBytes format) := by
  cases format with
  | s16x252 | s16x336 | s16x384 | s16x504 | s8x504 => exact ⟨rfl, rfl⟩

theorem samplesSize_le (type : Transfer) (format : Format) : samplesSize type format ≤ 48384 := by
  cases type with
  | bulk | isoc =>
      cases format with
      | s16x252 | s16x336 | s16x384 | s16x504 | s8x504 => decide

/-- **What the converters of a transfer store fits in the size that was asked for.** -/
theorem stored_le {xfer : CompletedXfer} (fits : xfer.Fits) (format : Format) (p : SampleSync) :
    (convertAll format p xfer.converted).2.length ≤ samplesSize xfer.type format := by
  cases xfer with
  | bulk packet =>
      rw [CompletedXfer.type, (samplesSize_eq format).1]
      refine convertAll_length_le format p fun other member => ?_
      obtain rfl := List.mem_singleton.mp member
      exact fits
  | isoc packets =>
      rw [CompletedXfer.type, CompletedXfer.converted, (samplesSize_eq format).2]
      have count : ((List.ofFn packets).filter fun packet => 0 < packet.actualLength).length ≤
          defaultIsoPackets := by
        refine (List.length_filter_le _ _).trans ?_
        rw [List.length_ofFn]
      have kept : ∀ packet ∈ (List.ofFn packets).filter fun packet => 0 < packet.actualLength,
          packet.actualLength ≤ 1024 * defaultIsoBuffers := by
        intro packet member
        obtain ⟨i, rfl⟩ := List.mem_ofFn.mp (List.mem_of_mem_filter member)
        exact fits i
      exact (convertAll_length_le format p kept).trans (Nat.mul_le_mul_right _ count)

theorem samplesRealloc_eq (p : TransferDev) (size : ℕ) :
    ∃ samples : List UInt8, p.samplesRealloc size = { p with samples := samples } ∧
      size ≤ samples.length ∧ p.samples.length ≤ samples.length := by
  rw [TransferDev.samplesRealloc]
  split
  · exact ⟨List.replicate size 0, rfl, by rw [List.length_replicate],
      by rw [List.length_replicate]; omega⟩
  · exact ⟨p.samples, rfl, by omega, Nat.le_refl _⟩

/-! ## Feeding -/

/-- `xfer_out` has room, or is not used. -/
def FeedReady (feed : FeedDev) : Prop := feed.xferOutLen = 0 ∨ feed.xferOutPos < feed.xferOutLen

theorem feedReady_of_fresh {feed : FeedDev} (fresh : feed.xferOutPos = 0) : FeedReady feed := by
  by_cases whole : feed.xferOutLen = 0
  · exact .inl whole
  · refine .inr ?_
    rw [fresh]
    exact UInt64.pos_iff_ne_zero.mpr whole

/-- A call leaves `xfer_out` ready for the next one. -/
theorem feed_returns {feed : FeedDev} (ready : FeedReady feed) (samples : Samples) :
    ∃ feed' calls result, msisdrFeedAsync feed samples = some (feed', calls, result) ∧
      FeedReady feed' ∧ feed'.cb = feed.cb ∧ feed'.xferOutLen = feed.xferOutLen := by
  by_cases callback : feed.cb = true
  · by_cases automatic : feed.xferOutLen = 0
    · exact ⟨feed, _, _, feed_automatic feed samples callback automatic, ready, rfl, rfl⟩
    · have below := ready.resolve_left automatic
      obtain ⟨feed', calls, called, delivers⟩ := feed_delivers feed samples callback below
      refine ⟨feed', calls, 0, called, .inr ?_, delivers.cb, delivers.len⟩
      rw [delivers.len]
      exact delivers.pos
  · rw [msisdrFeedAsync, if_pos callback]
    exact ⟨feed, [], -1, rfl, ready, rfl, rfl⟩

/-! ## A transfer -/

/-- What the callback does with a transfer. -/
structure Handles (p : TransferDev) (xfer : CompletedXfer) (completed : Completed) : Prop where
  format : completed.p.format = p.format
  xferBufNum : completed.p.xferBufNum = p.xferBufNum
  ready : FeedReady completed.p.feed
  cb : completed.p.feed.cb = p.feed.cb
  xferOutLen : completed.p.feed.xferOutLen = p.feed.xferOutLen
  grows : p.samples.length ≤ completed.p.samples.length
  calls : p.feed.cb = true → p.feed.xferOutLen = 0 → completed.calls =
    if (convertAll p.format p.sync xfer.converted).2 = [] then []
    else [(convertAll p.format p.sync xfer.converted).2]
  resubmits : (completed.p.sync, completed.length) =
    resynchronize xfer.type p.xferBufNum (convertAll p.format p.sync xfer.converted).1

/-- **The callback handles every transfer that fits**, whatever the buffer was used for before. -/
theorem callback_handles {p : TransferDev} (ready : FeedReady p.feed) {xfer : CompletedXfer}
    (fits : xfer.Fits) :
    ∃ completed, libusbCallback p xfer = some completed ∧ Handles p xfer completed := by
  obtain ⟨samples, grown, room, grows⟩ := samplesRealloc_eq p (samplesSize xfer.type p.format)
  have stored := stored_le fits p.format p.sync
  obtain ⟨written, converted, size, front⟩ :=
    convertPackets_eq { p with samples := samples } xfer.converted 0 (by dsimp only; omega)
  rw [Nat.zero_add] at converted front
  rw [List.take_zero, List.nil_append] at front
  have limit := samplesSize_le xfer.type p.format
  rw [Nat.cast_zero] at converted
  generalize all : convertAll p.format p.sync xfer.converted = stores at stored converted front
  obtain ⟨sync, bytes⟩ := stores
  have word : bytes.length < 2 ^ 32 := (stored.trans limit).trans_lt (by decide)
  rw [libusbCallback, grown]
  dsimp only
  rw [converted]
  simp only [Option.bind_eq_bind, Option.bind_some, TransferDev.feedAsync, Nat.cast_pos]
  by_cases empty : bytes = []
  · rw [if_neg fun some => some.ne' (List.length_eq_zero_iff.mpr empty)]
    refine ⟨_, rfl, ⟨rfl, rfl, ready, rfl, rfl, ?_, fun _ _ => ?_, ?_⟩⟩
    · exact size ▸ grows
    · rw [all, if_pos empty]
    · rw [all]
  · have some : 0 < bytes.length := List.length_pos_iff.mpr empty
    rw [if_pos some]
    obtain ⟨feed, calls, result, called, ready', cb, len⟩ := feed_returns ready
      (TransferDev.converted { p with sync := sync, samples := written } bytes.length)
    rw [called]
    refine ⟨_, rfl, ⟨rfl, rfl, ready', cb, len, ?_, fun callback automatic => ?_, ?_⟩⟩
    · exact size ▸ grows
    · rw [feed_automatic _ _ callback automatic] at called
      obtain ⟨-, rfl, -⟩ := Option.some.inj called
      rw [all, if_neg empty]
      exact congrArg ([·]) ((converted_data _ word).trans front)
    · rw [all]

/-! ## Runs -/

/-- Every transfer of a run has received no more than was asked for. -/
def EventsFit (events : List StreamEvent) : Prop :=
  ∀ xfer, .completes xfer ∈ events → xfer.Fits

/-- What a run keeps. -/
structure Keeps (p q : TransferDev) : Prop where
  xferBufNum : q.xferBufNum = p.xferBufNum
  ready : FeedReady q.feed
  cb : q.feed.cb = p.feed.cb
  xferOutLen : q.feed.xferOutLen = p.feed.xferOutLen
  grows : p.samples.length ≤ q.samples.length

theorem Keeps.trans {p q r : TransferDev} (first : Keeps p q) (second : Keeps q r) : Keeps p r where
  xferBufNum := second.xferBufNum.trans first.xferBufNum
  ready := second.ready
  cb := second.cb.trans first.cb
  xferOutLen := second.xferOutLen.trans first.xferOutLen
  grows := first.grows.trans second.grows

theorem Handles.keeps {p : TransferDev} {xfer : CompletedXfer} {completed : Completed}
    (handles : Handles p xfer completed) : Keeps p completed.p where
  xferBufNum := handles.xferBufNum
  ready := handles.ready
  cb := handles.cb
  xferOutLen := handles.xferOutLen
  grows := handles.grows

/-- **A run never leaves the buffer**, in any order of formats and types of transfers. -/
theorem run_returns {p : TransferDev} (ready : FeedReady p.feed) {events : List StreamEvent}
    (fit : EventsFit events) :
    ∃ q completed, p.run events = some (q, completed) ∧ Keeps p q ∧
      q.format = formatAfter p.format events := by
  induction events generalizing p with
  | nil => exact ⟨p, [], rfl, ⟨rfl, ready, rfl, rfl, Nat.le_refl _⟩, rfl⟩
  | cons event rest ih =>
      have later : EventsFit rest := fun xfer member => fit xfer (List.mem_cons_of_mem _ member)
      cases event with
      | setHard format =>
          obtain ⟨q, completed, ran, keeps, after⟩ := ih (p := p.setHard format) ready later
          exact ⟨q, completed, ran, ⟨keeps.1, keeps.2, keeps.3, keeps.4, keeps.5⟩, after⟩
      | completes xfer =>
          obtain ⟨first, called, handles⟩ := callback_handles ready (fit xfer List.mem_cons_self)
          obtain ⟨q, more, ran, keeps, after⟩ := ih handles.ready later
          refine ⟨q, first :: more, ?_, handles.keeps.trans keeps, ?_⟩
          · rw [TransferDev.run, called, Option.bind_some, ran]
            rfl
          · rw [after, handles.format, formatAfter]

end MsiSdrDriver.Async
