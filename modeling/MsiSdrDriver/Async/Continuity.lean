import Mathlib.Data.List.Induction
import MsiSdrDriver.Async.Transfers

/-!
# A contiguous stream is not taken for a lossy one

The header of a block counts the samples. A converter compares the first header of a transfer with
the one that `p->addr` leads it to expect, and leaves what it expects of the next transfer. On a
stream without losses it should therefore never count a loss, however the stream is cut into
transfers, and leave the same for every cut.

It does so as long as each transfer has a block (`convertAll_contiguous`). What an empty BULK
transfer leaves has nothing to do with the stream: a converter to 16-bit samples leaves the size of
a block, as if the last header had been zero, and the pass-through takes the first word of the
buffer, which an earlier transfer has left, for a header. `no_false_loss_iff` says that this is the
only way to break the rule.
-/

set_option autoImplicit false

namespace MsiSdrDriver.Async

open MsiSdrDriver.Convert
open MsiSdrDriver.Driver

/-! ## Streams and cuts -/

/-- What the converters are given by a sequence of transfers. -/
def packetsOf (xfers : List CompletedXfer) : List Packet := xfers.flatMap CompletedXfer.converted

/-- The number of blocks in some packets. -/
def blocksIn (packets : List Packet) : ℕ :=
  (packets.map fun packet => packet.actualLength / 1024).sum

/-- The packets hold whole blocks of the stream, one after another from the block `start` on. -/
def Cut (stream : ℕ → UInt8) : ℕ → List Packet → Prop
  | _, [] => True
  | start, packet :: rest =>
      1024 ∣ packet.actualLength ∧
        (∀ i < packet.actualLength, packet.buffer i = stream (1024 * start + i)) ∧
        Cut stream (start + packet.actualLength / 1024) rest

/-- The header of the block `b` in a stream that starts with the header `h`. -/
def headerOf (format : Format) (h : UInt32) (b : ℕ) : UInt32 := h + pairs format * UInt32.ofNat b

/-- The headers of the blocks count the samples. -/
def Contiguous (format : Format) (h : UInt32) (stream : ℕ → UInt8) (blocks : ℕ) : Prop :=
  ∀ b < blocks, wordAt stream (1024 * b) = headerOf format h b

/-- What is left of `count` blocks of a stream: the header of the next block, the counter as it was,
and the samples. -/
def Decoded (format : Format) (h : UInt32) (lost : ℤ) (stream : ℕ → UInt8) (start count : ℕ) :
    SampleSync × List UInt8 :=
  (⟨headerOf format h (start + count), lost⟩,
    (List.range count).flatMap fun b => blockOutput format stream (1024 * (start + b)))

/-- **No false loss**: after each transfer the header of the next block is expected and no loss has
been counted, and what has been decoded depends on the number of blocks so far and on nothing
else. -/
def NoFalseLoss (format : Format) (h : UInt32) (lost : ℤ) (stream : ℕ → UInt8)
    (xfers : List CompletedXfer) : Prop :=
  ∀ before after, before ++ after = xfers →
    convertAll format ⟨h, lost⟩ (packetsOf before) =
      Decoded format h lost stream 0 (blocksIn (packetsOf before))

/-- What a converter leaves to be expected after an empty transfer. -/
def emptyHeader (format : Format) (packet : Packet) : UInt32 :=
  if format = .s8x504 then wordAt packet.buffer 0 else pairs format

/-- An empty BULK transfer comes only where it leaves what the stream leads to expect. -/
def EmptyInPlace (format : Format) (h : UInt32) (xfers : List CompletedXfer) : Prop :=
  ∀ before packet after, before ++ .bulk packet :: after = xfers → packet.actualLength = 0 →
    emptyHeader format packet = headerOf format h (blocksIn (packetsOf before))

/-! ## Lists of packets -/

theorem blocksIn_append (first second : List Packet) :
    blocksIn (first ++ second) = blocksIn first + blocksIn second := by
  rw [blocksIn, List.map_append, List.sum_append]
  rfl

theorem cut_append (stream : ℕ → UInt8) (start : ℕ) (first second : List Packet) :
    Cut stream start (first ++ second) ↔
      Cut stream start first ∧ Cut stream (start + blocksIn first) second := by
  induction first generalizing start with
  | nil => exact ⟨fun cut => ⟨trivial, cut⟩, fun cut => cut.2⟩
  | cons packet rest ih =>
      have total : start + blocksIn (packet :: rest) =
          start + packet.actualLength / 1024 + blocksIn rest := by
        rw [blocksIn, List.map_cons, List.sum_cons, Nat.add_assoc]
        rfl
      rw [List.cons_append, Cut, Cut, ih, total, and_assoc, and_assoc]

theorem packetsOf_concat (xfers : List CompletedXfer) (xfer : CompletedXfer) :
    packetsOf (xfers ++ [xfer]) = packetsOf xfers ++ xfer.converted := by
  rw [packetsOf, List.flatMap_append, List.flatMap_cons, List.flatMap_nil, List.append_nil]
  rfl

/-- A statement about all beginnings of a longer list. -/
theorem forall_beginning_concat {α : Type} (P : List α → Prop) (list : List α) (last : α) :
    (∀ before after, before ++ after = list ++ [last] → P before) ↔
      (∀ before after, before ++ after = list → P before) ∧ P (list ++ [last]) := by
  constructor
  · intro holds
    refine ⟨fun before after whole => ?_, holds _ [] (List.append_nil _)⟩
    exact holds before (after ++ [last]) (by rw [← List.append_assoc, whole])
  · rintro ⟨holds, full⟩ before after whole
    rcases List.eq_nil_or_concat after with rfl | ⟨front, end', rfl⟩
    · rw [List.append_nil] at whole
      rwa [whole]
    · rw [List.concat_eq_append, ← List.append_assoc] at whole
      exact holds before front (List.append_inj_left' whole rfl)

/-! ## Transfers with blocks -/

theorem headerOf_add (format : Format) (h : UInt32) (start count : ℕ) :
    headerOf format h start + pairs format * UInt32.ofNat count =
      headerOf format h (start + count) := by
  rw [headerOf, headerOf, UInt32.ofNat_add, UInt32.mul_add, UInt32.add_assoc]

theorem headerOf_succ (format : Format) (h : UInt32) (b : ℕ) :
    headerOf format h b + pairs format = headerOf format h (b + 1) := by
  have step := headerOf_add format h b 1
  rwa [show UInt32.ofNat 1 = 1 from rfl, UInt32.mul_one] at step

theorem blocksRead_whole (format : Format) (count : ℕ) :
    blocksRead format ((1024 * count : ℕ) : ℤ) = count := by
  rw [blocksRead]
  split
  · omega
  · omega

/-- **A converter goes on with a contiguous stream**, if it is given a block of it. -/
theorem convert_contiguous {format : Format} {h : UInt32} {stream : ℕ → UInt8} {start count : ℕ}
    {packet : Packet} (length : packet.actualLength = 1024 * count) (some : 0 < count)
    (same : ∀ i < packet.actualLength, packet.buffer i = stream (1024 * start + i))
    (counts : Contiguous format h stream (start + count)) (lost : ℤ) :
    ((convert format ⟨headerOf format h start, lost⟩ packet.buffer packet.actualLength).p,
        (convert format ⟨headerOf format h start, lost⟩ packet.buffer packet.actualLength).dst) =
      Decoded format h lost stream start count := by
  have header : ∀ b < count, wordAt packet.buffer (1024 * b) = headerOf format h (start + b) := by
    intro b inside
    rw [← counts (start + b) (by omega)]
    refine wordAt_congr fun j small => ?_
    rw [same _ (by omega)]
    exact congrArg stream (by omega)
  have first := header 0 some
  rw [Nat.mul_zero, Nat.add_zero] at first
  have quiet : ¬ (Checks format ((1024 * count : ℕ) : ℤ) ∧
      headerOf format h start ≠ headerOf format h start) := fun lossy => lossy.2 rfl
  rw [length, convert_p, convert_dst_eq, blocksRead_whole, Decoded, first]
  dsimp only
  rw [if_neg quiet, Int.add_zero]
  refine congrArg₂ Prod.mk (congrArg (SampleSync.mk · lost) ?_)
    (List.flatMap_congr fun b member => blockOutput_congr format fun j small => ?_)
  · by_cases narrow : format = .s8x504
    · rw [if_pos narrow, ← headerOf_add, narrow]
      rfl
    · have last : count - 1 + 1 = count := by omega
      rw [if_neg narrow, lastHeader, blocksRead_whole, if_neg (by omega), header _ (by omega),
        headerOf_succ, Nat.add_assoc, last]
  · have inside := List.mem_range.mp member
    rw [same _ (by omega)]
    exact congrArg stream (by omega)

/-- The decoding of one run of blocks after another. -/
theorem decoded_append (format : Format) (h : UInt32) (lost : ℤ) (stream : ℕ → UInt8)
    (start first second : ℕ) :
    (Decoded format h lost stream start first).2 ++
        (Decoded format h lost stream (start + first) second).2 =
      (Decoded format h lost stream start (first + second)).2 := by
  simp only [Decoded]
  rw [List.range_add, List.flatMap_append, List.flatMap_map]
  refine congrArg₂ _ rfl (List.flatMap_congr fun b _ => ?_)
  rw [Nat.add_assoc]

/-- **However the stream is cut**, as long as there is no empty transfer. -/
theorem convertAll_contiguous {format : Format} {h : UInt32} {stream : ℕ → UInt8}
    (packets : List Packet) {start : ℕ} (filled : ∀ packet ∈ packets, 0 < packet.actualLength)
    (cut : Cut stream start packets)
    (counts : Contiguous format h stream (start + blocksIn packets)) (lost : ℤ) :
    convertAll format ⟨headerOf format h start, lost⟩ packets =
      Decoded format h lost stream start (blocksIn packets) := by
  induction packets generalizing start with
  | nil => rfl
  | cons packet rest ih =>
      obtain ⟨⟨count, length⟩, same, cut⟩ := cut
      have blocks : packet.actualLength / 1024 = count := by omega
      have total : blocksIn (packet :: rest) = count + blocksIn rest := by
        rw [blocksIn, List.map_cons, List.sum_cons, blocks]
        rfl
      have some : 0 < count := by
        have positive := filled packet List.mem_cons_self
        omega
      rw [blocks] at cut
      rw [total, ← Nat.add_assoc] at counts
      have first := convert_contiguous length some same
        (fun b inside => counts b (by omega)) lost
      obtain ⟨p, dst⟩ := Prod.mk.inj first
      have more := ih (fun other member => filled other (List.mem_cons_of_mem _ member)) cut counts
      rw [convertAll, p, dst, more, total]
      refine Prod.ext ?_ (decoded_append format h lost stream start count (blocksIn rest))
      simp only [Decoded, Nat.add_assoc]

/-! ## Every sequence of transfers -/

/-- What an empty transfer leaves to be expected has nothing to do with the stream. -/
theorem convertAll_empty_addr (format : Format) (p : SampleSync) {packet : Packet}
    (empty : packet.actualLength = 0) :
    (convertAll format p [packet]).1.addr = emptyHeader format packet := by
  have none : blocksRead format ((0 : ℕ) : ℤ) = 0 := blocksRead_whole format 0
  rw [convertAll, convertAll, empty, convert_addr, emptyHeader, lastHeader, none, if_pos rfl]
  split
  · exact UInt32.add_zero _
  · exact UInt32.zero_add _

/-- Where that is expected anyway, an empty transfer changes nothing. -/
theorem convertAll_empty (format : Format) (p : SampleSync) {packet : Packet}
    (empty : packet.actualLength = 0) (expected : emptyHeader format packet = p.addr) :
    convertAll format p [packet] = (p, []) := by
  have none : blocksRead format ((0 : ℕ) : ℤ) = 0 := blocksRead_whole format 0
  have addr := convertAll_empty_addr format p empty
  have counter : (convertAll format p [packet]).1.syncLossCnt = p.syncLossCnt := by
    rw [convertAll, convertAll, empty, convert_syncLossCnt, if_neg, Int.add_zero]
    rintro ⟨narrow | some, lossy⟩
    · rw [emptyHeader, if_pos narrow] at expected
      exact lossy expected
    · rw [none] at some
      exact Nat.lt_irrefl 0 some
  have dst : (convertAll format p [packet]).2 = [] := by
    rw [convertAll, convertAll, empty, convert_dst_eq, none]
    rfl
  rw [expected] at addr
  generalize convertAll format p [packet] = left at addr counter dst ⊢
  obtain ⟨⟨leftAddr, leftCount⟩, bytes⟩ := left
  dsimp only at addr counter dst
  rw [addr, counter, dst]

/-- **One more transfer** after a beginning that has been decoded. -/
theorem decoded_concat {format : Format} {h : UInt32} {lost : ℤ} {stream : ℕ → UInt8}
    {xfers : List CompletedXfer} {xfer : CompletedXfer}
    (cut : Cut stream 0 (packetsOf (xfers ++ [xfer])))
    (counts : Contiguous format h stream (blocksIn (packetsOf (xfers ++ [xfer]))))
    (decoded : convertAll format ⟨h, lost⟩ (packetsOf xfers) =
      Decoded format h lost stream 0 (blocksIn (packetsOf xfers))) :
    convertAll format ⟨h, lost⟩ (packetsOf (xfers ++ [xfer])) =
        Decoded format h lost stream 0 (blocksIn (packetsOf (xfers ++ [xfer]))) ↔
      ∀ packet, xfer = .bulk packet → packet.actualLength = 0 →
        emptyHeader format packet = headerOf format h (blocksIn (packetsOf xfers)) := by
  rw [packetsOf_concat, blocksIn_append] at counts ⊢
  rw [packetsOf_concat, cut_append, Nat.zero_add] at cut
  rw [convertAll_append, decoded]
  generalize blocksIn (packetsOf xfers) = start at cut counts ⊢
  have before : (Decoded format h lost stream 0 start).1 = ⟨headerOf format h start, lost⟩ := by
    rw [Decoded, Nat.zero_add]
  rw [before]
  by_cases filled : ∀ packet ∈ xfer.converted, 0 < packet.actualLength
  · have more := convertAll_contiguous xfer.converted filled cut.2 counts lost
    have appended := decoded_append format h lost stream 0 start (blocksIn xfer.converted)
    rw [Nat.zero_add] at appended
    rw [more, appended]
    constructor
    · rintro - packet rfl empty
      have positive := filled packet (List.mem_singleton.mpr rfl)
      omega
    · intro _
      refine Prod.ext ?_ rfl
      simp only [Decoded, Nat.zero_add]
  · -- only a BULK transfer can be empty
    cases xfer with
    | isoc packets =>
        refine absurd (fun packet member => ?_) filled
        exact of_decide_eq_true (List.mem_filter.mp member).2
    | bulk packet =>
        have empty : packet.actualLength = 0 := by
          by_contra some
          refine filled fun other member => ?_
          obtain rfl := List.mem_singleton.mp member
          omega
        have nothing : blocksIn (CompletedXfer.bulk packet).converted = 0 := by
          rw [CompletedXfer.converted, blocksIn, List.map_singleton, List.sum_singleton, empty]
        rw [nothing, Nat.add_zero, CompletedXfer.converted]
        constructor
        · intro same other equal _
          obtain rfl := CompletedXfer.bulk.inj equal
          have addr := convertAll_empty_addr format ⟨headerOf format h start, lost⟩ empty
          rw [(Prod.mk.inj same).1] at addr
          rw [← addr, Nat.zero_add]
        · intro inPlace
          rw [convertAll_empty format _ empty (inPlace packet rfl empty), List.append_nil, ← before]

/-- An empty transfer that comes last, or among those before. -/
theorem emptyInPlace_concat (format : Format) (h : UInt32) (xfers : List CompletedXfer)
    (xfer : CompletedXfer) :
    EmptyInPlace format h (xfers ++ [xfer]) ↔ EmptyInPlace format h xfers ∧
      ∀ packet, xfer = .bulk packet → packet.actualLength = 0 →
        emptyHeader format packet = headerOf format h (blocksIn (packetsOf xfers)) := by
  constructor
  · intro inPlace
    refine ⟨fun before packet after whole => ?_, fun packet last => ?_⟩
    · refine inPlace before packet (after ++ [xfer]) ?_
      rw [← whole, List.append_assoc, List.cons_append]
    · refine inPlace xfers packet [] ?_
      rw [last]
  · rintro ⟨inPlace, last⟩ before packet after whole
    rcases List.eq_nil_or_concat after with rfl | ⟨front, end', rfl⟩
    · obtain ⟨rfl, equal⟩ := List.append_inj' whole rfl
      exact last packet (List.head_eq_of_cons_eq equal).symm
    · rw [List.concat_eq_append, ← List.cons_append, ← List.append_assoc] at whole
      exact inPlace before packet front (List.append_inj_left' whole rfl)

/-- A stream of one block, with the header 252. -/
def oneBlock : ℕ → UInt8 := fun i => if i = 0 then 252 else 0

/-- The block, and an empty transfer after it. -/
def emptyAfterBlock : List CompletedXfer := [.bulk ⟨oneBlock, 1024⟩, .bulk ⟨fun _ => 0, 0⟩]

/-- The empty transfer makes the converter expect 252 again, and not 504. -/
theorem empty_transfer_resets :
    ¬ ∀ (format : Format) (h : UInt32) (lost : ℤ) (stream : ℕ → UInt8)
      (xfers : List CompletedXfer), Cut stream 0 (packetsOf xfers) →
      Contiguous format h stream (blocksIn (packetsOf xfers)) →
        NoFalseLoss format h lost stream xfers := by
  intro rule
  have cut : Cut oneBlock 0 (packetsOf emptyAfterBlock) :=
    ⟨by decide, fun i _ => congrArg oneBlock (Nat.zero_add i).symm, by decide,
      fun i inside => absurd inside (Nat.not_lt_zero i), trivial⟩
  have counts : Contiguous .s16x252 252 oneBlock (blocksIn (packetsOf emptyAfterBlock)) := by
    intro b few
    obtain rfl : b = 0 := Nat.lt_one_iff.mp few
    decide
  have decoded := rule .s16x252 252 0 oneBlock emptyAfterBlock cut counts _ [] (List.append_nil _)
  have reset : (convertAll .s16x252 ⟨252, 0⟩ (packetsOf emptyAfterBlock)).1.addr = 252 := by
    have parts : packetsOf emptyAfterBlock = [⟨oneBlock, 1024⟩] ++ [⟨fun _ => 0, 0⟩] := rfl
    rw [parts, convertAll_append]
    exact convertAll_empty_addr .s16x252 _ rfl
  rw [decoded] at reset
  exact absurd reset (by decide)

/-- **No false loss on a contiguous stream**, but for the empty BULK transfers: the rule holds for
exactly the sequences of transfers in which each of them comes where it leaves what the stream leads
to expect. -/
theorem no_false_loss_iff (format : Format) (h : UInt32) (lost : ℤ) (stream : ℕ → UInt8)
    (xfers : List CompletedXfer) (cut : Cut stream 0 (packetsOf xfers))
    (counts : Contiguous format h stream (blocksIn (packetsOf xfers))) :
    NoFalseLoss format h lost stream xfers ↔ EmptyInPlace format h xfers := by
  induction xfers using List.reverseRecOn with
  | nil =>
      constructor
      · rintro - before packet after whole
        cases List.append_eq_nil_iff.mp whole |>.2
      · rintro - before after whole
        obtain ⟨rfl, -⟩ := List.append_eq_nil_iff.mp whole
        refine Prod.ext (congrArg (SampleSync.mk · lost) ?_) rfl
        change h = h + pairs format * 0
        rw [UInt32.mul_zero, UInt32.add_zero]
  | append_singleton xfers xfer ih =>
      have earlierCut : Cut stream 0 (packetsOf xfers) := by
        rw [packetsOf_concat, cut_append] at cut
        exact cut.1
      have earlier : Contiguous format h stream (blocksIn (packetsOf xfers)) := by
        rw [packetsOf_concat, blocksIn_append] at counts
        exact fun b inside => counts b (by omega)
      have beginnings := forall_beginning_concat (fun before =>
        convertAll format ⟨h, lost⟩ (packetsOf before) =
          Decoded format h lost stream 0 (blocksIn (packetsOf before))) xfers xfer
      rw [NoFalseLoss, beginnings, emptyInPlace_concat, ← ih earlierCut earlier]
      constructor
      · rintro ⟨before, whole⟩
        exact ⟨before, (decoded_concat cut counts (before xfers [] (List.append_nil _))).mp whole⟩
      · rintro ⟨before, last⟩
        exact ⟨before, (decoded_concat cut counts (before xfers [] (List.append_nil _))).mpr last⟩

/-- Two blocks between which the counter of the samples wraps around. -/
def wrappingStream : ℕ → UInt8 := fun i => if i = 0 then 0x04 else if i < 4 then 0xff else 0

/-- One block in a BULK transfer, and the other in the first packet of an ISOC transfer. -/
def mixedTransfers : List CompletedXfer :=
  [.bulk ⟨wrappingStream, 1024⟩,
    .isoc fun i =>
      if i.val = 0 then ⟨fun j => wrappingStream (1024 + j), 1024⟩ else ⟨fun _ => 0, 0⟩]

theorem no_false_loss_iff_wrapping :
    NoFalseLoss .s16x252 0xffffff04 0 wrappingStream mixedTransfers := by
  refine (no_false_loss_iff .s16x252 0xffffff04 0 wrappingStream mixedTransfers ?_ ?_).mpr ?_
  · exact ⟨by decide, fun i _ => congrArg wrappingStream (Nat.zero_add i).symm, by decide,
      fun i _ => rfl, trivial⟩
  · intro b few
    have blocks : b < 2 := few
    obtain rfl | rfl : b = 0 ∨ b = 1 := by omega
    · decide
    · decide
  · intro before packet after whole empty
    have member : CompletedXfer.bulk packet ∈ mixedTransfers := by
      rw [← whole]
      exact List.mem_append_right _ List.mem_cons_self
    rcases List.mem_cons.mp member with first | second
    · obtain rfl := CompletedXfer.bulk.inj first
      cases empty
    · cases List.mem_singleton.mp second

end MsiSdrDriver.Async
