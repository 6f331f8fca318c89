import Mathlib.Algebra.Ring.Int.Defs
import Mathlib.Algebra.Ring.Nat
import MsiSdrDriver.Foundations.FixedBlocks

/-!
# Feeding the application

`msisdr_feed_async` hands the samples of a transfer to the application's callback, as they
come (`xfer_out_len` zero) or cut into blocks of `xfer_out_len` bytes, with what is left over
kept in `xfer_out`.

A copy that would leave an array fails here, and so does a callback that would be handed bytes
outside of one, so that a call that returns has stayed inside both arrays. The arithmetic is
that of the code: `size_t` has 64 bits and the running index `i` has 32.

However the samples are cut into calls, the application gets the same blocks
(`reblocking_exact`).
-/

set_option autoImplicit false

namespace MsiSdrDriver.Async

open MsiSdrDriver.Foundations

/-! ## The code -/

/-- The fields of `msisdr_dev_t` that feeding uses. `xfer_out` has the size that
`msisdr_async_alloc` gives it, and `msisdr_read_async` takes its length from a `uint32_t`.
Whether there is a callback is all that is known of it. -/
structure FeedDev where
  cb : Bool
  xferOutLen : UInt64
  xferOutPos : UInt64
  xferOut : List UInt8
  allocated : xferOut.length = xferOutLen.toNat
  word : xferOutLen.toNat < 2 ^ 32

/-- A buffer of samples. Its length is a `uint32_t`. -/
structure Samples where
  data : List UInt8
  word : data.length < 2 ^ 32

/-- The length of a buffer, as `msisdr_feed_async` is told it. -/
def Samples.bytes (samples : Samples) : UInt32 := UInt32.ofNat samples.data.length

/-- `count` bytes from `start` on, inside the array. -/
def slice (array : List UInt8) (start count : ℕ) : Option (List UInt8) :=
  if start + count ≤ array.length then some ((array.drop start).take count) else none

/-- `memcpy(p->xfer_out + pos, samples + i, count)`. -/
def FeedDev.memcpy (p : FeedDev) (pos : ℕ) (samples : List UInt8) (i count : ℕ) :
    Option FeedDev :=
  if inside : pos + count ≤ p.xferOut.length ∧ i + count ≤ samples.length then
    some { p with
      xferOut := p.xferOut.take pos ++ (samples.drop i).take count ++ p.xferOut.drop (pos + count)
      allocated := by
        have allocated := p.allocated
        simp only [List.length_append, List.length_take, List.length_drop]
        omega }
  else none

/-- The loop test does not overflow, and neither does the index that follows it. -/
theorem index_exact (p : FeedDev) (samples : Samples) (i : UInt32) :
    (i.toUInt64 + p.xferOutLen > samples.bytes.toUInt64 ↔
        samples.data.length < i.toNat + p.xferOutLen.toNat) ∧
      (i.toNat + p.xferOutLen.toNat ≤ samples.data.length →
        (i + p.xferOutLen.toUInt32).toNat = i.toNat + p.xferOutLen.toNat) := by
  have len := p.word
  have word := samples.word
  have index := i.toNat_lt
  have bytes : samples.bytes.toNat = samples.data.length := by
    simp only [Samples.bytes, UInt32.toNat_ofNat']
    omega
  refine ⟨?_, fun inside => ?_⟩
  · rw [gt_iff_lt, UInt64.lt_iff_toNat_lt, UInt64.toNat_add, UInt32.toNat_toUInt64,
      UInt32.toNat_toUInt64, bytes, Nat.mod_eq_of_lt (by omega)]
  · rw [UInt32.toNat_add, UInt64.toNat_toUInt32, Nat.mod_eq_of_lt len,
      Nat.mod_eq_of_lt (by omega)]

/-- The loop that sends blocks straight out of the buffer, from index `i` on. The result is
what was sent and the index at which less than a block is left. -/
def sendBlocks (p : FeedDev) (positive : 0 < p.xferOutLen.toNat) (samples : Samples)
    (i : UInt32) : Option (List (List UInt8) × UInt32) :=
  if i.toUInt64 + p.xferOutLen > samples.bytes.toUInt64 then some ([], i)
  else
    (slice samples.data i.toNat p.xferOutLen.toNat).bind fun block =>
      (sendBlocks p positive samples (i + p.xferOutLen.toUInt32)).map fun (blocks, i) =>
        (block :: blocks, i)
termination_by 2 ^ 32 - i.toNat
decreasing_by
  rename_i last
  obtain ⟨test, next⟩ := index_exact p samples i
  have inside : i.toNat + p.xferOutLen.toNat ≤ samples.data.length := by
    rw [test] at last
    omega
  have word := samples.word
  rw [next inside]
  omega

/-- `msisdr_feed_async`: the device, what the callback was handed and the return value. -/
def msisdrFeedAsync (p : FeedDev) (samples : Samples) :
    Option (FeedDev × List (List UInt8) × ℤ) :=
  if ¬ p.cb then some (p, [], -1)
  else if automatic : p.xferOutLen = 0 then some (p, [samples.data], 0)
  else
    have positive : 0 < p.xferOutLen.toNat := by
      rw [Nat.pos_iff_ne_zero]
      exact fun zero => automatic (UInt64.toNat_inj.mp zero)
    let data := samples.data
    let bytes := samples.bytes
    let len := p.xferOutLen
    let pos := p.xferOutPos
    if pos = 0 then
      if bytes.toUInt64 = len then some (p, [data], 0)
      else if bytes.toUInt64 < len then do
        let p ← p.memcpy 0 data 0 bytes.toNat
        return ({ p with xferOutPos := bytes.toUInt64 }, [], 0)
      else do
        let (blocks, i) ← sendBlocks p positive samples 0
        if bytes > i then
          let p ← p.memcpy 0 data i.toNat (bytes - i).toNat
          return ({ p with xferOutPos := (bytes - i).toUInt64 }, blocks, 0)
        else return (p, blocks, 0)
    else if pos + bytes.toUInt64 = len then do
      let p ← p.memcpy pos.toNat data 0 bytes.toNat
      let block ← slice p.xferOut 0 len.toNat
      return ({ p with xferOutPos := 0 }, [block], 0)
    else if pos + bytes.toUInt64 < len then do
      let p ← p.memcpy pos.toNat data 0 bytes.toNat
      return ({ p with xferOutPos := pos + bytes.toUInt64 }, [], 0)
    else do
      let q ← p.memcpy pos.toNat data 0 (len - pos).toNat
      let block ← slice q.xferOut 0 len.toNat
      let (blocks, i) ← sendBlocks p positive samples (len - pos).toUInt32
      if bytes > i then
        let q ← q.memcpy 0 data i.toNat (bytes - i).toNat
        return ({ q with xferOutPos := (bytes - i).toUInt64 }, block :: blocks, 0)
      else return ({ q with xferOutPos := 0 }, block :: blocks, 0)

/-- A run of calls, and all that the callback was handed. -/
def feedAll (p : FeedDev) : List Samples → Option (FeedDev × List (List UInt8))
  | [] => some (p, [])
  | samples :: rest =>
      (msisdrFeedAsync p samples).bind fun (p, blocks, _) =>
        (feedAll p rest).map fun (p, more) => (p, blocks ++ more)

/-! ## The steps of a call -/

theorem Samples.toNat_bytes (samples : Samples) : samples.bytes.toNat = samples.data.length := by
  have word := samples.word
  simp only [Samples.bytes, UInt32.toNat_ofNat']
  omega

/-- The bytes that wait in `xfer_out`. -/
def FeedDev.kept (p : FeedDev) : List UInt8 := p.xferOut.take p.xferOutPos.toNat

/-- A copy inside both arrays changes nothing but the bytes it writes. -/
theorem memcpy_spec (p : FeedDev) {pos i count : ℕ} {samples : List UInt8}
    (room : pos + count ≤ p.xferOutLen.toNat) (inside : i + count ≤ samples.length) :
    ∃ q : FeedDev, p.memcpy pos samples i count = some q ∧ q.cb = p.cb ∧
      q.xferOutLen = p.xferOutLen ∧
      q.xferOut.take (pos + count) = p.xferOut.take pos ++ (samples.drop i).take count := by
  have allocated := p.allocated
  refine ⟨_, dif_pos ⟨by omega, inside⟩, rfl, rfl, ?_⟩
  have size : (p.xferOut.take pos ++ (samples.drop i).take count).length = pos + count := by
    simp only [List.length_append, List.length_take, List.length_drop]
    omega
  exact List.take_left' size

theorem slice_eq {array : List UInt8} {start count : ℕ} (inside : start + count ≤ array.length) :
    slice array start count = some ((array.drop start).take count) := if_pos inside

/-- The loop sends every whole block and stops at the remainder. -/
theorem sendBlocks_spec (p : FeedDev) (positive : 0 < p.xferOutLen.toNat) (samples : Samples)
    (i : UInt32) (inside : i.toNat ≤ samples.data.length) :
    ∃ blocks j, sendBlocks p positive samples i = some (blocks, j) ∧
      j.toNat ≤ samples.data.length ∧
      Blocks p.xferOutLen.toNat (samples.data.drop i.toNat) blocks
        (samples.data.drop j.toNat) := by
  induction i using sendBlocks.induct p positive samples with
  | case1 i last =>
      rw [sendBlocks, if_pos last]
      refine ⟨[], i, rfl, inside, Blocks.of_short ?_⟩
      rw [(index_exact p samples i).1] at last
      rw [List.length_drop]
      omega
  | case2 i more ih =>
      obtain ⟨test, next⟩ := index_exact p samples i
      have room : i.toNat + p.xferOutLen.toNat ≤ samples.data.length := by
        rw [test] at more
        omega
      rw [next room] at ih
      obtain ⟨blocks, j, sent, bound, blocking⟩ := ih room
      rw [sendBlocks, if_neg more, slice_eq room, sent]
      refine ⟨_, j, rfl, bound, ?_⟩
      have size : ((samples.data.drop i.toNat).take p.xferOutLen.toNat).length =
          p.xferOutLen.toNat := by
        rw [List.length_take, List.length_drop]
        omega
      have cut := blocking.cons size
      rwa [← List.drop_drop, List.take_append_drop] at cut

/-- A copy after which the bytes up to a new position are kept. -/
theorem memcpy_keeps (p : FeedDev) {pos i count : ℕ} {samples : List UInt8} {newPos : UInt64}
    (moved : newPos.toNat = pos + count) (room : pos + count < p.xferOutLen.toNat)
    (inside : i + count ≤ samples.length) :
    ∃ q : FeedDev, p.memcpy pos samples i count = some q ∧ q.cb = p.cb ∧
      q.xferOutLen = p.xferOutLen ∧ newPos < p.xferOutLen ∧
      { q with xferOutPos := newPos }.kept =
        p.xferOut.take pos ++ (samples.drop i).take count := by
  obtain ⟨q, copied, cb, len, prefixed⟩ := memcpy_spec p (Nat.le_of_lt room) inside
  refine ⟨q, copied, cb, len, ?_, ?_⟩
  · rw [UInt64.lt_iff_toNat_lt, moved]
    exact room
  · rw [FeedDev.kept, moved]
    exact prefixed

/-- What a call does to a device that delivers blocks: it delivers some and keeps the rest. -/
structure Delivers (p : FeedDev) (input : List UInt8) (q : FeedDev)
    (blocks : List (List UInt8)) : Prop where
  cb : q.cb = p.cb
  len : q.xferOutLen = p.xferOutLen
  pos : q.xferOutPos < p.xferOutLen
  cut : Blocks p.xferOutLen.toNat (p.kept ++ input) blocks q.kept

/-- Less than a block is there after the call: the samples are appended to what is kept. -/
theorem extends_spec (p : FeedDev) (samples : Samples)
    (room : p.xferOutPos.toNat + samples.data.length < p.xferOutLen.toNat) :
    ∃ q : FeedDev, p.memcpy p.xferOutPos.toNat samples.data 0 samples.bytes.toNat = some q ∧
      Delivers p samples.data
        { q with xferOutPos := p.xferOutPos + samples.bytes.toUInt64 } [] := by
  have bytes := samples.toNat_bytes
  have word := p.word
  have moved : (p.xferOutPos + samples.bytes.toUInt64).toNat =
      p.xferOutPos.toNat + samples.bytes.toNat := by
    rw [UInt64.toNat_add, UInt32.toNat_toUInt64, Nat.mod_eq_of_lt (by omega)]
  obtain ⟨q, copied, cb, len, pos, kept⟩ := memcpy_keeps p moved (by omega)
    (show 0 + samples.bytes.toNat ≤ samples.data.length by omega)
  refine ⟨q, copied, cb, len, pos, ?_⟩
  rw [kept, bytes, List.drop_zero, List.take_length]
  refine Blocks.of_short ?_
  rw [FeedDev.kept, List.length_append, List.length_take]
  omega

/-- The end of a call that sent whole blocks: the remainder of the buffer is copied to the
start of `xfer_out`. -/
theorem keepsRest_spec (p : FeedDev) (samples : Samples) {j : UInt32}
    (short : samples.data.length - j.toNat < p.xferOutLen.toNat) (more : samples.bytes > j) :
    ∃ q : FeedDev, p.memcpy 0 samples.data j.toNat (samples.bytes - j).toNat = some q ∧
      q.cb = p.cb ∧ q.xferOutLen = p.xferOutLen ∧
      (samples.bytes - j).toUInt64 < p.xferOutLen ∧
      { q with xferOutPos := (samples.bytes - j).toUInt64 }.kept =
        samples.data.drop j.toNat := by
  have bytes := samples.toNat_bytes
  have less := UInt32.lt_iff_toNat_lt.mp more
  have count : (samples.bytes - j).toNat = samples.data.length - j.toNat := by
    rw [UInt32.toNat_sub_of_le _ _ (UInt32.le_of_lt more), bytes]
  obtain ⟨q, copied, cb, len, pos, kept⟩ := memcpy_keeps p
    (show (samples.bytes - j).toUInt64.toNat = 0 + (samples.bytes - j).toNat by
      rw [UInt32.toNat_toUInt64, Nat.zero_add])
    (by omega) (show j.toNat + (samples.bytes - j).toNat ≤ samples.data.length by omega)
  refine ⟨q, copied, cb, len, pos, ?_⟩
  rw [kept, count, ← List.length_drop, List.take_length]
  rfl

/-- The block that a call completes: what was kept and the first bytes of the buffer. -/
theorem completes_spec (p : FeedDev) (samples : Samples) {count : ℕ}
    (full : p.xferOutPos.toNat + count = p.xferOutLen.toNat)
    (inside : count ≤ samples.data.length) :
    ∃ q : FeedDev, p.memcpy p.xferOutPos.toNat samples.data 0 count = some q ∧ q.cb = p.cb ∧
      q.xferOutLen = p.xferOutLen ∧
      slice q.xferOut 0 p.xferOutLen.toNat = some (p.kept ++ samples.data.take count) ∧
      (p.kept ++ samples.data.take count).length = p.xferOutLen.toNat := by
  obtain ⟨q, copied, cb, len, prefixed⟩ := memcpy_spec p (Nat.le_of_eq full)
    (show 0 + count ≤ samples.data.length by omega)
  have allocated := q.allocated
  refine ⟨q, copied, cb, len, ?_, ?_⟩
  · rw [slice_eq (by rw [allocated, len]; omega), List.drop_zero, ← full, prefixed]
    rfl
  · have room := p.allocated
    rw [FeedDev.kept, List.length_append, List.length_take, List.length_take]
    omega

/-! ## A call -/

/-- A call that starts with an empty `xfer_out`. -/
theorem feed_fresh (p : FeedDev) (samples : Samples) (callback : p.cb = true)
    (positive : 0 < p.xferOutLen.toNat) (fresh : p.xferOutPos = 0) :
    ∃ q blocks, msisdrFeedAsync p samples = some (q, blocks, 0) ∧
      Delivers p samples.data q blocks := by
  have bytes := samples.toNat_bytes
  have fixed : p.xferOutLen ≠ 0 := by
    intro zero
    simp [zero] at positive
  have nothing : p.kept = [] := by simp [FeedDev.kept, fresh]
  unfold msisdrFeedAsync
  simp only [callback, not_true_eq_false, if_false, fixed, dite_false, fresh, if_true]
  by_cases whole : samples.bytes.toUInt64 = p.xferOutLen
  · -- the buffer is exactly one block
    rw [if_pos whole]
    refine ⟨p, _, rfl, rfl, rfl, by simpa [fresh, UInt64.lt_iff_toNat_lt] using positive, ?_⟩
    rw [nothing, List.nil_append]
    refine Blocks.single ?_ positive
    rw [← whole, UInt32.toNat_toUInt64, bytes]
  · rw [if_neg whole]
    by_cases less : samples.bytes.toUInt64 < p.xferOutLen
    · rw [if_pos less]
      have room : p.xferOutPos.toNat + samples.data.length < p.xferOutLen.toNat := by
        rw [UInt64.lt_iff_toNat_lt, UInt32.toNat_toUInt64, bytes] at less
        rw [fresh, UInt64.toNat_zero]
        omega
      obtain ⟨q, copied, delivers⟩ := extends_spec p samples room
      simp only [fresh, UInt64.toNat_zero, UInt64.zero_add] at copied delivers
      rw [copied]
      exact ⟨_, _, rfl, delivers⟩
    · rw [if_neg less]
      obtain ⟨blocks, j, sent, bound, blocking⟩ :=
        sendBlocks_spec p positive samples 0 (Nat.zero_le _)
      have short := blocking.short
      rw [List.length_drop] at short
      rw [UInt32.toNat_zero, List.drop_zero] at blocking
      rw [sent]
      simp only [Option.bind_eq_bind, Option.bind_some]
      by_cases more : samples.bytes > j
      · rw [if_pos more]
        obtain ⟨q, copied, cb, len, pos, kept⟩ := keepsRest_spec p samples short more
        rw [copied]
        refine ⟨_, _, rfl, cb, len, pos, ?_⟩
        rw [nothing, kept]
        exact blocking
      · rw [if_neg more]
        refine ⟨p, _, rfl, rfl, rfl, by simpa [fresh, UInt64.lt_iff_toNat_lt] using positive, ?_⟩
        have all : samples.data.drop j.toNat = [] := by
          rw [gt_iff_lt, UInt32.lt_iff_toNat_lt, bytes] at more
          exact List.drop_eq_nil_of_le (by omega)
        rw [nothing, List.nil_append, ← all]
        exact blocking

/-- A call that finds bytes in `xfer_out`. -/
theorem feed_pending (p : FeedDev) (samples : Samples) (callback : p.cb = true)
    (below : p.xferOutPos < p.xferOutLen) (pending : p.xferOutPos ≠ 0) :
    ∃ q blocks, msisdrFeedAsync p samples = some (q, blocks, 0) ∧
      Delivers p samples.data q blocks := by
  have bytes := samples.toNat_bytes
  have word := p.word
  have word' := samples.word
  rw [UInt64.lt_iff_toNat_lt] at below
  have positive : 0 < p.xferOutLen.toNat := by omega
  have fixed : p.xferOutLen ≠ 0 := by
    intro zero
    simp [zero] at positive
  have sum : (p.xferOutPos + samples.bytes.toUInt64).toNat =
      p.xferOutPos.toNat + samples.data.length := by
    rw [UInt64.toNat_add, UInt32.toNat_toUInt64, bytes, Nat.mod_eq_of_lt (by omega)]
  unfold msisdrFeedAsync
  simp only [callback, not_true_eq_false, if_false, fixed, dite_false, pending]
  by_cases whole : p.xferOutPos + samples.bytes.toUInt64 = p.xferOutLen
  · -- the buffer completes one block
    rw [if_pos whole]
    have full : p.xferOutPos.toNat + samples.bytes.toNat = p.xferOutLen.toNat := by
      rw [← whole, sum, bytes]
    obtain ⟨q, copied, cb, len, sent, size⟩ := completes_spec p samples full (by omega)
    rw [copied]
    simp only [Option.bind_eq_bind, Option.bind_some]
    rw [sent]
    refine ⟨_, _, rfl, cb, len, UInt64.lt_iff_toNat_lt.mpr positive, ?_⟩
    rw [bytes, List.take_length] at size ⊢
    exact Blocks.single size positive
  · rw [if_neg whole]
    by_cases less : p.xferOutPos + samples.bytes.toUInt64 < p.xferOutLen
    · rw [if_pos less]
      rw [UInt64.lt_iff_toNat_lt, sum] at less
      obtain ⟨q, copied, delivers⟩ := extends_spec p samples less
      rw [copied]
      exact ⟨_, _, rfl, delivers⟩
    · -- the buffer completes a block, and more blocks may follow
      rw [if_neg less]
      have longer : p.xferOutLen.toNat ≤ p.xferOutPos.toNat + samples.data.length := by
        rw [UInt64.lt_iff_toNat_lt, sum] at less
        omega
      have missing : (p.xferOutLen - p.xferOutPos).toNat =
          p.xferOutLen.toNat - p.xferOutPos.toNat :=
        UInt64.toNat_sub_of_le _ _ (UInt64.le_iff_toNat_le.mpr (by omega))
      have start : (p.xferOutLen - p.xferOutPos).toUInt32.toNat =
          (p.xferOutLen - p.xferOutPos).toNat := by
        rw [UInt64.toNat_toUInt32, Nat.mod_eq_of_lt (by omega)]
      obtain ⟨q, copied, cb, len, sent, size⟩ := completes_spec p samples
        (show p.xferOutPos.toNat + (p.xferOutLen - p.xferOutPos).toNat = p.xferOutLen.toNat by
          omega) (by omega)
      obtain ⟨blocks, j, rest, bound, blocking⟩ := sendBlocks_spec p positive samples
        (p.xferOutLen - p.xferOutPos).toUInt32 (by omega)
      have short := blocking.short
      rw [List.length_drop] at short
      have cut := blocking.cons size
      rw [start, List.append_assoc, List.take_append_drop] at cut
      rw [copied]
      simp only [Option.bind_eq_bind, Option.bind_some]
      rw [sent]
      simp only [Option.bind_some]
      rw [rest]
      simp only [Option.bind_some]
      by_cases more : samples.bytes > j
      · rw [if_pos more]
        obtain ⟨q', copied', cb', len', pos, kept⟩ := keepsRest_spec q samples (len ▸ short) more
        rw [copied']
        refine ⟨_, _, rfl, cb'.trans cb, len'.trans len, len ▸ pos, ?_⟩
        rw [kept]
        exact cut
      · rw [if_neg more]
        refine ⟨_, _, rfl, cb, len, UInt64.lt_iff_toNat_lt.mpr positive, ?_⟩
        have all : samples.data.drop j.toNat = [] := by
          rw [gt_iff_lt, UInt32.lt_iff_toNat_lt, bytes] at more
          exact List.drop_eq_nil_of_le (by omega)
        rw [all] at cut
        exact cut

/-- **One call.** It stays inside the arrays, delivers whole blocks of what was kept followed
by the samples, and keeps the rest. -/
theorem feed_delivers (p : FeedDev) (samples : Samples) (callback : p.cb = true)
    (below : p.xferOutPos < p.xferOutLen) :
    ∃ q blocks, msisdrFeedAsync p samples = some (q, blocks, 0) ∧
      Delivers p samples.data q blocks := by
  by_cases fresh : p.xferOutPos = 0
  · refine feed_fresh p samples callback ?_ fresh
    rw [UInt64.lt_iff_toNat_lt] at below
    omega
  · exact feed_pending p samples callback below fresh

/-- With an automatic length every buffer is delivered as it is. -/
theorem feed_automatic (p : FeedDev) (samples : Samples) (callback : p.cb = true)
    (automatic : p.xferOutLen = 0) :
    msisdrFeedAsync p samples = some (p, [samples.data], 0) := by
  unfold msisdrFeedAsync
  simp [callback, automatic]

/-! ## A run of calls -/

theorem feedAll_delivers (buffers : List Samples) (p : FeedDev) (callback : p.cb = true)
    (below : p.xferOutPos < p.xferOutLen) :
    ∃ q blocks, feedAll p buffers = some (q, blocks) ∧
      Delivers p (buffers.map Samples.data).flatten q blocks := by
  induction buffers generalizing p with
  | nil =>
      refine ⟨p, [], rfl, rfl, rfl, below, ?_⟩
      rw [List.map_nil, List.flatten_nil, List.append_nil]
      refine Blocks.of_short ?_
      rw [UInt64.lt_iff_toNat_lt] at below
      rw [FeedDev.kept, List.length_take]
      omega
  | cons samples rest ih =>
      obtain ⟨q, blocks, called, delivers⟩ := feed_delivers p samples callback below
      obtain ⟨q', blocks', ran, delivers'⟩ :=
        ih q (delivers.cb.trans callback) (delivers.len ▸ delivers.pos)
      refine ⟨q', blocks ++ blocks', by simp [feedAll, called, ran],
        delivers'.cb.trans delivers.cb, delivers'.len.trans delivers.len,
        delivers.len ▸ delivers'.pos, ?_⟩
      rw [List.map_cons, List.flatten_cons, ← List.append_assoc]
      exact delivers.cut.append (delivers.len ▸ delivers'.cut)

theorem feedAll_automatic (buffers : List Samples) (p : FeedDev) (callback : p.cb = true)
    (automatic : p.xferOutLen = 0) :
    feedAll p buffers = some (p, buffers.map Samples.data) := by
  induction buffers with
  | nil => rfl
  | cons samples rest ih =>
      simp [feedAll, feed_automatic p samples callback automatic, ih]

/-- **Re-blocking preserves the byte stream.** Every run of calls stays inside the arrays. With
an automatic length it delivers each buffer as it is; otherwise it delivers blocks of the
length, which with the bytes still in `xfer_out` make up all that was fed, and the same blocks
for every way to cut the same bytes into buffers. -/
theorem reblocking_exact (p : FeedDev) (callback : p.cb = true) (fresh : p.xferOutPos = 0)
    (buffers : List Samples) :
    ∃ q blocks, feedAll p buffers = some (q, blocks) ∧
      (p.xferOutLen = 0 → blocks = buffers.map Samples.data) ∧
      (p.xferOutLen ≠ 0 →
        (∀ block ∈ blocks, block.length = p.xferOutLen.toNat) ∧
        blocks.flatten ++ q.xferOut.take q.xferOutPos.toNat =
          (buffers.map Samples.data).flatten ∧
        q.xferOutPos < p.xferOutLen ∧
        ∀ buffers' : List Samples,
          (buffers'.map Samples.data).flatten = (buffers.map Samples.data).flatten →
            (feedAll p buffers').map Prod.snd = some blocks) := by
  by_cases automatic : p.xferOutLen = 0
  · refine ⟨p, _, feedAll_automatic buffers p callback automatic, fun _ => rfl, ?_⟩
    exact fun fixed => absurd automatic fixed
  · have below : p.xferOutPos < p.xferOutLen := by
      rw [fresh, UInt64.lt_iff_toNat_lt, UInt64.toNat_zero, Nat.pos_iff_ne_zero]
      exact fun zero => automatic (UInt64.toNat_inj.mp zero)
    have nothing : p.kept = [] := by simp [FeedDev.kept, fresh]
    obtain ⟨q, blocks, ran, delivers⟩ := feedAll_delivers buffers p callback below
    have cut := delivers.cut
    rw [nothing, List.nil_append] at cut
    refine ⟨q, blocks, ran, fun zero => absurd zero automatic, fun _ =>
      ⟨cut.full, cut.whole, delivers.pos, fun buffers' same => ?_⟩⟩
    obtain ⟨q', blocks', ran', delivers'⟩ := feedAll_delivers buffers' p callback below
    have cut' := delivers'.cut
    rw [nothing, List.nil_append, same] at cut'
    rw [ran', Option.map_some, (cut.unique cut').1]

/-- A device that delivers blocks of three bytes. -/
def threes : FeedDev := ⟨true, 3, 0, [0, 0, 0], rfl, by decide⟩

/-- Seven bytes in two buffers, and the same bytes in one. -/
theorem reblocking_exact_threes :
    ∃ q, feedAll threes [⟨[1, 2], by decide⟩, ⟨[3, 4, 5, 6, 7], by decide⟩] =
        some (q, [[1, 2, 3], [4, 5, 6]]) ∧ q.xferOut.take q.xferOutPos.toNat = [7] := by
  obtain ⟨q, blocks, ran, -, fixed⟩ := reblocking_exact threes rfl rfl
    [⟨[1, 2], by decide⟩, ⟨[3, 4, 5, 6, 7], by decide⟩]
  obtain ⟨full, whole, pos, -⟩ := fixed (by decide)
  have cut : Blocks 3 [1, 2, 3, 4, 5, 6, 7] blocks (q.xferOut.take q.xferOutPos.toNat) := by
    refine ⟨full, ?_, whole⟩
    have below : q.xferOutPos.toNat < 3 := UInt64.lt_iff_toNat_lt.mp pos
    rw [List.length_take]
    omega
  have other : Blocks 3 [1, 2, 3, 4, 5, 6, 7] [[1, 2, 3], [4, 5, 6]] ([7] : List UInt8) :=
    ⟨by decide, by decide, rfl⟩
  obtain ⟨rfl, rest⟩ := cut.unique other
  exact ⟨q, ran, rest⟩

end MsiSdrDriver.Async
