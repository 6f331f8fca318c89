import Mathlib.Algebra.Order.BigOperators.Group.List
import Mathlib.Algebra.Order.Group.Nat
import MsiSdrDriver.Async.Transfers
import MsiSdrDriver.Usb.BulkUrbs
import MsiSdrDriver.Usb.IsoTransfer

/-!
# What an isochronous transfer delivers

The loop that counts the URBs and the one that fills them agree, so that no packet is left out. If
the URBs come back in order, the transfer is told to its callback when all have come back, and the
descriptor and the bytes of every packet that has come back are its own (`iso_placed`), for lengths
that add up to an `int`. The packets of the driver fit in one URB, and they are of one length, so
that they are also found by the length of the first one.
-/

set_option autoImplicit false

namespace MsiSdrDriver.Usb

open MsiSdrDriver.Async
open MsiSdrDriver.Foundations

universe u v w

/-! ## Packets -/

/-- The part of a list that belongs to what is put behind another list. -/
theorem zipWith_behind {α : Type u} {β : Type v} {γ : Type w} (f : α → β → γ) (l : List α)
    (first second : List β) :
    List.zipWith f l (first ++ second) =
      List.zipWith f l first ++ List.zipWith f (l.drop first.length) second := by
  induction first generalizing l with
  | nil => simp
  | cons b first ih =>
      cases l with
      | nil => simp
      | cons a l => simp [ih l]

/-- The results that come next belong to the packets of the next URB. -/
theorem zip_behind {α : Type u} {β : Type v} {l next rest : List α} {first second : List β}
    (behind : l.drop first.length = next ++ rest) (size : second.length = next.length) :
    l.zip (first ++ second) = l.zip first ++ next.zip second := by
  have cut := zipWith_behind Prod.mk l first second
  rw [behind, ← List.append_nil second, List.zipWith_append size.symm, List.zipWith_nil_right,
    List.append_nil, List.append_nil] at cut
  exact cut

/-- What is written to the descriptors of packets of these lengths. -/
def described (length : ℕ) (result : PacketResult) : IsoPacketDescriptor :=
  ⟨length, result.2, isoPacketStatus result.1⟩

/-- The results are written behind those that are there. -/
theorem copyResults_append (front back : List IsoPacketDescriptor) (results : List PacketResult)
    (room : results.length ≤ back.length) :
    copyResults (front ++ back) front.length results =
      front ++ List.zipWith described (back.map IsoPacketDescriptor.length) results ++
        back.drop results.length := by
  induction results generalizing front back with
  | nil => simp [copyResults]
  | cons result rest ih =>
      cases back with
      | nil => cases room
      | cons packet back =>
          have written : (front ++ packet :: back).modify front.length
              (fun packet => packet.filled result) =
              (front ++ [packet.filled result]) ++ back := by
            rw [List.modify_eq_take_cons_drop (by simp)]
            simp
          have more := ih (front ++ [packet.filled result]) back (Nat.le_of_succ_le_succ room)
          rw [List.length_append, List.length_singleton] at more
          rw [copyResults, written, more]
          simp [described, IsoPacketDescriptor.filled]

theorem copyResults_take {packets : List IsoPacketDescriptor} {offset : ℕ}
    {results : List PacketResult} (room : offset + results.length ≤ packets.length) :
    (copyResults packets offset results).take (offset + results.length) =
      packets.take offset ++ List.zipWith described
        ((packets.drop offset).map IsoPacketDescriptor.length) results := by
  have before : (packets.take offset).length = offset := by
    rw [List.length_take]
    omega
  have behind : results.length ≤ (packets.drop offset).length := by
    rw [List.length_drop]
    omega
  have written := copyResults_append (packets.take offset) (packets.drop offset) results behind
  rw [List.take_append_drop, before] at written
  rw [written]
  refine List.take_left' ?_
  simp only [List.length_append, before, List.length_zipWith, List.length_map]
  omega

@[simp] theorem copyResults_lengths (packets : List IsoPacketDescriptor) (offset : ℕ)
    (results : List PacketResult) :
    (copyResults packets offset results).map IsoPacketDescriptor.length =
      packets.map IsoPacketDescriptor.length := by
  induction results generalizing packets offset with
  | nil => rfl
  | cons result rest ih =>
      rw [copyResults, ih]
      apply List.ext_getElem?
      intro i
      simp only [List.getElem?_map, List.getElem?_modify]
      split
      · cases packets[i]? <;> rfl
      · cases packets[i]? <;> rfl

/-- Among packets of one length the first one tells where the others are. -/
theorem isoPacketBufferSimple_eq {packets : List IsoPacketDescriptor} {size i : ℕ}
    (same : ∀ packet ∈ packets, packet.length = size) (inside : i < packets.length) :
    isoPacketBufferSimple packets i = isoPacketBuffer packets i := by
  have before : (packets.take i).map IsoPacketDescriptor.length = List.replicate i size := by
    refine List.eq_replicate_iff.mpr ⟨?_, fun length member => ?_⟩
    · rw [List.length_map, List.length_take_of_le inside.le]
    · obtain ⟨packet, taken, rfl⟩ := List.mem_map.mp member
      exact same packet (List.mem_of_mem_take taken)
  rw [isoPacketBuffer, before, List.sum_replicate, smul_eq_mul]
  cases packets with
  | nil => cases inside
  | cons first rest => rw [isoPacketBufferSimple, same first List.mem_cons_self, Nat.mul_comm]

/-- A URB lies behind the packets of those before it. -/
theorem getElem?_isoUrbs (start : ℕ) (packets : List (List ℕ)) (i : ℕ) :
    (isoUrbs start packets)[i]? =
      packets[i]?.map fun lengths => ⟨start + (packets.take i).flatten.sum, lengths⟩ := by
  induction packets generalizing start i with
  | nil => rfl
  | cons lengths rest ih =>
      cases i with
      | zero => rfl
      | succ i =>
          rw [isoUrbs, List.getElem?_cons_succ, ih, List.getElem?_cons_succ, List.take_succ_cons,
            List.flatten_cons, List.sum_append, Nat.add_assoc]

/-! ## Submission -/

/-- A transfer of `n` URBs that counts as submitted, and the URBs that the kernel has. -/
structure IsoTransfer.Taken (t : IsoTransfer) (n : ℕ) (t' : IsoTransfer) (pending : List ℕ) :
    Prop where
  lengths : t'.lengths = t.lengths
  urbs : t'.urbs = some (isoUrbs 0 (groups maxIsoBufferLength n t.lengths))
  numUrbs : t'.numUrbs = n
  offset : t'.isoPacketOffset = 0
  pending : ∃ k, 0 < k ∧ k ≤ n ∧ pending = List.range k ∧ t'.numRetired = n - k ∧
    (t'.reapAction = .normal → k = n)

theorem IsoTransfer.submit_taken {t t' : IsoTransfer} {callocs urbsCalloc : Bool}
    {answer : ℕ → Option Errno} {pending : List ℕ}
    (sent : t.submit callocs urbsCalloc answer = (t', pending, none)) :
    ∃ n, countGroups maxIsoBufferLength 1 0 t.lengths = some n ∧ t.Taken n t' pending := by
  unfold IsoTransfer.submit at sent
  split at sent
  · cases sent
  · next n counted =>
    have some : 0 < n := by
      obtain ⟨more, total, _⟩ := groups_counted counted
      omega
    have taken := submitUrbs_taken answer (List.range n)
    refine ⟨n, counted, ?_⟩
    cases callocs with
    | false => cases sent
    | true =>
        cases urbsCalloc with
        | false => cases sent
        | true =>
            simp only [if_true] at sent
            generalize submitUrbs answer (List.range n) = submitted at sent taken
            obtain ⟨first, refused⟩ := submitted
            rcases taken with ⟨rfl, all⟩ | ⟨i, errno, rest, rfl, split⟩
            · dsimp only at sent all
              obtain ⟨rfl, rfl, -⟩ := sent
              exact ⟨rfl, rfl, rfl, rfl, n, some, le_rfl, all, (Nat.sub_self n).symm, fun _ => rfl⟩
            · dsimp only at sent split
              split at sent
              · cases sent
              · next later =>
                obtain ⟨beginning, inside⟩ := range_split split
                obtain ⟨rfl, rfl, -⟩ := sent
                exact ⟨rfl, rfl, rfl, rfl, i, Nat.pos_of_ne_zero later, inside.le, beginning, rfl,
                  nofun⟩

/-! ## Runs -/

namespace Iso

/-- What is known of a transfer of `n` URBs of which the kernel has taken `k` and given back `m`. -/
structure Holds (lengths : List ℕ) (n m k : ℕ) (w : Iso) : Prop where
  rooms : w.transfer.lengths = lengths
  numUrbs : w.transfer.numUrbs = n
  taken : k ≤ n
  pending : w.pending = List.range' m (k - m)
  offset : w.transfer.isoPacketOffset = w.results.length
  count : w.results.length = ((groups maxIsoBufferLength n lengths).take m).flatten.length
  data : w.received =
    contents w.transfer.buffer 0 ((groups maxIsoBufferLength n lengths).take m).flatten.sum
  results : w.transfer.packets.take w.results.length = List.zipWith described lengths w.results
  fits : ∀ packet ∈ lengths.zip w.results, packet.2.2 ≤ packet.1
  once : w.told.length ≤ 1
  going : w.told = [] → m < k ∧
    w.transfer.urbs = some (isoUrbs 0 (groups maxIsoBufferLength n lengths)) ∧
    w.transfer.numRetired = n - k + m ∧ (w.transfer.reapAction = .normal → k = n)
  gone : w.told ≠ [] → m = k ∧ w.transfer.urbs = none
  all : .completion .completed ∈ w.told → m = n

variable {lengths : List ℕ} {n m k urbIdx : ℕ} {w w' : Iso} {status : Option Errno}
  {results : List PacketResult} {data : List UInt8}

theorem Submitted.holds (submitted : Submitted lengths w) :
    ∃ n k, countGroups maxIsoBufferLength 1 0 lengths = some n ∧ w.Holds lengths n 0 k := by
  obtain ⟨-, t, answer, rooms, sent, start⟩ := submitted
  obtain ⟨n, counted, taken⟩ := IsoTransfer.submit_taken sent
  obtain ⟨k, some, inside, pending, retired, all⟩ := taken.pending
  rw [rooms] at counted
  refine ⟨n, k, counted, ?_⟩
  rw [start]
  exact {
    rooms := taken.lengths.trans rooms
    numUrbs := taken.numUrbs
    taken := inside
    pending := by rw [pending, Nat.sub_zero, List.range_eq_range']
    offset := taken.offset
    count := rfl
    data := rfl
    results := by simp
    fits := by simp
    once := Nat.zero_le _
    going := fun _ => ⟨some, rooms ▸ taken.urbs, retired, all⟩
    gone := fun told => absurd rfl told
    all := nofun }

/-- When `handle_iso_completion` ends a transfer. -/
theorem handle_ends (w : Iso) (urbIdx : ℕ) (urb : IsoUrb) (status : Option Errno)
    (results : List PacketResult) (data : List UInt8) :
    (w.handle urbIdx urb status results data).2.isSome ↔
      if w.transfer.reapAction = .normal then urbIdx + 1 = w.transfer.numUrbs
      else w.transfer.numRetired + 1 = w.transfer.numUrbs := by
  unfold handle IsoTransfer.handleCompletion
  dsimp only
  by_cases normal : w.transfer.reapAction = .normal
  · rw [if_neg (not_not_intro normal), if_pos normal]
    split <;> simp_all
  · rw [if_pos normal, if_neg normal]
    split <;> simp_all

/-- What it changes. -/
theorem handle_transfer (w : Iso) (urbIdx : ℕ) (urb : IsoUrb) (status : Option Errno)
    (results : List PacketResult) (data : List UInt8) :
    (w.handle urbIdx urb status results data).1 =
      { w.transfer with
        buffer := storeAt w.transfer.buffer urb.start data
        packets := copyResults w.transfer.packets w.transfer.isoPacketOffset results
        isoPacketOffset := w.transfer.isoPacketOffset + results.length
        numRetired := w.transfer.numRetired + 1
        urbs := if (w.handle urbIdx urb status results data).2.isSome then none
          else w.transfer.urbs } := by
  unfold handle IsoTransfer.handleCompletion
  dsimp only
  split
  · split <;> rfl
  · split <;> rfl

/-- Only the last URB reports success. -/
theorem handle_success {urb : IsoUrb}
    (success : .completion .completed ∈ (w.handle urbIdx urb status results data).2) :
    urbIdx + 1 = w.transfer.numUrbs := by
  unfold handle IsoTransfer.handleCompletion at success
  dsimp only at success
  split at success
  · split at success
    · split at success <;> cases success
    · cases success
  · split at success
    · assumption
    · cases success

/-- The packets of the next URB come behind those that have come back. -/
theorem next_packets (counted : countGroups maxIsoBufferLength 1 0 lengths = some n)
    {packets : List ℕ} (next : (groups maxIsoBufferLength n lengths)[m]? = some packets) :
    ((groups maxIsoBufferLength n lengths).take (m + 1)).flatten =
        ((groups maxIsoBufferLength n lengths).take m).flatten ++ packets ∧
      ∃ rest, lengths =
        ((groups maxIsoBufferLength n lengths).take m).flatten ++ (packets ++ rest) := by
  have more : ((groups maxIsoBufferLength n lengths).take (m + 1)).flatten =
      ((groups maxIsoBufferLength n lengths).take m).flatten ++ packets := by
    rw [List.take_add_one, next, List.flatten_append]
    simp
  refine ⟨more, ((groups maxIsoBufferLength n lengths).drop (m + 1)).flatten, ?_⟩
  rw [← List.append_assoc, ← more, ← List.flatten_append, List.take_append_drop,
    groups_flatten counted]

/-- The transfer ends with the last URB that the kernel has taken. -/
theorem Holds.ends_iff (holds : w.Holds lengths n m k) (going : w.told = []) (urb : IsoUrb)
    (status : Option Errno) (results : List PacketResult) (data : List UInt8) :
    (w.handle m urb status results data).2.isSome ↔ m + 1 = k := by
  obtain ⟨_, _, retired, all⟩ := holds.going going
  have taken := holds.taken
  rw [w.handle_ends m urb status results data, retired, holds.numUrbs]
  split
  · next normal =>
    have same := all normal
    omega
  · omega

/-- **The next URB comes back.** -/
theorem Holds.reaped (holds : w.Holds lengths n m k)
    (counted : countGroups maxIsoBufferLength 1 0 lengths = some n) (going : w.told = [])
    {urb : IsoUrb} (next : (groups maxIsoBufferLength n lengths)[m]? = some urb.lengths)
    (start : urb.start = ((groups maxIsoBufferLength n lengths).take m).flatten.sum)
    (gives : w.Gives m urb results data) :
    (w.reaped m urb status results data).Holds lengths n (m + 1) k := by
  obtain ⟨inside, urbs, retired, all⟩ := holds.going going
  obtain ⟨_, results_length, data_length, fits⟩ := gives
  obtain ⟨more, rest, whole⟩ := next_packets counted next
  have behind : lengths.drop w.results.length = urb.lengths ++ rest := by
    conv_lhs => rw [whole]
    exact List.drop_left' holds.count.symm
  have transfer := w.handle_transfer m urb status results data
  have ends := holds.ends_iff going urb status results data
  have told : (w.reaped m urb status results data).told =
      (w.handle m urb status results data).2.toList := by
    rw [Iso.reaped, going, List.nil_append]
  have silent : (w.reaped m urb status results data).told = [] ↔
      ¬(w.handle m urb status results data).2.isSome := by
    rw [told, Option.toList_eq_nil_iff, Option.not_isSome_iff_eq_none]
  have room : w.results.length + results.length ≤ w.transfer.packets.length := by
    have size := congrArg List.length whole
    have rooms := congrArg List.length holds.rooms
    rw [IsoTransfer.lengths, List.length_map] at rooms
    rw [List.length_append, List.length_append, ← holds.count] at size
    omega
  have kept : w.transfer.packets.map IsoPacketDescriptor.length = lengths := holds.rooms
  exact {
    rooms := by
      rw [Iso.reaped, transfer]
      exact (copyResults_lengths _ _ _).trans kept
    numUrbs := by
      rw [Iso.reaped, transfer]
      exact holds.numUrbs
    taken := holds.taken
    pending := by
      have left : k - m = k - (m + 1) + 1 := by omega
      rw [Iso.reaped, holds.pending, left, List.range'_succ, List.erase_cons_head]
    offset := by
      rw [Iso.reaped, transfer, List.length_append]
      exact congrArg (· + results.length) holds.offset
    count := by
      rw [Iso.reaped, more, List.length_append, List.length_append, holds.count, results_length]
    -- the bytes are stored behind those that have been received, and leave these alone
    data := by
      rw [Iso.reaped, transfer, more, List.sum_append, contents_add, Nat.zero_add, ← start,
        ← data_length, contents_storeAt, contents_storeAt_before _ _ (Nat.zero_add _).le, start,
        holds.data]
    results := by
      rw [Iso.reaped, transfer]
      dsimp only
      rw [holds.offset, List.length_append, copyResults_take room, holds.results, List.map_drop,
        kept, zipWith_behind]
    fits := by
      intro packet member
      rw [Iso.reaped, zip_behind behind results_length, List.mem_append] at member
      rcases member with before | now
      · exact holds.fits packet before
      · exact fits packet now
    once := by
      rw [told]
      exact Option.length_toList_le
    going := by
      intro none
      have waits : ¬m + 1 = k := fun last => silent.mp none (ends.mpr last)
      refine ⟨by omega, ?_, ?_, ?_⟩
      · rw [Iso.reaped, transfer]
        dsimp only
        rw [if_neg (silent.mp none), urbs]
      · rw [Iso.reaped, transfer]
        dsimp only
        omega
      · rw [Iso.reaped, transfer]
        exact all
    gone := by
      intro ended
      have ended := not_not.mp (mt silent.mpr ended)
      refine ⟨ends.mp ended, ?_⟩
      rw [Iso.reaped, transfer]
      exact if_pos ended
    all := by
      intro success
      rw [told, Option.mem_toList] at success
      exact (handle_success success).trans holds.numUrbs }

/-- The URB that comes back is the next one. -/
theorem Holds.next_eq (holds : w.Holds lengths n m k)
    (counted : countGroups maxIsoBufferLength 1 0 lengths = some n)
    (ordered : w.Orderly lengths (.reap urbIdx status results data)) (inside : m < k)
    (back : urbIdx ∈ w.pending) : m = urbIdx := by
  have member := back
  rw [holds.pending, List.mem_range'_1] at member
  by_cases several : maxIsoBufferLength < lengths.sum
  · have least : urbIdx ≤ m := ordered several m (by rw [holds.pending, List.mem_range'_1]; omega)
    omega
  · have single : countGroups maxIsoBufferLength 1 0 lengths = some 1 :=
      countGroups_of_fits (by rw [Nat.zero_add]; exact Nat.not_lt.mp several)
    obtain rfl := Option.some.inj (counted.symm.trans single)
    have taken := holds.taken
    omega

/-- Cancelling changes nothing but how the URBs are reaped. -/
theorem cancel_cases (t : IsoTransfer) (answer : ℕ → Option Errno) :
    (t.cancel answer).1 = t ∨ (t.cancel answer).1 = { t with reapAction := .cancelled } := by
  unfold IsoTransfer.cancel
  split
  · split
    · exact .inl rfl
    · exact .inr rfl
  · exact .inl rfl

/-- **The step.** -/
theorem Holds.step (holds : w.Holds lengths n m k)
    (counted : countGroups maxIsoBufferLength 1 0 lengths = some n) (event : IsoEvent)
    (ordered : w.Orderly lengths event) (moves : w.step event = some w') :
    ∃ m', w'.Holds lengths n m' k := by
  cases event with
  | reap urbIdx status results data =>
      obtain ⟨urb, found, moves⟩ := Option.bind_eq_some_iff.mp moves
      obtain ⟨urbs, held, found⟩ := Option.bind_eq_some_iff.mp found
      split at moves
      · next gives =>
        have going : w.told = [] := by
          by_contra told
          rw [(holds.gone told).2] at held
          cases held
        obtain ⟨inside, same, _, _⟩ := holds.going going
        obtain rfl := holds.next_eq counted ordered inside gives.1
        rw [same] at held
        obtain rfl := Option.some.inj held
        rw [getElem?_isoUrbs] at found
        obtain ⟨packets, next, rfl⟩ := Option.map_eq_some_iff.mp found
        obtain rfl := Option.some.inj moves
        exact ⟨m + 1, holds.reaped counted going next (Nat.zero_add _) gives⟩
      · cases moves
  | cancel answer =>
      obtain rfl := Option.some.inj moves
      refine ⟨m, ?_⟩
      rcases cancel_cases w.transfer answer with same | changed
      · rw [same]
        exact holds
      · rw [changed]
        exact { holds with
          going := fun going => by
            obtain ⟨inside, urbs, retired, _⟩ := holds.going going
            exact ⟨inside, urbs, retired, nofun⟩ }

/-- What the callback can rely on. -/
structure Placed (lengths : List ℕ) (w : Iso) : Prop where
  rooms : w.transfer.lengths = lengths
  results : w.transfer.packets.take w.results.length = List.zipWith described lengths w.results
  short : ∀ urbs, w.transfer.urbs = some urbs →
    ∀ urb ∈ urbs, urb.lengths.sum ≤ maxIsoBufferLength
  fits : ∀ packet ∈ lengths.zip w.results, packet.2.2 ≤ packet.1
  bytes : ∀ i result, w.results[i]? = some result →
    contents w.transfer.buffer (isoPacketBuffer w.transfer.packets i) result.2 =
      (w.received.drop (lengths.take i).sum).take result.2
  simple : ∀ size, (∀ length ∈ lengths, length = size) → ∀ i < lengths.length,
    isoPacketBufferSimple w.transfer.packets i = isoPacketBuffer w.transfer.packets i
  once : w.told.length ≤ 1
  ends : w.told ≠ [] ↔ w.pending = []
  all : .completion .completed ∈ w.told → w.results.length = lengths.length

/-- The bytes of a packet that has come back have been received. -/
theorem Holds.bytes (holds : w.Holds lengths n m k)
    (counted : countGroups maxIsoBufferLength 1 0 lengths = some n) {i : ℕ} {result : PacketResult}
    (back : w.results[i]? = some result) :
    contents w.transfer.buffer (isoPacketBuffer w.transfer.packets i) result.2 =
      (w.received.drop (lengths.take i).sum).take result.2 := by
  have place : isoPacketBuffer w.transfer.packets i = (lengths.take i).sum := by
    rw [isoPacketBuffer, List.map_take]
    exact congrArg (fun l => (List.take i l).sum) holds.rooms
  obtain ⟨inside, read⟩ := List.getElem?_eq_some_iff.mp back
  have whole : ((groups maxIsoBufferLength n lengths).take m).flatten =
      lengths.take w.results.length := by
    conv_rhs => rw [← groups_flatten counted,
      ← List.take_append_drop m (groups maxIsoBufferLength n lengths), List.flatten_append]
    exact (List.take_left' holds.count.symm).symm
  have size := congrArg List.length whole
  rw [← holds.count, List.length_take] at size
  have present : i < lengths.length := by omega
  have room : result.2 ≤ lengths[i] := by
    refine holds.fits (lengths[i], result) (List.mem_of_getElem? (i := i) ?_)
    rw [List.getElem?_zip_eq_some]
    exact ⟨List.getElem?_eq_getElem present, back⟩
  have before : (lengths.take i).sum + result.2 ≤
      ((groups maxIsoBufferLength n lengths).take m).flatten.sum := by
    calc (lengths.take i).sum + result.2
        ≤ (lengths.take i).sum + lengths[i] := Nat.add_le_add_left room _
      _ = (lengths.take (i + 1)).sum := (List.sum_take_succ lengths i present).symm
      _ ≤ (lengths.take w.results.length).sum := List.monotone_sum_take lengths inside
      _ = ((groups maxIsoBufferLength n lengths).take m).flatten.sum := by rw [whole]
  rw [place, holds.data, contents_inside _ before, Nat.zero_add]

/-- No URB is longer than the kernel allows. -/
theorem Holds.short (holds : w.Holds lengths n m k) {urbs : List IsoUrb}
    (held : w.transfer.urbs = some urbs) {urb : IsoUrb} (member : urb ∈ urbs) :
    urb.lengths.sum ≤ maxIsoBufferLength := by
  have going : w.told = [] := by
    by_contra told
    rw [(holds.gone told).2] at held
    cases held
  rw [(holds.going going).2.1] at held
  obtain rfl := Option.some.inj held
  obtain ⟨i, found⟩ := List.mem_iff_getElem?.mp member
  rw [getElem?_isoUrbs] at found
  obtain ⟨packets, next, rfl⟩ := Option.map_eq_some_iff.mp found
  exact sum_le_of_mem_groups (List.mem_of_getElem? next)

theorem Holds.placed (holds : w.Holds lengths n m k)
    (counted : countGroups maxIsoBufferLength 1 0 lengths = some n) : w.Placed lengths where
  rooms := holds.rooms
  results := holds.results
  short := fun _ held _ member => holds.short held member
  fits := holds.fits
  bytes := fun _ _ => holds.bytes counted
  simple := by
    intro size same i inside
    have rooms : w.transfer.packets.map IsoPacketDescriptor.length = lengths := holds.rooms
    rw [← rooms, List.length_map] at inside
    have equal : ∀ packet ∈ w.transfer.packets, packet.length = size :=
      fun packet member => same packet.length (rooms ▸ List.mem_map_of_mem member)
    exact isoPacketBufferSimple_eq equal inside
  once := holds.once
  ends := by
    rw [holds.pending, List.range'_eq_nil_iff]
    constructor
    · intro told
      have same := (holds.gone told).1
      omega
    · intro none going
      have inside := (holds.going going).1
      omega
  all := by
    intro success
    have last := holds.all success
    have whole : ((groups maxIsoBufferLength n lengths).take m).flatten = lengths := by
      rw [List.take_of_length_le (by rw [length_groups, last]), groups_flatten counted]
    rw [holds.count, whole]

end Iso

/-- **Every packet gets what is its own.** -/
theorem iso_placed {lengths : List ℕ} {w : Iso}
    (reached : Reach Iso.step (Iso.Submitted lengths) (Iso.Orderly lengths) w) :
    w.Placed lengths := by
  have holds : ∃ n m k, countGroups maxIsoBufferLength 1 0 lengths = some n ∧
      w.Holds lengths n m k := by
    refine reached.invariant (I := fun w => ∃ n m k,
      countGroups maxIsoBufferLength 1 0 lengths = some n ∧ w.Holds lengths n m k)
      (fun w submitted => ?_) fun w event w' => ?_
    · obtain ⟨n, k, counted, holds⟩ := submitted.holds
      exact ⟨n, 0, k, counted, holds⟩
    · rintro ⟨n, m, k, counted, holds⟩ ordered moves
      obtain ⟨m', holds⟩ := holds.step counted event ordered moves
      exact ⟨n, m', k, counted, holds⟩
  obtain ⟨n, m, k, counted, holds⟩ := holds
  exact holds.placed counted

/-- The transfers of the driver have one URB. -/
example (w : Iso) (event : IsoEvent) :
    w.Orderly (List.replicate defaultIsoPackets (1024 * defaultIsoBuffers)) event :=
  fun several => absurd several (by decide)

/-- A transfer with room for two packets. -/
def twoPackets : IsoTransfer where
  buffer := fun _ => 0
  packets := [⟨2, 0, .completed⟩, ⟨3, 0, .completed⟩]
  urbs := none
  numUrbs := 0
  numRetired := 0
  reapAction := .normal
  isoPacketOffset := 0

/-- It has been submitted, and its URB has not come back. -/
def oneUrb : Iso where
  transfer := (twoPackets.submit true true fun _ => none).1
  pending := [0]
  results := []
  received := []
  told := []

/-- The first packet is short, which does not move the second one. -/
theorem iso_placed_shortPacket :
    ∃ w, Reach Iso.step (Iso.Submitted [2, 3]) (Iso.Orderly [2, 3]) w ∧
      w.told = [.completion .completed] ∧ w.results = [(none, 1), (some .eoverflow, 3)] ∧
      contents w.transfer.buffer (isoPacketBuffer w.transfer.packets 1) 3 = [7, 8, 9] ∧
      w.Placed [2, 3] := by
  have start : Reach Iso.step (Iso.Submitted [2, 3]) (Iso.Orderly [2, 3]) oneUrb :=
    .start ⟨by decide, twoPackets, fun _ => none, rfl, rfl, rfl⟩
  have first : oneUrb.Orderly [2, 3]
      (.reap 0 none [(none, 1), (some .eoverflow, 3)] [6, 0, 7, 8, 9]) :=
    fun _ other _ => Nat.zero_le other
  have reached := start.step first rfl
  exact ⟨_, reached, rfl, rfl, rfl, iso_placed reached⟩

end MsiSdrDriver.Usb
