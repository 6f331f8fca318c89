import MsiSdrDriver.Foundations.LabelledRuns
import MsiSdrDriver.Usb.BulkReaping
import MsiSdrDriver.Usb.BulkUrbs

/-!
# What a bulk transfer delivers

A transfer of any length, on a kernel with any capabilities, is told to its callback at most once.
Whatever happened meanwhile, what has been received then is the beginning of the buffer, without a
hole (`bulk_delivered`). The URBs have all come back by then, unless a URB came out of turn: the
last one, or one with an overflow, before the others and while the transfer was still reaped as if
nothing had gone wrong, which a stall does not change. Then the URBs are freed while the kernel
still has some. Nothing stops it from giving them back, and what
is done with them then is read from freed memory: the callback may well be told again. This does not
happen to transfers of at most `MAX_BULK_BUFFER_LENGTH` bytes, such as those of the driver.

Of the kernel it is assumed that URBs with data come back in the order of their places in the
buffer, with no more than they have room for, and none with data once the endpoint is halted.
-/

set_option autoImplicit false

namespace MsiSdrDriver.Usb

open MsiSdrDriver.Async
open MsiSdrDriver.Foundations

/-! ## Runs -/

/-- A transfer and the kernel's side of it: the URBs that have not come back, and whether the
endpoint is halted. What has been received, whether a URB has failed, come out of turn or come back
after it was freed, and what the callback has been told, are history. -/
structure Bulk where
  transfer : BulkTransfer
  pending : List ℕ
  halted : Bool
  received : List UInt8
  failed : Bool
  outOfTurn : Bool
  strayed : Bool
  told : List Completion

/-- A URB comes back, or the transfer is cancelled. A URB that has been freed is a stray. -/
inductive BulkEvent where
  | reap (urbIdx : ℕ) (status : Option Errno) (data : List UInt8)
  | stray (urbIdx : ℕ) (transfer : BulkTransfer) (told : Option Completion)
  | cancel (answer : ℕ → Option Errno)

namespace Bulk

/-- What the kernel may give back. -/
def Gives (w : Bulk) (urbIdx : ℕ) (urb : UsbfsUrb) (data : List UInt8) : Prop :=
  urbIdx ∈ w.pending ∧ data.length ≤ urb.bufferLength ∧
    (data ≠ [] → w.halted = false ∧ ∀ other ∈ w.pending, urbIdx ≤ other)

instance (w : Bulk) (urbIdx : ℕ) (urb : UsbfsUrb) (data : List UInt8) :
    Decidable (w.Gives urbIdx urb data) := inferInstanceAs (Decidable (_ ∧ _))

/-- A URB with which the transfer ends comes back before others. -/
def OutOfTurn (w : Bulk) (urbIdx : ℕ) (status : Option Errno) : Prop :=
  w.transfer.Ends urbIdx status ∧ w.pending ≠ [urbIdx]

instance (w : Bulk) (urbIdx : ℕ) (status : Option Errno) : Decidable (w.OutOfTurn urbIdx status) :=
  inferInstanceAs (Decidable (_ ∧ _))

/-- `handle_bulk_completion` on a URB whose data the kernel has copied to its place. -/
def handle (w : Bulk) (urbIdx : ℕ) (urb : UsbfsUrb) (status : Option Errno) (data : List UInt8) :
    BulkTransfer × Option Completion :=
  { w.transfer with buffer := storeAt w.transfer.buffer urb.start data }.handleCompletion urbIdx urb
    status data.length

/-- A URB has come back. -/
def reaped (w : Bulk) (urbIdx : ℕ) (urb : UsbfsUrb) (status : Option Errno) (data : List UInt8) :
    Bulk where
  transfer := (w.handle urbIdx urb status data).1
  pending := w.pending.erase urbIdx
  halted := w.halted || halts status
  received := w.received ++ data
  failed := w.failed || (w.transfer.reapAction = .normal && !goesOn status)
  outOfTurn := w.outOfTurn || w.OutOfTurn urbIdx status
  strayed := w.strayed
  told := w.told ++ (w.handle urbIdx urb status data).2.toList

/-- One event. There is no guard against a URB that has been freed. `handle_bulk_completion` reads
it all the same, so that the transfer may become anything, and the callback may be told anything. -/
def step (w : Bulk) : BulkEvent → Option Bulk
  | .reap urbIdx status data =>
      (w.transfer.urbs.bind fun urbs => urbs[urbIdx]?).bind fun urb =>
        if w.Gives urbIdx urb data then some (w.reaped urbIdx urb status data) else none
  | .stray urbIdx transfer told =>
      if w.transfer.urbs = none ∧ urbIdx ∈ w.pending then
        some { w with
          transfer := transfer
          pending := w.pending.erase urbIdx
          strayed := true
          told := w.told ++ told.toList }
      else none
  | .cancel answer => some { w with transfer := (w.transfer.cancel answer).1 }

/-- A transfer that `submit_bulk_transfer` has just submitted. -/
def Submitted (caps : UsbfsCaps) (length : ℕ) (w : Bulk) : Prop :=
  ∃ (t : BulkTransfer) (answer : ℕ → Option Errno), t.transferred = 0 ∧
    t.submit caps length true answer = (w.transfer, w.pending, none) ∧
    w = ⟨w.transfer, w.pending, false, [], false, false, false, []⟩

/-- What is known of a transfer of which no URB has strayed. -/
structure Holds (caps : UsbfsCaps) (length : ℕ) (w : Bulk) : Prop where
  numUrbs : w.transfer.numUrbs = caps.numUrbs length
  once : w.told.length ≤ 1
  going : w.told = [] → w.transfer.urbs = some (caps.bulkUrbs length) ∧
    w.transfer.numRetired + w.pending.length = w.transfer.numUrbs ∧ w.pending ≠ [] ∧
    w.outOfTurn = false
  gone : w.told ≠ [] → w.transfer.urbs = none ∧ (w.outOfTurn = true ↔ w.pending ≠ [])
  distinct : w.pending.Nodup
  ahead : ∀ i ∈ w.pending, i < caps.numUrbs length ∧
    w.transfer.transferred ≤ (caps.bulkUrb length i).start
  bounded : w.transfer.transferred ≤ length
  data : w.received = contents w.transfer.buffer 0 w.transfer.transferred
  inPlace : w.told = [] → w.transfer.reapAction = .normal → w.halted = false →
    ∃ m, w.pending = List.range' m (caps.numUrbs length - m) ∧
      w.transfer.transferred = (caps.bulkUrb length m).start
  failed : w.failed = true → w.transfer.reapStatus ≠ .completed
  report : ∀ c ∈ w.told, c = .completion .completed → w.transfer.reapStatus = .completed
  several : w.outOfTurn = true → 1 < caps.numUrbs length

/-! ## The invariant holds -/

theorem Submitted.holds {caps : UsbfsCaps} {length : ℕ} {w : Bulk}
    (submitted : Submitted caps length w) : w.Holds caps length := by
  obtain ⟨t, answer, empty, sent, start⟩ := submitted
  have taken := submit_taken sent
  obtain ⟨i, some, inside, pending, retired, all⟩ := taken.pending
  have nothing : w.transfer.transferred = 0 := taken.transferred.trans empty
  generalize w.transfer = transfer at *
  generalize w.pending = left at *
  subst start
  exact {
    numUrbs := taken.numUrbs
    once := Nat.zero_le _
    going := by
      refine fun _ => ⟨taken.urbs, ?_, ?_, rfl⟩
      · dsimp only
        rw [retired, pending, List.length_range, taken.numUrbs]
        omega
      · dsimp only
        rw [pending]
        exact fun none => some.ne' (List.range_eq_nil.mp none)
    gone := fun told => absurd rfl told
    distinct := by
      rw [pending]
      exact List.nodup_range
    ahead := by
      intro j member
      dsimp only at member ⊢
      rw [pending, List.mem_range] at member
      exact ⟨by omega, nothing ▸ Nat.zero_le _⟩
    bounded := nothing ▸ Nat.zero_le _
    data := by
      dsimp only
      rw [nothing]
      rfl
    inPlace := by
      intro _ normal _
      refine ⟨0, ?_, ?_⟩
      · dsimp only
        rw [pending, all normal, Nat.sub_zero, List.range_eq_range']
      · exact nothing.trans (Nat.zero_mul _).symm
    failed := nofun
    report := nofun
    several := nofun }

variable {caps : UsbfsCaps} {length : ℕ} {w w' : Bulk} {urbIdx : ℕ} {status : Option Errno}
  {data : List UInt8}

/-- What `handle_bulk_completion` does with the URB. -/
theorem handled (w : Bulk) (urbIdx : ℕ) (urb : UsbfsUrb) (status : Option Errno)
    (data : List UInt8) :
    BulkTransfer.Handled { w.transfer with buffer := storeAt w.transfer.buffer urb.start data }
      urbIdx urb status data.length (w.handle urbIdx urb status data) :=
  BulkTransfer.handled _ urbIdx urb status data.length

/-- While all is well, a URB with data comes back in its turn. -/
theorem Holds.inTurn (holds : w.Holds caps length) (going : w.told = [])
    (normal : w.transfer.reapAction = .normal)
    (gives : w.Gives urbIdx (caps.bulkUrb length urbIdx) data) (some : data ≠ []) :
    w.transfer.transferred = (caps.bulkUrb length urbIdx).start ∧
      w.pending = List.range' urbIdx (caps.numUrbs length - urbIdx) := by
  obtain ⟨member, _, turn⟩ := gives
  obtain ⟨running, first⟩ := turn some
  obtain ⟨m, pending, place⟩ := holds.inPlace going normal running
  have inside := (holds.ahead urbIdx member).1
  rw [pending, List.mem_range'_1] at member
  have least : urbIdx ≤ m := first m (by rw [pending, List.mem_range'_1]; omega)
  obtain rfl : urbIdx = m := by omega
  exact ⟨place, pending⟩

/-- The data of a URB ends up behind what has been received. -/
theorem Holds.received_reaped (holds : w.Holds caps length) (going : w.told = [])
    (gives : w.Gives urbIdx (caps.bulkUrb length urbIdx) data) :
    w.received ++ data =
      contents (w.handle urbIdx (caps.bulkUrb length urbIdx) status data).1.buffer 0
        (w.handle urbIdx (caps.bulkUrb length urbIdx) status data).1.transferred := by
  have turned := (w.handled urbIdx (caps.bulkUrb length urbIdx) status data).turned
  have before := (holds.ahead urbIdx gives.1).2
  have stored : contents (storeAt w.transfer.buffer (caps.bulkUrb length urbIdx).start data) 0
      w.transfer.transferred = w.received := by
    rw [contents_storeAt_before _ _ (by omega), holds.data]
  have read := contents_storeAt w.transfer.buffer (caps.bulkUrb length urbIdx).start data
  rw [turned.transferred, contents_add, turned.buffer, Nat.zero_add]
  dsimp only
  split
  · rw [contents_moveAt_before _ _ _ (Nat.zero_add _).le, stored, contents_moveAt, read]
  · next unmoved =>
    rw [stored]
    by_cases some : data = []
    · rw [some]
      rfl
    · have place : (caps.bulkUrb length urbIdx).start = w.transfer.transferred := by
        by_cases normal : w.transfer.reapAction = .normal
        · exact (holds.inTurn going normal gives some).1.symm
        · by_contra moved
          exact unmoved ⟨normal, List.length_pos_of_ne_nil some, moved⟩
      rw [← place, read]

/-- What a URB delivers stays in front of the URBs that are still on their way. -/
theorem Holds.transferred_le (holds : w.Holds caps length)
    (gives : w.Gives urbIdx (caps.bulkUrb length urbIdx) data) {i : ℕ}
    (member : i ∈ w.pending.erase urbIdx) :
    w.transfer.transferred + data.length ≤ (caps.bulkUrb length i).start := by
  obtain ⟨here, room, turn⟩ := gives
  have waits := List.mem_of_mem_erase member
  have other : i ≠ urbIdx := fun same =>
    holds.distinct.not_mem_erase (same ▸ member)
  by_cases some : data = []
  · rw [some, List.length_nil, Nat.add_zero]
    exact (holds.ahead i waits).2
  · have first := (turn some).2 i waits
    calc w.transfer.transferred + data.length
        ≤ (caps.bulkUrb length urbIdx).start + (caps.bulkUrb length urbIdx).bufferLength :=
          Nat.add_le_add (holds.ahead urbIdx here).2 room
      _ ≤ (caps.bulkUrb length i).start := caps.end_le_start length (by omega)

/-- A URB after which the next one is waited for was full, and came in its turn. -/
theorem Holds.inPlace_reaped (holds : w.Holds caps length) (going : w.told = [])
    (gives : w.Gives urbIdx (caps.bulkUrb length urbIdx) data)
    (continues : w.transfer.Continues urbIdx (caps.bulkUrb length urbIdx) status data.length) :
    w.pending.erase urbIdx = List.range' (urbIdx + 1) (caps.numUrbs length - (urbIdx + 1)) ∧
      w.transfer.transferred + data.length = (caps.bulkUrb length (urbIdx + 1)).start ∧
      w.halted = false ∧ urbIdx + 1 < caps.numUrbs length := by
  obtain ⟨normal, _, earlier, full⟩ := continues
  have inside := (holds.ahead urbIdx gives.1).1
  rw [holds.numUrbs] at earlier
  have whole := caps.bufferLength_of_not_last length inside earlier
  have size : data.length = caps.bulkBufferLen length :=
    (Nat.le_antisymm gives.2.1 full).trans whole
  have some : data ≠ [] := by
    rintro rfl
    exact (caps.bulkBufferLen_pos length).ne size
  obtain ⟨place, pending⟩ := holds.inTurn going normal gives some
  refine ⟨?_, ?_, (gives.2.2 some).1, by omega⟩
  · have more : caps.numUrbs length - urbIdx = caps.numUrbs length - (urbIdx + 1) + 1 := by omega
    rw [pending, more, List.range'_succ, List.erase_cons_head]
  · rw [place, size]
    exact (Nat.succ_mul _ _).symm

/-- A transfer ends with a URB that ends it, and with the last one that comes back. -/
theorem Holds.ends_iff (holds : w.Holds caps length) (going : w.told = [])
    (gives : w.Gives urbIdx (caps.bulkUrb length urbIdx) data) (status : Option Errno) :
    (w.handle urbIdx (caps.bulkUrb length urbIdx) status data).2.isSome ↔
      w.transfer.Ends urbIdx status ∨ w.pending.erase urbIdx = [] := by
  have ends := (w.handled urbIdx (caps.bulkUrb length urbIdx) status data).ends
  obtain ⟨_, count, _, _⟩ := holds.going going
  have left := List.length_erase_of_mem gives.1
  have some := List.length_pos_of_mem gives.1
  rw [ends]
  refine or_congr Iff.rfl ?_
  rw [← List.length_eq_zero_iff, left]
  constructor
  · rintro ⟨_, last⟩
    dsimp only at last
    omega
  · intro none
    refine ⟨fun continues => ?_, by dsimp only; omega⟩
    obtain ⟨rest, _, _, inside⟩ := holds.inPlace_reaped going gives continues
    rw [rest, List.length_range'] at left
    omega

/-- Whether URBs are left when the transfer ends. -/
theorem Holds.outOfTurn_reaped (holds : w.Holds caps length) (going : w.told = []) (urbIdx : ℕ)
    (status : Option Errno) (data : List UInt8) :
    (w.reaped urbIdx (caps.bulkUrb length urbIdx) status data).outOfTurn = true ↔
      w.transfer.Ends urbIdx status ∧ w.pending.erase urbIdx ≠ [] := by
  have single : w.pending.erase urbIdx = [] ↔ w.pending = [urbIdx] := by
    rw [List.erase_eq_nil_iff]
    exact or_iff_right (holds.going going).2.2.1
  rw [ne_eq, single]
  simp only [reaped, (holds.going going).2.2.2, Bool.false_or]
  exact decide_eq_true_iff

/-- **A URB comes back.** -/
theorem Holds.reaped (holds : w.Holds caps length) (going : w.told = [])
    (gives : w.Gives urbIdx (caps.bulkUrb length urbIdx) data) :
    (w.reaped urbIdx (caps.bulkUrb length urbIdx) status data).Holds caps length := by
  have handled := w.handled urbIdx (caps.bulkUrb length urbIdx) status data
  have turned := handled.turned
  have ends := holds.ends_iff going gives status
  have outOfTurn := holds.outOfTurn_reaped going urbIdx status data
  obtain ⟨urbs, count, _, _⟩ := holds.going going
  have left := List.length_erase_of_mem gives.1
  have some := List.length_pos_of_mem gives.1
  have told : (w.reaped urbIdx (caps.bulkUrb length urbIdx) status data).told =
      (w.handle urbIdx (caps.bulkUrb length urbIdx) status data).2.toList := by
    rw [Bulk.reaped, going, List.nil_append]
  have silent : (w.reaped urbIdx (caps.bulkUrb length urbIdx) status data).told = [] ↔
      (w.handle urbIdx (caps.bulkUrb length urbIdx) status data).2 = none := by
    rw [told, Option.toList_eq_nil_iff]
  exact {
    numUrbs := turned.numUrbs.trans holds.numUrbs
    once := by
      rw [told]
      exact Option.length_toList_le
    going := by
      intro none
      have waits := silent.mp none
      have open_ : ¬(w.transfer.Ends urbIdx status ∨ w.pending.erase urbIdx = []) := by
        rw [← ends, waits]
        nofun
      refine ⟨?_, ?_, fun nothing => open_ (.inr nothing), ?_⟩
      · exact handled.urbs.trans (by rw [waits]; exact urbs)
      · have retired := turned.retired
        have same := turned.numUrbs
        dsimp only [Bulk.reaped] at retired same ⊢
        omega
      · rw [← Bool.not_eq_true, outOfTurn]
        exact fun early => open_ (.inl early.1)
    gone := by
      intro ended
      have ended := Option.isSome_iff_ne_none.mpr (mt silent.mpr ended)
      refine ⟨?_, outOfTurn.trans ⟨And.right, fun more => ⟨?_, more⟩⟩⟩
      · exact handled.urbs.trans (by rw [if_pos ended])
      · exact (ends.mp ended).resolve_right more
    distinct := holds.distinct.erase _
    ahead := by
      intro i member
      refine ⟨(holds.ahead i (List.mem_of_mem_erase member)).1, ?_⟩
      exact turned.transferred.trans_le (holds.transferred_le gives member)
    bounded := by
      have room := caps.end_le_length length (holds.ahead urbIdx gives.1).1
      have before := (holds.ahead urbIdx gives.1).2
      have fits := gives.2.1
      exact turned.transferred.trans_le (by dsimp only; omega)
    data := holds.received_reaped going gives
    inPlace := by
      intro none normal running
      have running := Bool.or_eq_false_iff.mp running
      rcases handled.normal normal (silent.mp none) with continues | ⟨_, halted⟩
      · obtain ⟨rest, place, _, _⟩ := holds.inPlace_reaped going gives continues
        exact ⟨urbIdx + 1, rest, turned.transferred.trans place⟩
      · exact absurd (running.2.symm.trans halted) nofun
    failed := by
      intro failed
      rcases Bool.or_eq_true_iff.mp failed with before | now
      · exact turned.failed (holds.failed before)
      · rw [Bool.and_eq_true, Bool.not_eq_true'] at now
        exact turned.fails (of_decide_eq_true now.1) now.2
    report := by
      intro c member success
      rw [told, Option.mem_toList] at member
      have reported := handled.told c member
      rw [success] at reported
      split at reported
      · cases reported
      · exact (Completion.completion.inj reported).symm
    several := by
      intro early
      have more := List.length_pos_of_ne_nil (outOfTurn.mp early).2
      have numUrbs := holds.numUrbs
      omega }

/-- The URBs are freed with the kernel still having some only after one came out of turn. -/
theorem Holds.stray (holds : w.Holds caps length) (freed : w.transfer.urbs = none)
    (pending : urbIdx ∈ w.pending) : w.outOfTurn = true := by
  have ended : w.told ≠ [] := by
    intro going
    have held := (holds.going going).1
    rw [freed] at held
    cases held
  exact (holds.gone ended).2.mpr (List.ne_nil_of_mem pending)

/-- What every step keeps: all that is known, unless a URB has strayed. -/
structure Kept (caps : UsbfsCaps) (length : ℕ) (w : Bulk) : Prop where
  holds : w.strayed = false → w.Holds caps length
  strays : w.strayed = true → w.outOfTurn = true ∧ 1 < caps.numUrbs length

/-- **The step.** -/
theorem Kept.step (kept : w.Kept caps length) (event : BulkEvent)
    (moves : w.step event = some w') : w'.Kept caps length := by
  cases event with
  | reap urbIdx status data =>
      obtain ⟨urb, found, moves⟩ := Option.bind_eq_some_iff.mp moves
      obtain ⟨urbs, held, found⟩ := Option.bind_eq_some_iff.mp found
      split at moves
      · next gives =>
        obtain rfl := Option.some.inj moves
        refine ⟨fun never => ?_, fun strayed => ?_⟩
        · have holds := kept.holds never
          have going : w.told = [] := by
            by_contra told
            rw [(holds.gone told).1] at held
            cases held
          rw [(holds.going going).1] at held
          obtain rfl := Option.some.inj held
          rw [caps.getElem?_bulkUrbs length (holds.ahead urbIdx gives.1).1] at found
          obtain rfl := Option.some.inj found
          exact holds.reaped going gives
        · obtain ⟨early, several⟩ := kept.strays strayed
          refine ⟨?_, several⟩
          dsimp only [Bulk.reaped]
          rw [early, Bool.true_or]
      · cases moves
  | stray urbIdx transfer told =>
      simp only [Bulk.step] at moves
      split at moves
      · next gives =>
        obtain rfl := Option.some.inj moves
        refine ⟨nofun, fun _ => ?_⟩
        cases strayed : w.strayed with
        | false =>
            have holds := kept.holds strayed
            have early := holds.stray gives.1 gives.2
            exact ⟨early, holds.several early⟩
        | true => exact kept.strays strayed
      · cases moves
  | cancel answer =>
      obtain rfl := Option.some.inj moves
      refine ⟨fun never => ?_, kept.strays⟩
      rcases w.transfer.cancel_cases answer with same | ⟨action, abnormal, changed⟩
      · rw [same]
        exact kept.holds never
      · rw [changed]
        exact { kept.holds never with inPlace := fun _ normal => absurd normal abnormal }

/-- What the callback can rely on as long as no URB has strayed. `left` says when one can. -/
structure Intact (length : ℕ) (w : Bulk) : Prop where
  data : w.received = contents w.transfer.buffer 0 w.transfer.transferred
  bounded : w.transfer.transferred ≤ length
  once : w.told.length ≤ 1
  ends : w.told ≠ [] ↔ w.pending = [] ∨ w.outOfTurn = true
  left : w.outOfTurn = true ↔ w.transfer.urbs = none ∧ w.pending ≠ []
  success : .completion .completed ∈ w.told → w.failed = false

/-- What the callback can rely on. -/
structure Delivered (length : ℕ) (w : Bulk) : Prop where
  intact : w.strayed = false → w.Intact length
  strays : w.strayed = true → w.outOfTurn = true
  inTurn : length ≤ maxBulkBufferLength → w.outOfTurn = false

theorem Holds.intact (holds : w.Holds caps length) : w.Intact length := by
  refine ⟨holds.data, holds.bounded, holds.once, ?_, ?_, ?_⟩
  · constructor
    · intro told
      by_cases none : w.pending = []
      · exact .inl none
      · exact .inr ((holds.gone told).2.mpr none)
    · intro ended going
      obtain ⟨_, _, some, turn⟩ := holds.going going
      rcases ended with none | outOfTurn
      · exact some none
      · exact absurd (turn.symm.trans outOfTurn) nofun
  · constructor
    · intro outOfTurn
      have ended : w.told ≠ [] := by
        intro going
        rw [(holds.going going).2.2.2] at outOfTurn
        cases outOfTurn
      exact ⟨(holds.gone ended).1, (holds.gone ended).2.mp outOfTurn⟩
    · rintro ⟨freed, some⟩
      obtain ⟨i, pending⟩ := List.exists_mem_of_ne_nil _ some
      exact holds.stray freed pending
  · intro success
    refine Bool.eq_false_iff.mpr fun failed => ?_
    exact holds.failed failed (holds.report _ success rfl)

theorem Kept.several (kept : w.Kept caps length) (early : w.outOfTurn = true) :
    1 < caps.numUrbs length := by
  cases strayed : w.strayed with
  | false => exact (kept.holds strayed).several early
  | true => exact (kept.strays strayed).2

theorem Kept.delivered (kept : w.Kept caps length) : w.Delivered length := by
  refine ⟨fun never => (kept.holds never).intact, fun strayed => (kept.strays strayed).1, ?_⟩
  intro fits
  refine Bool.eq_false_iff.mpr fun early => ?_
  have several := kept.several early
  rw [caps.numUrbs_of_le length fits] at several
  exact absurd several (Nat.lt_irrefl 1)

theorem Submitted.kept (submitted : w.Submitted caps length) : w.Kept caps length := by
  refine ⟨fun _ => submitted.holds, ?_⟩
  obtain ⟨_, _, _, _, start⟩ := submitted
  rw [start]
  nofun

end Bulk

/-- **A bulk transfer delivers what the kernel has given.** -/
theorem bulk_delivered {caps : UsbfsCaps} {length : ℕ} {w : Bulk}
    (reached : Reach Bulk.step (Bulk.Submitted caps length) Always w) : w.Delivered length :=
  Bulk.Kept.delivered (reached.invariant (fun _ submitted => submitted.kept)
    fun _ event _ kept _ moves => kept.step event moves)

/-- Three URBs, none of which has come back. -/
def threeUrbs : Bulk where
  transfer := (BulkTransfer.alloc.submit ⟨false, false, false⟩ 40000 true fun _ => none).1
  pending := [0, 1, 2]
  halted := false
  received := []
  failed := false
  outOfTurn := false
  strayed := false
  told := []

/-- The first URB is short, and the second one has got data before it could be discarded. -/
theorem bulk_delivered_surplus :
    ∃ w, Reach Bulk.step (Bulk.Submitted ⟨false, false, false⟩ 40000) Always w ∧
      w.told = [.completion .completed] ∧ contents w.transfer.buffer 0 5 = [1, 2, 3, 4, 5] ∧
      w.Delivered 40000 := by
  have start : Reach Bulk.step (Bulk.Submitted ⟨false, false, false⟩ 40000) Always threeUrbs :=
    .start ⟨_, fun _ => none, rfl, rfl, rfl⟩
  have reached := start.of_replay
    [.reap 0 none [1, 2, 3], .reap 2 (some .enoent) [], .reap 1 (some .econnreset) [4, 5]] rfl
  exact ⟨_, reached, rfl, rfl, bulk_delivered reached⟩

end MsiSdrDriver.Usb
