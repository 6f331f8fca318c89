import MsiSdrDriver.Usb.BulkTransfer

/-!
# A URB of a bulk transfer comes back

`handle_bulk_completion` counts a URB and its data, whatever its status (`Turned`). A transfer ends
with the last URB that comes back. While nothing has gone wrong it ends earlier, with the last URB
of the buffer or with one that has overflown (`Handled.ends`).
-/

set_option autoImplicit false

namespace MsiSdrDriver.Usb

open MsiSdrDriver.Async
open MsiSdrDriver.Foundations

/-! ## What a URB that comes back does -/

/-- A status with which the switch of `handle_bulk_completion` goes on. -/
def goesOn : Option Errno → Bool
  | none | some .eremoteio | some .enoent | some .econnreset => true
  | some _ => false

/-- A status after which the endpoint delivers nothing. -/
def halts : Option Errno → Bool
  | some .enodev | some .eshutdown | some .epipe => true
  | _ => false

namespace BulkTransfer

variable {t : BulkTransfer} {urbIdx actualLength : ℕ} {urb : UsbfsUrb} {status : Option Errno}

/-- A URB with which the transfer ends whatever else is on its way. -/
def Ends (t : BulkTransfer) (urbIdx : ℕ) (status : Option Errno) : Prop :=
  t.reapAction = .normal ∧
    (status = some .eoverflow ∨ goesOn status = true ∧ urbIdx = t.numUrbs - 1)

instance (t : BulkTransfer) (urbIdx : ℕ) (status : Option Errno) :
    Decidable (t.Ends urbIdx status) := inferInstanceAs (Decidable (_ ∧ _))

/-- A URB after which the next one is waited for. -/
def Continues (t : BulkTransfer) (urbIdx : ℕ) (urb : UsbfsUrb) (status : Option Errno)
    (actualLength : ℕ) : Prop :=
  t.reapAction = .normal ∧ goesOn status = true ∧ urbIdx ≠ t.numUrbs - 1 ∧
    urb.bufferLength ≤ actualLength

/-- What reaping a URB makes of a transfer, whether it ends it or not. -/
structure Turned (t : BulkTransfer) (urb : UsbfsUrb) (status : Option Errno) (actualLength : ℕ)
    (t' : BulkTransfer) : Prop where
  numUrbs : t'.numUrbs = t.numUrbs
  retired : t'.numRetired = t.numRetired + 1
  transferred : t'.transferred = t.transferred + actualLength
  buffer : t'.buffer =
    if t.reapAction ≠ .normal ∧ 0 < actualLength ∧ urb.start ≠ t.transferred then
      moveAt t.buffer t.transferred urb.start actualLength
    else t.buffer
  cancelled : t'.reapAction = .cancelled ↔ t.reapAction = .cancelled
  failed : t.reapStatus ≠ .completed → t'.reapStatus ≠ .completed
  fails : t.reapAction = .normal → goesOn status = false → t'.reapStatus ≠ .completed
  own : t.reapStatus ≠ .cancelled → t.reapStatus ≠ .timedOut →
    t'.reapStatus ≠ .cancelled ∧ t'.reapStatus ≠ .timedOut

/-- What `handle_bulk_completion` does. -/
structure Handled (t : BulkTransfer) (urbIdx : ℕ) (urb : UsbfsUrb) (status : Option Errno)
    (actualLength : ℕ) (result : BulkTransfer × Option Completion) : Prop where
  turned : t.Turned urb status actualLength result.1
  urbs : result.1.urbs = if result.2.isSome then none else t.urbs
  told : ∀ c ∈ result.2,
    c = if result.1.reapAction = .cancelled then .cancellation
      else .completion result.1.reapStatus
  ends : result.2.isSome ↔ t.Ends urbIdx status ∨
    ¬t.Continues urbIdx urb status actualLength ∧ t.numRetired + 1 = t.numUrbs
  normal : result.1.reapAction = .normal → result.2 = none →
    t.Continues urbIdx urb status actualLength ∨ t.reapAction = .normal ∧ halts status = true

namespace Turned

variable {t' : BulkTransfer}

theorem completed (turned : t.Turned urb status actualLength t')
    (ends : t.Ends urbIdx status ∨
      ¬t.Continues urbIdx urb status actualLength ∧ t.numRetired + 1 = t.numUrbs) :
    t.Handled urbIdx urb status actualLength t'.completed where
  turned := { turned with }
  urbs := rfl
  told := by
    rintro c ⟨⟩
    rfl
  ends := iff_of_true rfl ends
  normal := fun _ none => by cases none

theorem waits (turned : t.Turned urb status actualLength t') (urbs : t'.urbs = t.urbs)
    (open_ : ¬(t.Ends urbIdx status ∨
      ¬t.Continues urbIdx urb status actualLength ∧ t.numRetired + 1 = t.numUrbs))
    (normal : t'.reapAction = .normal →
      t.Continues urbIdx urb status actualLength ∨ t.reapAction = .normal ∧ halts status = true) :
    t.Handled urbIdx urb status actualLength (t', none) where
  turned := turned
  urbs := urbs
  told := nofun
  ends := iff_of_false nofun open_
  normal := fun action _ => normal action

end Turned

/-- The buffer and the count do not depend on whether there is anything to move. -/
theorem reapAbnormal_eq (t : BulkTransfer) (urb : UsbfsUrb) (actualLength : ℕ) :
    t.reapAbnormal urb actualLength =
      let moved := { t with
        buffer := if 0 < actualLength ∧ urb.start ≠ t.transferred then
            moveAt t.buffer t.transferred urb.start actualLength
          else t.buffer
        transferred := t.transferred + actualLength }
      if t.numRetired = t.numUrbs then
        BulkTransfer.completed { moved with
          reapStatus := if t.reapAction ≠ .completedEarly ∧ t.reapStatus = .completed then .error
            else t.reapStatus }
      else (moved, none) := by
  unfold reapAbnormal
  by_cases some : 0 < actualLength
  · simp [some]
  · simp [Nat.eq_zero_of_not_pos some]

/-- A transfer that is being torn down ends with the last URB that comes back. -/
theorem handled_abnormal (abnormal : t.reapAction ≠ .normal) :
    t.Handled urbIdx urb status actualLength
      (t.handleCompletion urbIdx urb status actualLength) := by
  have open_ : ¬t.Ends urbIdx status := fun ends => abnormal ends.1
  have stops : ¬t.Continues urbIdx urb status actualLength := fun continues => abnormal continues.1
  have moved : t.Turned urb status actualLength
      { t with
        numRetired := t.numRetired + 1
        buffer := if 0 < actualLength ∧ urb.start ≠ t.transferred then
            moveAt t.buffer t.transferred urb.start actualLength
          else t.buffer
        transferred := t.transferred + actualLength } :=
    ⟨rfl, rfl, rfl, if_congr (and_iff_right abnormal).symm rfl rfl, Iff.rfl, id,
      fun normal => absurd normal abnormal, And.intro⟩
  rw [handleCompletion, if_pos abnormal, reapAbnormal_eq]
  dsimp only
  split
  · next last =>
    refine Turned.completed { moved with
      failed := ?_, fails := fun normal => absurd normal abnormal, own := ?_ } (.inr ⟨stops, last⟩)
    · intro differs
      dsimp only
      rwa [if_neg (fun both => differs both.2)]
    · intro first second
      dsimp only
      split
      · exact ⟨nofun, nofun⟩
      · exact ⟨first, second⟩
  · next more =>
    refine moved.waits rfl ?_ fun normal => absurd normal abnormal
    rintro (ends | ⟨_, last⟩)
    · exact open_ ends
    · exact more last

/-- Behind `cancel_remaining`, a transfer ends if no URB is left. -/
theorem handled_cancelRemaining (normal : t.reapAction = .normal) (open_ : ¬t.Ends urbIdx status)
    (stops : ¬t.Continues urbIdx urb status actualLength) (action : ReapAction)
    (reported : XferStatus) (uncancelled : action ≠ .cancelled)
    (halted : action = .normal → halts status = true)
    (failed : t.reapStatus ≠ .completed → reported ≠ .completed)
    (fails : goesOn status = false → reported ≠ .completed ∨ action = .error)
    (own : t.reapStatus ≠ .cancelled → t.reapStatus ≠ .timedOut →
      reported ≠ .cancelled ∧ reported ≠ .timedOut) :
    t.Handled urbIdx urb status actualLength
      (cancelRemaining { t with
        numRetired := t.numRetired + 1
        transferred := t.transferred + actualLength
        reapAction := action
        reapStatus := reported }) := by
  have turned : t.Turned urb status actualLength
      { t with
        numRetired := t.numRetired + 1
        transferred := t.transferred + actualLength
        reapAction := action
        reapStatus := if action = .error ∧ reported = .completed then .error else reported } := by
    refine ⟨rfl, rfl, rfl, (if_neg fun abnormal => abnormal.1 normal).symm,
      iff_of_false uncancelled (by rw [normal]; nofun), ?_, ?_, ?_⟩
    · intro differs
      rw [if_neg fun both => failed differs both.2]
      exact failed differs
    · intro _ stopped
      dsimp only
      split
      · nofun
      · next other =>
        intro same
        rcases fails stopped with differs | error
        · exact differs same
        · exact other ⟨error, same⟩
    · intro first second
      dsimp only
      split
      · exact ⟨nofun, nofun⟩
      · exact own first second
  unfold cancelRemaining
  dsimp only
  split
  · next last => exact turned.completed (.inr ⟨stops, last⟩)
  · next more =>
    refine turned.waits rfl ?_ fun same => .inr ⟨normal, halted same⟩
    rintro (ends | ⟨_, last⟩)
    · exact open_ ends
    · exact more last

/-- What `reapNormal` has changed before its switch, and nothing else. -/
theorem turned_normal (normal : t.reapAction = .normal) (fine : goesOn status = true) :
    t.Turned urb status actualLength
      { t with
        numRetired := t.numRetired + 1
        transferred := t.transferred + actualLength } :=
  ⟨rfl, rfl, rfl, (if_neg fun abnormal => abnormal.1 normal).symm, Iff.rfl, id,
    fun _ stopped => absurd (fine.symm.trans stopped) nofun, And.intro⟩

/-- Behind the switch. -/
theorem handled_reapDone (normal : t.reapAction = .normal) (fine : goesOn status = true) :
    t.Handled urbIdx urb status actualLength
      (reapDone { t with
        numRetired := t.numRetired + 1
        transferred := t.transferred + actualLength } urbIdx urb actualLength) := by
  have turned : t.Turned urb status actualLength _ := turned_normal normal fine
  have overflow : status ≠ some .eoverflow := by
    rintro rfl
    cases fine
  unfold reapDone
  dsimp only
  split
  · next last => exact turned.completed (.inl ⟨normal, .inr ⟨fine, last⟩⟩)
  · next earlier =>
    have open_ : ¬t.Ends urbIdx status := by
      rintro ⟨_, flows | last⟩
      · exact overflow flows
      · exact earlier last.2
    split
    · next short =>
      have stops : ¬t.Continues urbIdx urb status actualLength := fun continues =>
        Nat.not_le.mpr short continues.2.2.2
      exact handled_cancelRemaining normal open_ stops .completedEarly t.reapStatus nofun nofun id
        (fun stopped => absurd (fine.symm.trans stopped) nofun) And.intro
    · next full =>
      have continues : t.Continues urbIdx urb status actualLength :=
        ⟨normal, fine, earlier, Nat.not_lt.mp full⟩
      refine turned.waits rfl ?_ fun _ => .inl continues
      rintro (ends | ⟨stops, _⟩)
      · exact open_ ends
      · exact stops continues

/-- A status that says that something has gone wrong. -/
theorem handled_failing (normal : t.reapAction = .normal) (errno : Errno)
    (stopped : goesOn (some errno) = false) (flows : errno ≠ .eoverflow) (action : ReapAction)
    (reported : XferStatus)
    (uncancelled : action ≠ .cancelled) (halted : action = .normal → halts (some errno) = true)
    (fails : reported ≠ .completed ∨ action = .error)
    (own : t.reapStatus ≠ .cancelled → t.reapStatus ≠ .timedOut →
      reported ≠ .cancelled ∧ reported ≠ .timedOut)
    (failed : t.reapStatus ≠ .completed → reported ≠ .completed) :
    t.Handled urbIdx urb (some errno) actualLength
      (cancelRemaining { t with
        numRetired := t.numRetired + 1
        transferred := t.transferred + actualLength
        reapAction := action
        reapStatus := reported }) := by
  have open_ : ¬t.Ends urbIdx (some errno) := by
    rintro ⟨_, overflow | fine⟩
    · exact flows (Option.some.inj overflow)
    · exact absurd (fine.1.symm.trans stopped) nofun
  have stops : ¬t.Continues urbIdx urb (some errno) actualLength := fun continues =>
    absurd (continues.2.1.symm.trans stopped) nofun
  exact handled_cancelRemaining normal open_ stops action reported uncancelled halted failed
    (fun _ => fails) own

/-- While all is well, the status decides. -/
theorem handled_normal (normal : t.reapAction = .normal) :
    t.Handled urbIdx urb status actualLength
      (t.handleCompletion urbIdx urb status actualLength) := by
  rw [handleCompletion, if_neg (not_not_intro normal)]
  rcases status with _ | errno
  · exact handled_reapDone normal rfl
  · have failing := @handled_failing t urbIdx actualLength urb normal errno
    cases errno with
    | eremoteio | enoent | econnreset => exact handled_reapDone normal rfl
    | enodev | eshutdown =>
        exact failing rfl nofun t.reapAction .noDevice (by rw [normal]; nofun)
          (fun _ => rfl) (.inl nofun) (fun _ _ => ⟨nofun, nofun⟩) fun _ => nofun
    | epipe =>
        refine failing rfl nofun t.reapAction
          (if t.reapStatus = .completed then .stall else t.reapStatus) (by rw [normal]; nofun)
          (fun _ => rfl) ?_ ?_ ?_
        · left
          split
          · nofun
          · assumption
        · intro first second
          split
          · exact ⟨nofun, nofun⟩
          · exact ⟨first, second⟩
        · intro differs
          rwa [if_neg differs]
    | eoverflow =>
        refine Turned.completed ⟨rfl, rfl, rfl, (if_neg fun abnormal => abnormal.1 normal).symm,
          Iff.rfl, ?_, ?_, ?_⟩ (.inl ⟨normal, .inl rfl⟩)
        · intro differs
          rwa [if_neg differs]
        · intro _ _
          dsimp only
          split
          · nofun
          · assumption
        · intro first second
          dsimp only
          split
          · exact ⟨nofun, nofun⟩
          · exact ⟨first, second⟩
    | etime | eproto | eilseq | ecomm | enosr | exdev | einval | other =>
        exact failing rfl nofun .error t.reapStatus nofun nofun (.inr rfl) And.intro id

/-- **One URB.** -/
theorem handled (t : BulkTransfer) (urbIdx : ℕ) (urb : UsbfsUrb) (status : Option Errno)
    (actualLength : ℕ) :
    t.Handled urbIdx urb status actualLength
      (t.handleCompletion urbIdx urb status actualLength) := by
  by_cases normal : t.reapAction = .normal
  · exact handled_normal normal
  · exact handled_abnormal normal

/-- Cancelling changes nothing but how the URBs are reaped, and never back to normal. -/
theorem cancel_cases (t : BulkTransfer) (answer : ℕ → Option Errno) :
    (t.cancel answer).1 = t ∨
      ∃ action, action ≠ .normal ∧ (t.cancel answer).1 = { t with reapAction := action } := by
  unfold cancel
  split
  · split
    · exact .inl rfl
    · refine .inr ⟨_, ?_, rfl⟩
      split <;> nofun
  · exact .inl rfl

end BulkTransfer

end MsiSdrDriver.Usb
