import MsiSdrDriver.Async.Teardown
import MsiSdrDriver.Driver.Setters

/-!
# Starts that are refused

`msisdr_read_async` refuses to start on a device that is not `INACTIVE`. It does so at `failed`,
the label of the failures after a partial set-up, where `INACTIVE` is stored. The stream that runs
meanwhile loses its status (`refused_start_not_alone`): its reader leaves the loop at the next
test, and frees the transfers while they are in flight (`refused_start_frees_in_flight`).
-/

set_option autoImplicit false

namespace MsiSdrDriver.Async

open MsiSdrDriver.Driver

/-! ## The device -/

/-- `msisdr_dev_t` with what `msisdr_read_async` sets up: `dh` tells whether `p->dh` is not `NULL`,
and `xfer` and `xferOut` are `none` where they are `NULL`. -/
structure AsyncDev (κ γ : Type) where
  dev : MsisdrDev
  dh : Bool
  cb : Option κ
  cbCtx : Option γ
  xferBufNum : ℕ
  xfer : Option (List Xfer)
  xferOutLen : ℕ
  xferOutPos : ℕ
  xferOut : Option (List UInt8)
  syncLossCnt : ℤ

namespace AsyncDev

variable {κ γ : Type}

/-- `failed`, and the return after it. -/
def failed (p : AsyncDev κ γ) : AsyncDev κ γ × Option ℤ :=
  ({ p with dev := { p.dev with asyncStatus := .inactive } }, some (-1))

/-- `msisdr_read_async` up to `retry_transfer`. The result is `none` if the call goes on. -/
def readAsyncEntry (p : AsyncDev κ γ) (cb : κ) (ctx : γ) (num len : UInt32) :
    AsyncDev κ γ × Option ℤ :=
  if p.dh = false then p.failed
  else if p.dev.asyncStatus ≠ .inactive then p.failed
  else
    ({ p with
      cb := some cb
      cbCtx := some ctx
      xferBufNum := if num = 0 then 32 else num.toNat
      xferOutLen := if len = 0 then 0 else len.toNat
      xferOutPos := 0
      syncLossCnt := 0 }, none)

/-- The device as the stream sees it, with the driver thread at `pc`. -/
def stream (p : AsyncDev κ γ) (pc : ReadAsyncPc) : Stream :=
  { Stream.initial p.dev.transfer 0 with
    asyncStatus := p.dev.asyncStatus
    xferBufNum := p.xferBufNum
    allocated := p.xfer.isSome
    xfer := fun k => ((p.xfer.getD [])[k]?).getD .alloc
    reader := pc }

/-- A call that is not refused starts a stream. -/
theorem stream_of_entry (p : AsyncDev κ γ) (cb : κ) (ctx : γ) (num len : UInt32)
    (opened : p.dh = true) (inactive : p.dev.asyncStatus = .inactive) (freed : p.xfer = none) :
    (p.readAsyncEntry cb ctx num len).1.stream .altSetting =
      { Stream.initial p.dev.transfer num.toNat with reader := .altSetting } := by
  have number : (if num = 0 then 32 else num.toNat) = if num.toNat = 0 then 32 else num.toNat := by
    by_cases zero : num = 0
    · simp [zero]
    · have positive : num.toNat ≠ 0 := fun none => zero (UInt32.toNat_inj.mp none)
      rw [if_neg zero, if_neg positive]
  simp [readAsyncEntry, opened, inactive, stream, Stream.initial, freed, number]

/-! ## The refusal -/

/-- A call is refused and leaves the device as it was. -/
def RefusesAlone (p : AsyncDev κ γ) (cb : κ) (ctx : γ) (num len : UInt32) : Prop :=
  p.readAsyncEntry cb ctx num len = (p, some (-1))

/-- What a refused call does to the device. -/
theorem readAsyncEntry_active (p : AsyncDev κ γ) (active : p.dev.asyncStatus ≠ .inactive)
    (cb : κ) (ctx : γ) (num len : UInt32) : p.readAsyncEntry cb ctx num len = p.failed := by
  simp [readAsyncEntry, active]

/-- The two steps of the stream's reader that refuse a start do the same. -/
theorem readAsyncStep_refused (p : AsyncDev κ γ) (active : p.dev.asyncStatus ≠ .inactive)
    (answer : UsbAnswer) :
    ((p.stream .called).readAsyncStep answer).bind (Stream.readAsyncStep · answer) =
      some (p.failed.1.stream (.returned (-1))) := by
  have refused : (p.stream .called).readAsyncStep answer = some (p.stream .failed) :=
    if_pos active
  rw [refused]
  rfl

/-- A device that is being read. -/
def running : AsyncDev Unit Unit where
  dev := { clearedDev 0x2500 with asyncStatus := .running }
  dh := true
  cb := some ()
  cbCtx := some ()
  xferBufNum := 1
  xfer := some [⟨.completed, true, false⟩]
  xferOutLen := 0
  xferOutPos := 0
  xferOut := none
  syncLossCnt := 0

/-- **A refused start can disturb the stream.** -/
theorem refused_start_disturbs :
    ¬ ∀ p : AsyncDev Unit Unit, p.dev.asyncStatus ≠ .inactive →
      ∀ (cb ctx : Unit) (num len : UInt32), p.RefusesAlone cb ctx num len := by
  intro alone
  have same := alone running (by decide) () () 0 0
  rw [RefusesAlone, readAsyncEntry_active running (by decide)] at same
  have status := congrArg (fun result => result.1.dev.asyncStatus) same
  cases status

/-- **A refused start never leaves the device alone**: whatever the status was, it is `INACTIVE`
afterwards. -/
theorem refused_start_not_alone (p : AsyncDev κ γ) (active : p.dev.asyncStatus ≠ .inactive)
    (cb : κ) (ctx : γ) (num len : UInt32) : ¬ p.RefusesAlone cb ctx num len := by
  intro same
  rw [RefusesAlone, readAsyncEntry_active p active] at same
  have status := congrArg (fun result => result.1.dev.asyncStatus) same
  exact active status.symm

theorem refused_start_not_alone_running : ¬ running.RefusesAlone () () 0 0 :=
  refused_start_not_alone running (by decide) () () 0 0

/-! ## The first reader -/

/-- The stream loses its status, and nothing else. -/
theorem stream_of_failed (p : AsyncDev κ γ) (pc : ReadAsyncPc) :
    p.failed.1.stream pc = { p.stream pc with asyncStatus := .inactive } := rfl

/-- **The first reader frees its transfers in flight** when it comes to the loop test after the
refusal. -/
theorem refused_start_frees_in_flight (p : AsyncDev κ γ) (answer : UsbAnswer) {k : ℕ}
    (young : k < p.xferBufNum) (allocated : p.xfer.isSome = true)
    (flies : ((p.stream .loopTest).xfer k).inFlight = true) :
    ∃ s, (p.failed.1.stream .loopTest).readAsyncStep answer = some s ∧ ¬ s.FreesQuiescent := by
  refine ⟨{ p.failed.1.stream .loopTest with reader := .free }, rfl, fun quiescent => ?_⟩
  have landed := quiescent rfl allocated k young
  exact absurd (flies.symm.trans landed) (by simp)

end AsyncDev

end MsiSdrDriver.Async
