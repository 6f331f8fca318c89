import Mathlib.Algebra.Ring.Int.Defs
import Mathlib.Logic.Function.Basic
import MsiSdrDriver.Driver.Device

/-!
# The stream of USB transfers

`msisdr_read_async`, which the driver thread runs for as long as the stream lives, and the
calls that other threads make meanwhile: `msisdr_stop_async`, `msisdr_start_async`,
`msisdr_cancel_async` and its waiting variant, and `msisdr_set_hard`, which pauses and resumes
round a change of the sample rate. Each is a step function on `Stream` and its own program
counter; a step makes one access to `async_status` or to a transfer.

Of libusb this is assumed. A submitted transfer is in flight until its callback runs; its
status is written when it completes and stays as it is when it is submitted again; a transfer
in flight cannot be submitted; cancelling one that is in flight makes no difference but that it
may then complete as `CANCELLED`. Callbacks run one at a time, inside
`libusb_handle_events_timeout` of some thread, which returns only after its callback has.
-/

set_option autoImplicit false

namespace MsiSdrDriver.Async

open MsiSdrDriver.Driver

/-! ## Transfers -/

/-- `libusb_transfer_status`. -/
inductive XferStatus where
  | completed
  | error
  | timedOut
  | cancelled
  | stall
  | noDevice
  | overflow
  deriving DecidableEq

/-- A transfer: the status that its last completion recorded, whether it is in flight, and
whether it has been cancelled since it was submitted. -/
structure Xfer where
  status : XferStatus
  inFlight : Bool
  cancelRequested : Bool
  deriving DecidableEq

/-- `libusb_alloc_transfer`, which clears the structure. -/
def Xfer.alloc : Xfer := ⟨.completed, false, false⟩

/-- What `libusb_handle_events_timeout` returns. -/
inductive EventsResult where
  | success
  | interrupted
  | error
  deriving DecidableEq

/-- The environment's answers in a step: whether a USB call succeeds, and what handling events
returns. A step that makes no such call does not look at them. -/
structure UsbAnswer where
  success : Bool
  events : EventsResult
  deriving DecidableEq

/-! ## Program counters -/

/-- The threads: the one in `msisdr_read_async`, and the callers. -/
inductive Thread where
  | reader
  | caller (i : ℕ)
  deriving DecidableEq

/-- Where the running `_libusb_callback` is, and in which thread. -/
inductive CallbackPc where
  | idle
  /-- before the transfer is submitted again -/
  | resubmit (thread : Thread) (k : ℕ)
  /-- at `failed`, before `RUNNING` is tested -/
  | failedTest (thread : Thread) (k : ℕ)
  /-- before `FAILED` is stored -/
  | failedStore (thread : Thread) (k : ℕ)
  deriving DecidableEq

/-- The thread that runs the callback. -/
def CallbackPc.thread? : CallbackPc → Option Thread
  | .idle => none
  | .resubmit thread _ | .failedTest thread _ | .failedStore thread _ => some thread

/-- Where the driver thread is inside `msisdr_read_async`. -/
inductive ReadAsyncPc where
  /-- the test for `INACTIVE` -/
  | called
  /-- `retry_transfer`, before the alternate setting is chosen -/
  | altSetting
  /-- before `msisdr_async_alloc` -/
  | alloc
  /-- the first submission of transfer `i` -/
  | submit (i : ℕ)
  /-- the submission of transfer `i` failed; transfer `j` is cancelled -/
  | isocCancel (i j : ℕ)
  | isocEvents
  /-- before the `msisdr_async_free` of the fallback to `BULK` -/
  | isocFree
  | storeRunning
  /-- the loop test -/
  | loopTest
  | events
  /-- the test for `CANCELING` -/
  | cancelingTest
  /-- before `INACTIVE` is stored because there are no transfers -/
  | storeInactiveEmpty
  /-- the status of transfer `i` is read -/
  | scan (i : ℕ) (semafor : Bool)
  /-- transfer `i` is cancelled -/
  | scanCancel (i : ℕ)
  /-- before `INACTIVE` is stored after the scan -/
  | storeInactive
  | lastEvents
  /-- before the `msisdr_async_free` of the normal end -/
  | free
  /-- the test for `FAILED` -/
  | failedTest
  /-- `failed_free`, before `CANCELING` is stored -/
  | failedFree
  | failedCancel (j : ℕ)
  /-- the status of transfer `j` is read in the drain loop -/
  | drainScan (tries j : ℕ)
  | drainEvents (tries : ℕ)
  /-- before the `msisdr_async_free` of `failed_free` -/
  | freeFailed
  /-- `failed`, before `INACTIVE` is stored -/
  | failed
  | returned (result : ℤ)
  deriving DecidableEq

/-- Where a caller is inside `msisdr_stop_async`. -/
inductive StopAsyncPc where
  | called
  | loopTest
  | scan (i : ℕ) (semafor : Bool)
  | scanCancel (i : ℕ)
  | events
  /-- the test after the loop -/
  | lastTest
  /-- before `PAUSED` is stored -/
  | storePaused
  | returned (result : ℤ)
  deriving DecidableEq

/-- Where a caller is inside `msisdr_start_async`. -/
inductive StartAsyncPc where
  | called
  | submit (i : ℕ)
  /-- the test after the loop -/
  | lastTest
  /-- before `RUNNING` is stored -/
  | storeRunning
  | returned (result : ℤ)
  deriving DecidableEq

/-- Where a caller is inside `msisdr_cancel_async`. -/
inductive CancelAsyncPc where
  | called
  /-- before `CANCELING` is stored -/
  | store
  | returned (result : ℤ)
  deriving DecidableEq

/-- Where a caller is inside `msisdr_cancel_async_now`. -/
inductive CancelAsyncNowPc where
  | called
  /-- before `CANCELING` is stored -/
  | store
  /-- the test of the waiting loop -/
  | waiting
  /-- the wait has timed out, before `FAILED` is stored -/
  | storeFailed
  | returned (result : ℤ)
  deriving DecidableEq

/-- What a caller does. The flag of a stop or a start tells whether `msisdr_set_hard` calls
it. -/
inductive CallerPc where
  | idle
  | stop (hard : Bool) (pc : StopAsyncPc)
  | start (hard : Bool) (pc : StartAsyncPc)
  | cancel (pc : CancelAsyncPc)
  | cancelNow (pc : CancelAsyncNowPc)
  /-- `msisdr_set_hard`, before the test for `RUNNING` -/
  | hardTest
  /-- before `msisdr_adc_stop` -/
  | hardAdcStop
  /-- before the registers are written -/
  | hardWrite (streaming : Bool)
  | hardReturned (result : ℤ)
  deriving DecidableEq

/-- The functions that a caller can call; `msisdr_set_sample_rate` is a call of `setHard`. -/
inductive Call where
  | stop
  | start
  | cancel
  | cancelNow
  | setHard
  deriving DecidableEq

/-! ## The device -/

/-- `msisdr_dev_t` as the stream uses it, with the threads on it. `allocated` tells whether
`xfer` is not `NULL`. The last two fields are history: how often the last `msisdr_start_async`
has submitted each transfer, and whether `msisdr_stop_async`, called for itself, has paused the
stream and nothing has resumed it since. -/
structure Stream where
  asyncStatus : AsyncStatus
  transfer : Transfer
  xferBufNum : ℕ
  allocated : Bool
  xfer : ℕ → Xfer
  callback : CallbackPc
  reader : ReadAsyncPc
  callers : ℕ → CallerPc
  submitted : ℕ → ℕ
  paused : Bool

namespace Stream

/-- Whether `libusb_submit_transfer` succeeds. -/
def submits (s : Stream) (k : ℕ) (success : Bool) : Bool := !(s.xfer k).inFlight && success

/-- `libusb_submit_transfer`. It fails with `BUSY` on a transfer in flight. -/
def submitXfer (s : Stream) (k : ℕ) (success : Bool) : Stream :=
  { s with
    xfer := Function.update s.xfer k
      (if s.submits k success then { s.xfer k with inFlight := true, cancelRequested := false }
      else s.xfer k) }

/-- `libusb_cancel_transfer`. It finds nothing to cancel unless the transfer is in flight. -/
def cancelXfer (s : Stream) (k : ℕ) : Stream :=
  { s with
    xfer := Function.update s.xfer k
      (if (s.xfer k).inFlight then { s.xfer k with cancelRequested := true } else s.xfer k) }

/-- A thread can leave `libusb_handle_events_timeout` when it runs no callback. -/
def mayReturn (s : Stream) (thread : Thread) : Bool := s.callback.thread? ≠ some thread

/-- Whether a thread is inside `libusb_handle_events_timeout`. -/
def handlesEvents (s : Stream) : Thread → Bool
  | .reader =>
      match s.reader with
      | .isocEvents | .events | .lastEvents | .drainEvents _ => true
      | _ => false
  | .caller i =>
      match s.callers i with
      | .stop _ .events => true
      | _ => false

/-- A transfer completes, and `_libusb_callback` begins in the thread. -/
def complete (s : Stream) (thread : Thread) (k : ℕ) (status : XferStatus) : Option Stream :=
  if s.handlesEvents thread ∧ s.callback = .idle ∧ s.allocated ∧ k < s.xferBufNum ∧
      (s.xfer k).inFlight ∧ (status = .cancelled → (s.xfer k).cancelRequested) then
    let s := { s with
      xfer := Function.update s.xfer k { s.xfer k with status := status, inFlight := false } }
    match status with
    | .cancelled => some s
    | .noDevice => some { s with callback := .failedTest thread k }
    | .completed | .error | .timedOut | .stall | .overflow =>
        some { s with callback := .resubmit thread k }
  else none

/-- One step of the running callback. -/
def callbackStep (s : Stream) (answer : UsbAnswer) : Option Stream :=
  match s.callback with
  | .idle => none
  | .resubmit thread k =>
      if s.submits k answer.success then
        some { s.submitXfer k answer.success with callback := .idle }
      else some { s.submitXfer k answer.success with callback := .failedTest thread k }
  | .failedTest thread k =>
      if s.asyncStatus = .running then some { s with callback := .failedStore thread k }
      else some { s with callback := .idle }
  | .failedStore _ _ => some { s with asyncStatus := .failed, callback := .idle }

/-- `msisdr_async_free`. -/
def asyncFree (s : Stream) : Stream := { s with allocated := false }

/-- A status with which the drain loop counts a transfer as done. -/
def drained : XferStatus → Bool
  | .cancelled | .noDevice | .completed | .error => true
  | .timedOut | .stall | .overflow => false

/-- One step of `msisdr_read_async`. -/
def readAsyncStep (s : Stream) (answer : UsbAnswer) : Option Stream :=
  match s.reader with
  | .called =>
      if s.asyncStatus ≠ .inactive then some { s with reader := .failed }
      else some { s with reader := .altSetting }
  | .altSetting =>
      match s.transfer with
      | .bulk => some { s with reader := .alloc }
      | .isoc =>
          if answer.success then some { s with reader := .alloc }
          else some { s with transfer := .bulk, reader := .altSetting }
  | .alloc =>
      if s.allocated then some { s with reader := .submit 0 }
      else some { s with allocated := true, xfer := fun _ => .alloc, reader := .submit 0 }
  | .submit i =>
      if i < s.xferBufNum then
        if s.submits i answer.success then
          some { s.submitXfer i answer.success with reader := .submit (i + 1) }
        else
          match s.transfer with
          | .isoc => some { s.submitXfer i answer.success with reader := .isocCancel i 0 }
          | .bulk => some { s.submitXfer i answer.success with reader := .failedFree }
      else some { s with reader := .storeRunning }
  | .isocCancel i j =>
      if j < i then some { s.cancelXfer j with reader := .isocCancel i (j + 1) }
      else if 0 < i then some { s with reader := .isocEvents }
      else some { s with reader := .isocFree }
  | .isocEvents => if s.mayReturn .reader then some { s with reader := .isocFree } else none
  | .isocFree => some { s.asyncFree with transfer := .bulk, reader := .altSetting }
  | .storeRunning =>
      some { s with asyncStatus := .running, reader := .loopTest }
  | .loopTest =>
      if s.asyncStatus ≠ .inactive then some { s with reader := .events }
      else some { s with reader := .free }
  | .events =>
      if s.mayReturn .reader then
        match answer.events with
        | .success => some { s with reader := .cancelingTest }
        | .interrupted => some { s with reader := .loopTest }
        | .error => some { s with reader := .failedFree }
      else none
  | .cancelingTest =>
      if s.asyncStatus = .canceling then
        if s.allocated then some { s with reader := .scan 0 true }
        else some { s with reader := .storeInactiveEmpty }
      else some { s with reader := .failedTest }
  | .storeInactiveEmpty => some { s with asyncStatus := .inactive, reader := .free }
  | .scan i semafor =>
      if i < s.xferBufNum then
        if (s.xfer i).status ≠ .cancelled then some { s with reader := .scanCancel i }
        else some { s with reader := .scan (i + 1) semafor }
      else if semafor then some { s with reader := .storeInactive }
      else some { s with reader := .loopTest }
  | .scanCancel i => some { s.cancelXfer i with reader := .scan (i + 1) false }
  | .storeInactive => some { s with asyncStatus := .inactive, reader := .lastEvents }
  | .lastEvents => if s.mayReturn .reader then some { s with reader := .free } else none
  | .free => some { s.asyncFree with reader := .returned 0 }
  | .failedTest =>
      if s.asyncStatus = .failed then some { s with reader := .failedFree }
      else some { s with reader := .loopTest }
  | .failedFree =>
      if s.allocated then some { s with asyncStatus := .canceling, reader := .failedCancel 0 }
      else some { s with asyncStatus := .canceling, reader := .freeFailed }
  | .failedCancel j =>
      if j < s.xferBufNum then some { s.cancelXfer j with reader := .failedCancel (j + 1) }
      else some { s with reader := .drainScan 0 0 }
  | .drainScan tries j =>
      if j < s.xferBufNum then
        if drained (s.xfer j).status then some { s with reader := .drainScan tries (j + 1) }
        else some { s with reader := .drainEvents tries }
      else some { s with reader := .freeFailed }
  | .drainEvents tries =>
      if s.mayReturn .reader then
        if tries + 1 < 20 then some { s with reader := .drainScan (tries + 1) 0 }
        else some { s with reader := .freeFailed }
      else none
  | .freeFailed => some { s.asyncFree with reader := .failed }
  | .failed => some { s with asyncStatus := .inactive, reader := .returned (-1) }
  | .returned _ => none

/-- One step of `msisdr_stop_async` in the thread. A caller that looks at transfers which
have been freed has no step. -/
def stopAsyncStep (s : Stream) (thread : Thread) (answer : UsbAnswer) :
    StopAsyncPc → Option (Stream × StopAsyncPc)
  | .called =>
      if s.asyncStatus ≠ .running then some (s, .returned (-1)) else some (s, .loopTest)
  | .loopTest =>
      if s.asyncStatus = .running then some (s, .scan 0 true) else some (s, .lastTest)
  | .scan i semafor =>
      if i < s.xferBufNum then
        if ¬ s.allocated then none
        else if (s.xfer i).status ≠ .cancelled then some (s, .scanCancel i)
        else some (s, .scan (i + 1) semafor)
      else if semafor then some (s, .lastTest)
      else some (s, .events)
  | .scanCancel i =>
      if ¬ s.allocated then none else some (s.cancelXfer i, .scan (i + 1) false)
  | .events =>
      if s.mayReturn thread then
        match answer.events with
        | .success | .interrupted => some (s, .loopTest)
        | .error => some (s, .returned (-1))
      else none
  | .lastTest =>
      if s.asyncStatus ≠ .running then some (s, .returned (-1)) else some (s, .storePaused)
  | .storePaused => some ({ s with asyncStatus := .paused }, .returned 0)
  | .returned _ => none

/-- One step of `msisdr_start_async`. -/
def startAsyncStep (s : Stream) (answer : UsbAnswer) :
    StartAsyncPc → Option (Stream × StartAsyncPc)
  | .called =>
      if s.asyncStatus ≠ .paused then some (s, .returned (-1))
      else some ({ s with submitted := fun _ => 0 }, .submit 0)
  | .submit i =>
      if i < s.xferBufNum then
        if ¬ s.allocated then none
        else if s.submits i answer.success then
          some ({ s.submitXfer i answer.success with
            submitted := Function.update s.submitted i (s.submitted i + 1) }, .submit (i + 1))
        else some (s.submitXfer i answer.success, .returned (-1))
      else some (s, .lastTest)
  | .lastTest =>
      if s.asyncStatus ≠ .paused then some (s, .returned (-1)) else some (s, .storeRunning)
  | .storeRunning => some ({ s with asyncStatus := .running, paused := false }, .returned 0)
  | .returned _ => none

/-- One step of `msisdr_cancel_async`. -/
def cancelAsyncStep (s : Stream) : CancelAsyncPc → Option (Stream × CancelAsyncPc)
  | .called =>
      match s.asyncStatus with
      | .inactive | .canceling => some (s, .returned (-2))
      | .running | .paused => some (s, .store)
      | .failed => some (s, .returned (-1))
  | .store => some ({ s with asyncStatus := .canceling }, .returned 0)
  | .returned _ => none

/-- One step of `msisdr_cancel_async_now`; `success` is that the wait has not timed out. -/
def cancelAsyncNowStep (s : Stream) (answer : UsbAnswer) :
    CancelAsyncNowPc → Option (Stream × CancelAsyncNowPc)
  | .called =>
      match s.asyncStatus with
      | .inactive => some (s, .returned 0)
      | .canceling => some (s, .waiting)
      | .running | .paused => some (s, .store)
      | .failed => some (s, .returned (-1))
  | .store => some ({ s with asyncStatus := .canceling }, .waiting)
  | .waiting =>
      if s.asyncStatus ≠ .inactive ∧ s.asyncStatus ≠ .failed then
        if answer.success then some (s, .waiting) else some (s, .storeFailed)
      else some (s, .returned 0)
  | .storeFailed => some ({ s with asyncStatus := .failed }, .returned 0)
  | .returned _ => none

/-- One step of `msisdr_set_hard` between the calls it makes. Its register writes do not touch
the stream, and of its USB calls only `msisdr_adc_stop` decides anything. -/
def setHardStep (s : Stream) (answer : UsbAnswer) : CallerPc → Option (Stream × CallerPc)
  | .hardTest =>
      if s.asyncStatus = .running then some (s, .stop true .called)
      else some (s, .hardWrite false)
  | .stop true (.returned result) =>
      if result < 0 then some (s, .hardReturned (-1)) else some (s, .hardAdcStop)
  | .hardAdcStop =>
      if answer.success then some (s, .hardWrite true) else some (s, .hardReturned (-1))
  | .hardWrite streaming =>
      if streaming then some (s, .start true .called) else some (s, .hardReturned 0)
  | .start true (.returned result) =>
      if result < 0 then some (s, .hardReturned (-1)) else some (s, .hardReturned 0)
  | _ => none

/-- One step of the function that caller `i` is in. -/
def calleeStep (s : Stream) (i : ℕ) (answer : UsbAnswer) : CallerPc → Option (Stream × CallerPc)
  | .stop hard pc =>
      (s.stopAsyncStep (.caller i) answer pc).map fun (s, pc') =>
        ({ s with paused := s.paused || (!hard && pc = .storePaused) }, .stop hard pc')
  | .start hard pc => (s.startAsyncStep answer pc).map fun (s, pc') => (s, .start hard pc')
  | .cancel pc => (s.cancelAsyncStep pc).map fun (s, pc') => (s, .cancel pc')
  | .cancelNow pc =>
      (s.cancelAsyncNowStep answer pc).map fun (s, pc') => (s, .cancelNow pc')
  | .idle | .hardTest | .hardAdcStop | .hardWrite _ | .hardReturned _ => none

/-- One step of caller `i`. -/
def callerStep (s : Stream) (i : ℕ) (answer : UsbAnswer) (pc : CallerPc) :
    Option (Stream × CallerPc) :=
  (s.setHardStep answer pc).or (s.calleeStep i answer pc)

/-- The beginning of a call. -/
def callPc : Call → CallerPc
  | .stop => .stop false .called
  | .start => .start false .called
  | .cancel => .cancel .called
  | .cancelNow => .cancelNow .called
  | .setHard => .hardTest

/-- A caller that is in no call. -/
def atRest : CallerPc → Bool
  | .idle | .stop false (.returned _) | .start false (.returned _) | .cancel (.returned _)
  | .cancelNow (.returned _) | .hardReturned _ => true
  | _ => false

end Stream

/-- What can happen: a completion, a step of the running callback, of `msisdr_read_async` or of
a caller, and the beginning of a call. -/
inductive UsbLabel where
  | complete (thread : Thread) (k : ℕ) (status : XferStatus)
  | callback (answer : UsbAnswer)
  | reader (answer : UsbAnswer)
  | call (i : ℕ) (function : Call)
  | caller (i : ℕ) (answer : UsbAnswer)
  deriving DecidableEq

namespace Stream

/-- One step of the stream. -/
def step (s : Stream) : UsbLabel → Option Stream
  | .complete thread k status => s.complete thread k status
  | .callback answer => s.callbackStep answer
  | .reader answer => s.readAsyncStep answer
  | .call i function =>
      if atRest (s.callers i) then
        some { s with callers := Function.update s.callers i (callPc function) }
      else none
  | .caller i answer =>
      (s.callerStep i answer (s.callers i)).map fun (s', pc') =>
        { s' with callers := Function.update s'.callers i pc' }

/-- The device on which `msisdr_read_async(p, cb, ctx, num, len)` is called; `DEFAULT_BUF_NUMBER`
stands in for a `num` of zero. -/
def initial (transfer : Transfer) (num : ℕ) : Stream where
  asyncStatus := .inactive
  transfer := transfer
  xferBufNum := if num = 0 then 32 else num
  allocated := false
  xfer := fun _ => .alloc
  callback := .idle
  reader := .called
  callers := fun _ => .idle
  submitted := fun _ => 0
  paused := false

/-- The states in which a run of `msisdr_read_async` starts. -/
def Starts (s : Stream) : Prop := ∃ transfer num, s = initial transfer num

end Stream

/-! ## What the steps do -/

namespace Stream

@[simp] theorem submitXfer_status (s : Stream) (k j : ℕ) (success : Bool) :
    ((s.submitXfer k success).xfer j).status = (s.xfer j).status := by
  by_cases same : j = k
  · subst same
    simp only [submitXfer, Function.update_self]
    split <;> rfl
  · simp only [submitXfer, Function.update_of_ne same]

theorem submitXfer_of_ne (s : Stream) {k j : ℕ} (success : Bool) (other : j ≠ k) :
    (s.submitXfer k success).xfer j = s.xfer j := Function.update_of_ne other ..

theorem submitXfer_self (s : Stream) {k : ℕ} {success : Bool}
    (submits : s.submits k success = true) :
    (s.submitXfer k success).xfer k =
      { s.xfer k with inFlight := true, cancelRequested := false } := by
  simp [submitXfer, submits]

theorem submitXfer_fails (s : Stream) {k : ℕ} {success : Bool}
    (fails : s.submits k success = false) (j : ℕ) :
    (s.submitXfer k success).xfer j = s.xfer j := by
  by_cases same : j = k
  · subst same
    simp [submitXfer, fails]
  · exact submitXfer_of_ne s success same

/-- The submission of a transfer that is not in flight succeeds unless libusb fails. -/
theorem submits_of_landed (s : Stream) {k : ℕ} {success : Bool}
    (landed : (s.xfer k).inFlight = false) (fine : success = true) :
    s.submits k success = true := by
  simp [submits, landed, fine]

@[simp] theorem cancelXfer_status (s : Stream) (k j : ℕ) :
    ((s.cancelXfer k).xfer j).status = (s.xfer j).status := by
  by_cases same : j = k
  · subst same
    simp only [cancelXfer, Function.update_self]
    split <;> rfl
  · simp only [cancelXfer, Function.update_of_ne same]

@[simp] theorem cancelXfer_inFlight (s : Stream) (k j : ℕ) :
    ((s.cancelXfer k).xfer j).inFlight = (s.xfer j).inFlight := by
  by_cases same : j = k
  · subst same
    simp only [cancelXfer, Function.update_self]
    split <;> rfl
  · simp only [cancelXfer, Function.update_of_ne same]

/-- What a step of a caller leaves alone. -/
structure SameReader (s s' : Stream) : Prop where
  reader : s'.reader = s.reader
  callback : s'.callback = s.callback
  callers : s'.callers = s.callers
  allocated : s'.allocated = s.allocated
  xferBufNum : s'.xferBufNum = s.xferBufNum
  status : ∀ k, (s'.xfer k).status = (s.xfer k).status

theorem SameReader.refl (s : Stream) : SameReader s s := ⟨rfl, rfl, rfl, rfl, rfl, fun _ => rfl⟩

theorem stopAsyncStep_same {s s' : Stream} {thread : Thread} {answer : UsbAnswer}
    {pc pc' : StopAsyncPc} (moves : s.stopAsyncStep thread answer pc = some (s', pc')) :
    SameReader s s' ∧ ∀ k, (s'.xfer k).inFlight = (s.xfer k).inFlight := by
  have same : SameReader s s ∧ ∀ k, (s.xfer k).inFlight = (s.xfer k).inFlight :=
    ⟨.refl s, fun _ => rfl⟩
  cases pc with
  | called | loopTest | lastTest =>
      simp only [stopAsyncStep] at moves
      split at moves <;> cases moves <;> exact same
  | scan i semafor =>
      simp only [stopAsyncStep] at moves
      repeat' split at moves
      all_goals cases moves
      all_goals exact same
  | scanCancel i =>
      simp only [stopAsyncStep] at moves
      split at moves <;> cases moves
      exact ⟨⟨rfl, rfl, rfl, rfl, rfl, fun k => by simp⟩, fun k => by simp⟩
  | events =>
      simp only [stopAsyncStep] at moves
      split at moves
      · split at moves <;> cases moves
        · exact same
        · exact same
        · exact ⟨⟨rfl, rfl, rfl, rfl, rfl, fun _ => rfl⟩, fun _ => rfl⟩
      · cases moves
  | storePaused =>
      cases moves
      exact ⟨⟨rfl, rfl, rfl, rfl, rfl, fun _ => rfl⟩, fun _ => rfl⟩
  | returned result => cases moves

/-- A transfer that a start has put in flight is the one it was about to submit. -/
theorem startAsyncStep_same {s s' : Stream} {answer : UsbAnswer} {pc pc' : StartAsyncPc}
    (moves : s.startAsyncStep answer pc = some (s', pc')) :
    SameReader s s' ∧ ∀ k, (s'.xfer k).inFlight = true → (s.xfer k).inFlight = true ∨
      (pc = .submit k ∧ answer.success = true) := by
  have same : SameReader s s ∧ ∀ k, (s.xfer k).inFlight = true →
      (s.xfer k).inFlight = true ∨ (pc = .submit k ∧ answer.success = true) :=
    ⟨.refl s, fun _ => .inl⟩
  cases pc with
  | called =>
      simp only [startAsyncStep] at moves
      split at moves <;> cases moves
      · exact same
      · exact ⟨⟨rfl, rfl, rfl, rfl, rfl, fun _ => rfl⟩, fun _ => .inl⟩
  | submit i =>
      simp only [startAsyncStep] at moves
      split at moves
      · split at moves
        · cases moves
        · split at moves <;> cases moves
          · next submits =>
              refine ⟨⟨rfl, rfl, rfl, rfl, rfl, fun k => submitXfer_status s i k _⟩,
                fun k flies => ?_⟩
              by_cases this : k = i
              · subst this
                exact .inr ⟨rfl, (Bool.and_eq_true_iff.mp submits).2⟩
              · exact .inl (by rwa [submitXfer_of_ne s _ this] at flies)
          · next fails =>
              refine ⟨⟨rfl, rfl, rfl, rfl, rfl, fun k => submitXfer_status s i k _⟩,
                fun k flies => ?_⟩
              exact .inl (by rwa [submitXfer_fails s (by simpa using fails)] at flies)
      · cases moves
        exact same
  | lastTest =>
      simp only [startAsyncStep] at moves
      split at moves <;> cases moves <;> exact same
  | storeRunning =>
      cases moves
      exact ⟨⟨rfl, rfl, rfl, rfl, rfl, fun _ => rfl⟩, fun _ => .inl⟩
  | returned result => cases moves

theorem cancelAsyncStep_same {s s' : Stream} {pc pc' : CancelAsyncPc}
    (moves : s.cancelAsyncStep pc = some (s', pc')) : SameReader s s' ∧ s'.xfer = s.xfer := by
  cases pc with
  | called =>
      simp only [cancelAsyncStep] at moves
      split at moves <;> cases moves <;> exact ⟨.refl s, rfl⟩
  | store =>
      cases moves
      exact ⟨⟨rfl, rfl, rfl, rfl, rfl, fun _ => rfl⟩, rfl⟩
  | returned result => cases moves

theorem cancelAsyncNowStep_same {s s' : Stream} {answer : UsbAnswer} {pc pc' : CancelAsyncNowPc}
    (moves : s.cancelAsyncNowStep answer pc = some (s', pc')) :
    SameReader s s' ∧ s'.xfer = s.xfer := by
  cases pc with
  | called =>
      simp only [cancelAsyncNowStep] at moves
      split at moves <;> cases moves <;> exact ⟨.refl s, rfl⟩
  | waiting =>
      simp only [cancelAsyncNowStep] at moves
      split at moves
      · split at moves <;> cases moves <;> exact ⟨.refl s, rfl⟩
      · cases moves
        exact ⟨.refl s, rfl⟩
  | store | storeFailed =>
      cases moves
      exact ⟨⟨rfl, rfl, rfl, rfl, rfl, fun _ => rfl⟩, rfl⟩
  | returned result => cases moves

theorem setHardStep_same {s s' : Stream} {answer : UsbAnswer} {pc pc' : CallerPc}
    (moves : s.setHardStep answer pc = some (s', pc')) : SameReader s s' ∧ s'.xfer = s.xfer := by
  unfold setHardStep at moves
  split at moves
  · split at moves <;> cases moves <;> exact ⟨.refl s, rfl⟩
  · split at moves <;> cases moves <;> exact ⟨.refl s, rfl⟩
  · split at moves <;> cases moves
    · exact ⟨.refl s, rfl⟩
    · exact ⟨⟨rfl, rfl, rfl, rfl, rfl, fun _ => rfl⟩, rfl⟩
  · split at moves <;> cases moves <;> exact ⟨.refl s, rfl⟩
  · split at moves <;> cases moves <;> exact ⟨.refl s, rfl⟩
  · cases moves

/-- A step of a caller, taken apart by the function that makes it. -/
theorem callerStep_cases {s s' : Stream} {i : ℕ} {answer : UsbAnswer} {pc pc' : CallerPc}
    (moves : s.callerStep i answer pc = some (s', pc')) :
    s.setHardStep answer pc = some (s', pc') ∨
      (∃ hard stop stop' next, pc = .stop hard stop ∧ pc' = .stop hard stop' ∧
        s.stopAsyncStep (.caller i) answer stop = some (next, stop') ∧
        s' = { next with paused := next.paused || (!hard && stop = .storePaused) }) ∨
      (∃ hard start start', pc = .start hard start ∧ pc' = .start hard start' ∧
        s.startAsyncStep answer start = some (s', start')) ∨
      (∃ cancel cancel', pc = .cancel cancel ∧ pc' = .cancel cancel' ∧
        s.cancelAsyncStep cancel = some (s', cancel')) ∨
      ∃ cancel cancel', pc = .cancelNow cancel ∧ pc' = .cancelNow cancel' ∧
        s.cancelAsyncNowStep answer cancel = some (s', cancel') := by
  rcases Option.or_eq_some_iff.mp moves with hard | ⟨-, callee⟩
  · exact .inl hard
  · cases pc with
    | idle | hardTest | hardAdcStop | hardWrite streaming | hardReturned result => cases callee
    | stop hard stop =>
        simp only [calleeStep, Option.map_eq_some_iff, Prod.exists, Prod.mk.injEq] at callee
        obtain ⟨next, stop', stepped, rfl, rfl⟩ := callee
        exact .inr (.inl ⟨hard, stop, stop', next, rfl, rfl, stepped, rfl⟩)
    | start hard start =>
        simp only [calleeStep, Option.map_eq_some_iff, Prod.exists, Prod.mk.injEq] at callee
        obtain ⟨_, start', stepped, rfl, rfl⟩ := callee
        exact .inr (.inr (.inl ⟨hard, start, start', rfl, rfl, stepped⟩))
    | cancel cancel =>
        simp only [calleeStep, Option.map_eq_some_iff, Prod.exists, Prod.mk.injEq] at callee
        obtain ⟨_, cancel', stepped, rfl, rfl⟩ := callee
        exact .inr (.inr (.inr (.inl ⟨cancel, cancel', rfl, rfl, stepped⟩)))
    | cancelNow cancel =>
        simp only [calleeStep, Option.map_eq_some_iff, Prod.exists, Prod.mk.injEq] at callee
        obtain ⟨_, cancel', stepped, rfl, rfl⟩ := callee
        exact .inr (.inr (.inr (.inr ⟨cancel, cancel', rfl, rfl, stepped⟩)))

/-- **What a step of a caller can do to the transfers**: only a start puts one in flight. -/
theorem callerStep_same {s s' : Stream} {i : ℕ} {answer : UsbAnswer} {pc pc' : CallerPc}
    (moves : s.callerStep i answer pc = some (s', pc')) :
    SameReader s s' ∧ ∀ k, (s'.xfer k).inFlight = true → (s.xfer k).inFlight = true ∨
      ∃ hard, pc = .start hard (.submit k) ∧ answer.success = true := by
  rcases callerStep_cases moves with hard | ⟨_, _, _, _, rfl, rfl, stepped, rfl⟩ |
    ⟨hard, _, _, rfl, rfl, stepped⟩ | ⟨_, _, rfl, rfl, stepped⟩ | ⟨_, _, rfl, rfl, stepped⟩
  · obtain ⟨same, xfer⟩ := setHardStep_same hard
    exact ⟨same, fun k flies => .inl (xfer ▸ flies)⟩
  · obtain ⟨same, flight⟩ := stopAsyncStep_same stepped
    exact ⟨⟨same.reader, same.callback, same.callers, same.allocated, same.xferBufNum,
      same.status⟩, fun k flies => .inl (flight k ▸ flies)⟩
  · obtain ⟨same, flight⟩ := startAsyncStep_same stepped
    exact ⟨same, fun k flies => (flight k flies).imp_right fun submits =>
      ⟨hard, by rw [submits.1], submits.2⟩⟩
  · obtain ⟨same, xfer⟩ := cancelAsyncStep_same stepped
    exact ⟨same, fun k flies => .inl (xfer ▸ flies)⟩
  · obtain ⟨same, xfer⟩ := cancelAsyncNowStep_same stepped
    exact ⟨same, fun k flies => .inl (xfer ▸ flies)⟩

/-! ## What the steps of a run do -/

/-- The other threads leave `msisdr_read_async` and the transfers where they are. -/
theorem step_others {s s' : Stream} {label : UsbLabel} (moves : s.step label = some s') :
    (s'.reader = s.reader ∧ s'.allocated = s.allocated) ∨ ∃ answer, label = .reader answer := by
  cases label with
  | complete thread k status =>
      simp only [step, complete] at moves
      split at moves
      · cases status <;> cases moves <;> exact .inl ⟨rfl, rfl⟩
      · cases moves
  | callback answer =>
      simp only [step, callbackStep] at moves
      repeat' split at moves
      all_goals cases moves
      all_goals exact .inl ⟨rfl, rfl⟩
  | reader answer => exact .inr ⟨answer, rfl⟩
  | call i function =>
      simp only [step] at moves
      split at moves <;> cases moves
      exact .inl ⟨rfl, rfl⟩
  | caller i answer =>
      simp only [step, Option.map_eq_some_iff, Prod.exists] at moves
      obtain ⟨next, pc', stepped, rfl⟩ := moves
      have same := (callerStep_same stepped).1
      exact .inl ⟨same.reader, same.allocated⟩

/-- Only the driver thread moves in `msisdr_read_async`. -/
theorem step_reader {s s' : Stream} {label : UsbLabel} (moves : s.step label = some s') :
    s'.reader = s.reader ∨ ∃ answer, label = .reader answer :=
  (step_others moves).imp_left And.left

/-- Only the driver thread allocates and frees the transfers. -/
theorem step_allocated {s s' : Stream} {label : UsbLabel} (moves : s.step label = some s') :
    s'.allocated = s.allocated ∨ ∃ answer, label = .reader answer :=
  (step_others moves).imp_left And.right

/-- What every step of `msisdr_read_async` leaves alone. -/
theorem readAsyncStep_same {s s' : Stream} {answer : UsbAnswer}
    (moves : s.readAsyncStep answer = some s') :
    s'.callback = s.callback ∧ s'.callers = s.callers ∧ s'.paused = s.paused ∧
      ∀ k, (s'.xfer k).status = (s.xfer k).status ∨ (s'.xfer k).status = .completed := by
  cases place : s.reader with
  | alloc =>
      simp only [readAsyncStep, place] at moves
      split at moves <;> cases moves
      · exact ⟨rfl, rfl, rfl, fun _ => .inl rfl⟩
      · exact ⟨rfl, rfl, rfl, fun _ => .inr rfl⟩
  | _ =>
      simp only [readAsyncStep, place] at moves
      repeat' split at moves
      all_goals cases moves
      all_goals exact ⟨rfl, rfl, rfl, fun k => .inl (by simp [asyncFree])⟩

/-- A step changes what a caller does only if the caller moves, or calls. -/
theorem step_callers {s s' : Stream} {label : UsbLabel} {i : ℕ} (moves : s.step label = some s')
    (moved : s'.callers i ≠ s.callers i) :
    (∃ function, label = .call i function ∧ s'.callers i = callPc function) ∨
      ∃ answer next, label = .caller i answer ∧
        s.callerStep i answer (s.callers i) = some (next, s'.callers i) ∧
        s' = { next with callers := s'.callers } := by
  cases label with
  | complete thread k status =>
      simp only [Stream.step, Stream.complete] at moves
      split at moves
      · cases status <;> cases moves <;> exact absurd rfl moved
      · cases moves
  | callback answer =>
      simp only [Stream.step, Stream.callbackStep] at moves
      repeat' split at moves
      all_goals cases moves
      all_goals exact absurd rfl moved
  | reader answer => exact absurd (congrFun (readAsyncStep_same moves).2.1 i) moved
  | call j function =>
      simp only [Stream.step] at moves
      split at moves <;> cases moves
      by_cases mine : i = j
      · subst mine
        exact .inl ⟨function, rfl, by simp⟩
      · simp [mine] at moved
  | caller j answer =>
      simp only [Stream.step, Option.map_eq_some_iff, Prod.exists] at moves
      obtain ⟨next, pc', stepped, rfl⟩ := moves
      have same := (callerStep_same stepped).1.callers
      by_cases mine : i = j
      · subst mine
        exact .inr ⟨answer, next, rfl, by simpa using stepped, rfl⟩
      · simp [mine, same] at moved

/-- Only caller 0 calls. -/
def FirstCaller (_ : Stream) : UsbLabel → Prop
  | .call i _ => i = 0
  | _ => True

instance : DecidableRel FirstCaller := fun _ label =>
  match label with
  | .call i _ => inferInstanceAs (Decidable (i = 0))
  | .complete _ _ _ | .callback _ | .reader _ | .caller _ _ => inferInstanceAs (Decidable True)

/-- A caller that does not call stays idle. -/
theorem FirstCaller.idle {s s' : Stream} {label : UsbLabel} {j : ℕ}
    (first : FirstCaller s label) (idle : s.callers j = .idle) (other : j ≠ 0)
    (moves : s.step label = some s') : s'.callers j = .idle := by
  by_contra moved
  rcases step_callers moves (by rwa [idle]) with ⟨function, rfl, -⟩ | ⟨_, _, -, stepped, -⟩
  · exact other first
  · rw [idle] at stepped
    cases stepped

/-! ## Who stores what -/

/-- What a caller stores in `async_status` in its next step. -/
def callerStores : CallerPc → Option AsyncStatus
  | .stop _ .storePaused => some .paused
  | .start _ .storeRunning => some .running
  | .cancel .store | .cancelNow .store => some .canceling
  | .cancelNow .storeFailed => some .failed
  | _ => none

/-- What `msisdr_read_async` stores in its next step. -/
def readerStores : ReadAsyncPc → Option AsyncStatus
  | .storeRunning => some .running
  | .storeInactiveEmpty | .storeInactive | .failed => some .inactive
  | .failedFree => some .canceling
  | _ => none

/-- What the running callback stores in its next step. -/
def callbackStores : CallbackPc → Option AsyncStatus
  | .failedStore _ _ => some .failed
  | _ => none

/-- What a step stores in `async_status`. -/
def stores (s : Stream) : UsbLabel → Option AsyncStatus
  | .complete _ _ _ | .call _ _ => none
  | .callback _ => callbackStores s.callback
  | .reader _ => readerStores s.reader
  | .caller i _ => callerStores (s.callers i)

theorem callerStep_asyncStatus {s s' : Stream} {i : ℕ} {answer : UsbAnswer} {pc pc' : CallerPc}
    (moves : s.callerStep i answer pc = some (s', pc')) :
    s'.asyncStatus = (callerStores pc).getD s.asyncStatus := by
  rcases callerStep_cases moves with hard | ⟨_, stop, _, _, rfl, rfl, stepped, rfl⟩ |
    ⟨_, start, _, rfl, rfl, stepped⟩ | ⟨cancel, _, rfl, rfl, stepped⟩ |
    ⟨cancel, _, rfl, rfl, stepped⟩
  · unfold setHardStep at hard
    repeat' split at hard
    all_goals cases hard
    all_goals rfl
  · unfold stopAsyncStep at stepped
    repeat' split at stepped
    all_goals cases stepped
    all_goals rfl
  · unfold startAsyncStep at stepped
    repeat' split at stepped
    all_goals cases stepped
    all_goals rfl
  · unfold cancelAsyncStep at stepped
    repeat' split at stepped
    all_goals cases stepped
    all_goals rfl
  · unfold cancelAsyncNowStep at stepped
    repeat' split at stepped
    all_goals cases stepped
    all_goals rfl

/-- **What a step does to `async_status`**: whatever it was, it is what the step stores. -/
theorem step_asyncStatus {s s' : Stream} {label : UsbLabel} (moves : s.step label = some s') :
    s'.asyncStatus = (s.stores label).getD s.asyncStatus := by
  cases label with
  | complete thread k status =>
      simp only [step, complete] at moves
      split at moves
      · cases status <;> cases moves <;> rfl
      · cases moves
  | callback answer =>
      simp only [step, callbackStep] at moves
      split at moves
      · cases moves
      · split at moves <;> cases moves <;> simp [stores, callbackStores, submitXfer, *]
      · split at moves <;> cases moves <;> simp [stores, callbackStores, *]
      · cases moves
        simp [stores, callbackStores, *]
  | reader answer =>
      simp only [step] at moves
      cases place : s.reader with
      | _ =>
          simp only [readAsyncStep, place] at moves
          repeat' split at moves
          all_goals cases moves
          all_goals simp only [stores, readerStores, place]
          all_goals rfl
  | call i function =>
      simp only [step] at moves
      split at moves <;> cases moves
      rfl
  | caller i answer =>
      simp only [step, Option.map_eq_some_iff, Prod.exists] at moves
      obtain ⟨next, pc', stepped, rfl⟩ := moves
      have stored := callerStep_asyncStatus stepped
      exact stored

theorem step_stores {s s' : Stream} {label : UsbLabel} (moves : s.step label = some s') :
    s'.asyncStatus = s.asyncStatus ∨ s.stores label = some s'.asyncStatus := by
  rw [step_asyncStatus moves]
  cases stored : s.stores label with
  | none => exact .inl rfl
  | some status => exact .inr rfl

/-- Nobody but `msisdr_read_async` stores `INACTIVE`. -/
theorem step_inactive {s s' : Stream} {label : UsbLabel} (moves : s.step label = some s')
    (inactive : s'.asyncStatus = .inactive) :
    s.asyncStatus = .inactive ∨
      ∃ answer, label = .reader answer ∧ readerStores s.reader = some .inactive := by
  rcases step_stores moves with same | stored
  · exact .inl (same ▸ inactive)
  rw [inactive] at stored
  cases label with
  | complete thread k status => cases stored
  | call i function => cases stored
  | reader answer => exact .inr ⟨answer, rfl, stored⟩
  | callback answer =>
      simp only [stores, callbackStores] at stored
      split at stored <;> cases stored
  | caller i answer =>
      simp only [stores, callerStores] at stored
      split at stored <;> cases stored

/-- **Who stores `RUNNING`**: `msisdr_read_async` once, and `msisdr_start_async`. -/
theorem step_running {s s' : Stream} {label : UsbLabel} (moves : s.step label = some s')
    (running : s'.asyncStatus = .running) :
    s.asyncStatus = .running ∨ (∃ answer, label = .reader answer ∧ s.reader = .storeRunning) ∨
      ∃ i answer hard, label = .caller i answer ∧ s.callers i = .start hard .storeRunning := by
  rcases step_stores moves with same | stored
  · exact .inl (same ▸ running)
  rw [running] at stored
  cases label with
  | complete thread k status => cases stored
  | call i function => cases stored
  | reader answer =>
      refine .inr (.inl ⟨answer, rfl, ?_⟩)
      simp only [stores, readerStores] at stored
      split at stored <;> cases stored
      assumption
  | callback answer =>
      simp only [stores, callbackStores] at stored
      split at stored <;> cases stored
  | caller i answer =>
      simp only [stores, callerStores] at stored
      split at stored <;> cases stored
      next place => exact .inr (.inr ⟨i, answer, _, rfl, place⟩)

/-- **Who stores `PAUSED`**: `msisdr_stop_async`. -/
theorem step_paused {s s' : Stream} {label : UsbLabel} (moves : s.step label = some s')
    (paused : s'.asyncStatus = .paused) :
    s.asyncStatus = .paused ∨
      ∃ i answer hard, label = .caller i answer ∧ s.callers i = .stop hard .storePaused := by
  rcases step_stores moves with same | stored
  · exact .inl (same ▸ paused)
  rw [paused] at stored
  cases label with
  | complete thread k status => cases stored
  | call i function => cases stored
  | reader answer =>
      simp only [stores, readerStores] at stored
      split at stored <;> cases stored
  | callback answer =>
      simp only [stores, callbackStores] at stored
      split at stored <;> cases stored
  | caller i answer =>
      simp only [stores, callerStores] at stored
      split at stored <;> cases stored
      next place => exact .inr ⟨i, answer, _, rfl, place⟩

end Stream

end MsiSdrDriver.Async
