import MsiSdrDriver.Driver.Setters

/-!
# The stream calls of the setters

`msisdr_stop_async`, `msisdr_start_async` and `msisdr_reset_buffer` as functions of what libusb
answers them. `msisdr_stop_async` goes round a loop until every transfer is cancelled; in each
round libusb runs the callbacks of the transfers, which count the samples in `p->addr` and may
give up the stream, and another thread may cancel it.

Whatever happens in these calls, they touch the status of the stream and the sample counter and
no other field of the configuration (`msisdrStopAsync_config`, `msisdrStartAsync_config`).
-/

set_option autoImplicit false

namespace MsiSdrDriver.Driver

/-! ## What libusb answers -/

/-- The result of `libusb_handle_events_timeout`. -/
inductive EventsResult where
  | handled
  | interrupted
  | failed
  deriving DecidableEq

/-- A round of the loop of `msisdr_stop_async` that has found a transfer which is not cancelled
yet: what `libusb_handle_events_timeout` returns, and the two fields that the callbacks and other
threads may have stored meanwhile. -/
structure StopRound where
  result : EventsResult
  asyncStatus : AsyncStatus
  addr : UInt32
  deriving DecidableEq

/-- What the calls on the stream are answered. After the rounds the loop finds every transfer
cancelled. `submitted` says that no `libusb_submit_transfer` of `msisdr_start_async` fails, and
`startStatus` is the status of the stream after them. -/
structure StreamAnswers where
  rounds : List StopRound
  submitted : Bool
  startStatus : AsyncStatus
  deriving DecidableEq

/-! ## The calls -/

/-- `p->async_status = status`. -/
def OpenDevice.setStatus (p : OpenDevice) (status : AsyncStatus) : OpenDevice :=
  { p with dev := { p.dev with asyncStatus := status } }

/-- The callbacks have run. -/
def OpenDevice.afterEvents (p : OpenDevice) (round : StopRound) : OpenDevice :=
  { p with dev := { p.dev with asyncStatus := round.asyncStatus, addr := round.addr } }

/-- The `while` loop of `msisdr_stop_async`. The flag is false on the jump to `failed`. -/
def stopLoop (p : OpenDevice) : List StopRound → OpenDevice × Bool
  | [] => (p, true)
  | round :: rest =>
      if p.dev.asyncStatus = .running then
        match round.result with
        | .handled | .interrupted => stopLoop (p.afterEvents round) rest
        | .failed => (p.afterEvents round, false)
      else (p, true)

/-- `msisdr_stop_async`. -/
def msisdrStopAsync (rounds : List StopRound) (p : OpenDevice) : OpenDevice × ℤ :=
  if p.dev.asyncStatus ≠ .running then (p, -1)
  else
    match stopLoop p rounds with
    | (p, false) => (p, -1)
    | (p, true) =>
        if p.dev.asyncStatus ≠ .running then (p, -1)
        else ((msisdrStreamingStop p).setStatus .paused, 0)

/-- `CMD_START_STREAMING`. -/
def cmdStartStreaming : BitVec 8 := 0x43

/-- `msisdr_streaming_start`. -/
def msisdrStreamingStart (p : OpenDevice) : OpenDevice :=
  { p with sent := p.sent ++ [{ request := cmdStartStreaming, value := 0, index := 0 }] }

/-- `msisdr_start_async`. -/
def msisdrStartAsync (submitted : Bool) (startStatus : AsyncStatus) (p : OpenDevice) :
    OpenDevice × ℤ :=
  if p.dev.asyncStatus ≠ .paused then (p, -1)
  else
    let p := p.setStatus startStatus
    if ¬ submitted then (p, -1)
    else if p.dev.asyncStatus ≠ .paused then (p, -1)
    else ((msisdrStreamingStart p).setStatus .running, 0)

/-- The calls that `msisdr_set_hard` makes. -/
def StreamAnswers.calls (answers : StreamAnswers) : StreamCalls where
  stopAsync := msisdrStopAsync answers.rounds
  startAsync := msisdrStartAsync answers.submitted answers.startStatus

/-- `msisdr_reset_buffer`. -/
def msisdrResetBuffer (answers : StreamAnswers) (p : OpenDevice) : OpenDevice × ℤ :=
  let (p, _) := answers.calls.stopAsync p
  let (p, _) := answers.calls.startAsync p
  (p, 0)

/-! ## When `msisdr_stop_async` succeeds -/

/-- None of the rounds fails, and none takes the stream out of RUNNING. -/
def KeepRunning (rounds : List StopRound) : Prop :=
  ∀ round ∈ rounds, round.result ≠ .failed ∧ round.asyncStatus = .running

theorem keepRunning_cons {round : StopRound} {rest : List StopRound} :
    KeepRunning (round :: rest) ↔
      (round.result ≠ .failed ∧ round.asyncStatus = .running) ∧ KeepRunning rest :=
  List.forall_mem_cons

/-- A stream that is no longer RUNNING leaves the loop at once. -/
theorem stopLoop_of_stopped {p : OpenDevice} (stopped : p.dev.asyncStatus ≠ .running)
    (rounds : List StopRound) : stopLoop p rounds = (p, true) := by
  cases rounds with
  | nil => rfl
  | cons round rest => exact if_neg stopped

/-- **The loop comes to its end with the stream RUNNING** exactly if every round keeps it so. -/
theorem stopLoop_keeps_iff {p : OpenDevice} (running : p.dev.asyncStatus = .running)
    (rounds : List StopRound) :
    ((stopLoop p rounds).2 = true ∧ (stopLoop p rounds).1.dev.asyncStatus = .running) ↔
      KeepRunning rounds := by
  induction rounds generalizing p with
  | nil => exact ⟨fun _ _ none => absurd none (List.not_mem_nil), fun _ => ⟨rfl, running⟩⟩
  | cons round rest ih =>
      rw [keepRunning_cons, stopLoop, if_pos running]
      by_cases stays : round.asyncStatus = .running
      · have next := ih (p := p.afterEvents round) stays
        cases answer : round.result with
        | handled => simpa [stays] using next
        | interrupted => simpa [stays] using next
        | failed => simp
      · have given : (p.afterEvents round).dev.asyncStatus ≠ .running := stays
        have left := stopLoop_of_stopped given rest
        cases answer : round.result with
        | handled => simp [left, given, stays]
        | interrupted => simp [left, given, stays]
        | failed => simp

/-- **`msisdr_stop_async` of a RUNNING stream succeeds** exactly if every round keeps it so. -/
theorem msisdrStopAsync_succeeds_iff {p : OpenDevice} (running : p.dev.asyncStatus = .running)
    (rounds : List StopRound) : 0 ≤ (msisdrStopAsync rounds p).2 ↔ KeepRunning rounds := by
  rw [← stopLoop_keeps_iff running rounds, msisdrStopAsync, if_neg (not_not_intro running)]
  generalize stopLoop p rounds = result
  obtain ⟨q, finished⟩ := result
  cases finished with
  | false => simp
  | true =>
      by_cases stays : q.dev.asyncStatus = .running
      · simp [stays]
      · simp [stays]

/-! ## What they leave alone -/

/-- The two configurations agree in everything but the status of the stream and the sample
counter. -/
def SameConfig (p q : MsisdrDev) : Prop :=
  q = { p with asyncStatus := q.asyncStatus, addr := q.addr }

theorem SameConfig.refl (p : MsisdrDev) : SameConfig p p := rfl

theorem SameConfig.trans {p q r : MsisdrDev} (first : SameConfig p q) (second : SameConfig q r) :
    SameConfig p r := by
  unfold SameConfig at *
  rw [second, first]

theorem afterEvents_config (p : OpenDevice) (round : StopRound) :
    SameConfig p.dev (p.afterEvents round).dev := rfl

theorem setStatus_config (p : OpenDevice) (status : AsyncStatus) :
    SameConfig p.dev (p.setStatus status).dev := rfl

/-- However many rounds the loop goes. -/
theorem stopLoop_config (p : OpenDevice) (rounds : List StopRound) :
    SameConfig p.dev (stopLoop p rounds).1.dev := by
  induction rounds generalizing p with
  | nil => exact .refl p.dev
  | cons round rest ih =>
      rw [stopLoop]
      split
      · split
        · exact (afterEvents_config p round).trans (ih _)
        · exact (afterEvents_config p round).trans (ih _)
        · exact afterEvents_config p round
      · exact .refl p.dev

/-- **`msisdr_stop_async` leaves the configuration alone**, whether or not it succeeds. -/
theorem msisdrStopAsync_config (rounds : List StopRound) (p : OpenDevice) :
    SameConfig p.dev (msisdrStopAsync rounds p).1.dev := by
  have looped := stopLoop_config p rounds
  rw [msisdrStopAsync]
  split
  · exact .refl p.dev
  · generalize stopLoop p rounds = result at looped ⊢
    obtain ⟨q, finished⟩ := result
    cases finished with
    | false => exact looped
    | true =>
        dsimp only
        split
        · exact looped
        · exact looped.trans (setStatus_config _ _)

/-- **`msisdr_start_async` leaves the configuration alone.** -/
theorem msisdrStartAsync_config (submitted : Bool) (startStatus : AsyncStatus) (p : OpenDevice) :
    SameConfig p.dev (msisdrStartAsync submitted startStatus p).1.dev := by
  rw [msisdrStartAsync]
  split
  · exact .refl p.dev
  · dsimp only
    split
    · exact setStatus_config p startStatus
    · split
      · exact setStatus_config p startStatus
      · exact (setStatus_config p startStatus).trans (setStatus_config _ _)

/-- A device without a stream is left as it is. -/
theorem msisdrResetBuffer_of_inactive (answers : StreamAnswers) {p : OpenDevice}
    (inactive : p.dev.asyncStatus = .inactive) : (msisdrResetBuffer answers p).1 = p := by
  have running : p.dev.asyncStatus ≠ .running := by
    rw [inactive]
    decide
  have paused : p.dev.asyncStatus ≠ .paused := by
    rw [inactive]
    decide
  simp only [msisdrResetBuffer, StreamAnswers.calls, msisdrStopAsync, if_pos running,
    msisdrStartAsync, if_pos paused]

end MsiSdrDriver.Driver
