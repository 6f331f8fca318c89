import MsiSdrDriver.Async.StreamPhases

/-!
# The phases of a pause

A caller that pauses or resumes the stream goes through phases, and in each of them it is
known of every transfer whether it flows, still flies, or has come back cancelled
(`Stream.Phase`). Two facts carry this through a run. What the scan of `msisdr_stop_async` has
passed is cancelled and stays so until a start submits it again (`Stream.Scanned`). And as long
as every step is calm, no step of another thread leaves the phase (`Stream.Phase.mono`).
-/

set_option autoImplicit false

namespace MsiSdrDriver.Async

open MsiSdrDriver.Driver

namespace Stream

variable {s s' : Stream}

/-! ## Transfers between a stop and a start -/

/-- Transfer `k` has come back as `CANCELLED`. -/
def Cancelled (s : Stream) (k : ℕ) : Prop :=
  (s.xfer k).inFlight = false ∧ (s.xfer k).status = .cancelled

/-- Transfer `k` is in flight, or the running callback submits it again. -/
def Flies (s : Stream) (k : ℕ) : Prop :=
  (s.xfer k).inFlight = true ∨ ∃ thread, s.callback = .resubmit thread k

/-- Transfer `k` is in flight and nobody has cancelled it, or the running callback submits it
again. -/
def Flows (s : Stream) (k : ℕ) : Prop :=
  ((s.xfer k).inFlight = true ∧ (s.xfer k).cancelRequested = false) ∨
    ∃ thread, s.callback = .resubmit thread k

theorem Flows.flies {k : ℕ} (flows : s.Flows k) : s.Flies k := flows.imp_left And.left

/-- The stream has just been started: nobody has cancelled a transfer. -/
structure Streams (s : Stream) : Prop where
  running : s.asyncStatus = .running
  unpaused : s.paused = false
  flows : ∀ k < s.xferBufNum, s.Flows k

/-- The stream is `RUNNING`. A transfer may have been cancelled, and has then come back or will. -/
structure Unpaused (s : Stream) : Prop where
  running : s.asyncStatus = .running
  unpaused : s.paused = false
  settles : ∀ k < s.xferBufNum, s.Flies k ∨ s.Cancelled k

theorem Streams.toUnpaused (streams : s.Streams) : s.Unpaused :=
  ⟨streams.running, streams.unpaused, fun k young => .inl (streams.flows k young).flies⟩

/-- `msisdr_stop_async` has left its loop. -/
structure Stopped (s : Stream) : Prop where
  running : s.asyncStatus = .running
  unpaused : s.paused = false
  cancelled : ∀ k < s.xferBufNum, s.Cancelled k

/-- The stream is paused. -/
structure Quiet (s : Stream) : Prop where
  paused : s.asyncStatus = .paused
  cancelled : ∀ k < s.xferBufNum, s.Cancelled k

/-- `msisdr_start_async` has submitted the transfers below `i`. -/
structure Resuming (s : Stream) (i : ℕ) : Prop where
  paused : s.asyncStatus = .paused
  resumed : ∀ k < s.xferBufNum, k < i → s.Flows k ∧ s.submitted k = 1
  waiting : ∀ k < s.xferBufNum, i ≤ k → s.Cancelled k ∧ s.submitted k = 0

/-- Between the calls the stream runs, or `msisdr_stop_async` has paused it. -/
def Rest (s : Stream) : Prop := s.Unpaused ∨ s.paused = true ∧ s.Quiet

/-- The caller is inside `msisdr_stop_async`, `msisdr_start_async` or `msisdr_set_hard`. -/
def pauses : CallerPc → Bool
  | .idle | .stop false (.returned _) | .start false (.returned _) | .cancel _ | .cancelNow _
  | .hardReturned _ => false
  | _ => true

/-- What holds of the stream while a caller is inside `msisdr_stop_async`. -/
def StopPhase (s : Stream) (hard : Bool) : StopAsyncPc → Prop
  | .called => if hard then s.Unpaused else s.Rest
  | .loopTest | .scan _ _ | .scanCancel _ | .events => s.Unpaused
  | .lastTest | .storePaused => s.Stopped
  | .returned result => if hard then result = 0 ∧ s.paused = false ∧ s.Quiet else s.Rest

/-- What holds of the stream while a caller is inside `msisdr_start_async`. -/
def StartPhase (s : Stream) (hard : Bool) : StartAsyncPc → Prop
  | .called => if hard then s.paused = false ∧ s.Quiet else s.Rest
  | .submit i => s.Resuming i
  | .lastTest | .storeRunning => s.Resuming s.xferBufNum
  | .returned result => if hard then result = 0 ∧ s.Streams else s.Rest

/-- What holds of the stream while the caller that pauses or resumes it is at a place. -/
def Phase (s : Stream) : CallerPc → Prop
  | .stop hard pc => s.StopPhase hard pc
  | .start hard pc => s.StartPhase hard pc
  | .hardAdcStop | .hardWrite true => s.paused = false ∧ s.Quiet
  | .hardWrite false => s.paused = true ∧ s.Quiet
  | .idle | .cancel _ | .cancelNow _ | .hardTest | .hardReturned _ => s.Rest

/-- A caller that does not pause or resume leaves the stream at rest. -/
theorem phase_of_not_pauses {pc : CallerPc} (calm : pauses pc = false) : s.Phase pc = s.Rest := by
  cases pc with
  | idle | cancel _ | cancelNow _ | hardReturned _ => rfl
  | hardTest | hardAdcStop | hardWrite _ => cases calm
  | stop hard stop =>
      cases hard <;> cases stop <;> first | rfl | cases calm
  | start hard start =>
      cases hard <;> cases start <;> first | rfl | cases calm

theorem phase_callPc {function : Call} : s.Phase (callPc function) = s.Rest := by
  cases function <;> rfl

theorem atRest_not_pauses {pc : CallerPc} (rest : atRest pc = true) : pauses pc = false := by
  cases pc with
  | idle | cancel _ | cancelNow _ | hardReturned _ => rfl
  | hardTest | hardAdcStop | hardWrite _ => cases rest
  | stop hard stop => cases hard <;> cases stop <;> first | rfl | cases rest
  | start hard start => cases hard <;> cases start <;> first | rfl | cases rest

theorem Rest.active (rest : s.Rest) : s.asyncStatus = .running ∨ s.asyncStatus = .paused :=
  rest.imp Unpaused.running fun paused => paused.2.paused

/-- In every phase the stream is `RUNNING` or `PAUSED`. -/
theorem Phase.active {pc : CallerPc} (phase : s.Phase pc) :
    s.asyncStatus = .running ∨ s.asyncStatus = .paused := by
  cases pc with
  | idle | cancel _ | cancelNow _ | hardTest | hardReturned _ => exact Rest.active phase
  | hardAdcStop => exact .inr phase.2.paused
  | hardWrite streaming => cases streaming <;> exact .inr phase.2.paused
  | stop hard stop =>
      cases stop with
      | called =>
          cases hard
          · exact Rest.active phase
          · exact .inl (Unpaused.running phase)
      | loopTest | scan i semafor | scanCancel i | events => exact .inl (Unpaused.running phase)
      | lastTest | storePaused => exact .inl (Stopped.running phase)
      | returned result =>
          cases hard
          · exact Rest.active phase
          · exact .inr phase.2.2.paused
  | start hard start =>
      cases start with
      | called =>
          cases hard
          · exact Rest.active phase
          · exact .inr phase.2.paused
      | submit i | lastTest | storeRunning => exact .inr (Resuming.paused phase)
      | returned result =>
          cases hard
          · exact Rest.active phase
          · exact .inl phase.2.running

/-! ## What the other threads leave alone -/

/-- What a step that stays within a phase keeps. -/
structure Keeps (s s' : Stream) : Prop where
  asyncStatus : s'.asyncStatus = s.asyncStatus
  paused : s'.paused = s.paused
  xferBufNum : s'.xferBufNum = s.xferBufNum
  submitted : s'.submitted = s.submitted
  cancelled : ∀ k, s.Cancelled k → s'.Cancelled k
  flies : ∀ k, s.Flies k → s'.Flies k ∨ s'.Cancelled k
  flows : ∀ k, s.Flows k → s'.Flows k

theorem Streams.mono (streams : s.Streams) (keeps : Keeps s s') : s'.Streams :=
  ⟨keeps.asyncStatus ▸ streams.running, keeps.paused ▸ streams.unpaused,
    fun k young => keeps.flows k (streams.flows k (keeps.xferBufNum ▸ young))⟩

theorem Unpaused.mono (runs : s.Unpaused) (keeps : Keeps s s') : s'.Unpaused :=
  ⟨keeps.asyncStatus ▸ runs.running, keeps.paused ▸ runs.unpaused, fun k young =>
    (runs.settles k (keeps.xferBufNum ▸ young)).elim (keeps.flies k)
      fun cancelled => .inr (keeps.cancelled k cancelled)⟩

theorem Stopped.mono (stopped : s.Stopped) (keeps : Keeps s s') : s'.Stopped :=
  ⟨keeps.asyncStatus ▸ stopped.running, keeps.paused ▸ stopped.unpaused,
    fun k young => keeps.cancelled k (stopped.cancelled k (keeps.xferBufNum ▸ young))⟩

theorem Quiet.mono (quiet : s.Quiet) (keeps : Keeps s s') : s'.Quiet :=
  ⟨keeps.asyncStatus ▸ quiet.paused,
    fun k young => keeps.cancelled k (quiet.cancelled k (keeps.xferBufNum ▸ young))⟩

theorem Resuming.mono {i : ℕ} (resuming : s.Resuming i) (keeps : Keeps s s') : s'.Resuming i := by
  refine ⟨keeps.asyncStatus ▸ resuming.paused, fun k young below => ?_, fun k young above => ?_⟩
  · obtain ⟨flows, once⟩ := resuming.resumed k (keeps.xferBufNum ▸ young) below
    exact ⟨keeps.flows k flows, keeps.submitted ▸ once⟩
  · obtain ⟨cancelled, never⟩ := resuming.waiting k (keeps.xferBufNum ▸ young) above
    exact ⟨keeps.cancelled k cancelled, keeps.submitted ▸ never⟩

theorem Rest.mono (rest : s.Rest) (keeps : Keeps s s') : s'.Rest :=
  rest.imp (·.mono keeps) fun paused => ⟨keeps.paused ▸ paused.1, paused.2.mono keeps⟩

/-- **A step that keeps what the phases speak of stays in the phase.** -/
theorem Phase.mono {pc : CallerPc} (phase : s.Phase pc) (keeps : Keeps s s') : s'.Phase pc := by
  cases pc with
  | idle | cancel _ | cancelNow _ | hardTest | hardReturned _ => exact Rest.mono phase keeps
  | hardAdcStop => exact ⟨keeps.paused ▸ phase.1, phase.2.mono keeps⟩
  | hardWrite streaming =>
      cases streaming <;> exact ⟨keeps.paused ▸ phase.1, phase.2.mono keeps⟩
  | stop hard stop =>
      cases stop with
      | called =>
          cases hard
          · exact Rest.mono phase keeps
          · exact Unpaused.mono phase keeps
      | loopTest | scan i semafor | scanCancel i | events => exact Unpaused.mono phase keeps
      | lastTest | storePaused => exact Stopped.mono phase keeps
      | returned result =>
          cases hard
          · exact Rest.mono phase keeps
          · exact ⟨phase.1, keeps.paused ▸ phase.2.1, phase.2.2.mono keeps⟩
  | start hard start =>
      cases start with
      | called =>
          cases hard
          · exact Rest.mono phase keeps
          · exact ⟨keeps.paused ▸ phase.1, phase.2.mono keeps⟩
      | submit i => exact Resuming.mono phase keeps
      | lastTest | storeRunning =>
          have resuming : s.Resuming s.xferBufNum := phase
          have kept := resuming.mono keeps
          rwa [← keeps.xferBufNum] at kept
      | returned result =>
          cases hard
          · exact Rest.mono phase keeps
          · exact ⟨phase.1, phase.2.mono keeps⟩

end Stream

end MsiSdrDriver.Async
