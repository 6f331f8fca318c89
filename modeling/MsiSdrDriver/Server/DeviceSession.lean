import MsiSdrDriver.Async.StreamPhases
import MsiSdrDriver.Server.SessionThreads

/-!
# A session of the device

`openAsync` from `sdrtcp_serve_client_async` to its return, with all the threads that run
meanwhile: the driver thread, which then runs `msisdr_read_async`; `tcp_server`, which ends in
`tcpClosedCallback`; `commandListener`, which runs `tcpCommandCallback`; the USB callback, which
feeds the client; and any number of stop requests.

The two state machines are those of `obj->state` and of `async_status`. As a caller of the
stream the command listener is number 0 and `tcp_server` number 1. `msisdr_close`, which frees
the device after the stream has ended, is left out.

A step of the session leaves the stream alone or is a step of the stream
(`DeviceSession.step_stream`), and only `openAsync` clears `dev->miri_dev`
(`DeviceSession.step_clears`, `DeviceSession.openAsyncStep_clears`).
-/

set_option autoImplicit false

namespace MsiSdrDriver.Server

open MsiSdrDriver.Async

/-! ## The threads -/

/-- Where the driver thread is inside `openAsync`. -/
inductive OpenAsyncPc where
  | serve (pc : ServeClientAsyncPc)
  /-- inside `msisdr_read_async` -/
  | read
  /-- before `dev->miri_dev` is cleared -/
  | clearDev
  /-- the `sdrtcp_stop_serving_client` at the end -/
  | stop (pc : StopPc)
  | returned
  deriving DecidableEq

/-- The commands of a client, as far as a thread notices them: the change of the sample rate,
which is a call of `msisdr_set_hard`, the request to exit, and the rest, which neither touches
the stream nor `obj->state`. -/
inductive Command where
  | setSampleRate
  | exit
  | other
  deriving DecidableEq

/-- Where the listener's thread is inside `tcpCommandCallback`. -/
inductive CommandPc where
  | called
  | settingRate
  | exiting (pc : StopPc)
  deriving DecidableEq

/-- A session. `hasDev` tells whether `dev->miri_dev` is not `NULL`. -/
structure DeviceSession where
  obj : Sdrtcp
  driver : OpenAsyncPc
  server : TcpServerPc
  listener : CommandListenerPc
  command : CommandPc
  stops : ℕ → StopPc
  feeder : FeedPc
  hasDev : Bool
  stream : Stream

/-- What can happen in a session. -/
inductive DeviceLabel where
  | driver (answer : UsbAnswer)
  | server (answer : TcpServerAnswer)
  /-- a step of `tcpClosedCallback` in the server's thread -/
  | closed (answer : UsbAnswer)
  | listener (answer : CommandListenerAnswer)
  /-- a step of `tcpCommandCallback` in the listener's thread -/
  | command (command : Command) (answer : UsbAnswer)
  | stop (i : ℕ)
  | complete (thread : Thread) (k : ℕ) (status : XferStatus)
  /-- the running USB callback feeds a chunk -/
  | feed (chunk : Chunk)
  | feeder
  | callback (answer : UsbAnswer)

/-- A step that takes `state_locker` waits for the thread that feeds. -/
def withLocker {α : Type} (obj : Sdrtcp) (takes : Bool) (moved : Option α) : Option α :=
  if takes && obj.stateLocker then none else moved

theorem withLocker_eq_some {α : Type} {obj : Sdrtcp} {takes : Bool} {moved : Option α} {result : α}
    (moves : withLocker obj takes moved = some result) : moved = some result := by
  unfold withLocker at moves
  split at moves
  · cases moves
  · exact moves

namespace DeviceSession

/-- A step of the stream. -/
def streamStep (s : DeviceSession) (label : UsbLabel) : Option DeviceSession :=
  (s.stream.step label).map fun stream => { s with stream := stream }

/-- One step of `openAsync`. The `tcpClosedCallback` that `sdrtcp_serve_client_async` calls when
it finds the wrong state cancels a stream that has not begun, which does nothing. -/
def openAsyncStep (s : DeviceSession) (answer : UsbAnswer) : Option DeviceSession :=
  match s.driver with
  | .serve .returned => some { s with driver := .read }
  | .serve pc =>
      withLocker s.obj (pc = .close) <|
        (serveClientAsyncStep s.obj pc).map fun (obj, pc') =>
          { s with
            obj := obj
            driver := .serve pc'
            server := if pc = .createServer then .waitEntry else s.server }
  | .read =>
      match s.stream.reader with
      | .returned _ => some { s with driver := .clearDev }
      | _ => s.streamStep (.reader answer)
  | .clearDev => some { s with hasDev := false, driver := .stop .called }
  | .stop .returned => some { s with driver := .returned }
  | .stop pc =>
      withLocker s.obj (pc = .cleanup) <|
        (stopServingClientStep s.obj pc).map fun (obj, pc') =>
          { s with obj := obj, driver := .stop pc' }
  | .returned => none

/-- The critical sections of `tcp_server`. -/
def serverLocks : TcpServerPc → Bool
  | .storeServing | .shutdownTest | .cleanup => true
  | _ => false

/-- One step of `tcp_server` up to `tcpClosedCallback`. -/
def serverStep (s : DeviceSession) (answer : TcpServerAnswer) : Option DeviceSession :=
  if s.server = .closedcb ∨ (s.server = .joinListener ∧ s.listener ≠ .exited) then none
  else
    withLocker s.obj (serverLocks s.server) <|
      (tcpServerStep s.obj answer s.server).map fun (obj, pc') =>
        { s with
          obj := obj
          server := pc'
          listener := if s.server = .createListener then .outerTest else s.listener }

/-- One step of `tcpClosedCallback`, whose result nobody looks at. -/
def closedStep (s : DeviceSession) (answer : UsbAnswer) : Option DeviceSession :=
  if s.server = .closedcb then
    match s.stream.callers 1 with
    | .idle =>
        if s.hasDev then s.streamStep (.call 1 .cancel) else some { s with server := .finished }
    | .cancel (.returned _) => some { s with server := .finished }
    | _ => s.streamStep (.caller 1 answer)
  else none

/-- One step of `commandListener` between the commands. -/
def listenerStep (s : DeviceSession) (answer : CommandListenerAnswer) : Option DeviceSession :=
  if s.listener = .commandcb then none
  else
    (commandListenerStep s.obj answer s.listener).map fun (obj, pc') =>
      { s with obj := obj, listener := pc' }

/-- `tcpCommandCallback` returns. -/
def commandReturns (s : DeviceSession) : DeviceSession :=
  { s with listener := .outerTest, command := .called }

/-- One step of `tcpCommandCallback`. -/
def commandStep (s : DeviceSession) (command : Command) (answer : UsbAnswer) :
    Option DeviceSession :=
  if s.listener ≠ .commandcb then none
  else
    match s.command with
    | .called =>
        if s.hasDev then
          match command with
          | .setSampleRate => { s with command := .settingRate }.streamStep (.call 0 .setHard)
          | .exit => some { s with command := .exiting .called }
          | .other => some s.commandReturns
        else some s.commandReturns
    | .settingRate =>
        if Stream.atRest (s.stream.callers 0) then some s.commandReturns
        else s.streamStep (.caller 0 answer)
    | .exiting .returned => some s.commandReturns
    | .exiting pc =>
        withLocker s.obj (pc = .cleanup) <|
          (stopServingClientStep s.obj pc).map fun (obj, pc') =>
            { s with obj := obj, command := .exiting pc' }

/-- One step of a session. -/
def step (s : DeviceSession) : DeviceLabel → Option DeviceSession
  | .driver answer => s.openAsyncStep answer
  | .server answer => s.serverStep answer
  | .closed answer => s.closedStep answer
  | .listener answer => s.listenerStep answer
  | .command command answer => s.commandStep command answer
  | .stop i =>
      withLocker s.obj (s.stops i = .cleanup) <|
        (stopServingClientStep s.obj (s.stops i)).map fun (obj, pc') =>
          { s with obj := obj, stops := Function.update s.stops i pc' }
  | .complete thread k status => s.streamStep (.complete thread k status)
  | .feed chunk =>
      match s.stream.callback, s.feeder with
      | .resubmit _ _, .returned _ => some { s with feeder := .check chunk }
      | _, _ => none
  | .feeder =>
      (sdrtcpFeedStep s.obj s.feeder).map fun (obj, pc, _) => { s with obj := obj, feeder := pc }
  | .callback answer =>
      match s.feeder with
      | .returned _ => s.streamStep (.callback answer)
      | _ => none

/-- `openAsync` after a successful `sdrtcp_open_socket`. -/
def initial (obj : Sdrtcp) (transfer : Driver.Transfer) : DeviceSession where
  obj := obj
  driver := .serve .called
  server := .unborn
  listener := .unborn
  command := .called
  stops := fun _ => .called
  feeder := .returned 0
  hasDev := true
  stream := Stream.initial transfer 0

def Starts (s : DeviceSession) : Prop :=
  ∃ obj transfer, obj.state = .socketOpen ∧ s = initial obj transfer

/-! ## What a step does -/

variable {s s' : DeviceSession}

/-- `openAsync` has cleared `dev->miri_dev`. -/
def past : OpenAsyncPc → Bool
  | .stop _ | .returned => true
  | _ => false

/-- `openAsync` clears `dev->miri_dev` on its way to the end of the session, from where it does not
come back. -/
theorem openAsyncStep_clears {answer : UsbAnswer} (moves : s.openAsyncStep answer = some s') :
    past s'.driver = past s.driver ∧ s'.hasDev = s.hasDev ∨
      s.driver = .clearDev ∧ s'.hasDev = false := by
  cases place : s.driver with
  | serve pc =>
      left
      cases pc with
      | returned =>
          simp only [openAsyncStep, place] at moves
          cases moves
          exact ⟨rfl, rfl⟩
      | _ =>
          simp only [openAsyncStep, place] at moves
          obtain ⟨_, -, rfl⟩ := Option.map_eq_some_iff.mp (withLocker_eq_some moves)
          exact ⟨rfl, rfl⟩
  | read =>
      left
      simp only [openAsyncStep, place] at moves
      split at moves
      · cases moves
        exact ⟨rfl, rfl⟩
      · obtain ⟨_, -, rfl⟩ := Option.map_eq_some_iff.mp moves
        exact ⟨by rw [place], rfl⟩
  | clearDev =>
      simp only [openAsyncStep, place] at moves
      cases moves
      exact .inr ⟨rfl, rfl⟩
  | stop pc =>
      left
      cases pc with
      | returned =>
          simp only [openAsyncStep, place] at moves
          cases moves
          exact ⟨rfl, rfl⟩
      | _ =>
          simp only [openAsyncStep, place] at moves
          obtain ⟨_, -, rfl⟩ := Option.map_eq_some_iff.mp (withLocker_eq_some moves)
          exact ⟨rfl, rfl⟩
  | returned =>
      simp only [openAsyncStep, place] at moves
      cases moves

theorem streamStep_clears {label : UsbLabel} (moves : s.streamStep label = some s') :
    s'.driver = s.driver ∧ s'.hasDev = s.hasDev := by
  obtain ⟨_, -, rfl⟩ := Option.map_eq_some_iff.mp moves
  exact ⟨rfl, rfl⟩

theorem commandStep_clears {command : Command} {answer : UsbAnswer}
    (moves : s.commandStep command answer = some s') :
    s'.driver = s.driver ∧ s'.hasDev = s.hasDev := by
  unfold commandStep at moves
  split at moves
  · cases moves
  · split at moves
    · split at moves
      · split at moves
        · exact streamStep_clears (s := { s with command := .settingRate }) moves
        · cases moves
          exact ⟨rfl, rfl⟩
        · cases moves
          exact ⟨rfl, rfl⟩
      · cases moves
        exact ⟨rfl, rfl⟩
    · split at moves
      · cases moves
        exact ⟨rfl, rfl⟩
      · exact streamStep_clears moves
    · cases moves
      exact ⟨rfl, rfl⟩
    · obtain ⟨_, -, rfl⟩ := Option.map_eq_some_iff.mp (withLocker_eq_some moves)
      exact ⟨rfl, rfl⟩

/-- The other threads leave `openAsync` and `dev->miri_dev` alone. -/
theorem step_clears {label : DeviceLabel} (other : ∀ answer, label ≠ .driver answer)
    (moves : s.step label = some s') : s'.driver = s.driver ∧ s'.hasDev = s.hasDev := by
  cases label with
  | driver answer => exact absurd rfl (other answer)
  | server answer =>
      simp only [step, serverStep] at moves
      split at moves
      · cases moves
      · obtain ⟨_, -, rfl⟩ := Option.map_eq_some_iff.mp (withLocker_eq_some moves)
        exact ⟨rfl, rfl⟩
  | closed answer =>
      simp only [step, closedStep] at moves
      split at moves
      · split at moves
        · split at moves
          · exact streamStep_clears moves
          · cases moves
            exact ⟨rfl, rfl⟩
        · cases moves
          exact ⟨rfl, rfl⟩
        · exact streamStep_clears moves
      · cases moves
  | listener answer =>
      simp only [step, listenerStep] at moves
      split at moves
      · cases moves
      · obtain ⟨_, -, rfl⟩ := Option.map_eq_some_iff.mp moves
        exact ⟨rfl, rfl⟩
  | command command answer => exact commandStep_clears moves
  | stop i =>
      obtain ⟨_, -, rfl⟩ := Option.map_eq_some_iff.mp (withLocker_eq_some moves)
      exact ⟨rfl, rfl⟩
  | complete thread k status => exact streamStep_clears moves
  | feed chunk =>
      simp only [step] at moves
      split at moves <;> cases moves
      exact ⟨rfl, rfl⟩
  | feeder =>
      obtain ⟨_, -, rfl⟩ := Option.map_eq_some_iff.mp moves
      exact ⟨rfl, rfl⟩
  | callback answer =>
      simp only [step] at moves
      split at moves
      · exact streamStep_clears moves
      · cases moves

/-- The step of the stream that a step of the session can be. -/
def issues (s : DeviceSession) : DeviceLabel → UsbLabel → Prop
  | .driver answer, usb => s.driver = .read ∧ usb = .reader answer
  | .closed answer, usb => s.server = .closedcb ∧ (usb = .call 1 .cancel ∨ usb = .caller 1 answer)
  | .command _ answer, usb =>
      s.listener = .commandcb ∧ (usb = .call 0 .setHard ∨ usb = .caller 0 answer)
  | .complete thread k status, usb => usb = .complete thread k status
  | .callback answer, usb => usb = .callback answer
  | _, _ => False

theorem streamStep_stream {label : UsbLabel} (moves : s.streamStep label = some s') :
    s.stream.step label = some s'.stream := by
  obtain ⟨_, stepped, rfl⟩ := Option.map_eq_some_iff.mp moves
  exact stepped

theorem commandStep_stream {command : Command} {answer : UsbAnswer}
    (moves : s.commandStep command answer = some s') :
    s'.stream = s.stream ∨ ∃ usb, s.stream.step usb = some s'.stream ∧
      s.issues (.command command answer) usb := by
  unfold commandStep at moves
  split at moves
  · cases moves
  next inside =>
    have place : s.listener = .commandcb := not_not.mp inside
    split at moves
    · split at moves
      · split at moves
        · have stepped := streamStep_stream (s := { s with command := .settingRate }) moves
          exact .inr ⟨_, stepped, place, .inl rfl⟩
        · cases moves
          exact .inl rfl
        · cases moves
          exact .inl rfl
      · cases moves
        exact .inl rfl
    · split at moves
      · cases moves
        exact .inl rfl
      · exact .inr ⟨_, streamStep_stream moves, place, .inr rfl⟩
    · cases moves
      exact .inl rfl
    · obtain ⟨_, -, rfl⟩ := Option.map_eq_some_iff.mp (withLocker_eq_some moves)
      exact .inl rfl

theorem openAsyncStep_stream {answer : UsbAnswer} (moves : s.openAsyncStep answer = some s') :
    s'.stream = s.stream ∨ ∃ usb, s.stream.step usb = some s'.stream ∧
      s.issues (.driver answer) usb := by
  unfold openAsyncStep at moves
  split at moves
  · cases moves
    exact .inl rfl
  · obtain ⟨_, -, rfl⟩ := Option.map_eq_some_iff.mp (withLocker_eq_some moves)
    exact .inl rfl
  · next reads =>
      split at moves
      · cases moves
        exact .inl rfl
      · exact .inr ⟨_, streamStep_stream moves, reads, rfl⟩
  · cases moves
    exact .inl rfl
  · cases moves
    exact .inl rfl
  · obtain ⟨_, -, rfl⟩ := Option.map_eq_some_iff.mp (withLocker_eq_some moves)
    exact .inl rfl
  · cases moves

/-- A step of the session leaves the stream alone, or is a step of the stream. -/
theorem step_stream {label : DeviceLabel} (moves : s.step label = some s') :
    s'.stream = s.stream ∨ ∃ usb, s.stream.step usb = some s'.stream ∧ s.issues label usb := by
  cases label with
  | driver answer => exact openAsyncStep_stream moves
  | server answer =>
      simp only [step, serverStep] at moves
      split at moves
      · cases moves
      · obtain ⟨_, -, rfl⟩ := Option.map_eq_some_iff.mp (withLocker_eq_some moves)
        exact .inl rfl
  | closed answer =>
      simp only [step, closedStep] at moves
      split at moves
      · next place =>
          split at moves
          · split at moves
            · exact .inr ⟨_, streamStep_stream moves, place, .inl rfl⟩
            · cases moves
              exact .inl rfl
          · cases moves
            exact .inl rfl
          · exact .inr ⟨_, streamStep_stream moves, place, .inr rfl⟩
      · cases moves
  | listener answer =>
      simp only [step, listenerStep] at moves
      split at moves
      · cases moves
      · obtain ⟨_, -, rfl⟩ := Option.map_eq_some_iff.mp moves
        exact .inl rfl
  | command command answer => exact commandStep_stream moves
  | stop i =>
      obtain ⟨_, -, rfl⟩ := Option.map_eq_some_iff.mp (withLocker_eq_some moves)
      exact .inl rfl
  | complete thread k status => exact .inr ⟨_, streamStep_stream moves, rfl⟩
  | feed chunk =>
      simp only [step] at moves
      split at moves <;> cases moves
      exact .inl rfl
  | feeder =>
      obtain ⟨_, -, rfl⟩ := Option.map_eq_some_iff.mp moves
      exact .inl rfl
  | callback answer =>
      simp only [step] at moves
      split at moves
      · exact .inr ⟨_, streamStep_stream moves, rfl⟩
      · cases moves

end DeviceSession

end MsiSdrDriver.Server
