import MsiSdrDriver.Async.Closing
import MsiSdrDriver.Server.StreamEnd

/-!
# Commands and the closed device

When `msisdr_read_async` has returned, for whatever reason, `openAsync` clears `dev->miri_dev`,
closes the device, and only then stops the server. `commandListener` may be anywhere meanwhile. It
looks at `dev->miri_dev` once, before the call that it makes with the device, and nothing keeps
`openAsync` from closing the device between that look and the end of the call
(`CommandTeardown.closes_under_command`).

What the look does is to let no further command begin: once `msisdr_close` has begun none passes it
any more (`CommandTeardown.Sealed`). So the device is closed under a command only if that command is
in its driver call, or about to make it, when `openAsync` enters `msisdr_close`
(`CommandTeardown.no_command_reaches_closed_device`), and then it is
(`CommandTeardown.closes_under_call`).
-/

set_option autoImplicit false

namespace MsiSdrDriver.Server

open MsiSdrDriver.Async MsiSdrDriver.Foundations

/-! ## The commands and their driver calls -/

/-- The cases of `tcpCommandCallback`. -/
inductive TcpCommand where
  | setFreq
  | setSampleRate
  | setGainMode
  | setGain
  | setFreqCorrection
  | setOffsetTuning
  | setTunerGainById
  | androidExit
  | androidGainByPercentage
  | androidEnable16BitSigned
  | androidEnableDcCorrection
  | default
  deriving DecidableEq

namespace TcpCommand

/-- The command makes a driver call with `dev->miri_dev`. -/
def drives : TcpCommand → Bool
  | .androidExit | .androidEnable16BitSigned | .androidEnableDcCorrection | .default => false
  | _ => true

/-- The command as the threads of the session notice it. -/
def noticed : TcpCommand → Command
  | .setSampleRate => .setSampleRate
  | .androidExit => .exit
  | _ => .other

end TcpCommand

/-- Where the listener's thread is between its look at `dev->miri_dev` and the return of the driver
call. -/
inductive DriverCall where
  | outside
  /-- `dev->miri_dev` was not `NULL`, and has still to be read for the call -/
  | checked (command : TcpCommand)
  /-- inside the call, with the device or with `NULL` -/
  | inside (command : TcpCommand) (device : Bool)
  deriving DecidableEq

/-- A session whose tear-down closes the device. `close` is `called` before `openAsync` enters
`msisdr_close`. -/
structure CommandTeardown where
  session : DeviceSession
  close : ClosePc
  call : DriverCall

/-- What can happen: a step of the session, where the steps of `tcpCommandCallback` have their own
label. -/
inductive TeardownLabel where
  | session (label : DeviceLabel)
  | command (command : TcpCommand) (answer : UsbAnswer)

namespace CommandTeardown

def sessionStep (c : CommandTeardown) (label : DeviceLabel) : Option CommandTeardown :=
  (c.session.step label).map fun session => { c with session := session }

/-- One step of `openAsync`, which calls `msisdr_close` before it stops the server. -/
def openAsyncStep (c : CommandTeardown) (answer : UsbAnswer) : Option CommandTeardown :=
  if c.session.driver = .stop .called ∧ c.close ≠ .returned then
    (c.session.stream.closeStep answer c.close).map fun (stream, close) =>
      { c with session := { c.session with stream := stream }, close := close }
  else c.sessionStep (.driver answer)

/-- One step of `tcpCommandCallback`. -/
def commandStep (c : CommandTeardown) (command : TcpCommand) (answer : UsbAnswer) :
    Option CommandTeardown :=
  match c.call with
  | .outside =>
      if c.session.listener = .commandcb ∧ c.session.command = .called ∧
          c.session.hasDev = true ∧ command.drives = true then
        some { c with call := .checked command }
      else c.sessionStep (.command command.noticed answer)
  | .checked command =>
      if command = .setSampleRate ∧ c.session.hasDev = true then
        (c.session.step (.command .setSampleRate answer)).map fun session =>
          { c with session := session, call := .inside command true }
      else some { c with call := .inside command c.session.hasDev }
  | .inside _ _ =>
      if c.session.command = .settingRate then
        (c.session.step (.command .setSampleRate answer)).map fun session =>
          { c with
            session := session
            call := if session.command = .settingRate then c.call else .outside }
      else some { c with session := c.session.commandReturns, call := .outside }

def step (c : CommandTeardown) : TeardownLabel → Option CommandTeardown
  | .session (.driver answer) => c.openAsyncStep answer
  | .session (.command _ _) => none
  | .session label => c.sessionStep label
  | .command command answer => c.commandStep command answer

/-- A session after a successful `sdrtcp_open_socket`. -/
def Starts (c : CommandTeardown) : Prop :=
  c.session.Starts ∧ c.close = .called ∧ c.call = .outside

/-- `msisdr_close` is not executed between the look at `dev->miri_dev` and the return of the driver
call. -/
def ClosesAlone (c : CommandTeardown) : Prop := c.close ≠ .called → c.call = .outside

/-! ## Closing under a command -/

/-- A whole command arrives. -/
def receives : CommandListenerAnswer := ⟨true, some 5⟩

/-- The server takes a client, and the client's first command arrives. -/
def commanded : List TeardownLabel :=
  List.replicate 4 (.session (.driver DeviceSession.succeeds)) ++
    List.replicate 11 (.session (.server ListenerSession.connects)) ++
    List.replicate 7 (.session (.listener receives))

/-- `msisdr_read_async` cannot submit its first transfer and returns, and the device is closed. -/
def unreadable : List TeardownLabel :=
  List.replicate 3 (.session (.driver DeviceSession.succeeds)) ++
    [.session (.driver ⟨false, .success⟩)] ++
    List.replicate 80 (.session (.driver DeviceSession.succeeds))

/-- A session after a successful `sdrtcp_open_socket`. -/
def initial : CommandTeardown :=
  ⟨DeviceSession.initial DeviceSession.listening .bulk, .called, .outside⟩

theorem starts_initial : initial.Starts :=
  ⟨⟨DeviceSession.listening, .bulk, rfl, rfl⟩, rfl, rfl⟩

/-- **The device can be closed under a command.** The command changes the sample rate; while it is
inside its driver call, the device is closed and freed. -/
theorem closes_under_command :
    ¬ ∀ c : CommandTeardown, Reach step Starts Always c → c.ClosesAlone := by
  intro alone
  have moved : (replay step initial (commanded ++
      List.replicate 2 (.command .setSampleRate DeviceSession.succeeds) ++ unreadable)).map
        (fun c => (c.close, c.call)) = some (.returned, .inside .setSampleRate true) := by decide
  obtain ⟨c, replayed, shown⟩ := Option.map_eq_some_iff.mp moved
  simp only [Prod.mk.injEq] at shown
  have reached : Reach step Starts Always c := Reach.of_replay (.start starts_initial) _ replayed
  have outside := alone c reached (by rw [shown.1]; simp)
  rw [shown.2] at outside
  cases outside

/-! ## After the device is cleared -/

variable {c c' : CommandTeardown}

/-- What holds from the moment in which `openAsync` clears `dev->miri_dev`, in every run. -/
structure Sealed (c : CommandTeardown) : Prop where
  cleared : DeviceSession.past c.session.driver = true → c.session.hasDev = false
  entered : c.close ≠ .called → DeviceSession.past c.session.driver = true

/-- A step of the session by another thread than that of `openAsync`. -/
theorem Sealed.of_same (seals : c.Sealed) (driver : c'.session.driver = c.session.driver)
    (hasDev : c'.session.hasDev = c.session.hasDev) (close : c'.close = c.close) : c'.Sealed := by
  refine ⟨fun past => ?_, fun begun => ?_⟩
  · rw [hasDev]
    exact seals.cleared (driver ▸ past)
  · rw [driver]
    exact seals.entered (close ▸ begun)

theorem closeStep_begun {s s' : Stream} {answer : UsbAnswer} {pc pc' : ClosePc}
    (moves : s.closeStep answer pc = some (s', pc')) : pc' ≠ .called := by
  unfold Stream.closeStep at moves
  split at moves
  case h_3 =>
    obtain ⟨_, -, same⟩ := Option.map_eq_some_iff.mp moves
    cases same
    simp
  all_goals try split at moves
  all_goals cases moves
  all_goals simp

/-- A step of `openAsync` is one of `msisdr_close`, or it leaves that alone. -/
theorem openAsyncStep_cases {answer : UsbAnswer} (moves : c.openAsyncStep answer = some c') :
    c'.call = c.call ∧
      (c.session.driver = .stop .called ∧ c'.close ≠ .called ∧
          c'.session.driver = c.session.driver ∧ c'.session.hasDev = c.session.hasDev ∨
        c'.close = c.close ∧ c.session.openAsyncStep answer = some c'.session) := by
  unfold openAsyncStep at moves
  split at moves
  · next closing =>
      obtain ⟨⟨stream, close⟩, stepped, rfl⟩ := Option.map_eq_some_iff.mp moves
      exact ⟨rfl, .inl ⟨closing.1, closeStep_begun stepped, rfl, rfl⟩⟩
  · obtain ⟨session, stepped, rfl⟩ := Option.map_eq_some_iff.mp moves
    exact ⟨rfl, .inr ⟨rfl, stepped⟩⟩

/-- What a step of `tcpCommandCallback` leaves alone. It passes the look at `dev->miri_dev` only if
there is a device. -/
theorem commandStep_cases {command : TcpCommand} {answer : UsbAnswer}
    (moves : c.commandStep command answer = some c') :
    (c'.session.driver = c.session.driver ∧ c'.session.hasDev = c.session.hasDev ∧
      c'.close = c.close) ∧
      (c.call = .outside → c'.call = .outside ∨ c.session.hasDev = true) := by
  unfold commandStep at moves
  split at moves
  · split at moves
    · next looks =>
        cases moves
        exact ⟨⟨rfl, rfl, rfl⟩, fun _ => .inr looks.2.2.1⟩
    · obtain ⟨session, stepped, rfl⟩ := Option.map_eq_some_iff.mp moves
      obtain ⟨driver, hasDev⟩ := DeviceSession.commandStep_clears stepped
      exact ⟨⟨driver, hasDev, rfl⟩, .inl⟩
  · next checked =>
      refine ⟨?_, fun outside => by simp [outside] at checked⟩
      split at moves
      · obtain ⟨session, stepped, rfl⟩ := Option.map_eq_some_iff.mp moves
        obtain ⟨driver, hasDev⟩ :=
          DeviceSession.step_clears (fun _ same => by cases same) stepped
        exact ⟨driver, hasDev, rfl⟩
      · cases moves
        exact ⟨rfl, rfl, rfl⟩
  · next inside =>
      refine ⟨?_, fun outside => by simp [outside] at inside⟩
      split at moves
      · obtain ⟨session, stepped, rfl⟩ := Option.map_eq_some_iff.mp moves
        obtain ⟨driver, hasDev⟩ :=
          DeviceSession.step_clears (fun _ same => by cases same) stepped
        exact ⟨driver, hasDev, rfl⟩
      · cases moves
        exact ⟨rfl, rfl, rfl⟩

/-- The kinds of steps of the other threads. -/
theorem step_other {label : DeviceLabel} (other : ∀ answer, label ≠ .driver answer)
    (moves : c.step (.session label) = some c') :
    c'.call = c.call ∧ c'.close = c.close ∧ c'.session.driver = c.session.driver ∧
      c'.session.hasDev = c.session.hasDev := by
  have moved : c.sessionStep label = some c' := by
    cases label with
    | driver answer => exact absurd rfl (other answer)
    | command command answer => cases moves
    | _ => exact moves
  obtain ⟨session, stepped, rfl⟩ := Option.map_eq_some_iff.mp moved
  obtain ⟨driver, hasDev⟩ := DeviceSession.step_clears other stepped
  exact ⟨rfl, rfl, driver, hasDev⟩

theorem Sealed.step {label : TeardownLabel} (seals : c.Sealed)
    (moves : c.step label = some c') : c'.Sealed := by
  cases label with
  | command command answer =>
      obtain ⟨⟨driver, hasDev, close⟩, -⟩ := commandStep_cases moves
      exact seals.of_same driver hasDev close
  | session label =>
      by_cases own : ∃ answer, label = .driver answer
      · obtain ⟨answer, rfl⟩ := own
        obtain ⟨-, ⟨place, -, driver, hasDev⟩ | ⟨close, stepped⟩⟩ := openAsyncStep_cases moves
        · refine ⟨fun past => ?_, fun _ => ?_⟩
          · rw [hasDev]
            exact seals.cleared (driver ▸ past)
          · rw [driver, place]
            rfl
        · rcases DeviceSession.openAsyncStep_clears stepped with ⟨driver, hasDev⟩ | ⟨place, gone⟩
          · refine ⟨fun past => ?_, fun begun => ?_⟩
            · rw [hasDev]
              exact seals.cleared (driver ▸ past)
            · rw [driver]
              exact seals.entered (close ▸ begun)
          · refine ⟨fun _ => gone, fun begun => ?_⟩
            have early := seals.entered (close ▸ begun)
            rw [place] at early
            cases early
      · obtain ⟨-, close, driver, hasDev⟩ :=
          step_other (fun answer same => own ⟨answer, same⟩) moves
        exact seals.of_same driver hasDev close

/-! ## Closing alone -/

/-- If `openAsync` enters `msisdr_close` in this step, no command is between its look at
`dev->miri_dev` and the return of its driver call. -/
def EntersAlone (c : CommandTeardown) : TeardownLabel → Prop
  | .session (.driver _) =>
      c.session.driver = .stop .called → c.close = .called → c.call = .outside
  | _ => True

instance : DecidableRel EntersAlone := fun c label =>
  match label with
  | .session (.driver _) => inferInstanceAs (Decidable (c.session.driver = .stop .called →
      c.close = .called → c.call = .outside))
  | .session (.server _) | .session (.closed _) | .session (.listener _)
  | .session (.command _ _) | .session (.stop _) | .session (.complete _ _ _)
  | .session (.feed _) | .session .feeder | .session (.callback _) | .command _ _ =>
      inferInstanceAs (Decidable True)

/-- Once the device is being closed, no command passes its look at `dev->miri_dev`. -/
theorem Sealed.closesAlone {label : TeardownLabel} (seals : c.Sealed) (alone : c.ClosesAlone)
    (enters : c.EntersAlone label) (moves : c.step label = some c') : c'.ClosesAlone := by
  intro begun
  cases label with
  | command command answer =>
      obtain ⟨⟨-, -, close⟩, looks⟩ := commandStep_cases moves
      have begun : c.close ≠ .called := close ▸ begun
      refine (looks (alone begun)).resolve_right fun device => ?_
      simp [seals.cleared (seals.entered begun)] at device
  | session label =>
      by_cases own : ∃ answer, label = .driver answer
      · obtain ⟨answer, rfl⟩ := own
        obtain ⟨call, ⟨place, -⟩ | ⟨close, -⟩⟩ := openAsyncStep_cases moves
        · rw [call]
          by_cases fresh : c.close = .called
          · exact enters place fresh
          · exact alone fresh
        · rw [call]
          exact alone (close ▸ begun)
      · obtain ⟨call, close, -⟩ := step_other (fun answer same => own ⟨answer, same⟩) moves
        rw [call]
        exact alone (close ▸ begun)

/-- **No command reaches a closed device**, in every run in which `openAsync` enters `msisdr_close`
only while no command is past its look at `dev->miri_dev`. -/
theorem no_command_reaches_closed_device (reached : Reach step Starts EntersAlone c) :
    c.ClosesAlone := by
  have both : c.Sealed ∧ c.ClosesAlone := by
    refine Reach.invariant (I := fun c => c.Sealed ∧ c.ClosesAlone) ?_ ?_ reached
    · rintro c ⟨⟨obj, transfer, -, starts⟩, fresh, -⟩
      refine ⟨⟨fun past => ?_, fun begun => absurd fresh begun⟩, fun begun => absurd fresh begun⟩
      rw [starts] at past
      cases past
    · rintro c label c' ⟨seals, alone⟩ enters moves
      exact ⟨seals.step moves, seals.closesAlone alone enters moves⟩
  exact both.2

set_option maxRecDepth 1000 in
theorem no_command_reaches_closed_device_unreadable :
    ∃ c : CommandTeardown, c.close = .returned ∧ c.session.listener = .outerTest ∧
      c.ClosesAlone := by
  have moved : (replayWhere step EntersAlone initial (commanded ++
      List.replicate 5 (.command .setSampleRate DeviceSession.succeeds) ++ unreadable)).map
        (fun c => (c.close, c.session.listener)) = some (.returned, .outerTest) := by decide
  obtain ⟨c, replayed, shown⟩ := Option.map_eq_some_iff.mp moved
  simp only [Prod.mk.injEq] at shown
  exact ⟨c, shown.1, shown.2, no_command_reaches_closed_device
    (Reach.of_replayWhere (.start starts_initial) _ replayed)⟩

/-- Where `openAsync` enters `msisdr_close` under a command, the device is closed under it. -/
theorem closes_under_call {answer : UsbAnswer} (under : ¬ c.EntersAlone (.session (.driver answer)))
    (moves : c.step (.session (.driver answer)) = some c') : ¬ c'.ClosesAlone := by
  simp only [EntersAlone, Classical.not_imp] at under
  obtain ⟨place, fresh, inside⟩ := under
  intro alone
  replace moves : c.openAsyncStep answer = some c' := moves
  rw [openAsyncStep, if_pos ⟨place, by simp [fresh]⟩, fresh] at moves
  cases moves
  exact inside (alone (by simp))

end CommandTeardown

end MsiSdrDriver.Server
