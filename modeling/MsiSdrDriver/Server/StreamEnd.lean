import Mathlib.Data.Fin.VecNotation
import MsiSdrDriver.Foundations.LabelledRuns
import MsiSdrDriver.Server.DeviceSession
import MsiSdrDriver.Server.ListenerLifetime

/-!
# The server's end and the stream

`tcp_server` ends in `tcpClosedCallback`, which cancels the stream and ignores what
`msisdr_cancel_async` returns. If the server ends before the driver thread has stored `RUNNING`,
the cancel finds `INACTIVE` and does nothing, and the stream that starts afterwards outlives the
server (`DeviceSession.stream_outlives_server`). This is the only way
(`DeviceSession.late_start_outlives_server`): where the driver thread stores `RUNNING` before the
callback has looked at `async_status`, the server's end ends the stream
(`DeviceSession.stream_ends_with_server`).
-/

set_option autoImplicit false

namespace MsiSdrDriver.Server

open MsiSdrDriver.Async MsiSdrDriver.Foundations

namespace DeviceSession

/-- The stream runs on although the server has ended. -/
def Outlives (s : DeviceSession) : Prop :=
  s.server = .finished ∧ Stream.inLoop s.stream.reader = true ∧ s.stream.asyncStatus = .running

/-- A USB call that succeeds. -/
def succeeds : UsbAnswer := ⟨true, .success⟩

/-- The server starts, a stop request comes, and the server ends before the stream begins. -/
def earlyStop : List DeviceLabel :=
  List.replicate 4 (.driver succeeds) ++ List.replicate 3 (.stop 0) ++
    List.replicate 4 (.server ListenerSession.connects) ++ List.replicate 3 (.closed succeeds) ++
    List.replicate 37 (.driver succeeds)

/-- What a successful `sdrtcp_open_socket` leaves behind. -/
def listening : Sdrtcp :=
  { sdrtcpInit with
    state := .socketOpen
    workpool := sdrtcpOpenPool Workpool.blank (dongleInfo ![77, 73, 82, 73] 0 29)
    listenSocket := 7 }

/-- **The stream can outlive the server.** -/
theorem stream_outlives_server :
    ¬ ∀ s : DeviceSession, Reach step Starts Always s → ¬ s.Outlives := by
  intro ends
  have moved : (replay step (initial listening .bulk) earlyStop).map
      (fun s => (s.server, s.stream.reader, s.stream.asyncStatus)) =
        some (.finished, .loopTest, .running) := by decide
  obtain ⟨s, replayed, shown⟩ := Option.map_eq_some_iff.mp moved
  simp only [Prod.mk.injEq] at shown
  obtain ⟨finished, inside, running⟩ := shown
  exact ends s (Reach.of_replay (.start ⟨listening, .bulk, rfl, rfl⟩) _ replayed)
    ⟨finished, by rw [inside]; rfl, running⟩

/-! ## The end of the server -/

/-- `tcp_server` is at its end, or in `tcpClosedCallback`. -/
def closes : TcpServerPc → Bool
  | .closedcb | .finished => true
  | _ => false

/-- `tcp_server` needs its listener no more. -/
def shutsDown : TcpServerPc → Bool
  | .shutdownTest | .cleanup | .closedcb | .finished => true
  | _ => false

/-- `tcp_server` shuts down when it has found no client, or when its listener has exited. -/
theorem shutsDown_step {obj obj' : Sdrtcp} {answer : TcpServerAnswer} {pc pc' : TcpServerPc}
    (moves : tcpServerStep obj answer pc = some (obj', pc')) (down : shutsDown pc' = true) :
    shutsDown pc = true ∨ pc = .clientTest ∨ pc = .joinListener := by
  cases pc with
  | unborn | finished => cases moves
  | clientTest => exact .inr (.inl rfl)
  | joinListener => exact .inr (.inr rfl)
  | shutdownTest | cleanup | closedcb => exact .inl rfl
  | resetClient | storeClientOpen | createListener | storeServing =>
      cases moves
      cases down
  | accept descriptor =>
      cases moves
      split at down <;> cases down
  | serving serve =>
      by_cases finished : serve = .returned
      · subst finished
        cases moves
        cases down
      · simp only [tcpServerStep, Option.map_eq_some_iff, Prod.exists] at moves
        obtain ⟨next, serve', bytes, stepped, same⟩ := moves
        cases same
        cases down
  | waitEntry | waitTest | selectTest | acceptTest =>
      simp only [tcpServerStep] at moves
      split at moves <;> cases moves <;> cases down

/-- The driver thread stores `RUNNING` before `tcpClosedCallback` has looked at
`async_status`. -/
def InTime (s : DeviceSession) : DeviceLabel → Prop
  | .driver _ => s.driver = .read → s.stream.reader = .storeRunning →
      s.stream.callers 1 = .idle ∨ s.stream.callers 1 = .cancel .called
  | _ => True

instance : DecidableRel InTime := by
  intro s label
  cases label <;> unfold InTime <;> infer_instance

/-- The driver thread has not created `tcp_server` yet. -/
def servesYet : OpenAsyncPc → Bool
  | .serve pc => pc ≠ .returned
  | _ => false

/-- What holds in every run: the listener lives inside the session of its server, and the
server is caller 1 of the stream at its end only. -/
structure Orderly (s : DeviceSession) : Prop where
  opened : Stream.opening s.stream.reader = true → s.stream.Opening
  young : servesYet s.driver = true → s.server = .unborn
  unborn : ListenerSession.phase s.server = 0 → s.listener = .unborn
  gone : shutsDown s.server = true → s.listener = .unborn ∨ s.listener = .exited
  idle : closes s.server = false → s.stream.callers 1 = .idle
  cancels : s.stream.callers 1 = .idle ∨ ∃ pc, s.stream.callers 1 = .cancel pc
  ended : s.server = .finished → (∃ result, s.stream.callers 1 = .cancel (.returned result)) ∨
    s.hasDev = false
  returned : s.hasDev = false ∨ s.driver = .clearDev → ∃ result, s.stream.reader = .returned result

variable {s s' : DeviceSession}

/-- The stream moves, and caller 1 stays where it is or is in `msisdr_cancel_async`. -/
theorem Orderly.of_stream {label : UsbLabel} {stream : Stream} (orderly : s.Orderly)
    (stepped : s.stream.step label = some stream)
    (caller : stream.callers 1 = s.stream.callers 1 ∨ closes s.server = true ∧
      s.server ≠ .finished ∧ ∃ pc, stream.callers 1 = .cancel pc) :
    Orderly { s with stream := stream } := by
  refine ⟨Stream.Opening.step orderly.opened stepped, orderly.young, orderly.unborn, orderly.gone,
    fun early => ?_, ?_, fun finished => ?_, fun past => ?_⟩
  · rcases caller with same | ⟨closing, -, -⟩
    · exact same ▸ orderly.idle early
    · exact absurd (early.symm.trans closing) (by simp)
  · rcases caller with same | ⟨-, -, cancels⟩
    · exact same ▸ orderly.cancels
    · exact .inr cancels
  · rcases caller with same | ⟨-, unfinished, -⟩
    · exact same ▸ orderly.ended finished
    · exact absurd finished unfinished
  · obtain ⟨result, place⟩ := orderly.returned past
    rcases Stream.step_reader stepped with same | ⟨answer, rfl⟩
    · exact ⟨result, same ▸ place⟩
    · simp [Stream.step, Stream.readAsyncStep, place] at stepped

/-- A step of the stream by another thread than the server's. -/
theorem callers_of_stream {label : UsbLabel} {stream : Stream}
    (stepped : s.stream.step label = some stream)
    (call : ∀ function, label ≠ .call 1 function) (caller : ∀ answer, label ≠ .caller 1 answer) :
    stream.callers 1 = s.stream.callers 1 := by
  by_contra moved
  rcases Stream.step_callers stepped moved with ⟨function, called, -⟩ | ⟨answer, _, own, -, -⟩
  · exact call function called
  · exact caller answer own

theorem Orderly.stream {label : UsbLabel} (orderly : s.Orderly)
    (moves : s.streamStep label = some s') (call : ∀ function, label ≠ .call 1 function)
    (caller : ∀ answer, label ≠ .caller 1 answer) : s'.Orderly := by
  simp only [streamStep, Option.map_eq_some_iff] at moves
  obtain ⟨stream, stepped, rfl⟩ := moves
  exact orderly.of_stream stepped (.inl (callers_of_stream stepped call caller))

/-- A step that leaves the stream, the server and its listener alone. -/
theorem Orderly.of_same (orderly : s.Orderly) (stream : s'.stream = s.stream)
    (server : s'.server = s.server) (listener : s'.listener = s.listener)
    (young : servesYet s'.driver = true → servesYet s.driver = true)
    (returned : s'.hasDev = false ∨ s'.driver = .clearDev →
      ∃ result, s.stream.reader = .returned result)
    (hasDev : s.hasDev = false → s'.hasDev = false) : s'.Orderly := by
  refine ⟨?_, ?_, ?_, ?_, ?_, ?_, ?_, stream ▸ returned⟩
  · exact stream ▸ orderly.opened
  · exact fun yet => server ▸ orderly.young (young yet)
  · exact listener ▸ server ▸ orderly.unborn
  · exact listener ▸ server ▸ orderly.gone
  · exact stream ▸ server ▸ orderly.idle
  · exact stream ▸ orderly.cancels
  · rw [server, stream]
    exact fun finished => (orderly.ended finished).imp_right hasDev

theorem Orderly.driver {answer : UsbAnswer} (orderly : s.Orderly)
    (moves : s.openAsyncStep answer = some s') : s'.Orderly := by
  have returned := orderly.returned
  unfold openAsyncStep at moves
  split at moves
  · next place =>
      cases moves
      exact orderly.of_same rfl rfl rfl (by simp [servesYet])
        (fun past => returned (past.imp_right (by simp))) id
  · next pc notReturned place =>
      have moves := withLocker_eq_some moves
      simp only [Option.map_eq_some_iff, Prod.exists] at moves
      obtain ⟨obj, pc', stepped, rfl⟩ := moves
      have yet : servesYet s.driver = true := by simpa [place, servesYet] using notReturned
      have unborn := orderly.young yet
      by_cases creates : pc = .createServer
      · subst creates
        cases stepped
        have listener := orderly.unborn (by rw [unborn]; rfl)
        refine ⟨orderly.opened, by simp [servesYet], fun _ => listener, fun _ => .inl listener,
          fun _ => orderly.idle (by rw [unborn]; rfl), orderly.cancels, by simp, fun past => ?_⟩
        exact returned (past.imp_right (by simp))
      · refine orderly.of_same rfl (by simp [creates]) rfl (fun _ => yet)
          (fun past => returned (past.imp_right (by simp))) id
  · next place =>
      split at moves
      · next result past =>
          cases moves
          exact orderly.of_same rfl rfl rfl (by simp [servesYet]) (fun _ => ⟨result, past⟩) id
      · exact orderly.stream moves (by simp) (by simp)
  · next place =>
      cases moves
      exact orderly.of_same rfl rfl rfl (by simp [servesYet]) (fun _ => returned (.inr place))
        fun _ => rfl
  · next place =>
      cases moves
      exact orderly.of_same rfl rfl rfl (by simp [servesYet])
        (fun past => returned (past.imp_right (by simp))) id
  · next pc _ place =>
      have moves := withLocker_eq_some moves
      simp only [Option.map_eq_some_iff, Prod.exists] at moves
      obtain ⟨obj, pc', stepped, rfl⟩ := moves
      exact orderly.of_same rfl rfl rfl (by simp [servesYet])
        (fun past => returned (past.imp_right (by simp))) id
  · cases moves

theorem Orderly.server {answer : TcpServerAnswer} (orderly : s.Orderly)
    (moves : s.serverStep answer = some s') : s'.Orderly := by
  unfold serverStep at moves
  split at moves
  · cases moves
  · next goes =>
      obtain ⟨notClosing, joins⟩ := not_or.mp goes
      have moves := withLocker_eq_some moves
      simp only [Option.map_eq_some_iff, Prod.exists] at moves
      obtain ⟨obj, pc', stepped, rfl⟩ := moves
      obtain ⟨forward, creates, -⟩ := ListenerSession.phase_step stepped
      have notUnborn : s.server ≠ .unborn := fun place => by
        rw [place] at stepped
        cases stepped
      have early : closes s.server = false := by
        cases place : s.server with
        | closedcb => exact absurd place notClosing
        | finished =>
            rw [place] at stepped
            cases stepped
        | _ => rfl
      refine ⟨orderly.opened, fun yet => absurd (orderly.young yet) notUnborn, fun start => ?_,
        fun down => ?_, fun _ => orderly.idle early, orderly.cancels, fun finished => ?_,
        orderly.returned⟩
      · have before : ListenerSession.phase s.server = 0 := by
          have start : ListenerSession.phase pc' = 0 := start
          omega
        have noCreate : s.server ≠ .createListener := fun place => by
          have start : ListenerSession.phase pc' = 0 := start
          rw [creates place] at start
          cases start
        simp only [noCreate, if_false]
        exact orderly.unborn before
      · have noCreate : s.server ≠ .createListener := fun place => by
          have down : shutsDown pc' = true := down
          rw [creates place] at down
          cases down
        simp only [noCreate, if_false]
        rcases shutsDown_step stepped down with already | place | place
        · exact orderly.gone already
        · exact .inl (orderly.unborn (by rw [place]; rfl))
        · exact .inr (by simpa [place] using joins)
      · have finished : pc' = .finished := finished
        subst finished
        rcases shutsDown_step stepped rfl with already | place | place
        · cases place : s.server with
          | shutdownTest =>
              rw [place] at stepped
              simp only [tcpServerStep] at stepped
              split at stepped <;> cases stepped
          | cleanup =>
              rw [place] at stepped
              cases stepped
          | _ => simp_all [shutsDown, closes]
        · rw [place] at stepped
          simp only [tcpServerStep] at stepped
          split at stepped <;> cases stepped
        · rw [place] at stepped
          cases stepped

theorem Orderly.closed {answer : UsbAnswer} (orderly : s.Orderly)
    (moves : s.closedStep answer = some s') : s'.Orderly := by
  unfold closedStep at moves
  split at moves
  · next place =>
      have closing : closes s.server = true := by rw [place]; rfl
      have finishes : (∃ result, s.stream.callers 1 = .cancel (.returned result)) ∨
          s.hasDev = false → Orderly { s with server := .finished } := fun ended =>
        ⟨orderly.opened, fun yet => absurd (orderly.young yet) (by simp [place]), by
          simp [ListenerSession.phase], fun _ => orderly.gone (by rw [place]; rfl), by
          simp [closes], orderly.cancels, fun _ => ended, orderly.returned⟩
      split at moves
      · split at moves
        · simp only [streamStep, Option.map_eq_some_iff] at moves
          obtain ⟨stream, stepped, rfl⟩ := moves
          refine orderly.of_stream stepped (.inr ⟨closing, by simp [place], .called, ?_⟩)
          simp only [Stream.step] at stepped
          split at stepped <;> cases stepped
          simp [Stream.callPc]
        · next noDev =>
            cases moves
            exact finishes (.inr (by simpa using noDev))
      · next result past =>
          cases moves
          exact finishes (.inl ⟨result, past⟩)
      · next notIdle notReturned =>
          obtain ⟨pc, cancels⟩ := orderly.cancels.resolve_left notIdle
          simp only [streamStep, Option.map_eq_some_iff] at moves
          obtain ⟨stream, stepped, rfl⟩ := moves
          refine orderly.of_stream stepped (.inr ⟨closing, by simp [place], ?_⟩)
          simp only [Stream.step, cancels, Stream.callerStep, Stream.setHardStep,
            Stream.calleeStep, Option.none_or, Option.map_map, Option.map_eq_some_iff,
            Prod.exists, Function.comp] at stepped
          obtain ⟨next, pc', -, rfl⟩ := stepped
          exact ⟨pc', by simp⟩
  · cases moves

/-- A step of a listener that lives, which leaves the stream alone. -/
theorem Orderly.of_listener (orderly : s.Orderly) (born : s.listener ≠ .unborn)
    (alive : s.listener ≠ .exited) (stream : s'.stream = s.stream)
    (server : s'.server = s.server) (driver : s'.driver = s.driver)
    (hasDev : s'.hasDev = s.hasDev) : s'.Orderly := by
  refine ⟨stream ▸ orderly.opened, ?_, fun start => ?_, fun down => ?_, ?_,
    stream ▸ orderly.cancels, ?_, ?_⟩
  · exact driver ▸ server ▸ orderly.young
  · exact absurd (orderly.unborn (server ▸ start)) born
  · rcases orderly.gone (server ▸ down) with unborn | exited
    · exact absurd unborn born
    · exact absurd exited alive
  · exact stream ▸ server ▸ orderly.idle
  · rw [server, stream, hasDev]
    exact orderly.ended
  · rw [stream, driver, hasDev]
    exact orderly.returned

theorem Orderly.listener {answer : CommandListenerAnswer} (orderly : s.Orderly)
    (moves : s.listenerStep answer = some s') : s'.Orderly := by
  unfold listenerStep at moves
  split at moves
  · cases moves
  · simp only [Option.map_eq_some_iff, Prod.exists] at moves
    obtain ⟨obj, pc', stepped, rfl⟩ := moves
    refine orderly.of_listener (fun unborn => ?_) (fun exited => ?_) rfl rfl rfl rfl
    · rw [unborn] at stepped
      cases stepped
    · rw [exited] at stepped
      cases stepped

theorem Orderly.command {command : Command} {answer : UsbAnswer} (orderly : s.Orderly)
    (moves : s.commandStep command answer = some s') : s'.Orderly := by
  unfold commandStep at moves
  split at moves
  · cases moves
  · next inside =>
      have place : s.listener = .commandcb := not_not.mp inside
      have living : ∀ t : DeviceSession, t.stream = s.stream → t.server = s.server →
          t.driver = s.driver → t.hasDev = s.hasDev → t.Orderly := fun t =>
        orderly.of_listener (by simp [place]) (by simp [place])
      split at moves
      · split at moves
        · split at moves
          · refine Orderly.stream (living { s with command := .settingRate } rfl rfl rfl rfl)
              moves (by simp) (by simp)
          · cases moves
            exact living _ rfl rfl rfl rfl
          · cases moves
            exact living _ rfl rfl rfl rfl
        · cases moves
          exact living _ rfl rfl rfl rfl
      · split at moves
        · cases moves
          exact living _ rfl rfl rfl rfl
        · exact orderly.stream moves (by simp) (by simp)
      · cases moves
        exact living _ rfl rfl rfl rfl
      · have moves := withLocker_eq_some moves
        simp only [Option.map_eq_some_iff, Prod.exists] at moves
        obtain ⟨obj, pc', -, rfl⟩ := moves
        exact living _ rfl rfl rfl rfl

theorem Orderly.step {label : DeviceLabel} (orderly : s.Orderly)
    (moves : s.step label = some s') : s'.Orderly := by
  have same : ∀ t : DeviceSession, t.stream = s.stream → t.server = s.server →
      t.listener = s.listener → t.driver = s.driver → t.hasDev = s.hasDev → t.Orderly :=
    fun t stream server listener driver hasDev =>
      orderly.of_same stream server listener (driver ▸ id)
        (fun past => orderly.returned (by rwa [hasDev, driver] at past)) (hasDev ▸ id)
  cases label with
  | driver answer => exact orderly.driver moves
  | server answer => exact orderly.server moves
  | closed answer => exact orderly.closed moves
  | listener answer => exact orderly.listener moves
  | command command answer => exact orderly.command moves
  | stop i =>
      have moves := withLocker_eq_some moves
      simp only [Option.map_eq_some_iff, Prod.exists] at moves
      obtain ⟨obj, pc', -, rfl⟩ := moves
      exact same _ rfl rfl rfl rfl rfl
  | complete thread k status => exact orderly.stream moves (by simp) (by simp)
  | feed chunk =>
      simp only [DeviceSession.step] at moves
      split at moves <;> cases moves
      exact same _ rfl rfl rfl rfl rfl
  | feeder =>
      simp only [DeviceSession.step, Option.map_eq_some_iff, Prod.exists] at moves
      obtain ⟨obj, pc', _, -, rfl⟩ := moves
      exact same _ rfl rfl rfl rfl rfl
  | callback answer =>
      simp only [DeviceSession.step] at moves
      split at moves
      · exact orderly.stream moves (by simp) (by simp)
      · cases moves

theorem Orderly.starts (obj : Sdrtcp) (transfer : Driver.Transfer) :
    (initial obj transfer).Orderly :=
  ⟨fun _ => Stream.Opening.starts transfer 0, fun _ => rfl, fun _ => rfl, fun _ => .inl rfl,
    fun _ => rfl, .inl rfl, by simp [initial], by simp [initial]⟩

/-! ## The end of the stream -/

/-- Once `msisdr_cancel_async` has returned in the server's thread, the stream does not run. -/
def Cancelled (s : DeviceSession) : Prop :=
  ∀ result, s.stream.callers 1 = .cancel (.returned result) → s.stream.asyncStatus ≠ .running

/-- A step that leaves the stream alone. -/
theorem Cancelled.of_same (cancelled : s.Cancelled) (same : s'.stream = s.stream) :
    s'.Cancelled := by
  intro result past
  rw [same] at past ⊢
  exact cancelled result past

/-- A step of the stream by another thread than the server's. -/
theorem Cancelled.stream {label : UsbLabel} (cancelled : s.Cancelled)
    (stepped : s.stream.step label = some s'.stream)
    (call : ∀ function, label ≠ .call 1 function) (caller : ∀ answer, label ≠ .caller 1 answer)
    (timely : ∀ answer, label = .reader answer → s.stream.reader = .storeRunning →
      s.stream.callers 1 = .idle ∨ s.stream.callers 1 = .cancel .called)
    (calls : ∀ i answer, label = .caller i answer → s.stream.callers 1 = .idle) :
    s'.Cancelled := by
  intro result past running
  rw [callers_of_stream stepped call caller] at past
  rcases Stream.step_running stepped running with before | ⟨answer, rfl, place⟩ |
    ⟨i, answer, hard, rfl, place⟩
  · exact cancelled result past before
  · rcases timely answer rfl place with idle | called
    · simp [past] at idle
    · simp [past] at called
  · simp [past] at calls

/-- `msisdr_cancel_async` returns on a stream that does not run, or has stored `CANCELING`. -/
theorem cancel_returns {stream stream' : Stream} {pc : CancelAsyncPc} {result : ℤ}
    (moves : stream.cancelAsyncStep pc = some (stream', .returned result)) :
    stream'.asyncStatus ≠ .running := by
  unfold Stream.cancelAsyncStep at moves
  split at moves
  · split at moves <;> cases moves <;> simp_all
  · cases moves
    simp
  · cases moves

/-- A step of the stream by `tcpClosedCallback`. -/
theorem Cancelled.closed {answer : UsbAnswer} {usb : UsbLabel} (orderly : s.Orderly)
    (stepped : s.stream.step usb = some s'.stream)
    (own : usb = .call 1 .cancel ∨ usb = .caller 1 answer) : s'.Cancelled := by
  intro result past
  rcases own with rfl | rfl
  · simp only [Stream.step] at stepped
    split at stepped
    · rw [← Option.some.inj stepped] at past
      simp [Stream.callPc] at past
    · cases stepped
  · rcases orderly.cancels with idle | ⟨pc, cancels⟩
    · simp [Stream.step, idle, Stream.callerStep, Stream.setHardStep, Stream.calleeStep] at stepped
    · simp only [Stream.step, cancels, Stream.callerStep, Stream.setHardStep, Stream.calleeStep,
        Option.none_or, Option.map_map, Option.map_eq_some_iff, Prod.exists,
        Function.comp] at stepped
      obtain ⟨next, pc', returned, same⟩ := stepped
      rw [← same] at past ⊢
      obtain rfl : pc' = .returned result := by simpa using past
      have stopped := cancel_returns returned
      exact stopped

/-- While the listener lives, the server is not in `tcpClosedCallback`. -/
theorem Orderly.idle_of_listener (orderly : s.Orderly) (place : s.listener = .commandcb) :
    s.stream.callers 1 = .idle := by
  refine orderly.idle (eq_false_of_ne_true fun closing => ?_)
  have down : shutsDown s.server = true := by
    revert closing
    cases s.server <;> simp [closes, shutsDown]
  rcases orderly.gone down with unborn | exited
  · simp [place] at unborn
  · simp [place] at exited

theorem Cancelled.step {label : DeviceLabel} (cancelled : s.Cancelled) (orderly : s.Orderly)
    (timely : s.InTime label) (moves : s.step label = some s') : s'.Cancelled := by
  rcases step_stream moves with same | ⟨usb, stepped, issued⟩
  · exact cancelled.of_same same
  cases label with
  | driver answer =>
      obtain ⟨reads, rfl⟩ := issued
      exact cancelled.stream stepped (by simp) (by simp) (fun _ _ => timely reads) (by simp)
  | closed answer => exact Cancelled.closed orderly stepped issued.2
  | command command answer =>
      obtain ⟨place, issued⟩ := issued
      have idle := orderly.idle_of_listener place
      rcases issued with rfl | rfl <;>
        exact cancelled.stream stepped (by simp) (by simp) (by simp) fun _ _ _ => idle
  | complete thread k status =>
      cases issued
      exact cancelled.stream stepped (by simp) (by simp) (by simp) (by simp)
  | callback answer =>
      cases issued
      exact cancelled.stream stepped (by simp) (by simp) (by simp) (by simp)
  | server | listener | stop | feed | feeder => exact issued.elim

theorem Orderly.reached {ok : DeviceSession → DeviceLabel → Prop}
    (reached : Reach DeviceSession.step Starts ok s) : s.Orderly := by
  refine reached.invariant ?_ fun s label s' orderly _ moves => orderly.step moves
  rintro s ⟨obj, transfer, -, rfl⟩
  exact Orderly.starts obj transfer

/-- **The server's end ends the stream**, in every run in which the driver thread stores `RUNNING`
before `tcpClosedCallback` has looked at `async_status`. -/
theorem stream_ends_with_server {s : DeviceSession} (reached : Reach step Starts InTime s) :
    ¬ s.Outlives := by
  have cancelled : s.Orderly ∧ s.Cancelled := by
    refine reached.invariant (I := fun s => s.Orderly ∧ s.Cancelled) ?_
      fun s label s' before timely moves =>
        ⟨before.1.step moves, before.2.step before.1 timely moves⟩
    rintro s ⟨obj, transfer, -, rfl⟩
    exact ⟨Orderly.starts obj transfer, by simp [Cancelled, initial, Stream.initial]⟩
  rintro ⟨finished, inside, running⟩
  rcases cancelled.1.ended finished with ⟨result, past⟩ | noDev
  · exact cancelled.2 result past running
  · obtain ⟨result, place⟩ := cancelled.1.returned (.inl noDev)
    rw [place] at inside
    cases inside

/-- A start that comes too late leaves a stream that outlives the server. -/
theorem late_start_outlives_server {answer usb : UsbAnswer} (reached : Reach step Starts Always s)
    (late : ¬ s.InTime (.driver answer)) :
    ∃ s', s.step (.driver answer) = some s' ∧
      (s'.Outlives ∨ ∃ s'', s'.step (.closed usb) = some s'' ∧ s''.Outlives) := by
  have orderly := Orderly.reached reached
  simp only [InTime, Classical.not_imp] at late
  obtain ⟨reads, place, looked⟩ := late
  obtain ⟨notIdle, notCalled⟩ := not_or.mp looked
  have passive := (orderly.opened (by rw [place]; rfl)).passive 1
  obtain ⟨pc, cancels⟩ := orderly.cancels.resolve_left notIdle
  obtain ⟨result, past⟩ : ∃ result, s.stream.callers 1 = .cancel (.returned result) := by
    rw [cancels] at passive notCalled ⊢
    cases pc with
    | called => exact absurd rfl notCalled
    | store => cases passive
    | returned result => exact ⟨result, rfl⟩
  have closing : closes s.server = true := by
    by_contra early
    exact notIdle (orderly.idle (eq_false_of_ne_true early))
  refine ⟨{ s with stream := { s.stream with
    asyncStatus := .running, reader := .loopTest } }, ?_, ?_⟩
  · simp [DeviceSession.step, openAsyncStep, reads, place, streamStep, Stream.step,
      Stream.readAsyncStep]
  · cases server : s.server with
    | finished => exact .inl ⟨rfl, rfl, rfl⟩
    | closedcb =>
        refine .inr ⟨{ s with server := .finished, stream := { s.stream with
          asyncStatus := .running, reader := .loopTest } }, ?_, rfl, rfl, rfl⟩
        simp [DeviceSession.step, closedStep, past]
    | _ => simp [server, closes] at closing

/-- The driver thread stores `RUNNING` when the server has ended. -/
theorem late_start_outlives_server_earlyStop :
    ∃ s s' : DeviceSession, s.server = .finished ∧ s.step (.driver succeeds) = some s' ∧
      (s'.Outlives ∨ ∃ s'', s'.step (.closed succeeds) = some s'' ∧ s''.Outlives) := by
  have moved : (replay step (initial listening .bulk) (earlyStop.take 50)).map
      (fun s => (s.server, decide (s.InTime (.driver succeeds)))) =
        some (.finished, false) := by decide
  obtain ⟨s, replayed, shown⟩ := Option.map_eq_some_iff.mp moved
  simp only [Prod.mk.injEq, decide_eq_false_iff_not] at shown
  obtain ⟨s', moves, outlives⟩ := late_start_outlives_server
    (Reach.of_replay (.start ⟨listening, .bulk, rfl, rfl⟩) _ replayed) shown.2
  exact ⟨s, s', shown.1, moves, outlives⟩

/-- The stream runs when the stop request comes, and the server cancels it. -/
def stoppedStream : List DeviceLabel :=
  List.replicate 41 (.driver succeeds) ++ List.replicate 3 (.stop 0) ++
    List.replicate 4 (.server ListenerSession.connects) ++ List.replicate 4 (.closed succeeds)

theorem stream_ends_with_server_stoppedStream : ∃ s : DeviceSession, s.server = .finished ∧
    s.stream.reader = .loopTest ∧ s.stream.asyncStatus = .canceling ∧ ¬ s.Outlives := by
  have moved : (replayWhere step InTime (initial listening .bulk) stoppedStream).map
      (fun s => (s.server, s.stream.reader, s.stream.asyncStatus)) =
        some (.finished, .loopTest, .canceling) := by decide
  obtain ⟨s, replayed, shown⟩ := Option.map_eq_some_iff.mp moved
  simp only [Prod.mk.injEq] at shown
  exact ⟨s, shown.1, shown.2.1, shown.2.2, stream_ends_with_server
    (Reach.of_replayWhere (.start ⟨listening, .bulk, rfl, rfl⟩) _ replayed)⟩

end DeviceSession

end MsiSdrDriver.Server
