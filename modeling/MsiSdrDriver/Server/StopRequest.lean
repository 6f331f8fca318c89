import Mathlib.Data.Fin.VecNotation
import MsiSdrDriver.Foundations.LabelledRuns
import MsiSdrDriver.Server.SessionThreads

/-!
# A stop request against the stages of the server

All threads that write `obj->state`, together: the driver thread opens and serves again and
again, each served session has its `tcp_server` thread and its `commandListener`, and any
number of callers run `sdrtcp_stop_serving_client`.

A stop can be undone. `tcp_server` tests for `CLIENT_OPEN` and stores `CLIENT_SERVING` later
without a second test. `CLIENT_OPEN` is numerically below `CLIENT_OPEN_STARTED_ASYNC`, so a
stop in between frees the pool and returns, and the server then serves with a freed pool
(`Sessions.serves_after_stop`).

The same gap lies in each of the other places that test the state and then store it. Where no
stop takes effect and no clean-up runs inside such a gap (`Sessions.OutsideGaps`), a stop is
final until the next `sdrtcp_open_socket` (`Sessions.stop_is_final`).
-/

set_option autoImplicit false

namespace MsiSdrDriver.Server

open MsiSdrDriver.Foundations

/-- Where the driver thread is: it opens the socket and, once that succeeded, serves. -/
inductive DriverPc where
  | opening (pc : OpenSocketPc)
  | serving (pc : ServeClientAsyncPc)
  deriving DecidableEq

/-- The threads of all sessions on one object. `created` counts the `tcp_server` threads.
`stopped` is history: a stop that found the server open has returned since the last call of
`sdrtcp_open_socket` began. -/
structure Sessions where
  obj : Sdrtcp
  driver : DriverPc
  servers : ℕ → TcpServerPc
  listeners : ℕ → CommandListenerPc
  stops : ℕ → StopPc
  created : ℕ
  stopped : Bool

/-- The thread that takes the next step, with what its environment answers. -/
inductive SessionsLabel where
  | driver (input : OpenSocketInput)
  | server (i : ℕ) (answer : TcpServerAnswer)
  | listener (i : ℕ) (answer : CommandListenerAnswer)
  | stop (i : ℕ)

namespace Sessions

/-- After `sdrtcp_init`. -/
def initial : Sessions where
  obj := sdrtcpInit
  driver := .opening .called
  servers := fun _ => .unborn
  listeners := fun _ => .unborn
  stops := fun _ => .called
  created := 0
  stopped := false

/-- One step of the driver thread. -/
def driverStep (s : Sessions) (input : OpenSocketInput) : Option Sessions :=
  match s.driver with
  | .opening (.returned successful) =>
      some { s with driver := if successful then .serving .called else .opening .called }
  | .opening pc =>
      (openSocketStep s.obj input pc).map fun (obj, pc') =>
        { s with
          obj := obj
          driver := .opening pc'
          stopped := if pc = .called then false else s.stopped }
  | .serving .returned => some { s with driver := .opening .called }
  | .serving .createServer =>
      some { s with
        driver := .serving .returned
        servers := Function.update s.servers s.created .waitEntry
        created := s.created + 1 }
  | .serving pc =>
      (serveClientAsyncStep s.obj pc).map fun (obj, pc') =>
        { s with obj := obj, driver := .serving pc' }

/-- One step of the `tcp_server` thread of a session. It creates the command listener, and it
waits for the listener to exit before it shuts down. -/
def serverStep (s : Sessions) (i : ℕ) (answer : TcpServerAnswer) : Option Sessions :=
  if s.servers i = .joinListener ∧ s.listeners i ≠ .exited then none
  else
    (tcpServerStep s.obj answer (s.servers i)).map fun (obj, pc') =>
      { s with
        obj := obj
        servers := Function.update s.servers i pc'
        listeners :=
          if s.servers i = .createListener then Function.update s.listeners i .outerTest
          else s.listeners }

/-- One step of any thread. -/
def step (s : Sessions) : SessionsLabel → Option Sessions
  | .driver input => s.driverStep input
  | .server i answer => s.serverStep i answer
  | .listener i answer =>
      (commandListenerStep s.obj answer (s.listeners i)).map fun (obj, pc') =>
        { s with obj := obj, listeners := Function.update s.listeners i pc' }
  | .stop i =>
      (stopServingClientStep s.obj (s.stops i)).map fun (obj, pc') =>
        { s with
          obj := obj
          stops := Function.update s.stops i pc'
          stopped := s.stopped || s.stops i = .cleanup || s.stops i = .store }

/-- The runs start after `sdrtcp_init`. -/
def Starts (s : Sessions) : Prop := s = initial

/-! ## A stop that is undone -/

/-- A stop is never undone: once it has returned, the state is none of those in which a
session is open, and a serving server has its pool. -/
def StopHolds (s : Sessions) : Prop :=
  (s.stopped = true → s.obj.state ≠ .socketOpen ∧ s.obj.state ≠ .clientOpenStartedAsync ∧
    s.obj.state ≠ .clientOpen ∧ s.obj.state ≠ .clientServing) ∧
  (s.obj.state = .clientServing → s.obj.workpool.valid = true)

/-- The socket opens, and `bind` and `listen` succeed. -/
def opens : OpenSocketInput := ⟨![77, 73, 82, 73], 0, 29, 7, true⟩

/-- A client connects and takes what it is sent. -/
def connects : TcpServerAnswer := ⟨true, 8, .ready, some 12⟩

/-- A session is opened up to the test for `CLIENT_OPEN`, a stop runs and returns, and the
server goes on. -/
def undoneStop : List SessionsLabel :=
  List.replicate 11 (.driver opens) ++ List.replicate 9 (.server 0 connects) ++
    List.replicate 3 (.stop 0) ++ List.replicate 2 (.server 0 connects)

/-- **A stop can be undone.** It has returned, its clean-up has freed the pool, and the server
serves all the same. -/
theorem serves_after_stop :
    ¬ ∀ s : Sessions, Reach step Starts Always s → s.StopHolds := by
  intro holds
  have moved : (replay step initial undoneStop).map
      (fun s => (s.stopped, s.obj.state, s.obj.workpool.valid)) =
        some (true, .clientServing, false) := by decide
  obtain ⟨s, replayed, shown⟩ := Option.map_eq_some_iff.mp moved
  simp only [Prod.mk.injEq] at shown
  obtain ⟨stopped, serving, -⟩ := shown
  exact ((holds s (Reach.of_replay (.start rfl) _ replayed)).1 stopped).2.2.2 serving

/-! ## The gaps between a test and its store -/

/-- The driver thread has made a test and is going to store the state that the test guards. -/
def driverStoreDue : DriverPc → Bool
  | .opening (.createSocket descriptor) => descriptor ≠ -1
  | .serving .start => true
  | _ => false

/-- Some thread is between a test of `obj->state` and the store that this test guards. -/
def StoreDue (s : Sessions) : Prop :=
  driverStoreDue s.driver = true ∨ ∃ i < s.created, (s.servers i).storeDue = true

/-- The driver thread is going to store `SOCKET_OPEN`. It looks at the listening socket before
it does, and a clean-up takes that away. -/
def SocketOpenDue (s : Sessions) : Prop :=
  s.driver = .opening .storeSocketOpen ∧ s.obj.listenSocket ≠ -1

/-- The driver thread is going to run `sdrtcp_cleanup`. -/
def driverCleansUp : DriverPc → Bool
  | .opening .failure | .serving .close => true
  | _ => false

instance (s : Sessions) : Decidable s.StoreDue := by
  unfold StoreDue
  infer_instance

instance (s : Sessions) : Decidable s.SocketOpenDue := by
  unfold SocketOpenDue
  infer_instance

/-- No clean-up runs, and no stop takes effect, between a test of `obj->state` and the store
that the test guards; and no stop takes effect between the test with which
`sdrtcp_open_socket` begins and its store of `INITIALIZED`. -/
def OutsideGaps (s : Sessions) : SessionsLabel → Prop
  | .driver _ => driverCleansUp s.driver = true → ¬ s.StoreDue
  | .server i _ => s.servers i = .cleanup → ¬ s.StoreDue
  | .listener _ _ => True
  | .stop i =>
      (s.stops i = .cleanup → ¬ s.StoreDue ∧ s.driver ≠ .opening .setUp) ∧
      (s.stops i = .store → ¬ s.StoreDue ∧ s.driver ≠ .opening .setUp ∧ ¬ s.SocketOpenDue)

instance : DecidableRel OutsideGaps := by
  intro s label
  cases label <;> unfold OutsideGaps <;> infer_instance

/-! ## Outside the gaps a stop is final -/

/-- What holds in a run that keeps outside the gaps. -/
structure Sound (s : Sessions) : Prop where
  unborn : ∀ i, s.created ≤ i → s.servers i = .unborn
  /-- an open session has its pool -/
  live : s.obj.state ≠ .uninitialized → s.obj.state ≠ .needsStopping →
    s.obj.workpool.valid = true
  /-- the test that a store follows has found the pool -/
  due : s.StoreDue ∨ s.SocketOpenDue → s.obj.workpool.valid = true
  /-- the socket that is about to be announced belongs to a session -/
  socket : driverStoreDue s.driver = true ∨ s.SocketOpenDue → s.obj.state ≠ .uninitialized
  /-- no socket is there before it is created -/
  noSocket : s.driver = .opening .socketTest → s.obj.listenSocket = -1
  /-- after a stop the session is over, and no store is due that would open it -/
  final : s.stopped = true →
    (s.obj.state = .uninitialized ∨ s.obj.state = .needsStopping) ∧ ¬ s.StoreDue ∧
      ¬ s.SocketOpenDue ∧ s.driver ≠ .opening .setUp

theorem Sound.stopHolds {s : Sessions} (sound : s.Sound) : s.StopHolds := by
  refine ⟨fun stopped => ?_, fun serving => ?_⟩
  · rcases (sound.final stopped).1 with closed | stopping
    · simp [closed]
    · simp [stopping]
  · exact sound.live (by simp [serving]) (by simp [serving])

variable {s s' : Sessions}

/-- No store is due in the driver thread, and none can become due by its next step without a
test. -/
def driverRests : DriverPc → Bool
  | .opening (.createSocket _) | .serving .start => false
  | .opening .setUp | .opening .socketTest | .opening .storeSocketOpen => false
  | _ => true

theorem driverStoreDue_of_rests {pc : DriverPc} (rests : driverRests pc = true) :
    driverStoreDue pc = false := by
  cases pc with
  | opening pc => cases pc <;> first | rfl | cases rests
  | serving pc => cases pc <;> first | rfl | cases rests

/-- The object settles, the driver thread stays where it is, and a store becomes due only on a
test that finds the server started. -/
theorem Sound.settles (sound : s.Sound) (settled : s.obj.Settles s'.obj)
    (unborn : ∀ i, s'.created ≤ i → s'.servers i = .unborn) (driver : s'.driver = s.driver)
    (stopped : s'.stopped = s.stopped)
    (due : s'.StoreDue → s.StoreDue ∨ s.obj.state = .clientOpenStartedAsync ∨
      s.obj.state = .clientOpen) : s'.Sound := by
  have socketOpenDue : s'.SocketOpenDue ↔ s.SocketOpenDue := by
    unfold SocketOpenDue
    rw [driver, settled.listenSocket]
  refine ⟨unborn, ?_, ?_, ?_, ?_, ?_⟩
  · intro opened running
    rw [settled.valid]
    rcases settled.state with same | stopping
    · exact sound.live (same ▸ opened) (same ▸ running)
    · exact absurd stopping running
  · rw [settled.valid, socketOpenDue]
    rintro (store | socket)
    · rcases due store with before | started | client
      · exact sound.due (.inl before)
      · exact sound.live (by simp [started]) (by simp [started])
      · exact sound.live (by simp [client]) (by simp [client])
    · exact sound.due (.inr socket)
  · rw [driver, socketOpenDue]
    intro waits
    rcases settled.state with same | stopping
    · rw [same]
      exact sound.socket waits
    · simp [stopping]
  · rw [driver, settled.listenSocket]
    exact sound.noSocket
  · rw [stopped, driver, socketOpenDue]
    intro before
    obtain ⟨closed, noStore, noSocket, noSetUp⟩ := sound.final before
    refine ⟨?_, ?_, noSocket, noSetUp⟩
    · rcases settled.state with same | stopping
      · rw [same]
        exact closed
      · exact .inr stopping
    · intro store
      rcases due store with before | started | client
      · exact noStore before
      · simp [started] at closed
      · simp [client] at closed

/-- A store that was due is made. -/
theorem Sound.stores (sound : s.Sound) (due : s.StoreDue ∨ s.SocketOpenDue) {stage : Stage}
    (opens : stage ≠ .uninitialized) (obj : s'.obj = { s.obj with state := stage })
    (unborn : ∀ i, s'.created ≤ i → s'.servers i = .unborn)
    (driver : s'.driver = .opening .socketTest → s.driver = .opening .socketTest)
    (stopped : s'.stopped = s.stopped) : s'.Sound := by
  have valid : s'.obj.workpool.valid = true := by
    rw [obj]
    exact sound.due due
  refine ⟨unborn, fun _ _ => valid, fun _ => valid, fun _ => ?_, fun test => ?_, fun final => ?_⟩
  · rw [obj]
    exact opens
  · rw [obj]
    exact sound.noSocket (driver test)
  · obtain ⟨-, noStore, noSocket, -⟩ := sound.final (stopped ▸ final)
    rcases due with store | socket
    · exact absurd store noStore
    · exact absurd socket noSocket

/-- A clean-up that no due store follows. -/
theorem Sound.cleansUp (sound : s.Sound) (obj : s'.obj = sdrtcpCleanup s.obj)
    (unborn : ∀ i, s'.created ≤ i → s'.servers i = .unborn)
    (driver : driverRests s'.driver = true ∨ s'.driver = s.driver) (quiet : ¬ s'.StoreDue)
    (noSetUp : s'.stopped = true → s'.driver ≠ .opening .setUp) : s'.Sound := by
  have closed : s'.obj.state = .uninitialized := by
    rw [obj, sdrtcpCleanup_state]
  have socketOpenDue : ¬ s'.SocketOpenDue := by
    rintro ⟨place, there⟩
    rcases driver with rests | same
    · rw [place] at rests
      cases rests
    · rw [obj] at there
      unfold sdrtcpCleanup at there
      split at there
      · next already => exact sound.socket (.inr ⟨same ▸ place, there⟩) already
      · exact there rfl
  refine ⟨unborn, fun opened => absurd closed opened, ?_, ?_, ?_, ?_⟩
  · rintro (store | socket)
    · exact absurd store quiet
    · exact absurd socket socketOpenDue
  · rintro (store | socket)
    · exact absurd (.inl store) quiet
    · exact absurd socket socketOpenDue
  · intro test
    rcases driver with rests | same
    · rw [test] at rests
      cases rests
    · rw [obj]
      unfold sdrtcpCleanup
      split
      · exact sound.noSocket (same ▸ test)
      · rfl
  · intro final
    exact ⟨.inl closed, quiet, socketOpenDue, noSetUp final⟩

/-- The driver thread moves on to a place from which it stores nothing. -/
theorem Sound.rests (sound : s.Sound) (obj : s'.obj = s.obj)
    (unborn : ∀ i, s'.created ≤ i → s'.servers i = .unborn)
    (rests : driverRests s'.driver = true) (due : s'.StoreDue → s.StoreDue)
    (stopped : s'.stopped = true → s.stopped = true) : s'.Sound := by
  have noSocketDue : ¬ s'.SocketOpenDue := by
    rintro ⟨place, -⟩
    rw [place] at rests
    cases rests
  refine ⟨unborn, ?_, ?_, ?_, ?_, ?_⟩
  · rw [obj]
    exact sound.live
  · rintro (store | socket)
    · rw [obj]
      exact sound.due (.inl (due store))
    · exact absurd socket noSocketDue
  · rintro (store | socket)
    · rw [driverStoreDue_of_rests rests] at store
      cases store
    · exact absurd socket noSocketDue
  · intro place
    rw [place] at rests
    cases rests
  · intro final
    obtain ⟨closed, noStore, -, -⟩ := sound.final (stopped final)
    refine ⟨obj ▸ closed, fun store => noStore (due store), noSocketDue, fun place => ?_⟩
    rw [place] at rests
    cases rests

/-- A test of the driver thread found an open session, and a store may follow. -/
theorem Sound.tests (sound : s.Sound) (obj : s'.obj = s.obj)
    (unborn : ∀ i, s'.created ≤ i → s'.servers i = .unborn)
    (opened : s.obj.state = .initialized ∨ s.obj.state = .socketOpen)
    (noTest : s'.driver ≠ .opening .socketTest) (stopped : s'.stopped = s.stopped) :
    s'.Sound := by
  have valid : s'.obj.workpool.valid = true := by
    rw [obj]
    rcases opened with state | state <;> exact sound.live (by simp [state]) (by simp [state])
  refine ⟨unborn, fun _ _ => valid, fun _ => valid, fun _ => ?_, fun test => absurd test noTest,
    fun final => ?_⟩
  · rw [obj]
    rcases opened with state | state <;> simp [state]
  · rcases (sound.final (stopped ▸ final)).1 with closed | stopping <;>
      rcases opened with state | state <;> simp_all

/-- The driver thread comes to the store of `SOCKET_OPEN`, with a socket only if it has just
created one. -/
theorem Sound.announces (sound : s.Sound) {descriptor : ℤ}
    (obj : s'.obj = { s.obj with listenSocket := descriptor })
    (place : s'.driver = .opening .storeSocketOpen) (servers : s'.servers = s.servers)
    (created : s'.created = s.created) (stopped : s'.stopped = s.stopped)
    (there : descriptor ≠ -1 → driverStoreDue s.driver = true) : s'.Sound := by
  have due : s'.StoreDue → s.StoreDue := by
    unfold StoreDue
    rw [place, servers, created]
    exact fun store => store.imp_left fun store => by cases store
  have socketOpenDue : s'.SocketOpenDue → driverStoreDue s.driver = true := by
    rintro ⟨-, socket⟩
    rw [obj] at socket
    exact there socket
  refine ⟨?_, ?_, ?_, ?_, ?_, ?_⟩
  · rw [servers, created]
    exact sound.unborn
  · rw [obj]
    exact sound.live
  · rw [obj]
    rintro (store | socket)
    · exact sound.due (.inl (due store))
    · exact sound.due (.inl (.inl (socketOpenDue socket)))
  · rw [obj, place]
    rintro (store | socket)
    · cases store
    · exact sound.socket (.inl (socketOpenDue socket))
  · rw [place]
    intro test
    cases test
  · intro final
    obtain ⟨closed, noStore, -, -⟩ := sound.final (stopped ▸ final)
    rw [obj, place]
    exact ⟨closed, fun store => noStore (due store),
      fun socket => noStore (.inl (socketOpenDue socket)), by simp⟩

/-- A step inside `sdrtcp_open_socket`, taken apart. -/
theorem driverStep_opening {input : OpenSocketInput} {pc : OpenSocketPc}
    (place : s.driver = .opening pc) (running : ∀ successful, pc ≠ .returned successful)
    (moves : s.driverStep input = some s') :
    ∃ obj pc', openSocketStep s.obj input pc = some (obj, pc') ∧
      s' = { s with
        obj := obj
        driver := .opening pc'
        stopped := if pc = .called then false else s.stopped } := by
  unfold driverStep at moves
  rw [place] at moves
  cases pc with
  | returned successful => exact absurd rfl (running successful)
  | called | setUp | socketTest | createSocket descriptor | storeSocketOpen | bindTest
  | successTest success | failure =>
      simp only [Option.map_eq_some_iff, Prod.exists] at moves
      obtain ⟨obj, pc', stepped, rfl⟩ := moves
      exact ⟨obj, pc', stepped, rfl⟩

/-- A step of `sdrtcp_open_socket` that is neither at its end nor at its beginning. -/
theorem Sound.opening {input : OpenSocketInput} {pc : OpenSocketPc} (sound : s.Sound)
    (outside : OutsideGaps s (.driver input)) (place : s.driver = .opening pc)
    (running : ∀ successful, pc ≠ .returned successful)
    (moves : s.driverStep input = some s') : s'.Sound := by
  have unborn := sound.unborn
  obtain ⟨obj, pc', stepped, rfl⟩ := driverStep_opening place running moves
  cases pc with
  | returned successful => exact absurd rfl (running successful)
  | called =>
      simp only [openSocketStep] at stepped
      split at stepped <;> cases stepped
      · exact sound.rests rfl unborn rfl
          (fun due => due.imp_left fun store => by cases store) (by simp)
      · refine ⟨unborn, sound.live, ?_, ?_, ?_, ?_⟩
        · rintro (store | ⟨place, -⟩)
          · exact sound.due (.inl (store.imp_left fun store => by cases store))
          · cases place
        · rintro (store | ⟨place, -⟩)
          · cases store
          · cases place
        · intro place
          cases place
        · simp
  | setUp =>
      cases stepped
      have running : s.stopped = false := by
        by_contra final
        exact (sound.final (by simpa using final)).2.2.2 place
      have valid : (sdrtcpOpenPool s.obj.workpool (dongleInfo input.dongleMagic
          input.dongleType input.gainsCount)).valid = true := by
        rw [sdrtcpOpenPool_eq]
      exact ⟨unborn, fun _ _ => valid, fun _ => valid, fun _ => by simp, fun _ => rfl,
        fun final => by simp [running] at final⟩
  | socketTest =>
      simp only [openSocketStep] at stepped
      split at stepped <;> cases stepped
      · next opened => exact sound.tests rfl unborn (.inl opened) (by simp) (by simp)
      · exact sound.announces rfl rfl rfl rfl (by simp)
          fun there => absurd (sound.noSocket place) there
  | createSocket descriptor =>
      cases stepped
      exact sound.announces rfl rfl rfl rfl (by simp)
        fun there => by simpa [place, driverStoreDue] using there
  | storeSocketOpen =>
      simp only [openSocketStep] at stepped
      split at stepped <;> cases stepped
      · next there =>
          exact sound.stores (.inr ⟨place, there⟩) (by simp) rfl unborn (by simp) (by simp)
      · exact sound.rests rfl unborn rfl
          (fun due => due.imp_left fun store => by cases store) (by simp)
  | bindTest =>
      simp only [openSocketStep] at stepped
      split at stepped <;> cases stepped <;>
        exact sound.rests rfl unborn rfl
          (fun due => due.imp_left fun store => by cases store) (by simp)
  | successTest success =>
      simp only [openSocketStep] at stepped
      split at stepped <;> cases stepped <;>
        exact sound.rests rfl unborn rfl
          (fun due => due.imp_left fun store => by cases store) (by simp)
  | failure =>
      cases stepped
      have quiet := outside (by simp [driverCleansUp, place])
      exact sound.cleansUp rfl unborn (.inl rfl)
        (fun due => quiet (due.imp_left fun store => by cases store)) (by simp)

/-- A step of `sdrtcp_serve_client_async` that is not at its end. -/
theorem driverStep_serving {input : OpenSocketInput} {pc : ServeClientAsyncPc}
    (place : s.driver = .serving pc) (running : pc ≠ .returned) (inside : pc ≠ .createServer)
    (moves : s.driverStep input = some s') :
    ∃ obj pc', serveClientAsyncStep s.obj pc = some (obj, pc') ∧
      s' = { s with obj := obj, driver := .serving pc' } := by
  unfold driverStep at moves
  rw [place] at moves
  cases pc with
  | returned => exact absurd rfl running
  | createServer => exact absurd rfl inside
  | called | closedcb | close | start =>
      simp only [Option.map_eq_some_iff, Prod.exists] at moves
      obtain ⟨obj, pc', stepped, rfl⟩ := moves
      exact ⟨obj, pc', stepped, rfl⟩

/-- Where one `tcp_server` thread moved, a store that is due is due there, or was due before. -/
theorem storeDue_of_update {i : ℕ} {pc' : TcpServerPc}
    (servers : s'.servers = Function.update s.servers i pc')
    (created : ∀ j, j < s'.created → j ≠ i → j < s.created)
    (store : ∃ j < s'.created, (s'.servers j).storeDue = true) :
    pc'.storeDue = true ∨ ∃ j < s.created, (s.servers j).storeDue = true := by
  obtain ⟨j, young, store⟩ := store
  by_cases same : j = i
  · subst same
    rw [servers, Function.update_self] at store
    exact .inl store
  · rw [servers, Function.update_of_ne same] at store
    exact .inr ⟨j, created j young same, store⟩

/-- A new `tcp_server` thread starts with a test. -/
theorem Sound.createsServer (sound : s.Sound) (obj : s'.obj = s.obj)
    (driver : s'.driver = .serving .returned)
    (servers : s'.servers = Function.update s.servers s.created .waitEntry)
    (created : s'.created = s.created + 1) (stopped : s'.stopped = s.stopped) : s'.Sound := by
  refine sound.rests obj ?_ (by rw [driver]; rfl) ?_ (stopped ▸ id)
  · intro i old
    rw [servers, Function.update_of_ne (by omega)]
    exact sound.unborn i (by omega)
  · rintro (store | store)
    · rw [driver] at store
      cases store
    · rcases storeDue_of_update servers (fun j young new => by omega) store with new | before
      · cases new
      · exact .inr before

theorem Sound.serving {input : OpenSocketInput} {pc : ServeClientAsyncPc} (sound : s.Sound)
    (outside : OutsideGaps s (.driver input)) (place : s.driver = .serving pc)
    (running : pc ≠ .returned) (inside : pc ≠ .createServer)
    (moves : s.driverStep input = some s') : s'.Sound := by
  have unborn := sound.unborn
  obtain ⟨obj, pc', stepped, rfl⟩ := driverStep_serving place running inside moves
  cases pc with
  | returned => exact absurd rfl running
  | createServer => exact absurd rfl inside
  | called =>
      simp only [serveClientAsyncStep] at stepped
      split at stepped <;> cases stepped
      · exact sound.rests rfl unborn rfl
          (fun due => due.imp_left fun store => by cases store) id
      · next opened =>
          exact sound.tests rfl unborn (.inr (by simpa using opened)) (by simp) rfl
  | closedcb =>
      cases stepped
      exact sound.rests rfl unborn rfl
        (fun due => due.imp_left fun store => by cases store) id
  | close =>
      cases stepped
      have quiet := outside (by simp [driverCleansUp, place])
      exact sound.cleansUp rfl unborn (.inl rfl)
        (fun due => quiet (due.imp_left fun store => by cases store)) (by simp)
  | start =>
      cases stepped
      exact sound.stores (.inl (.inl (by simp [place, driverStoreDue]))) (by simp) rfl unborn
        (by simp) rfl

/-- A step of the driver thread keeps to the stages. -/
theorem Sound.driver {input : OpenSocketInput} (sound : s.Sound)
    (outside : OutsideGaps s (.driver input)) (moves : s.step (.driver input) = some s') :
    s'.Sound := by
  have rests : ∀ pc, driverRests pc = true → Sound { s with driver := pc } := fun pc rests =>
    sound.rests rfl sound.unborn rests
      (fun due => due.imp_left fun store => by
        rw [driverStoreDue_of_rests rests] at store
        cases store) id
  cases place : s.driver with
  | opening pc =>
      by_cases returned : ∃ successful, pc = .returned successful
      · obtain ⟨successful, rfl⟩ := returned
        simp only [step, driverStep, place] at moves
        cases moves
        exact rests _ (by cases successful <;> rfl)
      · exact sound.opening outside place (fun b same => returned ⟨b, same⟩) moves
  | serving pc =>
      by_cases returned : pc = .returned
      · subst returned
        simp only [step, driverStep, place] at moves
        cases moves
        exact rests _ rfl
      · by_cases creates : pc = .createServer
        · subst creates
          simp only [step, driverStep, place] at moves
          cases moves
          exact sound.createsServer rfl rfl rfl rfl rfl
        · exact sound.serving outside place returned creates moves

/-! ### The other threads -/

/-- A step of a `tcp_server` thread, taken apart. -/
theorem server_step {i : ℕ} {answer : TcpServerAnswer}
    (moves : s.step (.server i answer) = some s') :
    ∃ obj pc', tcpServerStep s.obj answer (s.servers i) = some (obj, pc') ∧
      s'.obj = obj ∧ s'.driver = s.driver ∧ s'.servers = Function.update s.servers i pc' ∧
      s'.created = s.created ∧ s'.stopped = s.stopped := by
  simp only [step, serverStep] at moves
  split at moves
  · cases moves
  · simp only [Option.map_eq_some_iff, Prod.exists] at moves
    obtain ⟨obj, pc', stepped, rfl⟩ := moves
    exact ⟨obj, pc', stepped, rfl, rfl, rfl, rfl, rfl⟩

theorem Sound.server {i : ℕ} {answer : TcpServerAnswer} (sound : s.Sound)
    (outside : OutsideGaps s (.server i answer)) (moves : s.step (.server i answer) = some s') :
    s'.Sound := by
  obtain ⟨obj, pc', stepped, rfl, driver, servers, created, stopped⟩ := server_step moves
  have young : i < s.created := by
    by_contra old
    rw [sound.unborn i (by omega)] at stepped
    cases stepped
  have unborn : ∀ j, s'.created ≤ j → s'.servers j = .unborn := by
    intro j old
    rw [servers, Function.update_of_ne (by omega)]
    exact sound.unborn j (by omega)
  have due : s'.StoreDue → s.StoreDue ∨ pc'.storeDue = true := by
    rintro (store | store)
    · exact .inl (.inl (driver ▸ store))
    · rcases storeDue_of_update servers (fun j before _ => created ▸ before) store with
        newly | before
      · exact .inr newly
      · exact .inl (.inr before)
  rcases tcpServerStep_cases stepped with ⟨place, obj, -⟩ | ⟨place, obj, -⟩ |
    ⟨place, obj, rfl⟩ | ⟨settled, -, newlyDue⟩
  · exact sound.stores (.inl (.inr ⟨i, young, by rw [place]; rfl⟩)) (by simp) obj unborn
      (driver ▸ id) stopped
  · exact sound.stores (.inl (.inr ⟨i, young, by rw [place]; rfl⟩)) (by simp) obj unborn
      (driver ▸ id) stopped
  · refine sound.cleansUp obj unborn (.inr driver) (fun store => ?_) fun final => ?_
    · rcases due store with before | closing
      · exact outside place before
      · cases closing
    · rw [driver]
      exact (sound.final (stopped ▸ final)).2.2.2
  · refine sound.settles settled unborn driver stopped fun store => ?_
    rcases due store with before | newly
    · exact .inl before
    · exact (newlyDue newly).imp_left fun before => .inr ⟨i, young, before⟩

theorem Sound.listener {i : ℕ} {answer : CommandListenerAnswer} (sound : s.Sound)
    (moves : s.step (.listener i answer) = some s') : s'.Sound := by
  simp only [step, Option.map_eq_some_iff, Prod.exists] at moves
  obtain ⟨obj, pc', stepped, rfl⟩ := moves
  exact sound.settles (commandListenerStep_settles stepped) sound.unborn rfl rfl .inl

theorem Sound.stop {i : ℕ} (sound : s.Sound) (outside : OutsideGaps s (.stop i))
    (moves : s.step (.stop i) = some s') : s'.Sound := by
  simp only [step, Option.map_eq_some_iff, Prod.exists] at moves
  obtain ⟨obj, pc', stepped, rfl⟩ := moves
  cases place : s.stops i with
  | called | compare =>
      rw [place] at stepped
      simp only [stopServingClientStep] at stepped
      split at stepped <;> cases stepped <;>
        exact sound.settles (.refl _) sound.unborn rfl (by simp) .inl
  | cleanup =>
      rw [place] at stepped
      cases stepped
      obtain ⟨quiet, noSetUp⟩ := outside.1 place
      exact sound.cleansUp rfl sound.unborn (.inr rfl) quiet fun _ => noSetUp
  | store =>
      rw [place] at stepped
      cases stepped
      obtain ⟨quiet, noSetUp, noSocket⟩ := outside.2 place
      refine ⟨sound.unborn, fun _ running => absurd rfl running, sound.due, fun _ => by simp,
        sound.noSocket, fun _ => ⟨.inr rfl, quiet, noSocket, noSetUp⟩⟩
  | returned =>
      rw [place] at stepped
      cases stepped

/-- A step outside the gaps, whichever thread makes it. -/
theorem Sound.step {label : SessionsLabel} (sound : s.Sound) (outside : OutsideGaps s label)
    (moves : s.step label = some s') : s'.Sound := by
  cases label with
  | driver input => exact sound.driver outside moves
  | server i answer => exact sound.server outside moves
  | listener i answer => exact sound.listener moves
  | stop i => exact sound.stop outside moves

theorem Sound.starts : Sound initial :=
  ⟨fun _ _ => rfl, fun opened => absurd rfl opened,
    by simp [StoreDue, SocketOpenDue, initial, driverStoreDue],
    by simp [SocketOpenDue, initial, driverStoreDue], by simp [initial], by simp [initial]⟩

/-- **Outside the gaps a stop is final.** In every run in which no stop takes effect and no
clean-up runs between a test of the state and its store, no state after a stop is one of an
open session until `sdrtcp_open_socket` is called again, and the server serves only with its
pool. -/
theorem stop_is_final {s : Sessions} (reached : Reach step Starts OutsideGaps s) :
    s.StopHolds := by
  have sound : s.Sound := by
    refine reached.invariant ?_ fun s label s' sound outside moves => sound.step outside moves
    rintro s rfl
    exact Sound.starts
  exact sound.stopHolds

/-- A session is opened and served, and then stopped. -/
def stoppedSession : List SessionsLabel :=
  List.replicate 11 (.driver opens) ++ List.replicate 11 (.server 0 connects) ++
    List.replicate 3 (.stop 0)

theorem stop_is_final_stoppedSession :
    ∃ s : Sessions, s.stopped = true ∧ s.obj.state = .needsStopping ∧ s.StopHolds := by
  have moved : (replayWhere step OutsideGaps initial stoppedSession).map
      (fun s => (s.stopped, s.obj.state)) = some (true, .needsStopping) := by decide
  obtain ⟨s, replayed, shown⟩ := Option.map_eq_some_iff.mp moved
  simp only [Prod.mk.injEq] at shown
  exact ⟨s, shown.1, shown.2,
    stop_is_final (Reach.of_replayWhere (.start rfl) _ replayed)⟩

end Sessions

end MsiSdrDriver.Server
