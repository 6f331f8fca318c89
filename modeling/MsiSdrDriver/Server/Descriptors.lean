import MsiSdrDriver.Server.StopRequest

/-!
# The sockets of the server

Two descriptors are obtained in a session, the listening socket from `socket` and the client's
from `accept`, and `sdrtcp_cleanup` is to close both. It never closes the client's. It closes the
listening socket if the stage that it finds says that there is one, and it works in steps, with
`state_locker` held but with the stage already `UNINITIALIZED`. Here the sessions of
`Sessions` are run with `sdrtcp_cleanup` taken apart, and with a table of the descriptors that are
open.

What a step does to the sockets is said once, for the driver thread (`Sessions.DriverMove`), for
the others (`Sessions.Spares`) and for the whole server (`SocketServer.Moves`). In every run each
session has the thread that serves it (`SocketServer.Lineage`), `listen_socket` holds a descriptor
that is open (`SocketServer.Held`), and no descriptor is closed twice
(`SocketServer.closes_once`).
-/

set_option autoImplicit false

namespace MsiSdrDriver.Server

open MsiSdrDriver.Foundations

/-! ## Clean-up in steps -/

/-- A thread that can be inside `sdrtcp_cleanup`. -/
inductive CleanupThread where
  | driver
  | server (i : ℕ)
  | stop (i : ℕ)
  deriving DecidableEq

/-- Where a thread is inside `sdrtcp_cleanup`, once it has found an open stage and stored
`UNINITIALIZED`. -/
inductive CleanupPc where
  /-- the test of the stage and of `listen_socket` -/
  | closeTest
  | close
  /-- before the pool is freed and the descriptors are cleared -/
  | poolFree
  deriving DecidableEq

/-- The thread that holds `state_locker` inside `sdrtcp_cleanup`. -/
structure Cleaner where
  thread : CleanupThread
  prevState : Stage
  pc : CleanupPc

/-- An open descriptor, with the session in which it was obtained. -/
structure Descriptor where
  number : ℤ
  session : ℕ
  deriving DecidableEq

/-- The sessions with their descriptors. `resets` tells whether `sdrtcp_open_socket` has found
`UNINITIALIZED` and has still to clear `listen_socket`; `descriptors` is the table of what
`socket` and `accept` have returned and `close` has not been given since. The rest is history:
`close` has been given a descriptor other than `-1` that is not in the table; the number of the
session that was opened last; and the session of each `tcp_server` thread, where the next thread
to be created belongs to the session that was opened last. -/
structure SocketServer where
  sessions : Sessions
  resets : Bool
  cleaner : Option Cleaner
  descriptors : List Descriptor
  closedTwice : Bool
  session : ℕ
  serves : ℕ → ℕ

namespace Sessions

/-- The thread that calls `sdrtcp_cleanup` in its next step. -/
def cleansUp (s : Sessions) : SessionsLabel → Option CleanupThread
  | .driver _ => if driverCleansUp s.driver then some .driver else none
  | .server i _ => if s.servers i = .cleanup then some (.server i) else none
  | .stop i => if s.stops i = .cleanup then some (.stop i) else none
  | .listener _ _ => none

/-- The other steps that take `state_locker`. -/
def takesLocker (s : Sessions) : SessionsLabel → Bool
  | .driver _ => s.driver = .opening .setUp || s.driver = .opening .storeSocketOpen
  | .server i _ => s.servers i = .storeServing || s.servers i = .shutdownTest
  | .stop _ | .listener _ _ => false

/-- The pool is freed, and the descriptors are cleared. -/
def cleared (s : Sessions) : Sessions :=
  { s with
    obj := { s.obj with
      workpool := poolFree s.obj.workpool
      clientSocket := -1
      listenSocket := -1 } }

/-- The thread returns from `sdrtcp_cleanup`. -/
def cleanupReturns (s : Sessions) : CleanupThread → Sessions
  | .driver =>
      match s.driver with
      | .opening _ => { s with driver := .opening (.returned false) }
      | .serving _ => { s with driver := .serving .returned }
  | .server i => { s with servers := Function.update s.servers i .closedcb }
  | .stop i => { s with stops := Function.update s.stops i .returned, stopped := true }

/-- The descriptor that `socket` or `accept` returns in a step. -/
def obtains (s : Sessions) : SessionsLabel → Option ℤ
  | .driver input =>
      if s.driver = .opening .socketTest ∧ s.obj.state = .initialized ∧ input.socket ≠ -1 then
        some input.socket
      else none
  | .server i answer =>
      if s.servers i = .acceptTest ∧ s.obj.state = .clientOpenStartedAsync ∧
          answer.accept ≠ -1 then
        some answer.accept
      else none
  | .stop _ | .listener _ _ => none

/-- The driver thread is at work for the session that it has opened, and has not handed it to a
`tcp_server` thread. -/
def within : DriverPc → Bool
  | .opening .called | .opening (.returned false) | .serving .returned => false
  | _ => true

end Sessions

namespace SocketServer

/-- The descriptor is in the table. -/
def isOpen (s : SocketServer) (number : ℤ) : Bool := s.descriptors.any (·.number = number)

/-- The session for which a thread works. -/
def sessionOf (s : SocketServer) : SessionsLabel → ℕ
  | .server i _ => s.serves i
  | _ => s.session

/-- `sdrtcp_cleanup` finds an open stage and stores `UNINITIALIZED`. -/
def beginsCleanup (s : SocketServer) (thread : CleanupThread) : SocketServer :=
  { s with
    sessions := { s.sessions with obj := { s.sessions.obj with state := .uninitialized } }
    cleaner := some ⟨thread, s.sessions.obj.state, .closeTest⟩ }

/-- One step of `sdrtcp_cleanup`. -/
def cleanupStep (s : SocketServer) (c : Cleaner) : SocketServer :=
  match c.pc with
  | .closeTest =>
      if Stage.initialized.code < c.prevState.code ∧ s.sessions.obj.listenSocket ≠ -1 then
        { s with cleaner := some { c with pc := .close } }
      else { s with cleaner := some { c with pc := .poolFree } }
  | .close =>
      { s with
        sessions := { s.sessions with obj := { s.sessions.obj with listenSocket := -1 } }
        cleaner := some { c with pc := .poolFree }
        descriptors := s.descriptors.filter (·.number ≠ s.sessions.obj.listenSocket)
        closedTwice := s.closedTwice ||
          (s.sessions.obj.listenSocket ≠ -1 && !s.isOpen s.sessions.obj.listenSocket) }
  | .poolFree =>
      { s with
        sessions := s.sessions.cleared.cleanupReturns c.thread
        cleaner := none }

/-- A step of the sessions, in which `socket` and `accept` return no descriptor that is open. -/
def sessionsStep (s : SocketServer) (label : SessionsLabel) : Option SocketServer :=
  match s.sessions.obtains label with
  | some number =>
      if s.isOpen number then none
      else
        (s.sessions.step label).map fun sessions =>
          { s with
            sessions := sessions
            descriptors := ⟨number, s.sessionOf label⟩ :: s.descriptors }
  | none => (s.sessions.step label).map fun sessions => { s with sessions := sessions }

/-- The first two steps of `sdrtcp_open_socket`: the test for `UNINITIALIZED`, and, without
`state_locker`, the store of `-1` in `listen_socket`, with which a session begins. -/
def openStep (s : SocketServer) (label : SessionsLabel) : Option SocketServer :=
  if s.resets then
    some { s with
      sessions := { s.sessions with
        obj := { s.sessions.obj with listenSocket := -1 }
        driver := .opening .setUp
        stopped := false }
      resets := false
      session := s.session + 1
      serves := Function.update s.serves s.sessions.created (s.session + 1) }
  else if s.sessions.obj.state = .uninitialized then some { s with resets := true }
  else s.sessionsStep label

/-- One step of a thread that is not inside `sdrtcp_cleanup`. -/
def threadStep (s : SocketServer) : SessionsLabel → Option SocketServer
  | .driver input =>
      if s.sessions.driver = .opening .called then s.openStep (.driver input)
      else s.sessionsStep (.driver input)
  | label => s.sessionsStep label

/-- One step of any thread. A thread that finds `state_locker` taken waits. -/
def step (s : SocketServer) (label : SessionsLabel) : Option SocketServer :=
  match s.sessions.cleansUp label, s.cleaner with
  | some thread, some c => if thread = c.thread then some (s.cleanupStep c) else none
  | some thread, none =>
      if s.sessions.obj.state = .uninitialized then s.threadStep label
      else some (s.beginsCleanup thread)
  | none, some _ => if s.sessions.takesLocker label then none else s.threadStep label
  | none, none => s.threadStep label

/-- After `sdrtcp_init`. -/
def initial : SocketServer := ⟨Sessions.initial, false, none, [], false, 0, fun _ => 0⟩

def Starts (s : SocketServer) : Prop := s = initial

end SocketServer

/-! ## What a step of the sessions does to the sockets -/

namespace Sessions

/-- The session of the driver thread has no `tcp_server` thread. At the failure of
`sdrtcp_open_socket` it may have one, since the call fails when another session is open. -/
def unserved (pc : DriverPc) : Bool := within pc && pc ≠ .opening .failure

/-- `sdrtcp_open_socket` is between its first test and the record of the stage. -/
def unrecorded : DriverPc → Bool
  | .opening .setUp | .opening .socketTest | .opening (.createSocket _)
  | .opening .storeSocketOpen => true
  | _ => false

variable {s s' : Sessions}

/-- The listening socket stays, and the stage stays or becomes a later one than
`INITIALIZED`. -/
structure Spares (s s' : Sessions) : Prop where
  listenSocket : s'.obj.listenSocket = s.obj.listenSocket
  state : s'.obj.state = s.obj.state ∨ Stage.initialized.code < s'.obj.state.code

theorem Spares.of_settles (settled : s.obj.Settles s'.obj) : Spares s s' :=
  ⟨settled.listenSocket, settled.state.imp_right fun stopping => by simp [stopping, Stage.code]⟩

/-- The stages up to `INITIALIZED` are not new. -/
theorem Spares.early (spares : Spares s s') {stage : Stage} (stays : s'.obj.state = stage)
    (early : stage.code ≤ Stage.initialized.code) : s.obj.state = stage := by
  rcases spares.state with same | later
  · exact same.symm.trans stays
  · rw [stays] at later
    exact absurd early later.not_ge

theorem sdrtcpCleanup_uninitialized {obj : Sdrtcp} (closed : obj.state = .uninitialized) :
    sdrtcpCleanup obj = obj := by
  simp [sdrtcpCleanup, closed]

/-- A step of another thread than the driver's, outside an effective clean-up. -/
theorem foreign_step {label : SessionsLabel} (foreign : ∀ input, label ≠ .driver input)
    (clean : s.cleansUp label = none ∨ s.obj.state = .uninitialized)
    (moves : s.step label = some s') : s'.driver = s.driver ∧ Spares s s' := by
  cases label with
  | driver input => exact absurd rfl (foreign input)
  | server i answer =>
      obtain ⟨obj, pc', stepped, rfl, driver, -, -, -⟩ := server_step moves
      refine ⟨driver, ?_⟩
      rcases tcpServerStep_cases stepped with ⟨-, obj, -⟩ | ⟨-, obj, -⟩ | ⟨place, obj, -⟩ |
        ⟨settled, -, -⟩
      · exact ⟨by rw [obj], .inr (by simp [obj, Stage.code])⟩
      · exact ⟨by rw [obj], .inr (by simp [obj, Stage.code])⟩
      · have closed := clean.resolve_left (by simp [cleansUp, place])
        rw [sdrtcpCleanup_uninitialized closed] at obj
        exact ⟨by rw [obj], .inl (by rw [obj])⟩
      · exact .of_settles settled
  | listener i answer =>
      simp only [step, Option.map_eq_some_iff, Prod.exists] at moves
      obtain ⟨obj, pc', stepped, rfl⟩ := moves
      exact ⟨rfl, .of_settles (commandListenerStep_settles stepped)⟩
  | stop i =>
      simp only [step, Option.map_eq_some_iff, Prod.exists] at moves
      obtain ⟨obj, pc', stepped, rfl⟩ := moves
      refine ⟨rfl, ?_⟩
      cases place : s.stops i with
      | called | compare =>
          rw [place] at stepped
          simp only [stopServingClientStep] at stepped
          split at stepped <;> cases stepped <;> exact ⟨rfl, .inl rfl⟩
      | cleanup =>
          have closed := clean.resolve_left (by simp [cleansUp, place])
          rw [place] at stepped
          cases stepped
          exact ⟨by simp [sdrtcpCleanup_uninitialized closed],
            .inl (by simp [sdrtcpCleanup_uninitialized closed])⟩
      | store =>
          rw [place] at stepped
          cases stepped
          exact ⟨rfl, .inr (by simp [Stage.code])⟩
      | returned =>
          rw [place] at stepped
          cases stepped

/-- What a step of the driver thread does to the sockets: it does nothing to them, or it is one
of the four steps with which `sdrtcp_open_socket` gets and records its socket. -/
inductive DriverMove (s s' : Sessions) (input : OpenSocketInput) : Prop
  | rests (spares : Spares s s') (before : unrecorded s.driver = false)
      (after : unrecorded s'.driver = false)
      (stays : unserved s'.driver = true → unserved s.driver = true)
      (leaves : within s.driver = true → within s'.driver = true ∨
        s.driver = .serving .createServer ∨
          driverCleansUp s.driver = true ∧ s.obj.state = .uninitialized)
  | setUp (place : s.driver = .opening .setUp) (obj : s'.obj.listenSocket = -1)
      (next : s'.driver = .opening .socketTest)
  | socketTest (place : s.driver = .opening .socketTest) (obj : s'.obj = s.obj)
      (next : s.obj.state = .initialized ∧ s'.driver = .opening (.createSocket input.socket) ∨
        s.obj.state ≠ .initialized ∧ s'.driver = .opening .storeSocketOpen)
  | createSocket {descriptor : ℤ} (place : s.driver = .opening (.createSocket descriptor))
      (obj : s'.obj = { s.obj with listenSocket := descriptor })
      (next : s'.driver = .opening .storeSocketOpen)
  | storeSocketOpen (place : s.driver = .opening .storeSocketOpen)
      (spares : Spares s s') (recorded : s.obj.listenSocket ≠ -1 → s'.obj.state = .socketOpen)
      (next : s'.driver = .opening .bindTest)

/-- A step of `sdrtcp_open_socket`. -/
theorem driver_step_opening {input : OpenSocketInput} {pc : OpenSocketPc}
    (place : s.driver = .opening pc)
    (clean : s.cleansUp (.driver input) = none ∨ s.obj.state = .uninitialized)
    (entered : s.driver = .opening .called → s.obj.state ≠ .uninitialized)
    (moves : s.driverStep input = some s') : DriverMove s s' input := by
  by_cases running : ∃ successful, pc = .returned successful
  · obtain ⟨successful, rfl⟩ := running
    simp only [driverStep, place] at moves
    cases moves
    cases successful with
    | true =>
        exact .rests ⟨rfl, .inl rfl⟩ (by rw [place]; rfl) rfl (fun _ => by rw [place]; rfl)
          (fun _ => .inl rfl)
    | false =>
        exact .rests ⟨rfl, .inl rfl⟩ (by rw [place]; rfl) rfl
          (fun inside => by cases inside)
          (fun inside => by rw [place] at inside; cases inside)
  obtain ⟨obj, pc', stepped, rfl⟩ := driverStep_opening place (not_exists.mp running) moves
  clear moves
  cases pc with
  | called =>
      simp only [openSocketStep, if_pos (entered place)] at stepped
      cases stepped
      exact .rests ⟨rfl, .inl rfl⟩ (by rw [place]; rfl) rfl
        (fun inside => by cases inside) (fun _ => .inl rfl)
  | setUp =>
      cases stepped
      exact .setUp place rfl rfl
  | socketTest =>
      simp only [openSocketStep] at stepped
      split at stepped <;> cases stepped
      · next initialized => exact .socketTest place rfl (.inl ⟨initialized, rfl⟩)
      · next other => exact .socketTest place rfl (.inr ⟨other, rfl⟩)
  | createSocket descriptor =>
      cases stepped
      exact .createSocket place rfl rfl
  | storeSocketOpen =>
      simp only [openSocketStep] at stepped
      split at stepped <;> cases stepped
      · exact .storeSocketOpen place ⟨rfl, .inr (by simp [Stage.code])⟩ (fun _ => rfl) rfl
      · next none =>
          exact .storeSocketOpen place ⟨rfl, .inl rfl⟩ (fun some => absurd some none) rfl
  | bindTest | successTest success =>
      simp only [openSocketStep] at stepped
      split at stepped <;> cases stepped <;>
        exact .rests ⟨rfl, .inl rfl⟩ (by rw [place]; rfl) rfl (fun _ => by rw [place]; rfl)
          (fun _ => .inl rfl)
  | failure =>
      have closed := clean.resolve_left (by simp [cleansUp, place, driverCleansUp])
      simp only [openSocketStep, sdrtcpCleanup_uninitialized closed] at stepped
      cases stepped
      exact .rests ⟨rfl, .inl rfl⟩ (by rw [place]; rfl) rfl
        (fun inside => by cases inside) (fun _ => .inr (.inr ⟨by rw [place]; rfl, closed⟩))
  | returned successful => exact absurd ⟨successful, rfl⟩ running

/-- A step of `sdrtcp_serve_client_async`. -/
theorem driver_step_serving {input : OpenSocketInput} {pc : ServeClientAsyncPc}
    (place : s.driver = .serving pc)
    (clean : s.cleansUp (.driver input) = none ∨ s.obj.state = .uninitialized)
    (moves : s.driverStep input = some s') : DriverMove s s' input := by
  cases pc with
  | returned =>
      simp only [driverStep, place] at moves
      cases moves
      exact .rests ⟨rfl, .inl rfl⟩ (by rw [place]; rfl) rfl
        (fun inside => by cases inside)
        (fun inside => by rw [place] at inside; cases inside)
  | createServer =>
      simp only [driverStep, place] at moves
      cases moves
      exact .rests ⟨rfl, .inl rfl⟩ (by rw [place]; rfl) rfl
        (fun inside => by cases inside) (fun _ => .inr (.inl place))
  | called =>
      simp only [driverStep, place, serveClientAsyncStep] at moves
      split at moves <;> cases moves <;>
        exact .rests ⟨rfl, .inl rfl⟩ (by rw [place]; rfl) rfl (fun _ => by rw [place]; rfl)
          (fun _ => .inl rfl)
  | closedcb =>
      simp only [driverStep, place, serveClientAsyncStep] at moves
      cases moves
      exact .rests ⟨rfl, .inl rfl⟩ (by rw [place]; rfl) rfl (fun _ => by rw [place]; rfl)
        (fun _ => .inl rfl)
  | start =>
      simp only [driverStep, place, serveClientAsyncStep] at moves
      cases moves
      exact .rests ⟨rfl, .inr (by simp [Stage.code])⟩ (by rw [place]; rfl) rfl
        (fun _ => by rw [place]; rfl) (fun _ => .inl rfl)
  | close =>
      have closed := clean.resolve_left (by simp [cleansUp, place, driverCleansUp])
      simp only [driverStep, place, serveClientAsyncStep,
        sdrtcpCleanup_uninitialized closed] at moves
      cases moves
      exact .rests ⟨rfl, .inl rfl⟩ (by rw [place]; rfl) rfl
        (fun inside => by cases inside) (fun _ => .inr (.inr ⟨by rw [place]; rfl, closed⟩))

/-- A step of the driver thread, outside an effective clean-up and past the first test of
`sdrtcp_open_socket`. -/
theorem driver_step {input : OpenSocketInput}
    (clean : s.cleansUp (.driver input) = none ∨ s.obj.state = .uninitialized)
    (entered : s.driver = .opening .called → s.obj.state ≠ .uninitialized)
    (moves : s.step (.driver input) = some s') : DriverMove s s' input := by
  cases place : s.driver with
  | opening pc => exact driver_step_opening place clean entered moves
  | serving pc => exact driver_step_serving place clean moves

/-- A descriptor comes from the driver thread's `socket`, or from an `accept`. -/
theorem obtains_cases {label : SessionsLabel} {descriptor : ℤ}
    (obtained : s.obtains label = some descriptor) :
    descriptor ≠ -1 ∧ ((∃ input, label = .driver input ∧ s.driver = .opening .socketTest ∧
        s.obj.state = .initialized ∧ descriptor = input.socket) ∨
      ∃ i answer, label = .server i answer ∧ s.servers i = .acceptTest ∧
        descriptor = answer.accept) := by
  cases label with
  | driver input =>
      simp only [obtains] at obtained
      split at obtained <;> cases obtained
      next gets => exact ⟨gets.2.2, .inl ⟨input, rfl, gets.1, gets.2.1, rfl⟩⟩
  | server i answer =>
      simp only [obtains] at obtained
      split at obtained <;> cases obtained
      next gets => exact ⟨gets.2.2, .inr ⟨i, answer, rfl, gets.1, rfl⟩⟩
  | listener i answer => cases obtained
  | stop i => cases obtained

/-- What a step of the driver thread does to the `tcp_server` threads. -/
theorem driver_threads {input : OpenSocketInput} (moves : s.step (.driver input) = some s') :
    s.driver ≠ .serving .createServer ∧ s'.created = s.created ∧ s'.servers = s.servers ∨
      s.driver = .serving .createServer ∧ s'.driver = .serving .returned ∧
        s'.created = s.created + 1 ∧
          s'.servers = Function.update s.servers s.created .waitEntry := by
  replace moves : s.driverStep input = some s' := moves
  by_cases creates : s.driver = .serving .createServer
  · simp only [driverStep, creates] at moves
    cases moves
    exact .inr ⟨creates, rfl, rfl, rfl⟩
  · refine .inl ⟨creates, ?_⟩
    unfold driverStep at moves
    split at moves
    · cases moves
      exact ⟨rfl, rfl⟩
    · obtain ⟨_, -, rfl⟩ := Option.map_eq_some_iff.mp moves
      exact ⟨rfl, rfl⟩
    · cases moves
      exact ⟨rfl, rfl⟩
    · next place => exact absurd place creates
    · obtain ⟨_, -, rfl⟩ := Option.map_eq_some_iff.mp moves
      exact ⟨rfl, rfl⟩

/-- What a step of another thread does to the `tcp_server` threads. -/
theorem foreign_threads {label : SessionsLabel} (foreign : ∀ input, label ≠ .driver input)
    (moves : s.step label = some s') : s'.created = s.created ∧
      (s'.servers = s.servers ∨ ∃ i answer pc, label = .server i answer ∧
        tcpServerStep s.obj answer (s.servers i) = some (s'.obj, pc) ∧
        s'.servers = Function.update s.servers i pc) := by
  cases label with
  | driver input => exact absurd rfl (foreign input)
  | server i answer =>
      obtain ⟨obj, pc, stepped, rfl, -, servers, created, -⟩ := server_step moves
      exact ⟨created, .inr ⟨i, answer, pc, rfl, stepped, servers⟩⟩
  | listener i answer =>
      obtain ⟨_, -, rfl⟩ := Option.map_eq_some_iff.mp moves
      exact ⟨rfl, .inl rfl⟩
  | stop i =>
      obtain ⟨_, -, rfl⟩ := Option.map_eq_some_iff.mp moves
      exact ⟨rfl, .inl rfl⟩

/-- The `tcp_server` thread can still use the sockets of its session. -/
def active : TcpServerPc → Bool
  | .unborn | .closedcb | .finished => false
  | _ => true

/-- A `tcp_server` thread lets go of the sockets once the stage is `UNINITIALIZED`. -/
theorem active_step {obj obj' : Sdrtcp} {answer : TcpServerAnswer} {pc pc' : TcpServerPc}
    (moves : tcpServerStep obj answer pc = some (obj', pc')) (uses : active pc = true) :
    active pc' = true ∨ pc = .cleanup ∨ pc = .shutdownTest ∧ obj.state = .uninitialized := by
  cases pc with
  | unborn | finished | closedcb => cases uses
  | cleanup => exact .inr (.inl rfl)
  | shutdownTest =>
      simp only [tcpServerStep] at moves
      split at moves <;> cases moves
      · exact .inl rfl
      · next closed => exact .inr (.inr ⟨rfl, not_not.mp closed⟩)
  | resetClient | createListener | storeServing | storeClientOpen | joinListener =>
      cases moves
      exact .inl rfl
  | accept descriptor =>
      cases moves
      left
      split <;> rfl
  | waitEntry | waitTest | selectTest | acceptTest | clientTest =>
      simp only [tcpServerStep] at moves
      split at moves <;> cases moves <;> exact .inl rfl
  | serving pc =>
      cases pc with
      | returned =>
          cases moves
          exact .inl rfl
      | _ =>
          simp only [tcpServerStep, Option.map_eq_some_iff, Prod.exists] at moves
          obtain ⟨_, _, _, -, same⟩ := moves
          cases same
          exact .inl rfl

end Sessions

namespace SocketServer

open Sessions

variable {s s' : SocketServer}

/-! ## The steps of the server -/

/-- What a step of the sessions makes of the server. -/
def Result (s s' : SocketServer) (label : SessionsLabel) (sessions : Sessions) : Prop :=
  (s.sessions.obtains label = none ∧ s' = { s with sessions := sessions }) ∨
    ∃ number, s.sessions.obtains label = some number ∧ s.isOpen number = false ∧
      s' = { s with
        sessions := sessions
        descriptors := ⟨number, s.sessionOf label⟩ :: s.descriptors }

/-- `sdrtcp_open_socket` clears `listen_socket`. -/
def reset (s : SocketServer) : SocketServer :=
  { s with
    sessions := { s.sessions with
      obj := { s.sessions.obj with listenSocket := -1 }
      driver := .opening .setUp
      stopped := false }
    resets := false
    session := s.session + 1
    serves := Function.update s.serves s.sessions.created (s.session + 1) }

/-- The kinds of steps. -/
inductive Moves (s s' : SocketServer) (label : SessionsLabel) : Prop
  | cleans (c : Cleaner) (runs : s.cleaner = some c)
      (thread : s.sessions.cleansUp label = some c.thread) (result : s' = s.cleanupStep c)
  | begins (thread : CleanupThread) (calls : s.sessions.cleansUp label = some thread)
      (free : s.cleaner = none) (opened : s.sessions.obj.state ≠ .uninitialized)
      (result : s' = s.beginsCleanup thread)
  | enters (input : OpenSocketInput) (driver : label = .driver input)
      (place : s.sessions.driver = .opening .called) (fresh : s.resets = false)
      (closed : s.sessions.obj.state = .uninitialized) (result : s' = { s with resets := true })
  | resets (input : OpenSocketInput) (driver : label = .driver input)
      (place : s.sessions.driver = .opening .called) (entered : s.resets = true)
      (result : s' = s.reset)
  | moves (sessions : Sessions) (stepped : s.sessions.step label = some sessions)
      (clean : s.sessions.cleansUp label = none ∨
        s.cleaner = none ∧ s.sessions.obj.state = .uninitialized)
      (waits : s.sessions.takesLocker label = true → s.cleaner = none)
      (entered : ∀ input, label = .driver input → s.sessions.driver = .opening .called →
        s.resets = false ∧ s.sessions.obj.state ≠ .uninitialized)
      (result : Result s s' label sessions)

theorem sessionsStep_result {label : SessionsLabel} (moves : s.sessionsStep label = some s') :
    ∃ sessions, s.sessions.step label = some sessions ∧ Result s s' label sessions := by
  unfold sessionsStep at moves
  split at moves
  · next number obtained =>
      split at moves
      · cases moves
      · next fresh =>
          obtain ⟨sessions, stepped, rfl⟩ := Option.map_eq_some_iff.mp moves
          exact ⟨sessions, stepped, .inr ⟨number, obtained, by simpa using fresh, rfl⟩⟩
  · next none =>
      obtain ⟨sessions, stepped, rfl⟩ := Option.map_eq_some_iff.mp moves
      exact ⟨sessions, stepped, .inl ⟨none, rfl⟩⟩

theorem threadStep_moves {label : SessionsLabel}
    (clean : s.sessions.cleansUp label = none ∨
      s.cleaner = none ∧ s.sessions.obj.state = .uninitialized)
    (waits : s.sessions.takesLocker label = true → s.cleaner = none)
    (moves : s.threadStep label = some s') : Moves s s' label := by
  by_cases enters : ∃ input, label = .driver input ∧ s.sessions.driver = .opening .called
  · obtain ⟨input, rfl, place⟩ := enters
    simp only [threadStep, if_pos place, openStep] at moves
    split at moves
    · next entered =>
        cases moves
        exact .resets input rfl place entered rfl
    · next fresh =>
        split at moves
        · next closed =>
            cases moves
            exact .enters input rfl place (by simpa using fresh) closed rfl
        · next opened =>
            obtain ⟨sessions, stepped, result⟩ := sessionsStep_result moves
            exact .moves sessions stepped clean waits
              (fun _ _ _ => ⟨by simpa using fresh, opened⟩) result
  · have plain : s.sessionsStep label = some s' := by
      cases label with
      | driver input =>
          simp only [threadStep] at moves
          rwa [if_neg fun place => enters ⟨input, rfl, place⟩] at moves
      | server i answer => exact moves
      | listener i answer => exact moves
      | stop i => exact moves
    obtain ⟨sessions, stepped, result⟩ := sessionsStep_result plain
    exact .moves sessions stepped clean waits
      (fun input driver place => absurd ⟨input, driver, place⟩ enters) result

theorem step_moves {label : SessionsLabel} (moves : s.step label = some s') :
    Moves s s' label := by
  unfold step at moves
  split at moves
  · next thread c calls runs =>
      split at moves
      · next same =>
          cases moves
          exact .cleans c runs (same ▸ calls) rfl
      · cases moves
  · next thread calls free =>
      split at moves
      · next closed => exact threadStep_moves (.inr ⟨free, closed⟩) (fun _ => free) moves
      · next opened =>
          cases moves
          exact .begins thread calls free opened rfl
  · next c none runs =>
      split at moves
      · cases moves
      · next passes =>
          exact threadStep_moves (.inl none) (fun takes => absurd takes passes) moves
  · next none free => exact threadStep_moves (.inl none) (fun _ => free) moves

/-- What a step of the sessions leaves of the rest. -/
theorem Result.keeps {label : SessionsLabel} {sessions : Sessions}
    (result : Result s s' label sessions) :
    s'.sessions = sessions ∧ s'.cleaner = s.cleaner ∧ s'.closedTwice = s.closedTwice ∧
      s'.resets = s.resets ∧ s'.session = s.session ∧ s'.serves = s.serves := by
  rcases result with ⟨none, rfl⟩ | ⟨number, obtained, -, rfl⟩ <;>
    exact ⟨rfl, rfl, rfl, rfl, rfl, rfl⟩

/-- What is open stays open, and what the step obtains is open. -/
theorem Result.isOpen {label : SessionsLabel} {sessions : Sessions}
    (result : Result s s' label sessions) :
    (∀ number, s.isOpen number = true → s'.isOpen number = true) ∧
      ∀ number, s.sessions.obtains label = some number → s'.isOpen number = true := by
  rcases result with ⟨none, rfl⟩ | ⟨number, obtained, -, rfl⟩
  · exact ⟨fun _ => id, fun d obtained => by simp [none] at obtained⟩
  · refine ⟨fun d there => ?_, fun d again => ?_⟩
    · simp only [SocketServer.isOpen, List.any_cons, Bool.or_eq_true]
      exact .inr there
    · rw [obtained] at again
      cases again
      simp [SocketServer.isOpen]

/-! ### What a clean-up does -/

theorem cleanupReturns_obj (s : Sessions) (thread : CleanupThread) :
    (s.cleanupReturns thread).obj = s.obj := by
  cases thread with
  | driver =>
      simp only [cleanupReturns]
      split <;> rfl
  | server i => rfl
  | stop i => rfl

theorem cleanupReturns_created (s : Sessions) (thread : CleanupThread) :
    (s.cleanupReturns thread).created = s.created := by
  cases thread with
  | driver =>
      simp only [cleanupReturns]
      split <;> rfl
  | server i => rfl
  | stop i => rfl

/-- A thread that returns from a clean-up leaves the driver thread where it is, or it is the
driver thread, and leaves its session. -/
theorem cleanupReturns_driver {sessions : Sessions} {thread : CleanupThread}
    {label : SessionsLabel} (calls : sessions.cleansUp label = some thread) :
    (sessions.cleared.cleanupReturns thread).driver = sessions.driver ∨
      driverCleansUp sessions.driver = true ∧
        within (sessions.cleared.cleanupReturns thread).driver = false := by
  cases label with
  | driver input =>
      simp only [cleansUp] at calls
      split at calls <;> cases calls
      next cleaning =>
        refine .inr ⟨cleaning, ?_⟩
        simp only [cleanupReturns]
        split <;> rfl
  | server i answer =>
      simp only [cleansUp] at calls
      split at calls <;> cases calls
      exact .inl rfl
  | stop i =>
      simp only [cleansUp] at calls
      split at calls <;> cases calls
      exact .inl rfl
  | listener i answer => cases calls

/-- The `tcp_server` threads that do not exist stay out of a clean-up. -/
theorem cleanupReturns_unborn {sessions : Sessions} {thread : CleanupThread}
    {label : SessionsLabel} (calls : sessions.cleansUp label = some thread)
    {i : ℕ} (unborn : sessions.servers i = .unborn) :
    (sessions.cleared.cleanupReturns thread).servers i = .unborn := by
  cases label with
  | driver input =>
      simp only [cleansUp] at calls
      split at calls <;> cases calls
      simp only [cleanupReturns]
      split <;> exact unborn
  | server j answer =>
      simp only [cleansUp] at calls
      split at calls <;> cases calls
      next place =>
        have other : i ≠ j := by
          rintro rfl
          simp [unborn] at place
        show Function.update sessions.servers j .closedcb i = .unborn
        rw [Function.update_of_ne other]
        exact unborn
  | stop i =>
      simp only [cleansUp] at calls
      split at calls <;> cases calls
      exact unborn
  | listener i answer => cases calls

theorem recorded_of_cleansUp {pc : DriverPc} (cleaning : driverCleansUp pc = true) :
    unrecorded pc = false ∧ pc ≠ .opening .called := by
  unfold driverCleansUp at cleaning
  split at cleaning <;> first | exact ⟨rfl, nofun⟩ | cases cleaning

theorem recorded_of_outside {pc : DriverPc} (outside : within pc = false) :
    unrecorded pc = false := by
  unfold within at outside
  split at outside <;> first | rfl | cases outside

/-! ## Sessions and threads -/

/-- Which thread serves which session, in every run. -/
structure Lineage (s : SocketServer) : Prop where
  unborn : ∀ i, s.sessions.created ≤ i → s.sessions.servers i = .unborn
  bounded : ∀ i, s.serves i ≤ s.session
  /-- the thread that the driver thread is going to create serves its session -/
  next : unserved s.sessions.driver = true → s.serves s.sessions.created = s.session
  latest : unserved s.sessions.driver = true → ∀ i < s.sessions.created, s.serves i ≠ s.session

/-- A step that leaves the sessions and their threads as they are. -/
theorem Lineage.same (lineage : s.Lineage) (created : s'.sessions.created = s.sessions.created)
    (unborn : ∀ i, s.sessions.servers i = .unborn → s'.sessions.servers i = .unborn)
    (stays : unserved s'.sessions.driver = true → unserved s.sessions.driver = true)
    (session : s'.session = s.session) (serves : s'.serves = s.serves) : s'.Lineage := by
  refine ⟨fun i old => unborn i (lineage.unborn i (created ▸ old)), fun i => ?_,
    fun inside => ?_, fun inside => ?_⟩
  · rw [serves, session]
    exact lineage.bounded i
  · rw [serves, session, created]
    exact lineage.next (stays inside)
  · rw [serves, session, created]
    exact lineage.latest (stays inside)

theorem unserved_of_outside {pc : DriverPc} (outside : within pc = false) :
    unserved pc = false := by
  simp [unserved, outside]

/-- The session of the driver thread is unserved after a step only if it was before, or begins
with the step. -/
theorem unserved_step {input : OpenSocketInput}
    (clean : s.sessions.cleansUp (.driver input) = none ∨ s.sessions.obj.state = .uninitialized)
    (entered : s.sessions.driver = .opening .called → s.sessions.obj.state ≠ .uninitialized)
    {sessions : Sessions} (moves : s.sessions.step (.driver input) = some sessions)
    (inside : unserved sessions.driver = true) : unserved s.sessions.driver = true := by
  cases driver_step clean entered moves with
  | rests spares before after stays leaves => exact stays inside
  | setUp place => rw [place]; rfl
  | socketTest place => rw [place]; rfl
  | createSocket place => rw [place]; rfl
  | storeSocketOpen place => rw [place]; rfl

theorem Lineage.step {label : SessionsLabel} (lineage : s.Lineage)
    (moves : s.step label = some s') : s'.Lineage := by
  cases step_moves moves with
  | cleans c runs calls result =>
      rw [result]
      unfold cleanupStep
      split
      · split <;> exact lineage.same rfl (fun _ => id) id rfl rfl
      · exact lineage.same rfl (fun _ => id) id rfl rfl
      · refine lineage.same (cleanupReturns_created _ _)
          (fun i unborn => cleanupReturns_unborn calls unborn) (fun inside => ?_) rfl rfl
        rcases cleanupReturns_driver calls with same | ⟨-, outside⟩
        · exact same ▸ inside
        · exact absurd inside (by rw [unserved_of_outside outside]; simp)
  | begins thread calls free opened result =>
      rw [result]
      exact lineage.same rfl (fun _ => id) id rfl rfl
  | enters input driver place fresh closed result =>
      rw [result]
      exact lineage.same rfl (fun _ => id) id rfl rfl
  | resets input driver place entered result =>
      rw [result]
      refine ⟨lineage.unborn, fun i => ?_, fun _ => ?_, fun _ i young => ?_⟩
      · simp only [reset, Function.update_apply]
        split
        · exact le_rfl
        · exact (lineage.bounded i).trans (Nat.le_succ _)
      · exact Function.update_self ..
      · have young : i < s.sessions.created := young
        show Function.update s.serves s.sessions.created (s.session + 1) i ≠ s.session + 1
        rw [Function.update_of_ne (by omega)]
        exact (Nat.lt_succ_of_le (lineage.bounded i)).ne
  | moves sessions stepped clean waits entered result =>
      obtain ⟨rfl, -, -, -, session, serves⟩ := result.keeps
      by_cases foreign : ∃ input, label = .driver input
      · obtain ⟨input, rfl⟩ := foreign
        rcases driver_threads stepped with ⟨-, created, servers⟩ |
          ⟨place, outside, created, servers⟩
        · exact lineage.same created (fun i unborn => by rw [servers]; exact unborn)
            (unserved_step (clean.imp_right And.right)
              (fun place => (entered input rfl place).2) stepped) session serves
        · refine ⟨fun i old => ?_, fun i => ?_, fun inside => ?_, fun inside => ?_⟩
          · rw [created] at old
            rw [servers, Function.update_of_ne (by omega)]
            exact lineage.unborn i (by omega)
          · rw [serves, session]
            exact lineage.bounded i
          · rw [outside] at inside
            cases inside
          · rw [outside] at inside
            cases inside
      · have foreign : ∀ input, label ≠ .driver input := fun input same => foreign ⟨input, same⟩
        obtain ⟨driver, -⟩ := foreign_step foreign (clean.imp_right And.right) stepped
        obtain ⟨created, servers⟩ := foreign_threads foreign stepped
        refine lineage.same created (fun i unborn => ?_) (fun inside => driver ▸ inside)
          session serves
        rcases servers with servers | ⟨j, answer, pc, rfl, moved, servers⟩
        · rw [servers]
          exact unborn
        · have other : i ≠ j := by
            rintro rfl
            rw [unborn] at moved
            cases moved
          rw [servers, Function.update_of_ne other]
          exact unborn

/-! ## Nothing is closed twice -/

/-- `sdrtcp_open_socket` has cleared `listen_socket` and has not stored a socket yet. -/
def unset : DriverPc → Bool
  | .opening .setUp | .opening .socketTest | .opening (.createSocket _) => true
  | _ => false

/-- `listen_socket`, and the socket that is to be stored there, are open, in every run. -/
structure Held (s : SocketServer) : Prop where
  listening : s.sessions.obj.listenSocket ≠ -1 → s.isOpen s.sessions.obj.listenSocket = true
  unset : unset s.sessions.driver = true → s.sessions.obj.listenSocket = -1
  pending : ∀ number, s.sessions.driver = .opening (.createSocket number) →
    number ≠ -1 → s.isOpen number = true
  once : s.closedTwice = false

theorem unrecorded_of_unset {pc : DriverPc} (set : unset pc = true) : unrecorded pc = true := by
  unfold unset at set
  split at set <;> first | rfl | cases set

theorem Held.cleans {c : Cleaner} {label : SessionsLabel} (held : s.Held)
    (calls : s.sessions.cleansUp label = some c.thread) : (s.cleanupStep c).Held := by
  obtain ⟨listening, unset, pending, once⟩ := held
  unfold cleanupStep
  split
  · split <;> exact ⟨listening, unset, pending, once⟩
  · refine ⟨fun there => absurd rfl there, fun _ => rfl, fun number place some => ?_, ?_⟩
    · have none := unset (by rw [place]; rfl)
      obtain ⟨d, mem, same⟩ := List.any_eq_true.mp (pending number place some)
      have same : d.number = number := by simpa using same
      refine List.any_eq_true.mpr ⟨d, List.mem_filter.mpr ⟨mem, ?_⟩, by simpa using same⟩
      simpa [none, same] using some
    · by_cases none : s.sessions.obj.listenSocket = -1
      · simp [once, none]
      · simp [once, listening none]
  · have none : (s.sessions.cleared.cleanupReturns c.thread).obj.listenSocket = -1 := by
      rw [cleanupReturns_obj]
      rfl
    refine ⟨fun there => absurd none there, fun _ => none, fun number place some => ?_, once⟩
    have place : (s.sessions.cleared.cleanupReturns c.thread).driver =
      .opening (.createSocket number) := place
    rcases cleanupReturns_driver calls with same | ⟨-, outside⟩
    · exact pending number (same.symm.trans place) some
    · rw [place] at outside
      cases outside

theorem Held.step {label : SessionsLabel} (held : s.Held) (moves : s.step label = some s') :
    s'.Held := by
  cases step_moves moves with
  | cleans c runs calls result => exact result ▸ held.cleans calls
  | begins thread calls free opened result =>
      rw [result]
      exact ⟨held.listening, held.unset, held.pending, held.once⟩
  | enters input driver place fresh closed result =>
      rw [result]
      exact ⟨held.listening, held.unset, held.pending, held.once⟩
  | resets input driver place entered result =>
      rw [result]
      exact ⟨fun there => absurd rfl there, fun _ => rfl, nofun, held.once⟩
  | moves sessions stepped clean waits entered result =>
      obtain ⟨rfl, cleaner, once, -⟩ := result.keeps
      obtain ⟨more, obtained⟩ := result.isOpen
      by_cases foreign : ∃ input, label = .driver input
      · obtain ⟨input, rfl⟩ := foreign
        cases driver_step (clean.imp_right And.right) (fun place => (entered input rfl place).2)
            stepped with
        | rests spares before after =>
            refine ⟨fun there => ?_, fun set => ?_, fun number place => ?_, once.trans held.once⟩
            · rw [spares.listenSocket] at there ⊢
              exact more _ (held.listening there)
            · simp [unrecorded_of_unset set] at after
            · rw [place] at after
              cases after
        | setUp place none next =>
            exact ⟨fun there => absurd none there, fun _ => none,
              fun number place => by simp [next] at place, once.trans held.once⟩
        | socketTest place obj next =>
            have none : s'.sessions.obj.listenSocket = -1 :=
              obj ▸ held.unset (by rw [place]; rfl)
            refine ⟨fun there => absurd none there, fun _ => none, fun number created some => ?_,
              once.trans held.once⟩
            rcases next with ⟨initialized, next⟩ | ⟨-, next⟩
            · rw [next] at created
              cases created
              exact obtained _ (by simp [obtains, place, initialized, some])
            · rw [next] at created
              cases created
        | createSocket place obj next =>
            refine ⟨fun there => ?_, fun set => ?_, fun number place => ?_, once.trans held.once⟩
            · simp only [obj] at there ⊢
              exact more _ (held.pending _ place there)
            · simp [next, SocketServer.unset] at set
            · simp [next] at place
        | storeSocketOpen place spares recorded next =>
            refine ⟨fun there => ?_, fun set => ?_, fun number place => ?_, once.trans held.once⟩
            · rw [spares.listenSocket] at there ⊢
              exact more _ (held.listening there)
            · simp [next, SocketServer.unset] at set
            · simp [next] at place
      · obtain ⟨driver, spares⟩ := foreign_step (fun input same => foreign ⟨input, same⟩)
          (clean.imp_right And.right) stepped
        refine ⟨fun there => ?_, fun set => ?_, fun number place some => ?_,
          once.trans held.once⟩
        · rw [spares.listenSocket] at there ⊢
          exact more _ (held.listening there)
        · rw [spares.listenSocket]
          exact held.unset (driver ▸ set)
        · exact more number (held.pending number (driver ▸ place) some)

theorem held_of_reach {ok : SocketServer → SessionsLabel → Prop}
    (reached : Reach step Starts ok s) : s.Held := by
  refine reached.invariant ?_ fun s label s' held _ moves => held.step moves
  rintro s rfl
  exact ⟨fun there => absurd rfl there, fun _ => rfl, nofun, rfl⟩

/-- **No descriptor is closed twice**, in any run. -/
theorem closes_once {ok : SocketServer → SessionsLabel → Prop}
    (reached : Reach step Starts ok s) : s.closedTwice = false :=
  (held_of_reach reached).once

/-- A session is opened and stopped, and the server closes its socket. -/
def stoppedSession : List SessionsLabel :=
  List.replicate 12 (.driver Sessions.opens) ++
    List.replicate 5 (.server 0 ⟨false, -1, .ready, none⟩) ++
    List.replicate 3 (.stop 0) ++ List.replicate 9 (.server 0 ⟨false, -1, .ready, none⟩)

theorem closes_once_stoppedSession :
    ∃ s : SocketServer, s.descriptors = [] ∧ s.closedTwice = false := by
  have moved : (replay step initial stoppedSession).map (·.descriptors) = some [] := by decide
  obtain ⟨s, replayed, shown⟩ := Option.map_eq_some_iff.mp moved
  exact ⟨s, shown, closes_once (.of_replay (.start rfl) _ replayed)⟩

end SocketServer

end MsiSdrDriver.Server
