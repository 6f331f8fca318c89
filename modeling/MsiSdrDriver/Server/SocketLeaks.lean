import MsiSdrDriver.Server.Descriptors

/-!
# Conservation of the sockets

Every descriptor of a session is to be closed when the session is over
(`SocketServer.Conserved`). One is leaked when a client is accepted (`SocketServer.leaks_client`),
when `sdrtcp_open_socket` clears `listen_socket` before another thread's clean-up has closed it,
and when a clean-up that found no socket clears `listen_socket` after `sdrtcp_open_socket` has
stored one. Each of these steps loses a descriptor for good (`SocketServer.lost_of_leak`,
`SocketServer.leaks_for_good`), and in all other runs the sockets are conserved
(`SocketServer.sockets_conserved`).
-/

set_option autoImplicit false

namespace MsiSdrDriver.Server

open MsiSdrDriver.Foundations

namespace SocketServer

open Sessions

variable {s s' : SocketServer}

/-! ## Conservation -/

/-- The session has ended: its `tcp_server` thread has, or it has none and the driver thread has
left it. -/
def Ended (s : SocketServer) (session : ℕ) : Prop :=
  (∃ i < s.sessions.created, s.serves i = session ∧ s.sessions.servers i = .finished) ∨
    (∀ i < s.sessions.created, s.serves i ≠ session) ∧
      (session ≠ s.session ∨ Sessions.within s.sessions.driver = false)

/-- Whenever the stage is `UNINITIALIZED`, every descriptor of a session that has ended has been
closed exactly once. -/
def Conserved (s : SocketServer) : Prop :=
  s.sessions.obj.state = .uninitialized → ∀ session, s.Ended session →
    s.closedTwice = false ∧ ∀ d ∈ s.descriptors, d.session ≠ session

/-- A clean-up has stored `UNINITIALIZED` and has still to close the listening socket. -/
def closing (s : SocketServer) : Bool :=
  match s.cleaner with
  | some c => c.pc = .closeTest || c.pc = .close
  | none => false

/-! ## Leaks -/

/-- `accept` returns no descriptor in this step. -/
def AcceptsNoClient (s : SocketServer) : SessionsLabel → Prop
  | .server i answer => s.sessions.servers i = .acceptTest →
      s.sessions.obj.state = .clientOpenStartedAsync → answer.accept = -1
  | _ => True

/-- If `sdrtcp_open_socket` clears `listen_socket` in this step, no clean-up has still to close
it. -/
def ResetsClosed (s : SocketServer) : SessionsLabel → Prop
  | .driver _ => s.sessions.driver = .opening .called → s.resets = true →
      s.closing = true → s.sessions.obj.listenSocket = -1
  | _ => True

/-- If a clean-up clears `listen_socket` in this step, `sdrtcp_open_socket` has not just stored
a socket there. -/
def ClearsUnset (s : SocketServer) (label : SessionsLabel) : Prop :=
  ∀ c ∈ s.cleaner, s.sessions.cleansUp label = some c.thread → c.pc = .poolFree →
    s.sessions.driver = .opening .storeSocketOpen → s.sessions.obj.listenSocket = -1

/-- A step that leaks no descriptor. -/
def LeaksNone (s : SocketServer) (label : SessionsLabel) : Prop :=
  s.AcceptsNoClient label ∧ s.ResetsClosed label ∧ s.ClearsUnset label

instance : DecidableRel AcceptsNoClient := fun s label =>
  match label with
  | .server i answer => inferInstanceAs (Decidable (s.sessions.servers i = .acceptTest →
      s.sessions.obj.state = .clientOpenStartedAsync → answer.accept = -1))
  | .driver _ | .listener _ _ | .stop _ => inferInstanceAs (Decidable True)

instance : DecidableRel ResetsClosed := fun s label =>
  match label with
  | .driver _ => inferInstanceAs (Decidable (s.sessions.driver = .opening .called →
      s.resets = true → s.closing = true → s.sessions.obj.listenSocket = -1))
  | .server _ _ | .listener _ _ | .stop _ => inferInstanceAs (Decidable True)

instance : DecidableRel ClearsUnset := by
  intro s label
  unfold ClearsUnset
  infer_instance

instance : DecidableRel LeaksNone := by
  intro s label
  unfold LeaksNone
  infer_instance

/-- The descriptors that the server can still close. -/
def kept (driver : DriverPc) (listenSocket : ℤ) (session : ℕ) : List Descriptor :=
  match driver with
  | .opening (.createSocket number) => if number = -1 then [] else [⟨number, session⟩]
  | _ => if listenSocket = -1 then [] else [⟨listenSocket, session⟩]

/-- What holds in every run without a leak. -/
structure Accounted (s : SocketServer) : Prop where
  table : s.descriptors = kept s.sessions.driver s.sessions.obj.listenSocket s.session
  place : s.resets = true → s.sessions.driver = .opening .called
  entered : s.resets = true → s.sessions.obj.listenSocket ≠ -1 → s.closing = true
  /-- a socket outlasts the open stages only while it is being closed or recorded -/
  closes : s.sessions.obj.listenSocket ≠ -1 → s.sessions.obj.state = .uninitialized →
    s.closing = true ∨ s.sessions.driver = .opening .storeSocketOpen
  /-- in the stage `INITIALIZED` there is a socket only while it is being recorded -/
  early : s.sessions.obj.listenSocket ≠ -1 → s.sessions.obj.state = .initialized →
    s.sessions.driver = .opening .storeSocketOpen
  /-- a clean-up that does not close a socket has found none -/
  skips : ∀ c, s.cleaner = some c → s.sessions.obj.listenSocket ≠ -1 →
    (c.pc = .closeTest ∧ c.prevState.code ≤ Stage.initialized.code) ∨ c.pc = .poolFree →
      s.sessions.driver = .opening .storeSocketOpen
  /-- the thread that serves a session does not outlive its socket -/
  served : s.sessions.obj.listenSocket ≠ -1 → ∀ i < s.sessions.created,
    s.serves i = s.session → active (s.sessions.servers i) = true
  handed : s.sessions.obj.listenSocket ≠ -1 →
    (∃ i < s.sessions.created, s.serves i = s.session) ∨ within s.sessions.driver = true

theorem kept_of_recorded {driver : DriverPc}
    (away : ∀ number, driver ≠ .opening (.createSocket number)) (listenSocket : ℤ)
    (session : ℕ) : kept driver listenSocket session =
      if listenSocket = -1 then [] else [⟨listenSocket, session⟩] := by
  unfold kept
  split
  · next place => exact absurd rfl (away _)
  · rfl

theorem away_of_recorded {driver : DriverPc} (recorded : unrecorded driver = false)
    (number : ℤ) : driver ≠ .opening (.createSocket number) := by
  rintro rfl
  cases recorded

theorem kept_session {driver : DriverPc} {listenSocket : ℤ} {session : ℕ} {d : Descriptor}
    (mem : d ∈ kept driver listenSocket session) : d.session = session := by
  unfold kept at mem
  split at mem <;> split at mem
  · cases mem
  · rw [List.mem_singleton.mp mem]
  · cases mem
  · rw [List.mem_singleton.mp mem]

/-- Where there is no socket, the table is all there is to say. -/
theorem Accounted.of_unset (none : s.sessions.obj.listenSocket = -1)
    (table : s.descriptors = kept s.sessions.driver (-1) s.session)
    (place : s.resets = true → s.sessions.driver = .opening .called) : s.Accounted :=
  ⟨none ▸ table, place, fun _ there => absurd none there, fun there => absurd none there,
    fun there => absurd none there, fun _ _ there => absurd none there,
    fun there => absurd none there, fun there => absurd none there⟩

/-- A session that has ended has none of the descriptors that can still be closed. -/
theorem Accounted.conserved (accounted : s.Accounted) (held : s.Held) (lineage : s.Lineage) :
    s.Conserved := by
  refine fun _ session ended => ⟨held.once, fun d mem same => ?_⟩
  have current : d.session = s.session := kept_session (accounted.table ▸ mem)
  have ended : s.Ended s.session := current ▸ same ▸ ended
  by_cases away : ∀ number, s.sessions.driver ≠ .opening (.createSocket number)
  · have there : s.sessions.obj.listenSocket ≠ -1 := by
      intro none
      rw [accounted.table, kept_of_recorded away, if_pos none] at mem
      cases mem
    rcases ended with ⟨i, young, serves, finished⟩ | ⟨unserved, other | outside⟩
    · have uses := accounted.served there i young serves
      rw [finished] at uses
      cases uses
    · exact other rfl
    · rcases accounted.handed there with ⟨i, young, serves⟩ | inside
      · exact unserved i young serves
      · rw [outside] at inside
        cases inside
  · obtain ⟨number, place⟩ := not_forall_not.mp away
    rcases ended with ⟨i, young, serves, -⟩ | ⟨-, other | outside⟩
    · exact lineage.latest (by rw [place]; rfl) i young serves
    · exact other rfl
    · rw [place] at outside
      cases outside

/-! ### The steps of a clean-up -/

theorem Accounted.closeTest {c : Cleaner} (accounted : s.Accounted) (runs : s.cleaner = some c)
    (pc : c.pc = .closeTest) : (s.cleanupStep c).Accounted := by
  obtain ⟨table, place, entered, closes, early, skips, served, handed⟩ := accounted
  simp only [cleanupStep, pc]
  split
  · exact ⟨table, place, fun _ _ => by simp [closing], fun _ _ => .inl (by simp [closing]),
      early, fun c' same there skipped => by cases same; simp at skipped, served, handed⟩
  · next skipped =>
      have recording : s.sessions.obj.listenSocket ≠ -1 →
          s.sessions.driver = .opening .storeSocketOpen := fun there =>
        skips c runs there (.inl ⟨pc, by
          by_contra later
          exact skipped ⟨by omega, there⟩⟩)
      refine ⟨table, place, fun resets there => ?_, fun there _ => .inr (recording there), early,
        fun _ _ there _ => recording there, served, handed⟩
      have called := place resets
      rw [recording there] at called
      cases called

/-- `close` takes from the table what `listen_socket` holds. -/
theorem filter_kept {driver : DriverPc} {listenSocket : ℤ}
    (unset : unset driver = true → listenSocket = -1) (session : ℕ) :
    (kept driver listenSocket session).filter (·.number ≠ listenSocket) =
      kept driver (-1) session := by
  by_cases away : ∀ number, driver ≠ .opening (.createSocket number)
  · rw [kept_of_recorded away, kept_of_recorded away, if_pos rfl]
    split
    · rfl
    · simp
  · obtain ⟨number, rfl⟩ := not_forall_not.mp away
    rw [unset rfl]
    simp only [kept]
    split
    · rfl
    · next some => simp [some]

theorem Accounted.close {c : Cleaner} (accounted : s.Accounted) (held : s.Held)
    (pc : c.pc = .close) : (s.cleanupStep c).Accounted := by
  simp only [cleanupStep, pc]
  refine .of_unset rfl ?_ accounted.place
  show s.descriptors.filter (·.number ≠ s.sessions.obj.listenSocket) = _
  rw [accounted.table]
  exact filter_kept held.unset s.session

theorem Accounted.poolFree {c : Cleaner} {label : SessionsLabel} (accounted : s.Accounted)
    (runs : s.cleaner = some c) (calls : s.sessions.cleansUp label = some c.thread)
    (clears : s.ClearsUnset label) (pc : c.pc = .poolFree) : (s.cleanupStep c).Accounted := by
  have none : s.sessions.obj.listenSocket = -1 := by
    by_contra there
    exact there (clears c runs calls pc (accounted.skips c runs there (.inr pc)))
  have table := accounted.table
  rw [none] at table
  simp only [cleanupStep, pc]
  refine .of_unset ?_ ?_ ?_
  · show (s.sessions.cleared.cleanupReturns c.thread).obj.listenSocket = -1
    rw [cleanupReturns_obj]
    rfl
  · show s.descriptors = kept (s.sessions.cleared.cleanupReturns c.thread).driver (-1) s.session
    rcases cleanupReturns_driver calls with same | ⟨cleaning, outside⟩
    · rw [same]
      exact table
    · rw [table, kept_of_recorded (away_of_recorded (recorded_of_cleansUp cleaning).1),
        kept_of_recorded (away_of_recorded (recorded_of_outside outside))]
  · intro resets
    have called := accounted.place resets
    show (s.sessions.cleared.cleanupReturns c.thread).driver = .opening .called
    rcases cleanupReturns_driver calls with same | ⟨cleaning, -⟩
    · exact same.trans called
    · exact absurd called (recorded_of_cleansUp cleaning).2

theorem Accounted.begins {thread : CleanupThread} (accounted : s.Accounted)
    (opened : s.sessions.obj.state ≠ .uninitialized) : (s.beginsCleanup thread).Accounted := by
  refine ⟨accounted.table, accounted.place, fun _ _ => rfl, fun _ _ => .inl rfl, nofun,
    fun c same there skipped => ?_, accounted.served, accounted.handed⟩
  cases same
  rcases skipped with ⟨-, early⟩ | past
  · refine accounted.early there ?_
    show s.sessions.obj.state = .initialized
    revert opened early
    show s.sessions.obj.state ≠ .uninitialized →
      s.sessions.obj.state.code ≤ Stage.initialized.code → s.sessions.obj.state = .initialized
    cases s.sessions.obj.state <;> simp [Stage.code]
  · cases past

/-! ### The steps of the sessions -/
theorem obtains_of_accepts {label : SessionsLabel} (foreign : ∀ input, label ≠ .driver input)
    (accepts : s.AcceptsNoClient label) : s.sessions.obtains label = none := by
  cases label with
  | driver input => exact absurd rfl (foreign input)
  | server i answer =>
      exact if_neg fun gets => gets.2.2 (accepts gets.1 gets.2.1)
  | listener i answer => rfl
  | stop i => rfl

theorem Accounted.foreign {label : SessionsLabel} {sessions : Sessions}
    (accounted : s.Accounted) (lineage : s.Lineage) (foreign : ∀ input, label ≠ .driver input)
    (stepped : s.sessions.step label = some sessions)
    (clean : s.sessions.cleansUp label = none ∨
      s.cleaner = none ∧ s.sessions.obj.state = .uninitialized)
    (waits : s.sessions.takesLocker label = true → s.cleaner = none) :
    { s with sessions := sessions }.Accounted := by
  obtain ⟨driver, spares⟩ := foreign_step foreign (clean.imp_right And.right) stepped
  have listen := spares.listenSocket
  obtain ⟨created, servers⟩ := foreign_threads foreign stepped
  refine ⟨?_, ?_, ?_, ?_, ?_, ?_, ?_, ?_⟩
  · rw [driver, listen]
    exact accounted.table
  · rw [driver]
    exact accounted.place
  · rw [listen]
    exact accounted.entered
  · rw [listen, driver]
    exact fun there closed => accounted.closes there (spares.early closed (by decide))
  · rw [listen, driver]
    exact fun there initialized => accounted.early there (spares.early initialized le_rfl)
  · rw [listen, driver]
    exact accounted.skips
  · rw [listen, created]
    intro there i young serves
    have before := accounted.served there i young serves
    rcases servers with servers | ⟨j, answer, pc, rfl, moved, servers⟩
    · rw [servers]
      exact before
    rw [servers]
    by_cases other : i = j
    · subst other
      rw [Function.update_self]
      -- the thread lets go only when a clean-up has left no socket behind
      have gone (free : s.cleaner = none) (closed : s.sessions.obj.state = .uninitialized) :
          active pc = true := by
        rcases accounted.closes there closed with closing | recording
        · simp [SocketServer.closing, free] at closing
        · exact absurd serves (lineage.latest (by rw [recording]; rfl) i young)
      rcases active_step moved before with still | cleanup | ⟨shutdown, closed⟩
      · exact still
      · obtain ⟨free, closed⟩ := clean.resolve_left (by simp [cleansUp, cleanup])
        exact gone free closed
      · exact gone (waits (by simp [takesLocker, shutdown])) closed
    · rw [Function.update_of_ne other]
      exact before
  · rw [listen, created, driver]
    exact accounted.handed

/-- No thread serves the session of the driver thread before it creates one. -/
theorem Lineage.unserved_after {input : OpenSocketInput} {sessions : Sessions}
    (lineage : s.Lineage) (stepped : s.sessions.step (.driver input) = some sessions)
    (inside : unserved s.sessions.driver = true)
    (elsewhere : s.sessions.driver ≠ .serving .createServer) :
    ∀ i < sessions.created, s.serves i ≠ s.session := by
  rcases driver_threads stepped with ⟨-, created, -⟩ | ⟨creates, -⟩
  · rw [created]
    exact lineage.latest inside
  · exact absurd creates elsewhere

/-- The threads of a session outlive a step of the driver thread, and a new thread is active. -/
theorem Accounted.served_driver {input : OpenSocketInput} {sessions : Sessions}
    (accounted : s.Accounted) (stepped : s.sessions.step (.driver input) = some sessions)
    (there : s.sessions.obj.listenSocket ≠ -1) {i : ℕ} (young : i < sessions.created)
    (serves : s.serves i = s.session) : active (sessions.servers i) = true := by
  rcases driver_threads stepped with ⟨-, created, servers⟩ | ⟨-, -, created, servers⟩
  · rw [servers]
    exact accounted.served there i (created ▸ young) serves
  · rw [servers]
    by_cases new : i = s.sessions.created
    · rw [new, Function.update_self]
      rfl
    · rw [Function.update_of_ne new]
      exact accounted.served there i (by omega) serves

/-- The driver thread leaves a session with a socket only to the thread that it creates. -/
theorem Accounted.handed_driver {input : OpenSocketInput} {sessions : Sessions}
    (accounted : s.Accounted) (lineage : s.Lineage)
    (stepped : s.sessions.step (.driver input) = some sessions)
    (there : s.sessions.obj.listenSocket ≠ -1)
    (leaves : within s.sessions.driver = true → within sessions.driver = true ∨
      s.sessions.driver = .serving .createServer) :
    (∃ i < sessions.created, s.serves i = s.session) ∨ within sessions.driver = true := by
  have grows : s.sessions.created ≤ sessions.created := by
    rcases driver_threads stepped with ⟨-, created, -⟩ | ⟨-, -, created, -⟩ <;> omega
  rcases accounted.handed there with ⟨i, young, serves⟩ | inside
  · exact .inl ⟨i, young.trans_le grows, serves⟩
  rcases leaves inside with still | creates
  · exact .inr still
  · rcases driver_threads stepped with ⟨other, -⟩ | ⟨-, -, created, -⟩
    · exact absurd creates other
    · exact .inl ⟨s.sessions.created, by omega, lineage.next (by rw [creates]; rfl)⟩

/-- A step of the driver thread that does nothing to the sockets. -/
theorem Accounted.rests {input : OpenSocketInput} {sessions : Sessions}
    (accounted : s.Accounted) (lineage : s.Lineage)
    (stepped : s.sessions.step (.driver input) = some sessions)
    (clean : s.sessions.cleansUp (.driver input) = none ∨
      s.cleaner = none ∧ s.sessions.obj.state = .uninitialized)
    (fresh : s.resets = false) (spares : Spares s.sessions sessions)
    (before : unrecorded s.sessions.driver = false) (after : unrecorded sessions.driver = false)
    (leaves : within s.sessions.driver = true → within sessions.driver = true ∨
      s.sessions.driver = .serving .createServer ∨
        driverCleansUp s.sessions.driver = true ∧ s.sessions.obj.state = .uninitialized) :
    { s with sessions := sessions }.Accounted := by
  have elsewhere : ∀ {P : Prop}, s.sessions.driver = .opening .storeSocketOpen → P := by
    intro _ place
    rw [place] at before
    cases before
  have listen := spares.listenSocket
  refine ⟨?_, by simp [fresh], by simp [fresh], ?_, ?_, ?_, ?_, ?_⟩
  · rw [listen, accounted.table, kept_of_recorded (away_of_recorded before),
      kept_of_recorded (away_of_recorded after)]
  · rw [listen]
    intro there closed
    exact (accounted.closes there (spares.early closed (by decide))).imp_right elsewhere
  · rw [listen]
    intro there initialized
    exact elsewhere (accounted.early there (spares.early initialized le_rfl))
  · rw [listen]
    intro c runs there skipped
    exact elsewhere (accounted.skips c runs there skipped)
  · rw [listen]
    intro there i young serves
    exact accounted.served_driver stepped there young serves
  · rw [listen]
    intro there
    refine accounted.handed_driver lineage stepped there fun inside => ?_
    rcases leaves inside with still | creates | ⟨cleaning, closed⟩
    · exact .inl still
    · exact .inr creates
    · -- the clean-up of another thread has come first, and has left no socket
      have free := (clean.resolve_left (by simp [cleansUp, cleaning])).1
      rcases accounted.closes there closed with closing | recording
      · simp [SocketServer.closing, free] at closing
      · exact elsewhere recording

/-- The test before `socket`, with the call if it succeeds. -/
theorem Accounted.socketTest {input : OpenSocketInput} {sessions : Sessions}
    (accounted : s.Accounted) (held : s.Held) (fresh : s.resets = false)
    (place : s.sessions.driver = .opening .socketTest) (obj : sessions.obj = s.sessions.obj)
    (next : s.sessions.obj.state = .initialized ∧
        sessions.driver = .opening (.createSocket input.socket) ∨
      s.sessions.obj.state ≠ .initialized ∧ sessions.driver = .opening .storeSocketOpen)
    (result : Result s s' (.driver input) sessions) : s'.Accounted := by
  have none := held.unset (by rw [place]; rfl)
  have table : s.descriptors = [] := by
    rw [accounted.table, none, place]
    rfl
  obtain ⟨same, -, -, resets, session, -⟩ := result.keeps
  refine .of_unset (by rw [same, obj]; exact none) ?_ (by rw [resets]; simp [fresh])
  rw [same, session]
  rcases next with ⟨initialized, next⟩ | ⟨other, next⟩
  · rw [next]
    rcases result with ⟨obtained, rfl⟩ | ⟨number, obtained, -, rfl⟩
    · have failed : input.socket = -1 := by
        by_contra some
        simp [obtains, place, initialized, some] at obtained
      simp [kept, failed, table]
    · obtain ⟨some, ⟨_, sameInput, -, -, rfl⟩ | ⟨_, _, other, -⟩⟩ := obtains_cases obtained
      · cases sameInput
        simp [kept, some, table, sessionOf]
      · cases other
  · rw [next]
    rcases result with ⟨obtained, rfl⟩ | ⟨number, obtained, -, rfl⟩
    · exact table
    · simp [obtains, other] at obtained

theorem Accounted.createSocket {number : ℤ} {sessions : Sessions} (accounted : s.Accounted)
    (fresh : s.resets = false) (place : s.sessions.driver = .opening (.createSocket number))
    (obj : sessions.obj = { s.sessions.obj with listenSocket := number })
    (next : sessions.driver = .opening .storeSocketOpen)
    (unserved : ∀ i < sessions.created, s.serves i ≠ s.session) :
    { s with sessions := sessions }.Accounted := by
  have table := accounted.table
  rw [place] at table
  refine ⟨?_, by simp [fresh], by simp [fresh], fun _ _ => .inr next, fun _ _ => next,
    fun _ _ _ _ => next, fun _ i young serves => absurd serves (unserved i young),
    fun _ => .inr (by rw [next]; rfl)⟩
  rw [obj, next]
  exact table

theorem Accounted.storeSocketOpen {sessions : Sessions} (accounted : s.Accounted)
    (fresh : s.resets = false) (free : s.cleaner = none)
    (place : s.sessions.driver = .opening .storeSocketOpen) (spares : Spares s.sessions sessions)
    (recorded : s.sessions.obj.listenSocket ≠ -1 → sessions.obj.state = .socketOpen)
    (next : sessions.driver = .opening .bindTest)
    (unserved : ∀ i < sessions.created, s.serves i ≠ s.session) :
    { s with sessions := sessions }.Accounted := by
  have table := accounted.table
  rw [place] at table
  have listen := spares.listenSocket
  refine ⟨?_, by simp [fresh], by simp [fresh], ?_, ?_, ?_,
    fun _ i young serves => absurd serves (unserved i young), fun _ => .inr (by rw [next]; rfl)⟩
  · rw [listen, next]
    exact table
  · intro there closed
    have socketOpen := recorded (listen ▸ there)
    rw [closed] at socketOpen
    cases socketOpen
  · intro there initialized
    have socketOpen := recorded (listen ▸ there)
    rw [initialized] at socketOpen
    cases socketOpen
  · intro c runs
    rw [free] at runs
    cases runs

theorem Accounted.driver {input : OpenSocketInput} {sessions : Sessions}
    (accounted : s.Accounted) (held : s.Held) (lineage : s.Lineage)
    (stepped : s.sessions.step (.driver input) = some sessions)
    (clean : s.sessions.cleansUp (.driver input) = none ∨
      s.cleaner = none ∧ s.sessions.obj.state = .uninitialized)
    (waits : s.sessions.takesLocker (.driver input) = true → s.cleaner = none)
    (entered : s.sessions.driver = .opening .called →
      s.resets = false ∧ s.sessions.obj.state ≠ .uninitialized)
    (result : Result s s' (.driver input) sessions) : s'.Accounted := by
  have fresh : s.resets = false := by
    by_contra resets
    have resets : s.resets = true := by simpa using resets
    simp [(entered (accounted.place resets)).1] at resets
  have silent (elsewhere : s.sessions.driver ≠ .opening .socketTest) :
      s' = { s with sessions := sessions } := by
    rcases result with ⟨-, same⟩ | ⟨number, obtained, -⟩
    · exact same
    · simp [obtains, elsewhere] at obtained
  cases driver_step (clean.imp_right And.right) (fun place => (entered place).2) stepped with
  | rests spares before after stays leaves =>
      cases silent fun place => by
        rw [place] at before
        cases before
      exact accounted.rests lineage stepped clean fresh spares before after leaves
  | setUp place none next =>
      cases silent (by simp [place])
      have table := accounted.table
      rw [held.unset (by rw [place]; rfl), place] at table
      exact .of_unset none (by rw [next]; exact table) (by simp [fresh])
  | socketTest place obj next => exact accounted.socketTest held fresh place obj next result
  | createSocket place obj next =>
      cases silent (by simp [place])
      exact accounted.createSocket fresh place obj next
        (lineage.unserved_after stepped (by rw [place]; rfl) (by simp [place]))
  | storeSocketOpen place spares recorded next =>
      cases silent (by simp [place])
      exact accounted.storeSocketOpen fresh (waits (by simp [takesLocker, place])) place spares
        recorded next (lineage.unserved_after stepped (by rw [place]; rfl) (by simp [place]))

theorem Accounted.step {label : SessionsLabel} (accounted : s.Accounted) (held : s.Held)
    (lineage : s.Lineage) (leaksNone : s.LeaksNone label) (moves : s.step label = some s') :
    s'.Accounted := by
  obtain ⟨accepts, resetsClosed, clears⟩ := leaksNone
  cases step_moves moves with
  | cleans c runs calls result =>
      rw [result]
      cases pc : c.pc with
      | closeTest => exact accounted.closeTest runs pc
      | close => exact accounted.close held pc
      | poolFree => exact accounted.poolFree runs calls clears pc
  | begins thread calls free opened result =>
      rw [result]
      exact accounted.begins opened
  | enters input driver place fresh closed result =>
      rw [result]
      refine ⟨accounted.table, fun _ => place, fun _ there => ?_, accounted.closes,
        accounted.early, accounted.skips, accounted.served, accounted.handed⟩
      rcases accounted.closes there closed with closing | recording
      · exact closing
      · rw [place] at recording
        cases recording
  | resets input driver place entered result =>
      rw [result]
      subst driver
      have none : s.sessions.obj.listenSocket = -1 := by
        by_contra there
        exact there (resetsClosed place entered (accounted.entered entered there))
      have table := accounted.table
      rw [none, place] at table
      exact .of_unset rfl table (by simp [reset])
  | moves sessions stepped clean waits entered result =>
      by_cases foreign : ∃ input, label = .driver input
      · obtain ⟨input, rfl⟩ := foreign
        exact accounted.driver held lineage stepped clean waits (entered input rfl) result
      · have foreign : ∀ input, label ≠ .driver input := fun input same => foreign ⟨input, same⟩
        rcases result with ⟨-, rfl⟩ | ⟨number, obtained, -⟩
        · exact accounted.foreign lineage foreign stepped clean waits
        · simp [obtains_of_accepts foreign accepts] at obtained

/-- **The sockets are conserved** in every run in which no step leaks one: whenever the stage is
`UNINITIALIZED`, every descriptor of a session that has ended has been closed exactly once. -/
theorem sockets_conserved (reached : Reach step Starts LeaksNone s) : s.Conserved := by
  have counted : s.Accounted ∧ s.Held ∧ s.Lineage := by
    refine Reach.invariant (I := fun s => s.Accounted ∧ s.Held ∧ s.Lineage) ?_ ?_ reached
    · rintro s rfl
      exact ⟨.of_unset rfl rfl nofun,
        ⟨fun there => absurd rfl there, fun _ => rfl, nofun, rfl⟩,
        ⟨fun _ _ => rfl, fun _ => le_rfl, nofun, nofun⟩⟩
    · rintro s label s' ⟨accounted, held, lineage⟩ leaksNone moves
      exact ⟨accounted.step held lineage leaksNone moves, held.step moves, lineage.step moves⟩
  exact counted.1.conserved counted.2.1 counted.2.2

/-- `select` on the listening socket times out. -/
def waitsInVain : TcpServerAnswer := ⟨false, -1, .ready, none⟩

/-- A session is opened, no client connects, the session is stopped, and ends. -/
def unvisitedSession : List SessionsLabel :=
  List.replicate 12 (.driver opens) ++ List.replicate 5 (.server 0 waitsInVain) ++
    List.replicate 3 (.stop 0) ++ List.replicate 9 (.server 0 waitsInVain)

theorem sockets_conserved_unvisitedSession :
    ∃ s : SocketServer, s.sessions.obj.state = .uninitialized ∧ s.Ended 1 ∧ s.Conserved := by
  have moved : (replayWhere step LeaksNone initial unvisitedSession).map
      (fun s => (s.sessions.obj.state, s.sessions.created, s.serves 0, s.sessions.servers 0)) =
        some (.uninitialized, 1, 1, .finished) := by decide
  obtain ⟨s, replayed, shown⟩ := Option.map_eq_some_iff.mp moved
  simp only [Prod.mk.injEq] at shown
  obtain ⟨closed, created, serves, finished⟩ := shown
  exact ⟨s, closed, .inl ⟨0, by omega, serves, finished⟩,
    sockets_conserved (Reach.of_replayWhere (.start rfl) _ replayed)⟩

/-- A session is opened, a client is served, the session is stopped, and ends. -/
def servedSession : List SessionsLabel :=
  List.replicate 12 (.driver opens) ++ List.replicate 11 (.server 0 connects) ++
    List.replicate 3 (.stop 0) ++ List.replicate 2 (.server 0 connects) ++
    [.listener 0 ⟨false, none⟩] ++ List.replicate 7 (.server 0 connects)

/-- **A client's descriptor is leaked.** A session is opened, serves a client, is stopped and
ends, and the descriptor that `accept` returned is still open. -/
theorem leaks_client : ¬ ∀ s : SocketServer, Reach step Starts Always s → s.Conserved := by
  intro conserved
  have moved : (replay step initial servedSession).map
      (fun s => (s.sessions.obj.state, s.sessions.created, s.serves 0, s.sessions.servers 0,
        s.descriptors)) = some (.uninitialized, 1, 1, .finished, [⟨8, 1⟩]) := by decide
  obtain ⟨s, replayed, shown⟩ := Option.map_eq_some_iff.mp moved
  simp only [Prod.mk.injEq] at shown
  obtain ⟨closed, created, serves, finished, table⟩ := shown
  have reached : Reach step Starts Always s := Reach.of_replay (.start rfl) _ replayed
  refine (conserved s reached closed 1 (.inl ⟨0, by omega, serves, finished⟩)).2 ⟨8, 1⟩ ?_ rfl
  rw [table]
  exact List.mem_cons_self

/-! ### What is leaked stays open -/

/-- A descriptor that is open, and that neither `listen_socket` nor the driver thread holds. -/
structure Lost (s : SocketServer) (number : ℤ) : Prop where
  isOpen : s.isOpen number = true
  real : number ≠ -1
  listening : s.sessions.obj.listenSocket ≠ number
  pending : s.sessions.driver ≠ .opening (.createSocket number)

theorem Lost.cleans {number : ℤ} {c : Cleaner} {label : SessionsLabel} (lost : s.Lost number)
    (calls : s.sessions.cleansUp label = some c.thread) :
    (s.cleanupStep c).Lost number := by
  obtain ⟨isOpen, real, listening, pending⟩ := lost
  unfold cleanupStep
  split
  · split <;> exact ⟨isOpen, real, listening, pending⟩
  · refine ⟨?_, real, real.symm, pending⟩
    obtain ⟨d, mem, same⟩ := List.any_eq_true.mp isOpen
    have same : d.number = number := by simpa using same
    exact List.any_eq_true.mpr
      ⟨d, List.mem_filter.mpr ⟨mem, by simpa [same] using listening.symm⟩, by simpa using same⟩
  · refine ⟨isOpen, real, ?_, ?_⟩
    · show (s.sessions.cleared.cleanupReturns c.thread).obj.listenSocket ≠ number
      rw [cleanupReturns_obj]
      exact real.symm
    · show (s.sessions.cleared.cleanupReturns c.thread).driver ≠ _
      rcases cleanupReturns_driver calls with same | ⟨-, outside⟩
      · rw [same]
        exact pending
      · exact away_of_recorded (recorded_of_outside outside) number

theorem Lost.step {number : ℤ} {label : SessionsLabel} (lost : s.Lost number)
    (moves : s.step label = some s') : s'.Lost number := by
  cases step_moves moves with
  | cleans c runs calls result => exact result ▸ lost.cleans calls
  | begins thread calls free opened result =>
      rw [result]
      exact ⟨lost.isOpen, lost.real, lost.listening, lost.pending⟩
  | enters input driver place fresh closed result =>
      rw [result]
      exact ⟨lost.isOpen, lost.real, lost.listening, lost.pending⟩
  | resets input driver place entered result =>
      rw [result]
      exact ⟨lost.isOpen, lost.real, lost.real.symm, fun past => by cases past⟩
  | moves sessions stepped clean waits entered result =>
      obtain ⟨more, -⟩ := result.isOpen
      by_cases foreign : ∃ input, label = .driver input
      · obtain ⟨input, rfl⟩ := foreign
        cases driver_step (clean.imp_right And.right) (fun place => (entered input rfl place).2)
            stepped with
        | rests spares before after =>
            obtain ⟨rfl, -⟩ := result.keeps
            exact ⟨more _ lost.isOpen, lost.real, by rw [spares.listenSocket]; exact lost.listening,
              away_of_recorded after number⟩
        | setUp place none next =>
            obtain ⟨rfl, -⟩ := result.keeps
            exact ⟨more _ lost.isOpen, lost.real, by rw [none]; exact lost.real.symm,
              by rw [next]; intro past; cases past⟩
        | socketTest place obj next =>
            refine ⟨more _ lost.isOpen, lost.real, ?_, ?_⟩
            · rw [result.keeps.1, obj]
              exact lost.listening
            · -- `socket` returns no descriptor that is open
              rw [result.keeps.1]
              rcases next with ⟨initialized, next⟩ | ⟨-, next⟩
              · rw [next]
                intro same
                cases same
                rcases result with ⟨obtained, -⟩ | ⟨fresh, obtained, unused, -⟩
                · simp [obtains, place, initialized, lost.real] at obtained
                · simp only [obtains, place, initialized] at obtained
                  split at obtained <;> cases obtained
                  simp [lost.isOpen] at unused
              · rw [next]
                intro past
                cases past
        | createSocket place obj next =>
            obtain ⟨rfl, -⟩ := result.keeps
            refine ⟨more _ lost.isOpen, lost.real, ?_, by rw [next]; intro past; cases past⟩
            rw [obj]
            rintro rfl
            exact lost.pending place
        | storeSocketOpen place spares recorded next =>
            obtain ⟨rfl, -⟩ := result.keeps
            exact ⟨more _ lost.isOpen, lost.real, by rw [spares.listenSocket]; exact lost.listening,
              by rw [next]; intro past; cases past⟩
      · obtain ⟨driver, spares⟩ := foreign_step (fun input same => foreign ⟨input, same⟩)
          (clean.imp_right And.right) stepped
        obtain ⟨rfl, -⟩ := result.keeps
        exact ⟨more _ lost.isOpen, lost.real, by rw [spares.listenSocket]; exact lost.listening,
          by rw [driver]; exact lost.pending⟩

/-- **A lost descriptor is never closed.** -/
theorem leaks_for_good {number : ℤ} {ok : SocketServer → SessionsLabel → Prop}
    (lost : s.Lost number) (reached : Reach step (· = s) ok s') : s'.isOpen number = true := by
  have still : s'.Lost number := by
    refine Reach.invariant (I := fun s => s.Lost number) ?_
      (fun s label s' lost _ moves => lost.step moves) reached
    rintro _ rfl
    exact lost
  exact still.isOpen

/-- A client's descriptor is lost as soon as `accept` has returned it. -/
theorem lost_of_accept {i : ℕ} {answer : TcpServerAnswer} (held : s.Held)
    (place : s.sessions.servers i = .acceptTest)
    (obtained : s.sessions.obtains (.server i answer) = some answer.accept)
    (moves : s.step (.server i answer) = some s') : s'.Lost answer.accept := by
  have clean : s.sessions.cleansUp (.server i answer) = none := by simp [cleansUp, place]
  cases step_moves moves with
  | cleans c runs calls result => simp [clean] at calls
  | begins thread calls free opened result => simp [clean] at calls
  | enters input driver place fresh closed result => cases driver
  | resets input driver place entered result => cases driver
  | moves sessions stepped clean waits entered result =>
      obtain ⟨driver, spares⟩ := foreign_step (fun input same => by cases same)
        (clean.imp_right And.right) stepped
      have unused : s.isOpen answer.accept = false := by
        rcases result with ⟨none, -⟩ | ⟨number, again, unused, -⟩
        · simp [none] at obtained
        · rw [obtained] at again
          cases again
          exact unused
      have real := (obtains_cases obtained).1
      obtain ⟨rfl, -⟩ := result.keeps
      refine ⟨result.isOpen.2 _ obtained, real, ?_, ?_⟩
      · rw [spares.listenSocket]
        intro same
        have listening := held.listening (same ▸ real)
        simp [same, unused] at listening
      · rw [driver]
        intro place
        simp [held.pending _ place real] at unused

/-- **Each of the three steps loses a descriptor**, in any run: the client's, the one that a
clean-up was going to close, or the one that `sdrtcp_open_socket` was going to record. -/
theorem lost_of_leak {label : SessionsLabel} {ok : SocketServer → SessionsLabel → Prop}
    (reached : Reach step Starts ok s) (leak : ¬ s.LeaksNone label)
    (moves : s.step label = some s') : ∃ number, s'.Lost number := by
  have held := held_of_reach reached
  by_cases accepts : s.AcceptsNoClient label
  · by_cases resetsClosed : s.ResetsClosed label
    · have clears : ¬ s.ClearsUnset label := fun clears => leak ⟨accepts, resetsClosed, clears⟩
      simp only [ClearsUnset, not_forall] at clears
      obtain ⟨c, runs, calls, pc, recording, there⟩ := clears
      have runs : s.cleaner = some c := runs
      have result : s' = s.cleanupStep c := by
        simp only [step, calls, runs, if_true] at moves
        exact (Option.some.inj moves).symm
      rw [result]
      simp only [cleanupStep, pc]
      refine ⟨s.sessions.obj.listenSocket, held.listening there, there, ?_, ?_⟩
      · show (s.sessions.cleared.cleanupReturns c.thread).obj.listenSocket ≠ _
        rw [cleanupReturns_obj]
        exact Ne.symm there
      · show (s.sessions.cleared.cleanupReturns c.thread).driver ≠ _
        rcases cleanupReturns_driver calls with same | ⟨-, outside⟩
        · rw [same]
          show s.sessions.driver ≠ _
          rw [recording]
          intro past
          cases past
        · exact away_of_recorded (recorded_of_outside outside) _
    · cases label with
      | driver input =>
          simp only [ResetsClosed, Classical.not_imp] at resetsClosed
          obtain ⟨place, entered, -, there⟩ := resetsClosed
          cases step_moves moves with
          | cleans c runs calls result => simp [cleansUp, place, driverCleansUp] at calls
          | begins thread calls free opened result =>
              simp [cleansUp, place, driverCleansUp] at calls
          | enters input driver place fresh closed result => simp [entered] at fresh
          | resets input driver place entered result =>
              rw [result]
              exact ⟨s.sessions.obj.listenSocket, held.listening there, there, Ne.symm there,
                fun past => by cases past⟩
          | moves sessions stepped clean waits fresh result =>
              simp [(fresh input rfl place).1] at entered
      | server i answer => exact absurd trivial resetsClosed
      | listener i answer => exact absurd trivial resetsClosed
      | stop i => exact absurd trivial resetsClosed
  · cases label with
    | server i answer =>
        simp only [AcceptsNoClient, Classical.not_imp] at accepts
        obtain ⟨place, started, real⟩ := accepts
        exact ⟨answer.accept, lost_of_accept held place
          (if_pos ⟨place, started, real⟩) moves⟩
    | driver input => exact absurd trivial accepts
    | listener i answer => exact absurd trivial accepts
    | stop i => exact absurd trivial accepts

end SocketServer

end MsiSdrDriver.Server
