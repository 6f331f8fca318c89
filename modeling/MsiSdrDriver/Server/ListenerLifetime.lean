import Mathlib.Data.Fin.VecNotation
import MsiSdrDriver.Foundations.LabelledRuns
import MsiSdrDriver.Server.SessionThreads

/-!
# The command listener of a session

One session: its `tcp_server` thread, the `commandListener` that the thread creates, and any
number of stop requests.

`tcp_server` creates the listener before it stores `CLIENT_SERVING`, and the listener exits on
its first look at any other state. Scheduled at once it is gone before the client is served
(`ListenerSession.serves_without_listener`), and this is the only way
(`ListenerSession.early_listener_exits`). Where the listener does not run before the store, it
exits only after the state has been `CLIENT_SERVING` and has left it
(`ListenerSession.listener_lives`).
-/

set_option autoImplicit false

namespace MsiSdrDriver.Server

open MsiSdrDriver.Foundations

/-- A session. `served` and `left` are history: the state has been `CLIENT_SERVING`, and it has
left `CLIENT_SERVING` again. -/
structure ListenerSession where
  obj : Sdrtcp
  server : TcpServerPc
  listener : CommandListenerPc
  stops : ℕ → StopPc
  served : Bool
  left : Bool

inductive ListenerLabel where
  | server (answer : TcpServerAnswer)
  | listener (answer : CommandListenerAnswer)
  | stop (i : ℕ)

namespace ListenerSession

/-- The history after a step. -/
def observe (s : ListenerSession) : ListenerSession :=
  { s with
    served := s.served || s.obj.state = .clientServing
    left := s.left || (s.served && s.obj.state ≠ .clientServing) }

/-- One step of a session. The server waits at `pthread_join` until the listener has exited. -/
def step (s : ListenerSession) : ListenerLabel → Option ListenerSession
  | .server answer =>
      if s.server = .joinListener ∧ s.listener ≠ .exited then none
      else
        (tcpServerStep s.obj answer s.server).map fun (obj, pc') =>
          observe { s with
            obj := obj
            server := pc'
            listener := if s.server = .createListener then .outerTest else s.listener }
  | .listener answer =>
      (commandListenerStep s.obj answer s.listener).map fun (obj, pc') =>
        observe { s with obj := obj, listener := pc' }
  | .stop i =>
      (stopServingClientStep s.obj (s.stops i)).map fun (obj, pc') =>
        observe { s with obj := obj, stops := Function.update s.stops i pc' }

/-- The object with which `sdrtcp_serve_client_async` creates the `tcp_server` thread. -/
def initial (obj : Sdrtcp) : ListenerSession where
  obj := obj
  server := .waitEntry
  listener := .unborn
  stops := fun _ => .called
  served := false
  left := false

def Starts (s : ListenerSession) : Prop :=
  ∃ obj : Sdrtcp, obj.state = .clientOpenStartedAsync ∧ s = initial obj

/-- The listener lives as long as the session: when it has exited, the state has been
`CLIENT_SERVING`, has left it, and no client is served. -/
def ListenerLives (s : ListenerSession) : Prop :=
  s.listener = .exited →
    s.served = true ∧ s.left = true ∧ s.obj.state ≠ .clientServing

/-- A client connects and takes what it is sent. -/
def connects : TcpServerAnswer := ⟨true, 8, .ready, some 12⟩

/-- Nothing is received. -/
def silent : CommandListenerAnswer := ⟨false, none⟩

/-- The listener is scheduled as soon as it exists. -/
def eagerListener : List ListenerLabel :=
  List.replicate 10 (.server connects) ++ [.listener silent, .server connects]

/-- What `sdrtcp_open_socket` and `sdrtcp_serve_client_async` leave behind. -/
def opened : Sdrtcp :=
  { sdrtcpInit with
    state := .clientOpenStartedAsync
    workpool := sdrtcpOpenPool Workpool.blank (dongleInfo ![77, 73, 82, 73] 0 29)
    listenSocket := 7 }

/-- **A client can be served without a listener.** -/
theorem serves_without_listener :
    ¬ ∀ s : ListenerSession, Reach step Starts Always s → s.ListenerLives := by
  intro lives
  have moved : (replay step (initial opened) eagerListener).map
      (fun s => (s.listener, s.obj.state)) = some (.exited, .clientServing) := by decide
  obtain ⟨s, replayed, shown⟩ := Option.map_eq_some_iff.mp moved
  simp only [Prod.mk.injEq] at shown
  exact (lives s (Reach.of_replay (.start ⟨opened, rfl, rfl⟩) _ replayed) shown.1).2.2 shown.2

/-! ## The history of the state -/

/-- What the history says about the state. -/
structure History (state : Stage) (served left : Bool) : Prop where
  seen : state = .clientServing → served = true
  gone : left = true → state ≠ .clientServing
  noticed : served = true → state ≠ .clientServing → left = true
  order : left = true → served = true

/-- Nothing brings `CLIENT_SERVING` back once it has been seen. -/
theorem History.observe {state state' : Stage} {served left : Bool}
    (history : History state served left)
    (once : state' = .clientServing → state = .clientServing ∨ served = false) :
    History state' (served || state' = .clientServing)
      (left || (served && state' ≠ .clientServing)) := by
  refine ⟨fun serving => by simp [serving], fun isLeft serving => ?_, fun isServed gone => ?_,
    fun isLeft => ?_⟩
  · have before : left = true := by simpa [serving] using isLeft
    rcases once serving with same | unserved
    · exact history.gone before same
    · simp [history.order before] at unserved
  · have before : served = true := by simpa [gone] using isServed
    simp [before, gone]
  · rw [Bool.or_eq_true, Bool.and_eq_true] at isLeft
    rcases isLeft with before | ⟨before, -⟩
    · simp [history.order before]
    · simp [before]

/-- How far `tcp_server` is: the listener is not yet created, it is created and the store of
`CLIENT_SERVING` is to come, or neither is to come any more. -/
def phase : TcpServerPc → ℕ
  | .unborn | .waitEntry | .resetClient | .waitTest | .selectTest | .acceptTest | .accept _
  | .storeClientOpen | .clientTest | .createListener => 0
  | .storeServing => 1
  | .serving _ | .joinListener | .shutdownTest | .cleanup | .closedcb | .finished => 2

theorem eq_storeServing_of_phase {pc : TcpServerPc} (one : phase pc = 1) :
    pc = .storeServing := by
  cases pc <;> simp_all [phase]

/-- `tcp_server` does not go back, and only the creation of the listener brings it to the store
of `CLIENT_SERVING`. -/
theorem phase_step {obj obj' : Sdrtcp} {answer : TcpServerAnswer} {pc pc' : TcpServerPc}
    (moves : tcpServerStep obj answer pc = some (obj', pc')) :
    phase pc ≤ phase pc' ∧ (pc = .createListener → pc' = .storeServing) ∧
      (phase pc = 0 → pc ≠ .createListener → phase pc' ≠ 1) := by
  cases pc with
  | unborn | finished => cases moves
  | resetClient | storeClientOpen | createListener | storeServing | joinListener | cleanup
  | closedcb =>
      cases moves
      simp [phase]
  | accept descriptor =>
      cases moves
      split <;> simp [phase]
  | serving serve =>
      by_cases finished : serve = .returned
      · subst finished
        cases moves
        simp [phase]
      · simp only [tcpServerStep, Option.map_eq_some_iff, Prod.exists] at moves
        obtain ⟨next, serve', bytes, stepped, same⟩ := moves
        cases same
        simp [phase]
  | waitEntry | waitTest | selectTest | acceptTest | clientTest | shutdownTest =>
      simp only [tcpServerStep] at moves
      split at moves <;> cases moves <;> simp [phase]

/-- `tcp_server` stores `CLIENT_SERVING` in one place. -/
theorem serving_step {obj obj' : Sdrtcp} {answer : TcpServerAnswer} {pc pc' : TcpServerPc}
    (moves : tcpServerStep obj answer pc = some (obj', pc'))
    (serving : obj'.state = .clientServing) : obj.state = .clientServing ∨ pc = .storeServing := by
  rcases tcpServerStep_cases moves with ⟨-, rfl, -⟩ | ⟨place, -, -⟩ | ⟨-, rfl, -⟩ | ⟨settled, -, -⟩
  · cases serving
  · exact .inr place
  · simp at serving
  · rcases settled.state with same | stopping
    · exact .inl (same ▸ serving)
    · simp [stopping] at serving

/-! ## The invariant -/

/-- What holds in every run. -/
structure Coherent (s : ListenerSession) : Prop where
  history : History s.obj.state s.served s.left
  unserved : phase s.server ≤ 1 → s.served = false
  unborn : phase s.server = 0 → s.listener = .unborn
  born : s.listener ≠ .unborn → phase s.server = 1 ∨ s.served = true

variable {s s' : ListenerSession}

/-- A step of the `tcp_server` thread, taken apart. -/
theorem server_step {answer : TcpServerAnswer} (moves : s.step (.server answer) = some s') :
    ∃ obj pc', tcpServerStep s.obj answer s.server = some (obj, pc') ∧
      s' = observe { s with
        obj := obj
        server := pc'
        listener := if s.server = .createListener then .outerTest else s.listener } := by
  simp only [step] at moves
  split at moves
  · cases moves
  · simp only [Option.map_eq_some_iff, Prod.exists] at moves
    obtain ⟨obj, pc', stepped, rfl⟩ := moves
    exact ⟨obj, pc', stepped, rfl⟩

theorem Coherent.server {answer : TcpServerAnswer} (coherent : s.Coherent)
    (moves : s.step (.server answer) = some s') : s'.Coherent := by
  obtain ⟨obj, pc', stepped, rfl⟩ := server_step moves
  obtain ⟨forward, creates, other⟩ := phase_step stepped
  have storing : ∀ place : s.server = .storeServing, obj.state = .clientServing := by
    intro place
    rw [place] at stepped
    cases stepped
    rfl
  refine ⟨coherent.history.observe fun serving => ?_, fun early => ?_, fun start => ?_,
    fun born => ?_⟩
  · exact (serving_step stepped serving).imp_right fun place =>
      coherent.unserved (by simp [place, phase])
  · have unserved := coherent.unserved (forward.trans early)
    have notServing : obj.state ≠ .clientServing := by
      intro serving
      rcases serving_step stepped serving with before | place
      · simp [coherent.history.seen before] at unserved
      · rw [place] at stepped
        cases stepped
        simp [observe, phase] at early
    simp [observe, unserved, notServing]
  · have before : phase s.server = 0 := by
      have := forward
      simp only [observe] at start
      omega
    have noCreate : s.server ≠ .createListener := by
      intro place
      simp only [observe, creates place, phase] at start
      omega
    simp [observe, noCreate, coherent.unborn before]
  · by_cases place : s.server = .createListener
    · exact .inl (by simp [observe, creates place, phase])
    · refine .inr ?_
      rcases coherent.born (by simpa [observe, place] using born) with one | served
      · simp [observe, storing (eq_storeServing_of_phase one)]
      · simp [observe, served]

/-- A step of another thread, which does not store `CLIENT_SERVING`. -/
theorem Coherent.observe {t : ListenerSession} (coherent : s.Coherent)
    (server : t.server = s.server) (served : t.served = s.served) (left : t.left = s.left)
    (once : t.obj.state = .clientServing → s.obj.state = .clientServing)
    (listener : t.listener = s.listener ∨ s.listener ≠ .unborn) :
    (ListenerSession.observe t).Coherent := by
  refine ⟨?_, fun early => ?_, fun start => ?_, fun born => ?_⟩
  · simp only [ListenerSession.observe, served, left]
    exact coherent.history.observe fun serving => .inl (once serving)
  · have unserved := coherent.unserved (server ▸ early)
    have notServing : t.obj.state ≠ .clientServing := fun serving => by
      simp [coherent.history.seen (once serving)] at unserved
    simp [ListenerSession.observe, served, unserved, notServing]
  · have unborn := coherent.unborn (server ▸ start)
    rcases listener with same | born
    · simp [ListenerSession.observe, same, unborn]
    · exact absurd unborn born
  · have before : s.listener ≠ .unborn := by
      rcases listener with same | born'
      · rw [← same]
        exact born
      · exact born'
    rcases coherent.born before with one | already
    · exact .inl (server ▸ one)
    · exact .inr (by simp [ListenerSession.observe, served, already])

theorem Coherent.listener {answer : CommandListenerAnswer} (coherent : s.Coherent)
    (moves : s.step (.listener answer) = some s') : s'.Coherent := by
  simp only [step, Option.map_eq_some_iff, Prod.exists] at moves
  obtain ⟨obj, pc', stepped, rfl⟩ := moves
  refine coherent.observe rfl rfl rfl (fun serving => ?_) (.inr fun unborn => ?_)
  · rcases (commandListenerStep_settles stepped).state with same | stopping
    · exact same ▸ serving
    · simp [stopping] at serving
  · rw [unborn] at stepped
    cases stepped

theorem Coherent.stop {i : ℕ} (coherent : s.Coherent) (moves : s.step (.stop i) = some s') :
    s'.Coherent := by
  simp only [step, Option.map_eq_some_iff, Prod.exists] at moves
  obtain ⟨obj, pc', stepped, rfl⟩ := moves
  refine coherent.observe rfl rfl rfl (fun serving => ?_) (.inl rfl)
  cases place : s.stops i with
  | called | compare =>
      rw [place] at stepped
      simp only [stopServingClientStep] at stepped
      split at stepped <;> cases stepped <;> exact serving
  | cleanup =>
      rw [place] at stepped
      cases stepped
      simp at serving
  | store =>
      rw [place] at stepped
      cases stepped
      cases serving
  | returned =>
      rw [place] at stepped
      cases stepped

theorem Coherent.step {label : ListenerLabel} (coherent : s.Coherent)
    (moves : s.step label = some s') : s'.Coherent := by
  cases label with
  | server answer => exact coherent.server moves
  | listener answer => exact coherent.listener moves
  | stop i => exact coherent.stop moves

theorem Coherent.starts {obj : Sdrtcp} (state : obj.state = .clientOpenStartedAsync) :
    (initial obj).Coherent :=
  ⟨⟨by simp [initial, state], by simp [initial], by simp [initial], by simp [initial]⟩,
    fun _ => rfl, fun _ => rfl, by simp [initial]⟩

theorem Coherent.reached {ok : ListenerSession → ListenerLabel → Prop}
    (reached : Reach ListenerSession.step Starts ok s) : s.Coherent := by
  refine reached.invariant ?_ fun s label s' coherent _ moves => coherent.step moves
  rintro s ⟨obj, state, rfl⟩
  exact Coherent.starts state

/-! ## When the listener lives -/

/-- The listener does not run before `tcp_server` has stored `CLIENT_SERVING`. -/
def AfterStore (s : ListenerSession) : ListenerLabel → Prop
  | .listener _ => s.server ≠ .storeServing
  | .server _ | .stop _ => True

instance : DecidableRel AfterStore := by
  intro s label
  cases label <;> unfold AfterStore <;> infer_instance

/-- A listener that runs before the store exits at once, with no client served yet. -/
theorem early_listener_exits {answer : CommandListenerAnswer}
    (reached : Reach step Starts Always s) (early : s.server = .storeServing)
    (first : s.listener = .outerTest) :
    ∃ s', s.step (.listener answer) = some s' ∧ s'.listener = .exited ∧ s'.served = false := by
  have coherent := Coherent.reached reached
  have unserved := coherent.unserved (by simp [early, phase])
  have notServing : s.obj.state ≠ .clientServing := fun serving => by
    simp [coherent.history.seen serving] at unserved
  refine ⟨observe { s with listener := .exited }, ?_, rfl, ?_⟩
  · simp [step, first, commandListenerStep, notServing]
  · simp [observe, unserved, notServing]

/-- The listener exits only on a state that is not `CLIENT_SERVING`. -/
theorem exits_step {obj obj' : Sdrtcp} {answer : CommandListenerAnswer} {pc : CommandListenerPc}
    (moves : commandListenerStep obj answer pc = some (obj', .exited)) :
    obj' = obj ∧ obj.state ≠ .clientServing := by
  cases pc with
  | unborn | exited | commandcb | recvFailed left => cases moves
  | recv left =>
      simp only [commandListenerStep] at moves
      split at moves
      · split at moves <;> cases moves
      · cases moves
  | innerTest left | selectTest left | recvTest left ready | commandTest left =>
      simp only [commandListenerStep] at moves
      split at moves <;> cases moves
  | outerTest =>
      simp only [commandListenerStep] at moves
      split at moves <;> cases moves
      next gone => exact ⟨rfl, gone⟩

/-- After the store, an exit of the listener means that the state has left
`CLIENT_SERVING`. -/
theorem exited_left {label : ListenerLabel} (coherent : s.Coherent) (allowed : s.AfterStore label)
    (before : s.listener = .exited → s.left = true) (moves : s.step label = some s')
    (exited : s'.listener = .exited) : s'.left = true := by
  cases label with
  | server answer =>
      obtain ⟨obj, pc', stepped, rfl⟩ := server_step moves
      by_cases creates : s.server = .createListener
      · simp [observe, creates] at exited
      · simp [observe, before (by simpa [observe, creates] using exited)]
  | stop i =>
      simp only [step, Option.map_eq_some_iff, Prod.exists] at moves
      obtain ⟨obj, pc', -, rfl⟩ := moves
      simp [observe, before exited]
  | listener answer =>
      simp only [step, Option.map_eq_some_iff, Prod.exists] at moves
      obtain ⟨obj, pc', stepped, rfl⟩ := moves
      cases exited
      obtain ⟨rfl, gone⟩ := exits_step stepped
      have born : s.listener ≠ .unborn := fun unborn => by
        rw [unborn] at stepped
        cases stepped
      rcases coherent.born born with one | served
      · exact absurd (eq_storeServing_of_phase one) allowed
      · simp [observe, coherent.history.noticed served gone]

/-- **The listener lives as long as the session**, in every run in which it does not run before
`CLIENT_SERVING` is stored. -/
theorem listener_lives {s : ListenerSession} (reached : Reach step Starts AfterStore s) :
    s.ListenerLives := by
  have sound : s.Coherent ∧ (s.listener = .exited → s.left = true) := by
    refine reached.invariant (I := fun s => s.Coherent ∧ (s.listener = .exited → s.left = true))
      ?_ fun s label s' before allowed moves =>
        ⟨before.1.step moves, exited_left before.1 allowed before.2 moves⟩
    rintro s ⟨obj, state, rfl⟩
    exact ⟨Coherent.starts state, fun exited => by cases exited⟩
  intro exited
  have left := sound.2 exited
  exact ⟨sound.1.history.order left, left, sound.1.history.gone left⟩

/-- The client is served, a stop request comes, and the listener sees it. -/
def stoppedSession : List ListenerLabel :=
  List.replicate 11 (.server connects) ++ List.replicate 3 (.listener silent) ++
    List.replicate 3 (.stop 0) ++ List.replicate 4 (.listener silent)

theorem listener_lives_stoppedSession :
    ∃ s : ListenerSession, s.listener = .exited ∧ s.ListenerLives := by
  have moved : (replayWhere step AfterStore (initial opened) stoppedSession).map
      (fun s => s.listener) = some .exited := by decide
  obtain ⟨s, replayed, exited⟩ := Option.map_eq_some_iff.mp moved
  exact ⟨s, exited, listener_lives
    (Reach.of_replayWhere (.start ⟨opened, rfl, rfl⟩) _ replayed)⟩

end ListenerSession

end MsiSdrDriver.Server
