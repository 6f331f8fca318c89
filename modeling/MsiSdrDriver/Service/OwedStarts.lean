import MsiSdrDriver.Service.OwnerTurns

/-!
# No request is stranded

A request that finds no device running asks the system for a start command, and a request that finds
one running asks that device to close. Either way somebody has to come back to the queue: the thread
that owns the fields of the service, or the system with a start command that it owes.

There is one gap. The thread of a device may have found the queue empty and not yet stored that
nothing runs. A request that looks at `isRunning` in between relies on a device that will not look
at the queue again (`Handlers.request_stranded`). In every run without this, when everything has
settled, every request has been opened, once and in order (`Handlers.all_requests_opened`).
-/

set_option autoImplicit false

namespace MsiSdrDriver.Service

open MsiSdrDriver.Foundations

universe u v w

variable {δ : Type u} {α : Type v} {κ : Type w}

/-- From here a thread comes to the queue, or opens a device whose thread will. -/
def StartPc.Attends : StartPc δ α → Prop
  | .storeNotRunning | .tellNotRunning | .clearCallbacks | .stopSelf | .startForeground => False
  | _ => True

def DevicePc.Attends : DevicePc δ α → Prop
  | .unstarted | .ended => False
  | .start pc => pc.Attends
  | _ => True

def Place.Attends : Place δ α → Prop
  | .nobody => False
  | .main pc => pc.Attends
  | .device _ pc => pc.Attends

/-- A thread has found the queue empty, and has not stored that nothing runs. -/
def DevicePc.Stopping : DevicePc δ α → Prop
  | .start .storeNotRunning => True
  | _ => False

instance : DecidablePred (DevicePc.Stopping : DevicePc δ α → Prop) := fun pc =>
  match pc with
  | .start .storeNotRunning => inferInstanceAs (Decidable True)
  | .start .poll | .start .tellNotRunning | .start .clearCallbacks | .start .stopSelf
  | .start (.storeDevice _ _) | .start (.check _) | .start (.readName _)
  | .start (.storeRunning _) | .start (.tellRunning _) | .start (.addListener _)
  | .start (.openAsync _) | .start .startForeground | .unstarted | .opened | .sendDetached
  | .stopForeground | .forget | .releaseLock | .ended => inferInstanceAs (Decidable False)

namespace Handlers

/-- With a request in the queue, the binder does not find that a device runs whose thread is about
to store that nothing does. -/
def Heard (s : Handlers δ α κ) : HandlerEvent δ α κ → Prop
  | .main =>
      match s.main with
      | .isRunning => s.service.isRunning = true → s.service.workQueue.isEmpty = false →
          ∀ sdrDevice ∈ s.requests.map Prod.fst, ¬(s.threads sdrDevice).Stopping
      | _ => True
  | _ => True

/-- Somebody comes back to the queue. -/
def Attended (s : Handlers δ α κ) (place : Place δ α) : Prop :=
  s.service.workQueue ≠ [] → 0 < s.owed ∨ s.main.Asks ∨ place.Attends

end Handlers

/-- A thread that comes to the queue takes a request from it, or finds it empty. -/
theorem StartPc.attends_step {s service : BinaryRunnerService δ α κ} {pc pc' : StartPc δ α}
    {effects : List (Effect δ α κ)} (stepped : pc.step s = ⟨service, effects, .goes pc'⟩) :
    (pc.Attends → pc'.Attends ∨ pc' = .startForeground ∨ service.workQueue = []) ∧
      (service.workQueue ≠ [] → s.workQueue ≠ []) := by
  cases pc with
  | poll =>
      cases queue : s.workQueue with
      | nil =>
          rw [step_poll_nil queue] at stepped
          cases stepped
          exact ⟨fun _ => .inr (.inr queue), fun some => absurd queue some⟩
      | cons request rest =>
          rw [step_poll_cons queue] at stepped
          cases stepped
          exact ⟨fun _ => .inl trivial, fun _ => List.cons_ne_nil request rest⟩
  | check sdrTcpArguments | readName sdrTcpArguments | addListener sdrTcpArguments =>
      simp only [StartPc.step, withDevice] at stepped
      split at stepped
      · cases stepped
      · cases stepped
        exact ⟨fun _ => .inl trivial, id⟩
  | openAsync sdrTcpArguments =>
      simp only [StartPc.step, withDevice] at stepped
      split at stepped
      · cases stepped
      · cases stepped
        exact ⟨fun _ => .inr (.inl rfl), id⟩
  | storeNotRunning | tellNotRunning | clearCallbacks =>
      cases stepped
      exact ⟨False.elim, id⟩
  | storeDevice sdrDevice sdrTcpArguments | storeRunning sdrTcpArguments
  | tellRunning sdrTcpArguments =>
      cases stepped
      exact ⟨fun _ => .inl trivial, id⟩
  | stopSelf | startForeground => cases stepped

/-- The thread of a device that has ended comes to the queue. -/
theorem DevicePc.attends_step {s service : BinaryRunnerService δ α κ} {pc pc' : DevicePc δ α}
    {effects : List (Effect δ α κ)} (apart : ∀ start, pc ≠ .start start)
    (stepped : pc.step s = some ⟨service, effects, .goes pc'⟩) :
    pc'.Attends ∧ service.workQueue = s.workQueue := by
  cases pc with
  | unstarted | ended => cases stepped
  | start pc => exact absurd rfl (apart pc)
  | sendDetached =>
      simp only [DevicePc.step, withDevice] at stepped
      split at stepped
      · cases stepped
      · cases stepped
        exact ⟨trivial, rfl⟩
  | opened | stopForeground | forget | releaseLock =>
      cases stepped
      exact ⟨trivial, rfl⟩

/-! ## Every step -/

theorem at_attends (thread : Thread δ) (pc : StartPc δ α) :
    (thread.at pc).Attends ↔ pc.Attends := by
  cases thread <;> exact Iff.rfl

section Steps

variable {s s' : Handlers δ α κ} {place place' : Place δ α}

/-- While `isRunning` is true, its owner comes back to the queue, unless it is about to store that
nothing runs. -/
theorem Owned.attends (owned : Owned s place) (elsewhere : place.thread ≠ some .main)
    (running : s.service.isRunning = true)
    (goesOn : ∀ sdrDevice ∈ s.requests.map Prod.fst, ¬(s.threads sdrDevice).Stopping) :
    place.Attends := by
  cases place with
  | nobody =>
      have stopped := owned.holds.2
      rw [running] at stopped
      cases stopped
  | main pc => exact absurd rfl elsewhere
  | device sdrDevice pc =>
      obtain ⟨here, fits⟩ := owned.holds
      have stays := goesOn sdrDevice (owned.requested (owned.started sdrDevice owned.alive))
      rw [here] at stays
      cases pc with
      | unstarted | ended => exact fits
      | opened | sendDetached | stopForeground | forget | releaseLock => exact trivial
      | start pc =>
          cases pc with
          | storeNotRunning => exact absurd trivial stays
          | tellNotRunning | clearCallbacks | stopSelf =>
              have stopped : s.service.isRunning = false := fits.2
              rw [running] at stopped
              cases stopped
          | startForeground => exact fits
          | _ => exact trivial

theorem Owned.starting {thread : Thread δ} {pc : StartPc δ α} (owned : Owned s (thread.at pc))
    (main : thread = .main) : ∃ pc, s.main = .start pc := by
  subst main
  exact ⟨pc, owned.holds.1⟩

variable [DecidableEq δ]

/-- A step of `startWithDevice` on one thread leaves the requests on the main thread alone. -/
theorem turned_asks {thread : Thread δ} {r : HandlerStep δ α κ (StartPc δ α)}
    (here : thread = .main → ∃ pc, s.main = .start pc) (asks : s.main.Asks) :
    (s.turned r thread).main.Asks := by
  cases thread with
  | main =>
      obtain ⟨pc, starting⟩ := here rfl
      rw [starting] at asks
      exact asks.elim
  | device sdrDevice => exact asks

theorem turned_owed {thread : Thread δ} (r : HandlerStep δ α κ (StartPc δ α)) :
    (s.turned r thread).owed = s.owed := by
  cases thread <;> rfl

/-- A thread takes a step of `startWithDevice`, after which the place attends or the queue is
empty. -/
theorem Handlers.Attended.turned {thread : Thread δ} {r : HandlerStep δ α κ (StartPc δ α)}
    (attended : s.Attended place) (here : thread = .main → ∃ pc, s.main = .start pc)
    (queue : r.service.workQueue ≠ [] → s.service.workQueue ≠ [])
    (attends : place.Attends → place'.Attends ∨ r.service.workQueue = []) :
    (s.turned r thread).Attended place' := by
  intro waits
  rw [turned_service] at waits
  rw [turned_owed]
  rcases attended (queue waits) with owed | asks | comes
  · exact .inl owed
  · exact .inr (.inl (turned_asks here asks))
  · exact .inr (.inr ((attends comes).resolve_right waits))

/-- **The step.** -/
theorem Handlers.Attended.turn {event : HandlerEvent δ α κ} (attended : s.Attended place)
    (owned : Owned s place) (heard : s.Heard event) (turn : Turn s event place s' place') :
    s'.Attended place' := by
  cases turn with
  | delivers idle => exact fun _ => .inr (.inr trivial)
  | requests beside looks => exact fun _ => .inr (.inl (looks ▸ trivial))
  | beside beside queue owes asks =>
      intro waits
      rw [queue] at waits
      rcases attended waits with owed | asking | comes
      · exact .inl (Nat.lt_of_lt_of_le owed owes)
      · rcases asks asking with still | owed | ⟨rfl, looks, running⟩
        · exact .inr (.inl still)
        · exact .inl owed
        · simp only [Handlers.Heard, looks] at heard
          refine .inr (.inr (owned.attends beside.elsewhere running (heard running ?_)))
          exact Bool.eq_false_iff.mpr (mt List.isEmpty_iff.mp waits)
      · exact .inr (.inr comes)
  | trails thread main device =>
      exact attended.turned (fun same => ⟨_, main same⟩) id .inl
  | goes fits stepped fits' silent =>
      obtain ⟨attends, queue⟩ := StartPc.attends_step stepped
      refine attended.turned owned.starting queue fun comes => ?_
      rw [at_attends] at comes ⊢
      rcases attends comes with still | rfl | empty
      · exact .inl still
      · exact fits'.elim
      · exact .inr empty
  | handsOver this => exact attended.turned owned.starting id fun _ => .inl trivial
  | stops =>
      refine attended.turned owned.starting id fun comes => ?_
      rw [at_attends] at comes
      exact comes.elim
  | closes apart fits stepped silent =>
      obtain ⟨comes, queue⟩ := DevicePc.attends_step apart stepped
      exact fun _ => .inr (.inr comes)

end Steps

/-! ## Every run -/

namespace Handlers

variable [DecidableEq δ] [DecidableEq κ] {s : Handlers δ α κ}

/-- Start commands are delivered only while no device is open, and every request is heard. -/
def Hearing (s : Handlers δ α κ) (event : HandlerEvent δ α κ) : Prop :=
  s.StartsIdle event ∧ s.Heard event

theorem attended_of_reach (reached : Reach step Starts Hearing s) :
    ∃ place, Owned s place ∧ s.Attended place := by
  refine reached.invariant (I := fun s => ∃ place, Owned s place ∧ s.Attended place) ?_ ?_
  · intro s starts
    obtain ⟨place, owned⟩ := owned_of_reach
      (fun s event (hearing : Hearing s event) => hearing.1) (.start starts)
    refine ⟨place, owned, fun waits => ?_⟩
    rw [starts] at waits
    exact absurd rfl waits
  · rintro s event s' ⟨place, owned, attended⟩ ⟨startsIdle, heard⟩ moves
    obtain ⟨place', turn, owned'⟩ := owned.turn startsIdle moves
    exact ⟨place', owned', attended.turn owned heard turn⟩

/-- **When everything has settled, every request has been opened**, once and in order, and the
service says that nothing runs. -/
theorem all_requests_opened (reached : Reach step Starts Hearing s) (closed : s.NoneOpen)
    (rests : s.main = .idle) (settled : s.owed = 0) :
    opens s.effects = s.requests ∧ ((opens s.effects).map Prod.fst).Nodup ∧
      s.service.isRunning = false := by
  obtain ⟨place, owned, attended⟩ := attended_of_reach reached
  obtain rfl := owned.nobody rests closed
  have empty : s.service.workQueue = [] := by
    by_contra waits
    rcases attended waits with owed | asks | comes
    · omega
    · rw [rests] at asks
      exact asks
    · exact comes
  have requests : s.requests = opens s.effects := by
    rw [owned.requests, empty, List.append_nil]
    exact List.append_nil _
  refine ⟨requests.symm, ?_, owned.holds.2⟩
  rw [← requests]
  exact owned.distinct

/-- A device is requested, and opened by a start command. -/
def firstOpened : List (HandlerEvent ℕ Unit Empty) :=
  [.startWithDevice 1 (), .main, .main, .onStartCommand] ++ List.replicate 9 .main

/-- A second device is requested while the first one begins to report its end. It is opened, and
reports its end before the thread that has opened it has called `startForeground`. -/
def overtaken : List (HandlerEvent ℕ Unit Empty) :=
  firstOpened ++ [.onOpen 1, .startWithDevice 2 (), .main, .main, .device 1, .main, .main] ++
    List.replicate 12 (.device 1) ++ [.device 2, .device 2, .device 2, .device 1] ++
    List.replicate 7 (.device 2)

instance : DecidableRel (Heard : Handlers δ α κ → HandlerEvent δ α κ → Prop) := fun s event =>
  match event with
  | .main =>
      match here : s.main with
      | .isRunning => decidable_of_iff (s.service.isRunning = true →
          s.service.workQueue.isEmpty = false →
          ∀ sdrDevice ∈ s.requests.map Prod.fst, ¬(s.threads sdrDevice).Stopping)
          (by rw [Heard, here])
      | .idle | .start _ | .startService | .closeIfRunning | .readDevice | .close _ | .crashed =>
          .isTrue (by simp [Heard, here])
  | .onStartCommand | .startWithDevice _ _ | .registerCallback _ | .closeService | .onOpen _
  | .device _ => .isTrue trivial

instance : DecidableRel (Hearing : Handlers δ α κ → HandlerEvent δ α κ → Prop) :=
  fun s event => inferInstanceAs (Decidable (s.StartsIdle event ∧ s.Heard event))

theorem all_requests_opened_overtaken : ∃ s : Handlers ℕ Unit Empty,
    s.requests = [(1, ()), (2, ())] ∧ opens s.effects = s.requests := by
  have moved : (replayWhere step Hearing initial overtaken).map
      (fun s : Handlers ℕ Unit Empty => (s.requests, decide s.NoneOpen, s.main, s.owed)) =
      some ([(1, ()), (2, ())], true, .idle, 0) := by rfl
  obtain ⟨s, replayed, shown⟩ := Option.map_eq_some_iff.mp moved
  simp only [Prod.mk.injEq, decide_eq_true_eq] at shown
  obtain ⟨requests, closed, rests, settled⟩ := shown
  have reached : Reach step Starts Hearing s := Reach.of_replayWhere (.start rfl) _ replayed
  exact ⟨s, requests, (all_requests_opened reached closed rests settled).1⟩

/-- The second request finds the first device running, whose thread has found the queue empty. -/
def unheard : List (HandlerEvent ℕ Unit Empty) :=
  firstOpened ++ List.replicate 6 (.device 1) ++ [.startWithDevice 2 (), .main, .device 1, .main] ++
    List.replicate 3 (.device 1)

/-- **A request can be stranded.** -/
theorem request_stranded : ∃ s : Handlers ℕ Unit Empty,
    Reach step Starts StartsIdle s ∧ s.NoneOpen ∧ s.main = .idle ∧ s.owed = 0 ∧
      s.requests = [(1, ()), (2, ())] ∧ opens s.effects = [(1, ())] := by
  have moved : (replayWhere step StartsIdle initial unheard).map
      (fun s : Handlers ℕ Unit Empty =>
        (decide s.NoneOpen, s.main, s.owed, s.requests, opens s.effects)) =
      some (true, .idle, 0, [(1, ()), (2, ())], [(1, ())]) := by rfl
  obtain ⟨s, replayed, shown⟩ := Option.map_eq_some_iff.mp moved
  simp only [Prod.mk.injEq, decide_eq_true_eq] at shown
  exact ⟨s, Reach.of_replayWhere (.start rfl) _ replayed, shown⟩

end Handlers

end MsiSdrDriver.Service
