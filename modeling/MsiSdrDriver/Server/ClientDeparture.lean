import MsiSdrDriver.Server.ClientConnection

/-!
# When the client has gone

The listener is also there to notice that the client has gone, before anything is sent to it. It
does so when `recv` returns -1: each of its steps uses up something of what is still to arrive, and
at the end it stores `NEEDS_STOPPING` and exits (`Noticing.drops`). It does not when `recv` returns
0, which leaves the number of missing bytes as it is: the listener asks again, without a pause, for
as long as the server runs (`orderly_close_spins`), unless the client has asked for the end with
`TCP_ANDROID_EXIT`. `notices_departure_iff` puts this together.
-/

set_option autoImplicit false

namespace MsiSdrDriver.Server

open MsiSdrDriver.Foundations

namespace ConnectedListener

/-- **The listener notices that the client has gone**: it takes a bounded number of steps and gets
stuck in none of them, it exits with the state moved to `NEEDS_STOPPING` (or, where another thread
has cleaned up, further), and what it carries out are the frames that the client has sent. -/
structure NoticesDeparture (obj : Sdrtcp) (arrivals : List Arrival) (ending : Ending)
    (hasDev : Bool) : Prop where
  ends : ∃ bound, ∀ labels s, replay step (start obj arrivals ending hasDev) labels = some s →
    labels.count .listener ≤ bound
  proceeds : ∀ labels s, replay step (start obj arrivals ending hasDev) labels = some s →
    s.listener.pc ≠ .exited → ∃ s', s.step .listener = some s'
  stopped : ∀ labels s, replay step (start obj arrivals ending hasDev) labels = some s →
    s.listener.pc = .exited → s.listener.obj.state = .needsStopping ∨
      .cleansUp ∈ labels ∧ s.listener.obj.state = .uninitialized
  frames : ∀ labels s, replay step (start obj arrivals ending hasDev) labels = some s →
    ∃ rest, (s.listener.dispatched.map SdrTcpCommand.encode).flatten ++ rest = sentBytes arrivals

/-! ## A departure that is noticed -/

/-- The connection ends with an error, or the client has asked for the end. -/
def Heard (sent : List UInt8) (s : ConnectedListener) : Prop :=
  s.ending = .error ∨ s.hasDev = true ∧ SendsExit sent

/-- The steps up to the next arrival, or to the end of a command. -/
def loopCost : CommandListenerPc → ℕ
  | .innerTest left => if left = 0 then 12 else 5
  | .selectTest _ => 4
  | .recvTest _ ready => if ready then 3 else 6
  | .recv _ => 2
  | .recvFailed _ => 1
  | .commandTest _ => 11
  | .commandcb => 10
  | .outerTest => 6
  | .unborn | .exited => 0

/-- The steps to the exit, once the state has left `CLIENT_SERVING`. -/
def exitCost : CommandListenerPc → ℕ
  | .selectTest _ => 6
  | .recvTest _ _ | .recv _ => 5
  | .innerTest _ | .recvFailed _ => 4
  | .commandTest _ => 3
  | .commandcb => 6
  | .outerTest => 2
  | .unborn | .exited => 0

/-- The steps of `sdrtcp_stop_serving_client`. -/
def stopCost : StopPc → ℕ
  | .called => 3
  | .compare => 2
  | .cleanup | .store => 1
  | .returned => 0

/-- The steps that are left to a listener. -/
def cost (s : ConnectedListener) : ℕ :=
  (if s.listener.obj.state = .clientServing then
    7 + loopCost s.listener.pc + arrivalsCost s.arrivals
  else exitCost s.listener.pc) + stopCost s.exiting

theorem exitCost_le (pc : CommandListenerPc) : exitCost pc ≤ 6 := by
  cases pc <;> simp [exitCost]

/-- Another thread's store does not add to the steps. -/
theorem stores_cost {s s' : ConnectedListener} {stage : Stage} (away : stage ≠ .clientServing)
    (moves : s.stores stage = some s') : s'.cost ≤ s.cost := by
  obtain ⟨listener, stepped, rfl⟩ := Option.map_eq_some_iff.mp moves
  cases stepped
  have most := exitCost_le s.listener.pc
  have after : ({ s with listener := FramedListener.observe { s.listener with
      obj := { s.listener.obj with state := stage } } } : ConnectedListener).cost =
        exitCost s.listener.pc + stopCost s.exiting :=
    congrArg (· + stopCost s.exiting) (if_neg away)
  rw [after, cost]
  split
  · omega
  · exact Nat.le_refl _

theorem stopCost_drops {obj obj' : Sdrtcp} {pc pc' : StopPc}
    (moves : stopServingClientStep obj pc = some (obj', pc')) : stopCost pc' < stopCost pc := by
  cases pc with
  | returned => cases moves
  | cleanup | store =>
      cases moves
      decide
  | called | compare =>
      simp only [stopServingClientStep] at moves
      split at moves <;> cases moves <;> decide

/-- A step inside `sdrtcp_stop_serving_client`. -/
theorem stopping_drops {s s' : ConnectedListener} {obj : Sdrtcp} {pc : StopPc}
    (stops : Stops s s' obj pc) : s'.cost < s.cost := by
  obtain ⟨place, -, stepped, rfl⟩ := stops
  have less := stopCost_drops stepped
  have after : (s.stopping obj pc).cost = (if obj.state = .clientServing then
      7 + loopCost s.listener.pc + arrivalsCost s.arrivals else exitCost s.listener.pc) +
        stopCost pc := rfl
  rw [after, cost, place]
  rcases (stopServingClientStep_spec stepped).1 with rfl | away
  · exact Nat.add_lt_add_left less _
  · rw [if_neg away]
    split
    · simp only [exitCost, loopCost]
      omega
    · exact Nat.add_lt_add_left less _

/-- Once the state has left `CLIENT_SERVING`, every step leads to the exit. -/
theorem exitCost_drops {obj obj' : Sdrtcp} {answer : CommandListenerAnswer}
    {pc pc' : CommandListenerPc} (away : obj.state ≠ .clientServing)
    (moves : commandListenerStep obj answer pc = some (obj', pc')) :
    exitCost pc' < exitCost pc := by
  cases pc with
  | unborn | exited => cases moves
  | commandcb | recvFailed left =>
      cases moves
      simp [exitCost]
  | recv left =>
      simp only [commandListenerStep] at moves
      split at moves
      · split at moves
        · cases moves
          simp [exitCost]
        · cases moves
      · cases moves
        simp [exitCost]
  | outerTest | innerTest left | selectTest left | recvTest left ready | commandTest left =>
      simp only [commandListenerStep, away, and_false, false_and, if_false, Option.some.injEq,
        Prod.mk.injEq] at moves
      obtain ⟨-, rfl⟩ := moves
      simp [exitCost]

/-- The other steps lead to the next call of `select` or of `recv`. -/
theorem loopCost_drops {obj obj' : Sdrtcp} {answer : CommandListenerAnswer}
    {pc pc' : CommandListenerPc} (quiet : ∀ left, pc ≠ .recv left)
    (elsewhere : ∀ left, pc ≠ .selectTest left) (range : FramedListener.leftRange pc)
    (serving : obj.state = .clientServing)
    (moves : commandListenerStep obj answer pc = some (obj', pc'))
    (stays : obj'.state = .clientServing) : loopCost pc' < loopCost pc := by
  cases pc with
  | unborn | exited => cases moves
  | selectTest left => exact absurd rfl (elsewhere left)
  | recv left => exact absurd rfl (quiet left)
  | recvFailed left =>
      cases moves
      cases stays
  | commandcb =>
      cases moves
      decide
  | outerTest =>
      rw [commandListenerStep, if_pos serving] at moves
      cases moves
      decide
  | commandTest left =>
      rw [commandListenerStep, if_pos ⟨serving, range⟩] at moves
      cases moves
      simp [loopCost]
  | innerTest left =>
      by_cases missing : 0 < left
      · rw [commandListenerStep, if_pos ⟨missing, serving⟩] at moves
        cases moves
        simp [loopCost, Nat.pos_iff_ne_zero.mp missing]
      · rw [commandListenerStep, if_neg fun both => missing both.1] at moves
        cases moves
        simp [loopCost, Nat.eq_zero_of_not_pos missing]
  | recvTest left ready =>
      obtain ⟨missing, -⟩ := range
      cases ready with
      | true =>
          rw [commandListenerStep, if_pos ⟨serving, rfl⟩] at moves
          cases moves
          simp [loopCost]
      | false =>
          rw [commandListenerStep, if_neg fun both => Bool.false_ne_true both.2] at moves
          cases moves
          simp [loopCost, Nat.pos_iff_ne_zero.mp missing]

/-- A pause is used up, or `recv` is next. -/
theorem select_drops {s : ConnectedListener} {answer : FramingAnswer} {arrivals : List Arrival}
    (gives : Gives s answer arrivals) {left : ℕ} (place : s.listener.pc = .selectTest left)
    (serving : s.listener.obj.state = .clientServing) {obj : Sdrtcp} {pc : CommandListenerPc}
    (moves : commandListenerStep s.listener.obj answer.toListener (.selectTest left) =
      some (obj, pc)) :
    loopCost pc + arrivalsCost arrivals < 4 + arrivalsCost s.arrivals := by
  have next : .recvTest left answer.select = pc := by
    rw [commandListenerStep, if_pos serving] at moves
    exact (Prod.mk.inj (Option.some.inj moves)).2
  rw [← next]
  rcases gives.select left place serving with ⟨ready, -, same⟩ | ⟨pause, waiting⟩
  · rw [same, ready]
    exact Nat.add_lt_add_right (by decide : 3 < 4) _
  · rw [waiting, pause]
    show 6 + arrivalsCost arrivals < 4 + (4 + arrivalsCost arrivals)
    omega

/-- A byte is used up, or the failure is noticed. -/
theorem recv_drops {s : ConnectedListener} (lost : s.arrivals = [] → s.ending = .error)
    {answer : FramingAnswer}
    {arrivals : List Arrival} (gives : Gives s answer arrivals) {left : ℕ} (missing : 0 < left)
    (place : s.listener.pc = .recv left) {obj : Sdrtcp} {pc : CommandListenerPc}
    (moves : commandListenerStep s.listener.obj answer.toListener (.recv left) =
      some (obj, pc)) :
    loopCost pc + arrivalsCost arrivals < 2 + arrivalsCost s.arrivals := by
  rcases receiveFrom_cases (gives.recv left place) with
    ⟨ended, recv, same⟩ | ⟨bytes, recv, fits, -, less⟩
  · have failed : answer.toListener.recv = none := by
      rw [FramingAnswer.toListener, recv, lost ended]
      rfl
    rw [commandListenerStep, failed] at moves
    cases moves
    rw [same, ended]
    exact Nat.add_lt_add_right (by decide : 1 < 2) _
  · have got : answer.toListener.recv = some bytes.length := by
      rw [FramingAnswer.toListener, recv]
      rfl
    have next : .innerTest (left - bytes.length) = pc := by
      simp only [commandListenerStep, got, if_pos fits] at moves
      exact (Prod.mk.inj (Option.some.inj moves)).2
    have most : loopCost (.innerTest (left - bytes.length)) ≤ 12 := by
      rw [loopCost]
      split
      · exact Nat.le_refl 12
      · decide
    have less := less missing
    rw [← next]
    omega

/-- **While the state is `CLIENT_SERVING`, every step uses something up**: something of what is
still to arrive, or of the way to the end of a command. -/
theorem Noticing.loop_drops {sent : List UInt8} {s : ConnectedListener} (noticing : s.Noticing sent)
    (heard : s.Heard sent) (serving : s.listener.obj.state = .clientServing)
    {answer : FramingAnswer} {arrivals : List Arrival} (gives : Gives s answer arrivals)
    {obj : Sdrtcp} {pc : CommandListenerPc}
    (moves : commandListenerStep s.listener.obj answer.toListener s.listener.pc = some (obj, pc))
    (stays : obj.state = .clientServing) :
    loopCost pc + arrivalsCost arrivals < loopCost s.listener.pc + arrivalsCost s.arrivals := by
  have range := (noticing.filling serving).range
  cases place : s.listener.pc with
  | selectTest left =>
      rw [place] at moves
      exact select_drops gives place serving moves
  | recv left =>
      rw [place] at moves range
      have lost : s.arrivals = [] → s.ending = .error := fun done => heard.resolve_right
        fun asked => noticing.exit_heard asked.1 asked.2 serving place done
      exact recv_drops lost gives range.1 place moves
  | unborn | exited | outerTest | innerTest left | recvTest left ready | recvFailed left
  | commandTest left | commandcb =>
      have same := gives.arrivals_eq (fun other here => by cases place.symm.trans here)
        (fun other here => by cases place.symm.trans here)
      rw [place] at moves range
      rw [same]
      exact Nat.add_lt_add_right (loopCost_drops (fun _ here => by cases here)
        (fun _ here => by cases here) range serving moves stays) _

/-- The end of a command. -/
theorem commandcb_drops {s s' : ConnectedListener} {answer : FramingAnswer}
    (answers : Answers s s' answer) (place : s.listener.pc = .commandcb) : s'.cost < s.cost := by
  have threadStep := thread_step answers.stepped
  rw [place] at threadStep
  obtain ⟨obj, pc⟩ := Prod.mk.inj (Option.some.inj threadStep)
  have same := answers.gives.arrivals_eq (fun _ here => by cases place.symm.trans here)
    fun _ here => by cases place.symm.trans here
  rw [cost, cost, place, ← obj, ← pc, same, answers.exiting]
  split
  · simp only [loopCost, stopCost]
    omega
  · simp only [exitCost, stopCost]
    omega

/-- **Every step of the listener uses something up**, once the connection is lost or the client
has asked for the end. -/
theorem Noticing.drops {sent : List UInt8} {s s' : ConnectedListener} (noticing : s.Noticing sent)
    (heard : s.Heard sent) (moves : s.step .listener = some s') : s'.cost < s.cost := by
  rcases step_listener moves with ⟨answer, answers⟩ | ⟨obj, pc, stops⟩
  · by_cases carries : s.listener.pc = .commandcb
    · exact commandcb_drops answers carries
    · have threadStep := thread_step answers.stepped
      have outside : s.exiting = .called := by
        by_contra inside
        exact carries (noticing.called inside)
      rw [cost, cost, answers.exiting, outside]
      refine Nat.add_lt_add_right ?_ _
      by_cases serving : s.listener.obj.state = .clientServing
      · rw [if_pos serving]
        by_cases stays : s'.listener.obj.state = .clientServing
        · rw [if_pos stays]
          have less := noticing.loop_drops heard serving answers.gives threadStep stays
          omega
        · rw [if_neg stays]
          have most := exitCost_le s'.listener.pc
          omega
      · have away : s'.listener.obj.state ≠ .clientServing := by
          rcases (commandListenerStep_settles threadStep).state with same | stops
          · rwa [same]
          · rw [stops]
            decide
        rw [if_neg serving, if_neg away]
        exact exitCost_drops serving threadStep
  · exact stopping_drops stops

/-! ## Whole runs -/

theorem stores_same {s s' : ConnectedListener} {stage : Stage}
    (moves : s.stores stage = some s') :
    s'.ending = s.ending ∧ s'.hasDev = s.hasDev ∧ s'.exiting = s.exiting := by
  obtain ⟨listener, -, rfl⟩ := Option.map_eq_some_iff.mp moves
  exact ⟨rfl, rfl, rfl⟩

theorem stores_state {s s' : ConnectedListener} {stage : Stage}
    (moves : s.stores stage = some s') : s'.listener.obj.state = stage := by
  obtain ⟨listener, stepped, rfl⟩ := Option.map_eq_some_iff.mp moves
  cases stepped
  rfl

/-- How the connection ends and whether there is a device stays as it is. -/
theorem step_ending {s s' : ConnectedListener} {label : DepartureLabel}
    (moves : s.step label = some s') : s'.ending = s.ending ∧ s'.hasDev = s.hasDev := by
  cases label with
  | listener =>
      rcases step_listener moves with ⟨answer, answers⟩ | ⟨obj, pc, stops⟩
      · exact ⟨answers.ending, answers.hasDev⟩
      · obtain ⟨-, -, -, rfl⟩ := stops
        exact ⟨rfl, rfl⟩
  | stops =>
      obtain ⟨ending, hasDev, -⟩ := stores_same moves
      exact ⟨ending, hasDev⟩
  | cleansUp =>
      obtain ⟨ending, hasDev, -⟩ := stores_same moves
      exact ⟨ending, hasDev⟩

theorem Heard.step {sent : List UInt8} {s s' : ConnectedListener} {label : DepartureLabel}
    (heard : s.Heard sent) (moves : s.step label = some s') : s'.Heard sent := by
  obtain ⟨ending, hasDev⟩ := step_ending moves
  rwa [Heard, ending, hasDev]

/-- No step adds to what is left. -/
theorem Noticing.cost_le {sent : List UInt8} {s s' : ConnectedListener} {label : DepartureLabel}
    (noticing : s.Noticing sent) (heard : s.Heard sent) (moves : s.step label = some s') :
    s'.cost ≤ s.cost := by
  cases label with
  | listener => exact Nat.le_of_lt (noticing.drops heard moves)
  | stops => exact stores_cost (by decide) moves
  | cleansUp => exact stores_cost (by decide) moves

/-- The steps outside `recv` always return. -/
theorem thread_returns {obj : Sdrtcp} {answer : CommandListenerAnswer} {pc : CommandListenerPc}
    (born : pc ≠ .unborn) (quiet : ∀ left, pc ≠ .recv left) (inside : pc ≠ .exited) :
    ∃ next, commandListenerStep obj answer pc = some next := by
  cases pc with
  | unborn => exact absurd rfl born
  | recv left => exact absurd rfl (quiet left)
  | exited => exact absurd rfl inside
  | recvFailed left | commandcb => exact ⟨_, rfl⟩
  | outerTest | innerTest left | selectTest left | recvTest left ready | commandTest left =>
      simp only [commandListenerStep]
      split
      · exact ⟨_, rfl⟩
      · exact ⟨_, rfl⟩

/-- `recv` returns no more than it is asked for. -/
theorem recv_returns {obj : Sdrtcp} {answer : FramingAnswer} {left : ℕ}
    (fits : ∀ bytes, answer.recv = some bytes → bytes.length ≤ left) :
    ∃ next, commandListenerStep obj answer.toListener (.recv left) = some next := by
  rw [commandListenerStep, FramingAnswer.toListener]
  cases recv : answer.recv with
  | none => exact ⟨_, rfl⟩
  | some bytes => exact ⟨_, if_pos (fits bytes recv)⟩

theorem answered_returns {s : ConnectedListener} {answer : FramingAnswer}
    (arrivals : List Arrival)
    (returns : ∃ next, commandListenerStep s.listener.obj answer.toListener s.listener.pc =
      some next) : ∃ s', s.answered answer arrivals = some s' := by
  obtain ⟨⟨obj, pc⟩, threadStep⟩ := returns
  rw [answered, FramedListener.step, threadStep]
  exact ⟨_, rfl⟩

/-- `sdrtcp_stop_serving_client` returns. -/
theorem stops_return (obj : Sdrtcp) {pc : StopPc} (inside : pc ≠ .returned) :
    ∃ next, stopServingClientStep obj pc = some next := by
  cases pc with
  | returned => exact absurd rfl inside
  | cleanup | store => exact ⟨_, rfl⟩
  | called | compare =>
      simp only [stopServingClientStep]
      split
      · exact ⟨_, rfl⟩
      · exact ⟨_, rfl⟩

/-- **The listener never hangs**: it calls `recv` only where something is there. -/
theorem Noticing.proceeds {sent : List UInt8} {s : ConnectedListener} (noticing : s.Noticing sent)
    (inside : s.listener.pc ≠ .exited) : ∃ s', s.step .listener = some s' := by
  by_cases receives : ∃ left, s.listener.pc = .recv left
  · obtain ⟨left, place⟩ := receives
    have waiting := noticing.waits left (.inr place)
    have there : ∃ recv arrivals, receiveFrom s.ending left s.arrivals = some (recv, arrivals) := by
      match arrivals : s.arrivals with
      | [] => exact ⟨_, _, rfl⟩
      | .timeout :: rest =>
          rw [arrivals] at waiting
          cases waiting
      | .segment first more :: rest => exact ⟨_, _, rfl⟩
    obtain ⟨recv, arrivals, received⟩ := there
    simp only [ConnectedListener.step, place, received, Option.bind_some]
    refine answered_returns arrivals ?_
    rw [place]
    refine recv_returns fun bytes got => ?_
    have got : recv = some bytes := got
    rcases receiveFrom_cases received with ⟨-, ends, -⟩ | ⟨taken, same, fits, -⟩
    · rw [ends] at got
      cases ending : s.ending with
      | error =>
          rw [ending] at got
          cases got
      | closed =>
          rw [ending] at got
          cases got
          exact Nat.zero_le _
    · rw [same] at got
      cases got
      exact fits
  · have returns : ∀ answer : FramingAnswer, ∃ next,
        commandListenerStep s.listener.obj answer.toListener s.listener.pc = some next :=
      fun answer => thread_returns noticing.born (fun left place => receives ⟨left, place⟩) inside
    cases place : s.listener.pc with
    | recv left => exact absurd ⟨left, place⟩ receives
    | selectTest left =>
        simp only [ConnectedListener.step, place]
        split
        · exact answered_returns _ (returns _)
        · exact answered_returns _ (returns _)
    | commandcb =>
        simp only [ConnectedListener.step, place]
        split
        · next calls =>
            obtain ⟨next, stepped⟩ := stops_return s.listener.obj calls.2
            rw [stepped]
            exact ⟨_, rfl⟩
        · exact answered_returns _ (returns _)
    | unborn | outerTest | innerTest left | recvTest left ready | recvFailed left
    | commandTest left | exited =>
        simp only [ConnectedListener.step, place]
        exact answered_returns _ (returns _)

/-- What the state can be; only a thread that has seen a clean-up cleans up itself. -/
structure Staged (cleaned : Prop) (s : ConnectedListener) : Prop where
  state : s.listener.obj.state = .clientServing ∨ s.listener.obj.state = .needsStopping ∨
    cleaned ∧ s.listener.obj.state = .uninitialized
  cleanup : s.exiting = .cleanup → cleaned

theorem Staged.weaken {cleaned cleaned' : Prop} {s : ConnectedListener} (staged : s.Staged cleaned)
    (more : cleaned → cleaned') : s.Staged cleaned' :=
  ⟨staged.state.imp_right (.imp_right (.imp_left more)), fun here => more (staged.cleanup here)⟩

/-- A step of the listener brings no clean-up of its own. -/
theorem Staged.listener {cleaned : Prop} {s s' : ConnectedListener} (staged : s.Staged cleaned)
    (moves : s.step .listener = some s') : s'.Staged cleaned := by
  rcases step_listener moves with ⟨answer, answers⟩ | ⟨obj, pc, stops⟩
  · refine ⟨?_, fun here => by cases answers.exiting.symm.trans here⟩
    rcases (commandListenerStep_settles (thread_step answers.stepped)).state with same | stops
    · rw [same]
      exact staged.state
    · exact .inr (.inl stops)
  · obtain ⟨-, -, stepped, rfl⟩ := stops
    have state : (s.stopping obj pc).listener.obj = obj := rfl
    have exiting : (s.stopping obj pc).exiting = pc := rfl
    cases inside : s.exiting with
    | called =>
        simp only [inside, stopServingClientStep] at stepped
        split at stepped <;> cases stepped <;> exact ⟨staged.state, fun here => by cases here⟩
    | compare =>
        simp only [inside, stopServingClientStep] at stepped
        split at stepped
        · next early =>
            cases stepped
            refine ⟨staged.state, fun _ => ?_⟩
            rcases staged.state with serving | stopping | ⟨cleaned, -⟩
            · rw [serving] at early
              exact absurd early (by decide)
            · rw [stopping] at early
              exact absurd early (by decide)
            · exact cleaned
        · cases stepped
          exact ⟨staged.state, fun here => by cases here⟩
    | cleanup =>
        rw [inside] at stepped
        cases stepped
        exact ⟨.inr (.inr ⟨staged.cleanup inside, by simp [state]⟩), fun here => by cases here⟩
    | store =>
        rw [inside] at stepped
        cases stepped
        exact ⟨.inr (.inl rfl), fun here => by cases here⟩
    | returned =>
        rw [inside] at stepped
        cases stepped

theorem Staged.step {cleaned : Prop} {s s' : ConnectedListener} {label : DepartureLabel}
    (staged : s.Staged cleaned) (moves : s.step label = some s') :
    s'.Staged (cleaned ∨ label = .cleansUp) := by
  cases label with
  | listener => exact (staged.listener moves).weaken .inl
  | stops =>
      exact ⟨.inr (.inl (stores_state moves)),
        fun here => .inl (staged.cleanup ((stores_same moves).2.2 ▸ here))⟩
  | cleansUp => exact ⟨.inr (.inr ⟨.inr rfl, stores_state moves⟩), fun _ => .inr rfl⟩

theorem Staged.run {cleaned : Prop} {s s' : ConnectedListener} (staged : s.Staged cleaned)
    (labels : List DepartureLabel) (replayed : replay ConnectedListener.step s labels = some s') :
    s'.Staged (cleaned ∨ .cleansUp ∈ labels) := by
  induction labels generalizing s cleaned with
  | nil =>
      cases replayed
      simpa using staged
  | cons label rest ih =>
      obtain ⟨middle, moves, remaining⟩ := Option.bind_eq_some_iff.mp replayed
      have later := ih (staged.step moves) remaining
      rwa [or_assoc, eq_comm, ← List.mem_cons] at later

theorem Noticing.run {obj : Sdrtcp} {arrivals : List Arrival} {ending : Ending} {hasDev : Bool}
    {labels : List DepartureLabel} {s : ConnectedListener}
    (replayed : replay ConnectedListener.step (start obj arrivals ending hasDev) labels = some s) :
    s.Noticing (sentBytes arrivals) := by
  have reached : Reach ConnectedListener.step (· = start obj arrivals ending hasDev) Always s :=
    .of_replay (.start rfl) labels replayed
  refine reached.invariant ?_ fun _ _ _ noticing _ moves => noticing.step moves
  rintro _ rfl
  exact .starts obj arrivals ending hasDev

/-- **A lost connection is noticed**, and so is the end of a client that has asked for it. -/
theorem notices_heard {obj : Sdrtcp} {arrivals : List Arrival} {ending : Ending} {hasDev : Bool}
    (heard : (start obj arrivals ending hasDev).Heard (sentBytes arrivals)) :
    NoticesDeparture obj arrivals ending hasDev where
  ends := by
    refine ⟨(start obj arrivals ending hasDev).cost, fun labels s replayed => ?_⟩
    have bound := replay_count_le cost .listener
      (I := fun s => s.Noticing (sentBytes arrivals) ∧ s.Heard (sentBytes arrivals))
      (fun s _ s' holds moves => ⟨holds.1.step moves, holds.2.step moves⟩)
      (fun s _ s' holds moves => holds.1.cost_le holds.2 moves)
      (fun s s' holds moves => holds.1.drops holds.2 moves)
      ⟨.starts obj arrivals ending hasDev, heard⟩ labels replayed
    omega
  proceeds := fun _ _ replayed inside => (Noticing.run replayed).proceeds inside
  stopped := by
    intro labels s replayed exited
    have noticing := Noticing.run replayed
    have staged : (start obj arrivals ending hasDev).Staged False := ⟨.inl rfl, nofun⟩
    rcases (staged.run labels replayed).state with serving | stopping | ⟨cleaned, uninitialized⟩
    · exact absurd serving (noticing.gone (noticing.exits exited))
    · exact .inl stopping
    · exact .inr ⟨cleaned.resolve_left id, uninitialized⟩
  frames := by
    intro labels s replayed
    have noticing := Noticing.run replayed
    obtain ⟨rest, carried⟩ := noticing.carried
    refine ⟨rest ++ sentBytes s.arrivals, ?_⟩
    rw [← List.append_assoc]
    exact (congrArg (· ++ sentBytes s.arrivals) carried).trans noticing.bytes

/-! ## An orderly close -/

/-- The listener that is left alone after an orderly close, by a client that has not asked for the
end. -/
structure Spinning (sent : List UInt8) (s : ConnectedListener) : Prop where
  noticing : s.Noticing sent
  closed : s.ending = .closed
  unasked : ¬ (s.hasDev = true ∧ SendsExit sent)
  serving : s.listener.obj.state = .clientServing
  receives : ∀ left, s.listener.pc ≠ .recvFailed left

/-- Nothing but a failure of `recv` moves the state. -/
theorem moves_state {obj obj' : Sdrtcp} {answer : CommandListenerAnswer}
    {pc pc' : CommandListenerPc} (moves : commandListenerStep obj answer pc = some (obj', pc'))
    (receives : ∀ left, pc ≠ .recvFailed left) :
    obj' = obj ∧
      ((∃ left, pc' = .recvFailed left) → ∃ left, pc = .recv left ∧ answer.recv = none) := by
  cases pc with
  | unborn | exited => cases moves
  | recvFailed left => exact absurd rfl (receives left)
  | commandcb =>
      cases moves
      simp
  | recv left =>
      simp only [commandListenerStep] at moves
      split at moves
      · split at moves
        · cases moves
          simp
        · cases moves
      · next failed =>
          cases moves
          exact ⟨rfl, fun _ => ⟨left, rfl, failed⟩⟩
  | outerTest | innerTest left | selectTest left | recvTest left ready | commandTest left =>
      simp only [commandListenerStep] at moves
      split at moves
      · cases moves
        simp
      · cases moves
        simp

/-- **It asks again**, with nothing to end it. -/
theorem Spinning.again {sent : List UInt8} {s : ConnectedListener} (spinning : s.Spinning sent) :
    ∃ s', s.step .listener = some s' ∧ s'.Spinning sent := by
  have noticing := spinning.noticing
  have inside : s.listener.pc ≠ .exited :=
    fun exited => noticing.gone (noticing.exits exited) spinning.serving
  obtain ⟨s', moves⟩ := noticing.proceeds inside
  obtain ⟨ending, hasDev⟩ := step_ending moves
  obtain ⟨answer, answers⟩ := (step_listener moves).resolve_right fun ⟨_, _, stops⟩ =>
    spinning.unasked (noticing.exit_sent stops.place stops.exits)
  obtain ⟨same, fails⟩ := moves_state (thread_step answers.stepped) spinning.receives
  refine ⟨s', moves, noticing.step moves, ending.trans spinning.closed, ?_, ?_, fun left here => ?_⟩
  · rw [hasDev]
    exact spinning.unasked
  · rw [same]
    exact spinning.serving
  · obtain ⟨asked, place, failed⟩ := fails ⟨left, here⟩
    have failed : answer.recv = none := Option.map_eq_none_iff.mp failed
    rcases receiveFrom_cases (answers.gives.recv asked place) with ⟨-, ends, -⟩ | ⟨bytes, got, -⟩
    · rw [failed, spinning.closed] at ends
      cases ends
    · rw [failed] at got
      cases got

/-- **After an orderly close the listener takes as many steps as one likes**, unless the client has
asked for the end. -/
theorem never_ends {obj : Sdrtcp} {arrivals : List Arrival} {hasDev : Bool}
    (unasked : ¬ (hasDev = true ∧ SendsExit (sentBytes arrivals))) :
    ¬ NoticesDeparture obj arrivals .closed hasDev := by
  intro notices
  obtain ⟨bound, ends⟩ := notices.ends
  have spinning : (start obj arrivals .closed hasDev).Spinning (sentBytes arrivals) :=
    ⟨.starts obj arrivals .closed hasDev, rfl, unasked, rfl, fun _ here => by cases here⟩
  obtain ⟨s, replayed, -⟩ := replay_replicate (fun _ => Spinning.again) spinning (bound + 1)
  have counted := ends _ _ replayed
  rw [List.count_replicate_self] at counted
  omega

/-- **The listener can miss that the client has gone.** -/
theorem orderly_close_spins : ¬ ∀ obj arrivals ending hasDev,
    NoticesDeparture obj arrivals ending hasDev := by
  intro notices
  have unasked : ¬ (true = true ∧ SendsExit (sentBytes [.segment 1 []])) :=
    fun asked => absurd asked.2.length_le (by decide)
  exact never_ends unasked (notices sdrtcpInit _ .closed true)

/-- **A departure is noticed** exactly where the connection ends with an error, or the client has
sent `TCP_ANDROID_EXIT` to a device that is there. -/
theorem notices_departure_iff (obj : Sdrtcp) (arrivals : List Arrival) (ending : Ending)
    (hasDev : Bool) : NoticesDeparture obj arrivals ending hasDev ↔
      ending = .error ∨ hasDev = true ∧ SendsExit (sentBytes arrivals) := by
  refine ⟨fun notices => ?_, notices_heard⟩
  cases ending with
  | error => exact .inl rfl
  | closed =>
      by_contra neither
      rw [not_or] at neither
      exact never_ends neither.2 notices

end ConnectedListener

end MsiSdrDriver.Server
