import MsiSdrDriver.Async.SteadyStream
import MsiSdrDriver.Foundations.LabelledRuns

/-!
# Pausing and resuming a stream

`msisdr_stop_async` stores `PAUSED` once every transfer carries `CANCELLED`, and
`msisdr_start_async` submits the transfers without touching their status. If the next stop
comes before a transfer has completed, it finds the status of the last pause, and pauses a
stream whose transfers are in flight; the start that follows then fails with `BUSY`
(`Stream.pauses_inexactly`). Where no scan is misled in this way, pausing and resuming are exact
(`Stream.pauses_exactly`): every stop that returns zero is, and every start and every change of
the sample rate for which the stream was `RUNNING` with all its transfers in flight at some time
before, and every step since has been calm (`Stream.CalmSince`).
-/

set_option autoImplicit false

namespace MsiSdrDriver.Async

open MsiSdrDriver.Driver MsiSdrDriver.Foundations

namespace Stream

/-- In this step caller `i` comes to `pc`. -/
def Arrives (s s' : Stream) (i : ℕ) (pc : CallerPc) : Prop := s.callers i ≠ pc ∧ s'.callers i = pc

/-- A reachable state in which the stream was `RUNNING` with every transfer in flight has led here
by calm steps. -/
def CalmSince (guard : Stream → UsbLabel → Prop) (s : Stream) : Prop :=
  ∃ s₀, Reach step Starts guard s₀ ∧ s₀.InFlight ∧
    Reach step (· = s₀) (fun s label => guard s label ∧ s.Calm label) s

/-- A step at which pausing and resuming are exact. A stop that returns zero leaves the stream
`PAUSED` and no transfer in flight. If all has been calm since the stream was `RUNNING` with every
transfer in flight, the start that follows has submitted every transfer once, and returns zero
with the stream `RUNNING`; and as long as `msisdr_stop_async` has not been called for itself,
`msisdr_set_hard` returns zero and leaves the stream `RUNNING` with every transfer in flight or
being submitted again by its callback. -/
structure ExactPauses (guard : Stream → UsbLabel → Prop) (s : Stream) (label : UsbLabel)
    (s' : Stream) : Prop where
  stop : ∀ i hard, Arrives s s' i (.stop hard (.returned 0)) →
    s'.asyncStatus = .paused ∧ ∀ k < s'.xferBufNum, (s'.xfer k).inFlight = false
  start : ∀ i hard result, CalmSince guard s → s.Calm label → hard = true ∨ s.paused = true →
    Arrives s s' i (.start hard (.returned result)) →
      result = 0 ∧ s'.asyncStatus = .running ∧ ∀ k < s'.xferBufNum, s'.submitted k = 1
  setHard : ∀ i result, CalmSince guard s → s.Calm label → s'.paused = false →
    Arrives s s' i (.hardReturned result) →
      result = 0 ∧ s'.asyncStatus = .running ∧ ∀ k < s'.xferBufNum, s'.Flies k

/-! ## The callers of a run -/

variable {s s' : Stream}

instance (s : Stream) : DecidablePred s.FreshScan := fun pc =>
  match pc with
  | .stop _ (.scan k true) => inferInstanceAs
      (Decidable ¬ ((s.xfer k).inFlight = true ∧ (s.xfer k).status = .cancelled))
  | .stop _ (.scan _ false) | .stop _ .called | .stop _ .loopTest | .stop _ (.scanCancel _)
  | .stop _ .events | .stop _ .lastTest | .stop _ .storePaused | .stop _ (.returned _)
  | .start _ _ | .cancel _ | .cancelNow _ | .idle | .hardTest | .hardAdcStop | .hardWrite _
  | .hardReturned _ => inferInstanceAs (Decidable True)

instance : DecidableRel FreshStep := fun s label =>
  match label with
  | .caller i _ => inferInstanceAs (Decidable (s.FreshScan (s.callers i)))
  | .complete _ _ _ | .callback _ | .reader _ | .call _ _ => inferInstanceAs (Decidable True)

/-- Nobody but caller 0 has called. -/
def OneCaller (s : Stream) : Prop := ∀ j, j ≠ 0 → s.callers j = .idle

theorem OneCaller.step {label : UsbLabel} (one : s.OneCaller) (first : FirstCaller s label)
    (moves : s.step label = some s') : s'.OneCaller :=
  fun j other => first.idle (one j other) other moves

theorem OneCaller.starts (start : Starts s) : s.OneCaller := by
  obtain ⟨transfer, num, rfl⟩ := start
  exact fun _ _ => rfl

/-- The calls of one caller come one after the other. -/
theorem OneCaller.sequential {label : UsbLabel} (one : s.OneCaller) (first : FirstCaller s label)
    (moves : s.step label = some s') : s.Sequential label := by
  cases label with
  | call i function =>
      obtain rfl : i = 0 := first
      simp only [Stream.step] at moves
      split at moves
      · next rest =>
          intro _ j
          by_cases first : j = 0
          · subst first
            exact atRest_not_pauses rest
          · rw [one j first]
            rfl
      · cases moves
  | complete thread k status => trivial
  | callback answer => trivial
  | reader answer => trivial
  | caller i answer => trivial

theorem sequential_of_firstCaller {guard : Stream → UsbLabel → Prop} {init : Stream → Prop}
    (starts : ∀ s, init s → s.OneCaller)
    (reached : Reach step init (fun s label => FirstCaller s label ∧ guard s label) s) :
    Reach step init (fun s label => Sequential s label ∧ guard s label) s :=
  reached.strengthen starts (fun _ _ _ one allowed moves => one.step allowed.1 moves)
    fun _ _ _ one allowed moves => ⟨one.sequential allowed.1 moves, allowed.2⟩

/-- A stream of one transfer starts. -/
def startedStream : List UsbLabel := List.replicate 7 (.reader ⟨true, .success⟩)

/-- `msisdr_set_hard` cancels the transfer, pauses the stream and starts it again. -/
def firstRate : List UsbLabel :=
  [.call 0 .setHard] ++ List.replicate 6 (.caller 0 ⟨true, .success⟩) ++
    [.complete (.caller 0) 0 .cancelled] ++ List.replicate 14 (.caller 0 ⟨true, .success⟩)

/-- Then `msisdr_set_hard` is called again before the transfer has completed. -/
def secondRate : List UsbLabel :=
  firstRate ++ [.caller 0 ⟨true, .success⟩, .call 0 .setHard] ++
    List.replicate 12 (.caller 0 ⟨true, .success⟩)

theorem CalmSince.mono {guard guard' : Stream → UsbLabel → Prop}
    (weaker : ∀ s label, guard s label → guard' s label) (calm : CalmSince guard s) :
    CalmSince guard' s := by
  obtain ⟨s₀, reached, inFlight, later⟩ := calm
  exact ⟨s₀, reached.mono (fun _ => id) weaker, inFlight,
    later.mono (fun _ => id) fun s label => And.imp_left (weaker s label)⟩

/-- The one transfer is in flight, and caller 0 has not called. -/
def RunsAlone (s : Stream) : Prop :=
  s.asyncStatus = .running ∧ s.xferBufNum = 1 ∧ (s.xfer 0).inFlight = true ∧ s.callback = .idle ∧
    s.reader = .events ∧ s.callers 0 = .idle

instance : DecidablePred RunsAlone := fun _ => inferInstanceAs (Decidable (_ ∧ _))

/-- The state that calm steps of caller 0 lead to, from one in which the stream of one transfer
runs. -/
theorem calmSince_of_replay {guard : Stream → UsbLabel → Prop} [DecidableRel guard]
    {labels : List UsbLabel} {s₀ : Stream}
    (started : replayWhere step (fun s label => FirstCaller s label ∧ guard s label)
      (initial .bulk 1) startedStream = some s₀)
    (runs : s₀.RunsAlone)
    (replayed : replayWhere step
      (fun s label => FirstCaller s label ∧ guard s label ∧ s.Calm label) s₀ labels = some s) :
    Reach step Starts (fun s label => Sequential s label ∧ guard s label) s ∧
      CalmSince (fun s label => Sequential s label ∧ guard s label) s := by
  obtain ⟨running, num, flies, idle, turns, rest⟩ := runs
  have first : Reach step Starts (fun s label => FirstCaller s label ∧ guard s label) s₀ :=
    .of_replayWhere (.start ⟨.bulk, 1, rfl⟩) _ started
  have one : s₀.OneCaller := first.invariant (fun _ => OneCaller.starts)
    fun _ _ _ one allowed moves => one.step allowed.1 moves
  have later : Reach step (· = s₀)
      (fun s label => FirstCaller s label ∧ guard s label ∧ s.Calm label) s :=
    .of_replayWhere (.start rfl) _ replayed
  have whole := first.trans (later.mono (fun _ => id) fun _ _ => And.imp_right And.left)
  refine ⟨sequential_of_firstCaller (fun _ => OneCaller.starts) whole, s₀,
    sequential_of_firstCaller (fun _ => OneCaller.starts) first, ?_, ?_⟩
  · refine ⟨running, fun k young => ?_, idle, by rw [turns]; rfl, fun i => ?_⟩
    · obtain rfl : k = 0 := by omega
      exact flies
    · by_cases mine : i = 0
      · rw [mine, rest]
        rfl
      · rw [one i mine]
        rfl
  · exact (sequential_of_firstCaller (by rintro s rfl; exact one) later).mono (fun _ => id)
      fun _ _ => and_assoc.mpr

/-- What holds in every state of a run in which no scan is misled. -/
structure Tracked (s : Stream) : Prop where
  opened : opening s.reader = true → s.Opening
  unpaused : opening s.reader = true ∨ s.asyncStatus = .running → s.paused = false
  scanning : s.Scanning

theorem Tracked.starts (transfer : Transfer) (num : ℕ) : (initial transfer num).Tracked :=
  ⟨fun _ => Opening.starts transfer num, fun _ => rfl,
    ⟨by simp [initial], fun _ => trivial, 0, fun _ _ => rfl⟩⟩

/-- A step notes a pause only with the store of `PAUSED`. -/
theorem step_notes {label : UsbLabel} (moves : s.step label = some s')
    (noted : s'.paused = true) : s.paused = true ∨ s'.asyncStatus = .paused := by
  cases label with
  | complete thread k status =>
      simp only [Stream.step, Stream.complete] at moves
      split at moves
      · cases status <;> cases moves <;> exact .inl noted
      · cases moves
  | callback answer =>
      simp only [Stream.step, Stream.callbackStep] at moves
      repeat' split at moves
      all_goals cases moves
      all_goals exact .inl noted
  | reader answer => exact .inl ((readAsyncStep_same moves).2.2.1 ▸ noted)
  | call i function =>
      simp only [Stream.step] at moves
      split at moves <;> cases moves
      exact .inl noted
  | caller i answer =>
      simp only [Stream.step, Option.map_eq_some_iff, Prod.exists] at moves
      obtain ⟨next, pc', moved, rfl⟩ := moves
      have noted : next.paused = true := noted
      rcases callerStep_cases moved with hard | ⟨hard, stop, _, _, _, _, stepped, rfl⟩ |
        ⟨_, start, _, _, _, stepped⟩ | ⟨cancel, _, _, _, stepped⟩ | ⟨cancel, _, _, _, stepped⟩
      · unfold Stream.setHardStep at hard
        repeat' split at hard
        all_goals cases hard
        all_goals exact .inl noted
      · cases stop with
        | storePaused =>
            cases stepped
            exact .inr rfl
        | _ =>
            simp only [stopAsyncStep] at stepped
            repeat' split at stepped
            all_goals cases stepped
            all_goals exact .inl (by simpa [cancelXfer] using noted)
      · unfold startAsyncStep at stepped
        repeat' split at stepped
        all_goals cases stepped
        all_goals first | exact .inl noted | cases noted
      · unfold cancelAsyncStep at stepped
        repeat' split at stepped
        all_goals cases stepped
        all_goals exact .inl noted
      · unfold cancelAsyncNowStep at stepped
        repeat' split at stepped
        all_goals cases stepped
        all_goals exact .inl noted

/-- A stream that is `RUNNING`, or does not run yet, is not noted as paused. -/
theorem Tracked.unpaused_step {label : UsbLabel} (tracked : s.Tracked)
    (moves : s.step label = some s')
    (runs : opening s'.reader = true ∨ s'.asyncStatus = .running) : s'.paused = false := by
  refine eq_false_of_ne_true fun noted => ?_
  rcases step_notes moves noted with before | stored
  · have unpaused : ¬ (opening s.reader = true ∨ s.asyncStatus = .running) := fun runs =>
      absurd (before.symm.trans (tracked.unpaused runs)) (by simp)
    rcases runs with early | running
    · exact unpaused (.inl (opening_before moves early))
    · rcases step_running moves running with before | ⟨_, _, place⟩ | ⟨i, answer, hard, rfl, place⟩
      · exact unpaused (.inr before)
      · exact unpaused (.inl (by rw [place]; rfl))
      · -- The start that stores `RUNNING` takes the note back.
        simp only [Stream.step, place] at moves
        cases hard <;> cases moves <;> cases noted
  · rcases runs with early | running
    · exact absurd ((Opening.step tracked.opened moves early).inactive.symm.trans stored) (by simp)
    · exact absurd (running.symm.trans stored) (by simp)

theorem Tracked.step {label : UsbLabel} (tracked : s.Tracked) (fresh : s.Fresh label)
    (moves : s.step label = some s') : s'.Tracked :=
  ⟨Opening.step tracked.opened moves, tracked.unpaused_step moves,
    tracked.scanning.step tracked.opened fresh moves⟩

theorem Tracked.of_reached (reached : Reach Stream.step Starts Fresh s) : s.Tracked :=
  reached.invariant (fun _ ⟨transfer, num, start⟩ => start ▸ .starts transfer num)
    fun _ _ _ tracked fresh moves => tracked.step fresh moves

/-- **As long as all is calm the stream is steady.** -/
theorem CalmSince.steady (calm : CalmSince Fresh s) : s.Steady := by
  obtain ⟨s₀, reached, inFlight, later⟩ := calm
  have tracked := Tracked.of_reached reached
  suffices s.Tracked ∧ s.Steady from this.2
  refine later.invariant (I := fun s => s.Tracked ∧ s.Steady) ?_ ?_
  · rintro s rfl
    exact ⟨tracked, inFlight.steady (tracked.unpaused (.inr inFlight.running))⟩
  · rintro s label s' ⟨tracked, steady⟩ ⟨fresh, calm⟩ moves
    exact ⟨tracked.step fresh moves, steady.step tracked.scanning fresh.1 calm moves⟩

/-- A stop returns zero only from its last store. -/
theorem stop_returns {i : ℕ} {answer : UsbAnswer} {pc : CallerPc} {hard : Bool}
    (moves : s.callerStep i answer pc = some (s', .stop hard (.returned 0))) :
    pc = .stop hard .storePaused ∧ s'.asyncStatus = .paused ∧ s'.xfer = s.xfer := by
  rcases callerStep_cases moves with own | ⟨_, stop, _, next, rfl, same, stepped, rfl⟩ |
    ⟨_, _, _, _, other, _⟩ | ⟨_, _, _, other, _⟩ | ⟨_, _, _, other, _⟩
  · unfold Stream.setHardStep at own
    repeat' split at own
    all_goals cases own
  · cases same
    cases stop with
    | storePaused =>
        cases stepped
        exact ⟨rfl, rfl, rfl⟩
    | _ =>
        simp only [stopAsyncStep] at stepped
        repeat' split at stepped
        all_goals cases stepped
  · cases other
  · cases other
  · cases other

/-- A start returns when it refuses, when a submission fails, or from its last store. -/
theorem start_returns {i : ℕ} {answer : UsbAnswer} {pc : CallerPc} {hard : Bool} {result : ℤ}
    (moves : s.callerStep i answer pc = some (s', .start hard (.returned result))) :
    (pc = .start hard .called ∧ s.asyncStatus ≠ .paused) ∨
      (pc = .start hard .lastTest ∧ s.asyncStatus ≠ .paused) ∨
      (∃ k < s.xferBufNum, pc = .start hard (.submit k) ∧ ¬ s.submits k answer.success = true ∧
        s' = s.submitXfer k answer.success) ∨
      (pc = .start hard .storeRunning ∧ result = 0 ∧ s'.asyncStatus = .running ∧
        s'.submitted = s.submitted) := by
  rcases callerStep_cases moves with own | ⟨_, _, _, _, _, other, _, _⟩ |
    ⟨_, start, _, rfl, same, stepped⟩ | ⟨_, _, _, other, _⟩ | ⟨_, _, _, other, _⟩
  · unfold Stream.setHardStep at own
    repeat' split at own
    all_goals cases own
  · cases other
  · cases same
    cases start with
    | called =>
        simp only [startAsyncStep] at stepped
        split at stepped <;> cases stepped
        next unpaused => exact .inl ⟨rfl, unpaused⟩
    | submit k =>
        simp only [startAsyncStep] at stepped
        split at stepped
        · next young =>
            split at stepped
            · cases stepped
            · split at stepped <;> cases stepped
              next fails => exact .inr (.inr (.inl ⟨k, young, rfl, fails, rfl⟩))
        · cases stepped
    | lastTest =>
        simp only [startAsyncStep] at stepped
        split at stepped <;> cases stepped
        next unpaused => exact .inr (.inl ⟨rfl, unpaused⟩)
    | storeRunning =>
        cases stepped
        exact .inr (.inr (.inr ⟨rfl, rfl, rfl, rfl⟩))
    | returned result => cases stepped
  · cases other
  · cases other

/-- `msisdr_set_hard` returns when the stop, `msisdr_adc_stop` or the start has failed, when the
stream was not `RUNNING`, and after the start. -/
theorem setHard_returns {i : ℕ} {answer : UsbAnswer} {pc : CallerPc} {result : ℤ}
    (moves : s.callerStep i answer pc = some (s', .hardReturned result)) :
    s' = s ∧ ((∃ failed < 0, pc = .stop true (.returned failed)) ∨
      (pc = .hardAdcStop ∧ answer.success = false) ∨ pc = .hardWrite false ∨
      ∃ started, pc = .start true (.returned started) ∧ (0 ≤ started → result = 0)) := by
  rcases callerStep_cases moves with own | ⟨_, _, _, _, _, other, _, _⟩ | ⟨_, _, _, _, other, _⟩ |
    ⟨_, _, _, other, _⟩ | ⟨_, _, _, other, _⟩
  · unfold Stream.setHardStep at own
    split at own
    · split at own <;> cases own
    · split at own <;> cases own
      next failed => exact ⟨rfl, .inl ⟨_, failed, rfl⟩⟩
    · split at own <;> cases own
      next failed => exact ⟨rfl, .inr (.inl ⟨rfl, eq_false_of_ne_true failed⟩)⟩
    · split at own <;> cases own
      next idle => exact ⟨rfl, .inr (.inr (.inl (by rw [eq_false_of_ne_true idle])))⟩
    · split at own <;> cases own
      · next failed =>
          exact ⟨rfl, .inr (.inr (.inr ⟨_, rfl, fun started => absurd failed (by omega)⟩))⟩
      · exact ⟨rfl, .inr (.inr (.inr ⟨_, rfl, fun _ => rfl⟩))⟩
    · cases own
  · cases other
  · cases other
  · cases other
  · cases other

/-- A caller arrives at a return only by a step of its own. -/
theorem Arrives.own {label : UsbLabel} {i : ℕ} {pc : CallerPc} (arrives : Arrives s s' i pc)
    (moves : s.step label = some s') (called : ∀ function, callPc function ≠ pc) :
    ∃ answer next callers, label = .caller i answer ∧
      s.callerStep i answer (s.callers i) = some (next, pc) ∧
      s' = { next with callers := callers } := by
  obtain ⟨before, after⟩ := arrives
  rcases step_callers moves (by rw [after]; exact before.symm) with ⟨function, -, begins⟩ |
    ⟨answer, next, own, stepped, rest⟩
  · exact absurd (begins.symm.trans after) (called function)
  · rw [after] at stepped
    exact ⟨answer, next, s'.callers, own, stepped, rest⟩

/-- The phase of a caller that is inside a stop, a start or `msisdr_set_hard`. -/
theorem Steady.phase_of {i : ℕ} (steady : s.Steady) (busy : pauses (s.callers i) = true) :
    s.Phase (s.callers i) := by
  obtain ⟨active, others, phase⟩ := steady.phase
  by_cases mine : i = active
  · exact mine ▸ phase
  · simp [others i mine] at busy

theorem Tracked.stop {label : UsbLabel} {i : ℕ} {hard : Bool} (tracked : s.Tracked)
    (moves : s.step label = some s') (arrives : Arrives s s' i (.stop hard (.returned 0))) :
    s'.asyncStatus = .paused ∧ ∀ k < s'.xferBufNum, (s'.xfer k).inFlight = false := by
  obtain ⟨answer, next, callers, -, stepped, rfl⟩ :=
    arrives.own moves fun function => by cases function <;> simp [callPc]
  obtain ⟨place, paused, xfer⟩ := stop_returns stepped
  have scanned := tracked.scanning.scanned i
  rw [place] at scanned
  refine ⟨paused, fun k young => ?_⟩
  have young : k < s.xferBufNum := (callerStep_same stepped).1.xferBufNum ▸ young
  exact xfer ▸ (scanned k young).1

theorem Steady.start {label : UsbLabel} {i : ℕ} {hard : Bool} {result : ℤ} (steady : s.Steady)
    (moves : s.step label = some s') (calm : s.Calm label) (due : hard = true ∨ s.paused = true)
    (arrives : Arrives s s' i (.start hard (.returned result))) :
    result = 0 ∧ s'.asyncStatus = .running ∧ ∀ k < s'.xferBufNum, s'.submitted k = 1 := by
  obtain ⟨answer, next, callers, rfl, stepped, rfl⟩ :=
    arrives.own moves fun function => by cases function <;> simp [callPc]
  have phase := steady.phase_of (i := i)
  have fine := calm.1
  rcases start_returns stepped with ⟨place, refused⟩ | ⟨place, refused⟩ |
    ⟨k, young, place, fails, rfl⟩ | ⟨place, rfl, running, submitted⟩
  all_goals
    rw [place] at phase fine
    have phase := phase (by cases hard <;> rfl)
  · -- The stream is `PAUSED`: `msisdr_set_hard` or `msisdr_stop_async` has just paused it.
    have quiet : s.Quiet := by
      cases hard
      · have paused := due.resolve_left (by simp)
        refine (Or.resolve_left phase fun runs => ?_).2
        simp [runs.unpaused] at paused
      · exact phase.2
    exact absurd quiet.paused refused
  · exact absurd (Resuming.paused phase) refused
  · have landed := (Resuming.waiting phase k young (Nat.le_refl k)).1.1
    exact absurd (submits_of_landed s landed (fine (by cases hard <;> rfl)).1) fails
  · have resuming : s.Resuming s.xferBufNum := phase
    refine ⟨rfl, running, fun k young => ?_⟩
    have young : k < s.xferBufNum := (callerStep_same stepped).1.xferBufNum ▸ young
    exact submitted ▸ (resuming.resumed k young young).2

theorem Steady.setHard {label : UsbLabel} {i : ℕ} {result : ℤ} (steady : s.Steady)
    (moves : s.step label = some s') (calm : s.Calm label) (unpaused : s'.paused = false)
    (arrives : Arrives s s' i (.hardReturned result)) :
    result = 0 ∧ s'.asyncStatus = .running ∧ ∀ k < s'.xferBufNum, s'.Flies k := by
  obtain ⟨answer, next, callers, rfl, stepped, rfl⟩ :=
    arrives.own moves fun function => by cases function <;> simp [callPc]
  have phase := steady.phase_of (i := i)
  have fine := calm.1
  obtain ⟨rfl, returns⟩ := setHard_returns stepped
  rcases returns with ⟨failed, negative, place⟩ | ⟨place, lost⟩ | place | ⟨started, place, zero⟩
  all_goals
    rw [place] at phase fine
    have phase := phase rfl
  · have zero : failed = 0 := phase.1
    omega
  · exact absurd ((fine rfl).1.symm.trans lost) (by simp)
  · exact absurd (phase.1.symm.trans unpaused) (by simp)
  · obtain ⟨rfl, streams⟩ := phase
    exact ⟨zero (Int.le_refl 0), streams.running, fun k young => (streams.flows k young).flies⟩

end Stream

end MsiSdrDriver.Async
