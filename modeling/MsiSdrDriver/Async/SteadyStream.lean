import MsiSdrDriver.Async.StopScan

/-!
# A stream whose steps are calm

As long as no USB call fails, the device is not lost and no cancel takes effect (`Stream.Calm`),
`msisdr_read_async` turns in its loop, and one caller at a time takes the stream from phase to
phase (`Stream.Steady`). This holds from any state on in which the stream is `RUNNING` with all
its transfers in flight (`Stream.InFlight`), whatever has happened before.
-/

set_option autoImplicit false

namespace MsiSdrDriver.Async

open MsiSdrDriver.Driver

/-- The environment answers no failure. -/
def UsbAnswer.Fine (answer : UsbAnswer) : Prop := answer.success = true ∧ answer.events ≠ .error

instance : DecidablePred UsbAnswer.Fine := fun _ => inferInstanceAs (Decidable (_ ∧ _))

namespace Stream

variable {s s' : Stream}

/-! ## The loop and the callback -/

/-- The thread is in the part of the loop that it does not leave while the stream is `RUNNING`
or `PAUSED`. -/
def turns : ReadAsyncPc → Bool
  | .loopTest | .events | .cancelingTest | .failedTest => true
  | _ => false

/-- What holds of a stream whose steps have been calm. -/
structure Steady (s : Stream) : Prop where
  turns : turns s.reader = true
  callback : s.callback = .idle ∨
    ∃ thread, ∃ k < s.xferBufNum, s.callback = .resubmit thread k ∧ (s.xfer k).inFlight = false
  phase : ∃ i, (∀ j, j ≠ i → pauses (s.callers j) = false) ∧ s.Phase (s.callers i)

/-- A step of another thread than the callers. -/
theorem Steady.of_keeps (steady : s.Steady) (turning : Stream.turns s'.reader = true)
    (callback : s'.callback = .idle ∨ ∃ thread, ∃ k < s'.xferBufNum,
      s'.callback = .resubmit thread k ∧ (s'.xfer k).inFlight = false)
    (callers : s'.callers = s.callers) (keeps : Keeps s s') : s'.Steady := by
  obtain ⟨i, others, phase⟩ := steady.phase
  exact ⟨turning, callback, i, callers ▸ others, callers ▸ phase.mono keeps⟩

theorem Steady.complete {thread : Thread} {k : ℕ} {status : XferStatus} (steady : s.Steady)
    (moves : s.complete thread k status = some s') (calm : status ≠ .noDevice) : s'.Steady := by
  have spares := complete_spares moves
  unfold Stream.complete at moves
  split at moves
  · next enabled =>
      obtain ⟨-, idle, -, young, flies, requested⟩ := enabled
      -- Only transfer `k` changes, and no callback runs that could hold another one.
      have flying : ∀ j, s.Flies j → (s.xfer j).inFlight = true := fun j flies =>
        flies.resolve_right (by simp [idle])
      cases status with
      | noDevice => exact absurd rfl calm
      | cancelled =>
          cases moves
          refine steady.of_keeps steady.turns (.inl idle) rfl
            ⟨rfl, rfl, rfl, rfl, spares.cancelled, fun j before => ?_, fun j before => ?_⟩
          · by_cases same : j = k
            · subst same
              exact .inr ⟨by simp, by simp⟩
            · exact .inl (.inl (by simpa [same] using flying j before))
          · have kept := before.resolve_right (by simp [idle])
            by_cases same : j = k
            · subst same
              simp [requested rfl] at kept
            · exact .inl (by simpa [same] using kept)
      | completed | error | timedOut | stall | overflow =>
          cases moves
          refine steady.of_keeps steady.turns (.inr ⟨thread, k, young, rfl, by simp⟩) rfl
            ⟨rfl, rfl, rfl, rfl, spares.cancelled, fun j before => ?_, fun j before => ?_⟩
          · by_cases same : j = k
            · subst same
              exact .inl (.inr ⟨thread, rfl⟩)
            · exact .inl (.inl (by simpa [same] using flying j before))
          · have kept := before.resolve_right (by simp [idle])
            by_cases same : j = k
            · subst same
              exact .inr ⟨thread, rfl⟩
            · exact .inl (by simpa [same] using kept)
  · cases moves

theorem Steady.callbackStep {answer : UsbAnswer} (steady : s.Steady) (scanning : s.Scanning)
    (moves : s.callbackStep answer = some s') (fine : answer.Fine) : s'.Steady := by
  have spares := callbackStep_spares scanning.callback moves
  rcases steady.callback with idle | ⟨thread, k, -, running, landed⟩
  · simp [Stream.callbackStep, idle] at moves
  · simp only [Stream.callbackStep, running] at moves
    split at moves <;> cases moves
    · next submits =>
        have self := submitXfer_self s submits
        refine steady.of_keeps steady.turns (.inl rfl) rfl
          ⟨rfl, rfl, rfl, rfl, spares.cancelled, fun j before => .inl (.inl ?_),
            fun j before => .inl ?_⟩
        all_goals
          by_cases same : j = k
          · subst same
            simp [self]
          · simp only [submitXfer_of_ne s _ same]
            simpa [Flies, Flows, running, Ne.symm same] using before
    · next fails => exact absurd (submits_of_landed s landed fine.1) fails

theorem Steady.reader {answer : UsbAnswer} (steady : s.Steady)
    (moves : s.readAsyncStep answer = some s') (fine : answer.Fine) : s'.Steady := by
  have active : s.asyncStatus = .running ∨ s.asyncStatus = .paused := by
    obtain ⟨i, -, phase⟩ := steady.phase
    exact phase.active
  have kept : ∀ pc, Stream.turns pc = true → Steady { s with reader := pc } := fun pc turning =>
    steady.of_keeps turning steady.callback rfl
      ⟨rfl, rfl, rfl, rfl, fun _ => id, fun _ => .inl, fun _ => id⟩
  have turning := steady.turns
  cases place : s.reader with
  | loopTest =>
      simp only [readAsyncStep, place] at moves
      split at moves <;> cases moves
      · exact kept _ rfl
      · next stopped => rcases active with running | paused <;> simp_all
  | events =>
      simp only [readAsyncStep, place] at moves
      repeat' split at moves
      all_goals cases moves
      · exact kept _ rfl
      · exact kept _ rfl
      · next failed => exact absurd failed fine.2
  | cancelingTest =>
      simp only [readAsyncStep, place] at moves
      split at moves
      · next canceling => rcases active with running | paused <;> simp_all
      · cases moves
        exact kept _ rfl
  | failedTest =>
      simp only [readAsyncStep, place] at moves
      split at moves
      · next failed => rcases active with running | paused <;> simp_all
      · cases moves
        exact kept _ rfl
  | _ => simp [place, Stream.turns] at turning

/-! ## The caller that pauses and resumes -/

theorem Unpaused.cancelXfer (runs : s.Unpaused) (k : ℕ) : (s.cancelXfer k).Unpaused :=
  ⟨runs.running, runs.unpaused, fun j young =>
    (runs.settles j young).imp (·.imp_left fun flies => by simpa using flies)
      fun cancelled => by simpa [Cancelled] using cancelled⟩

/-- A step of `msisdr_stop_async`. -/
theorem StopPhase.step {thread : Thread} {answer : UsbAnswer} {hard : Bool}
    {pc pc' : StopAsyncPc} (phase : s.StopPhase hard pc) (scanned : s.Scanned (.stop hard pc))
    (moves : s.stopAsyncStep thread answer pc = some (s', pc')) (fine : answer.Fine) :
    StopPhase { s' with paused := s'.paused || (!hard && pc = .storePaused) } hard pc' := by
  cases pc with
  | called =>
      simp only [stopAsyncStep] at moves
      split at moves <;> cases moves
      · next stopped =>
          cases hard
          · simpa [StopPhase] using phase
          · exact absurd (Unpaused.running phase) stopped
      · next running =>
          have runs : s.Unpaused := by
            cases hard
            · refine Or.resolve_right phase fun paused => ?_
              simp [paused.2.paused] at running
            · exact phase
          simpa [StopPhase] using runs
  | loopTest =>
      have runs : s.Unpaused := phase
      simp only [stopAsyncStep, runs.running] at moves
      cases moves
      simpa [StopPhase] using runs
  | scan i semafor =>
      have runs : s.Unpaused := phase
      simp only [stopAsyncStep] at moves
      repeat' split at moves
      all_goals cases moves
      · simpa [StopPhase] using runs
      · simpa [StopPhase] using runs
      · next last all =>
          subst all
          exact ⟨runs.running, by simpa using runs.unpaused, fun k young =>
            scanned k (Nat.lt_of_lt_of_le young (Nat.le_of_not_lt last))⟩
      · simpa [StopPhase] using runs
  | scanCancel i =>
      have runs : s.Unpaused := phase
      simp only [stopAsyncStep] at moves
      split at moves <;> cases moves
      simpa [StopPhase] using runs.cancelXfer i
  | events =>
      have runs : s.Unpaused := phase
      simp only [stopAsyncStep] at moves
      repeat' split at moves
      all_goals cases moves
      · simpa [StopPhase] using runs
      · simpa [StopPhase] using runs
      · next failed => exact absurd failed fine.2
  | lastTest =>
      have stopped : s.Stopped := phase
      simp only [stopAsyncStep, stopped.running] at moves
      cases moves
      simpa [StopPhase] using stopped
  | storePaused =>
      have stopped : s.Stopped := phase
      cases moves
      have quiet : ∀ flag, Quiet { s with asyncStatus := .paused, paused := flag } := fun _ =>
        ⟨rfl, stopped.cancelled⟩
      cases hard
      · exact .inr ⟨by simp, quiet _⟩
      · exact ⟨rfl, by simpa using stopped.unpaused, quiet _⟩
  | returned result => cases moves

/-- The start submits the next transfer, which is cancelled and not in flight. -/
theorem Resuming.submit {i : ℕ} {success : Bool} (resuming : s.Resuming i)
    (submits : s.submits i success = true) :
    Resuming { s.submitXfer i success with
      submitted := Function.update s.submitted i (s.submitted i + 1) } (i + 1) := by
  refine ⟨resuming.paused, fun k young below => ?_, fun k young above => ?_⟩
  · rcases Nat.lt_succ_iff_lt_or_eq.mp below with before | rfl
    · obtain ⟨flows, once⟩ := resuming.resumed k young before
      have other : k ≠ i := Nat.ne_of_lt before
      refine ⟨flows.imp_left fun kept => ?_, by simpa [other] using once⟩
      simpa only [submitXfer_of_ne s success other] using kept
    · obtain ⟨-, never⟩ := resuming.waiting k young (Nat.le_refl k)
      exact ⟨.inl (by simp [submitXfer_self s submits]), by simp [never]⟩
  · obtain ⟨cancelled, never⟩ := resuming.waiting k young (Nat.le_of_succ_le above)
    have other : k ≠ i := Nat.ne_of_gt above
    exact ⟨submitXfer_cancelled other cancelled, by simpa [other] using never⟩

/-- A step of `msisdr_start_async`. -/
theorem StartPhase.step {answer : UsbAnswer} {hard : Bool} {pc pc' : StartAsyncPc}
    (phase : s.StartPhase hard pc) (moves : s.startAsyncStep answer pc = some (s', pc'))
    (fine : answer.Fine) : s'.StartPhase hard pc' := by
  cases pc with
  | called =>
      simp only [startAsyncStep] at moves
      split at moves <;> cases moves
      · next unpaused =>
          cases hard
          · exact phase
          · exact absurd phase.2.paused unpaused
      · next isPaused =>
          have quiet : s.Quiet := by
            cases hard
            · refine And.right (Or.resolve_left phase fun runs => ?_)
              simp [runs.running] at isPaused
            · exact phase.2
          exact ⟨quiet.paused, fun k _ below => absurd below (Nat.not_lt_zero k),
            fun k young _ => ⟨quiet.cancelled k young, rfl⟩⟩
  | submit i =>
      have resuming : s.Resuming i := phase
      simp only [startAsyncStep] at moves
      split at moves
      · next young =>
          split at moves
          · cases moves
          · split at moves <;> cases moves
            · next submits => exact resuming.submit submits
            · next fails =>
                have landed := (resuming.waiting i young (Nat.le_refl i)).1.1
                exact absurd (submits_of_landed s landed fine.1) fails
      · next last =>
          cases moves
          exact ⟨resuming.paused, fun k young _ => resuming.resumed k young
            (Nat.lt_of_lt_of_le young (Nat.le_of_not_lt last)),
            fun k young above => absurd young (Nat.not_lt_of_le above)⟩
  | lastTest =>
      have resuming : s.Resuming s.xferBufNum := phase
      simp only [startAsyncStep, resuming.paused] at moves
      cases moves
      exact phase
  | storeRunning =>
      have resuming : s.Resuming s.xferBufNum := phase
      cases moves
      have streams : Streams { s with asyncStatus := .running, paused := false } :=
        ⟨rfl, rfl, fun k young => (resuming.resumed k young young).1⟩
      cases hard
      · exact .inl streams.toUnpaused
      · exact ⟨rfl, streams⟩
  | returned result => cases moves

/-- A step of `msisdr_set_hard` between the calls it makes. -/
theorem Phase.setHardStep {answer : UsbAnswer} {pc pc' : CallerPc} (phase : s.Phase pc)
    (moves : s.setHardStep answer pc = some (s', pc')) (fine : answer.Fine) : s'.Phase pc' := by
  unfold Stream.setHardStep at moves
  split at moves
  · have rest : s.Rest := phase
    split at moves <;> cases moves
    · next running =>
        refine rest.resolve_right fun paused => ?_
        simp [paused.2.paused] at running
    · next other => exact rest.resolve_left fun runs => other runs.running
  · obtain ⟨rfl, quiet⟩ := phase
    cases moves
    exact quiet
  · split at moves <;> cases moves
    · exact phase
    · next failed => exact absurd fine.1 failed
  · split at moves <;> cases moves
    · next streaming =>
        subst streaming
        exact phase
    · next streaming =>
        obtain rfl := eq_false_of_ne_true streaming
        exact .inr phase
  · obtain ⟨rfl, streams⟩ := phase
    cases moves
    exact .inl streams.toUnpaused
  · cases moves

/-- **A step of the caller that pauses or resumes goes from phase to phase.** -/
theorem Phase.callerStep {i : ℕ} {answer : UsbAnswer} {pc pc' : CallerPc} (phase : s.Phase pc)
    (scanned : s.Scanned pc) (moves : s.callerStep i answer pc = some (s', pc'))
    (fine : pauses pc = true → answer.Fine) (goesOn : ¬ endsStream pc) : s'.Phase pc' := by
  cases kind : pauses pc with
  | false =>
      obtain ⟨calm, -, same⟩ := callerStep_calm kind moves
      obtain rfl := same.resolve_right goesOn
      rw [phase_of_not_pauses calm]
      rwa [phase_of_not_pauses kind] at phase
  | true =>
      rcases callerStep_cases moves with hard | ⟨hard, stop, stop', next, rfl, rfl, stepped, rfl⟩ |
        ⟨hard, start, start', rfl, rfl, stepped⟩ | ⟨_, _, rfl, rfl, -⟩ | ⟨_, _, rfl, rfl, -⟩
      · exact phase.setHardStep hard (fine kind)
      · exact StopPhase.step phase scanned stepped (fine kind)
      · exact StartPhase.step phase stepped (fine kind)
      · cases kind
      · cases kind

/-- A caller comes to another place; either it is the one that pauses and resumes, or it is not
and stays so. -/
theorem phase_update {active i : ℕ} {pc : CallerPc}
    (others : ∀ j, j ≠ active → pauses (s.callers j) = false) (own : i = active → s.Phase pc)
    (foreign : i ≠ active → pauses pc = false ∧ s.Phase (s.callers active)) :
    ∃ i', (∀ j, j ≠ i' → pauses (Function.update s.callers i pc j) = false) ∧
      Phase { s with callers := Function.update s.callers i pc }
        (Function.update s.callers i pc i') := by
  have keeps : Keeps s { s with callers := Function.update s.callers i pc } :=
    ⟨rfl, rfl, rfl, rfl, fun _ => id, fun _ => .inl, fun _ => id⟩
  by_cases mine : i = active
  · subst mine
    refine ⟨i, fun j other => by simpa [other] using others j other, ?_⟩
    simpa using (own rfl).mono keeps
  · obtain ⟨calm, phase⟩ := foreign mine
    refine ⟨active, fun j other => ?_, by simpa [Ne.symm mine] using phase.mono keeps⟩
    by_cases same : j = i
    · subst same
      simpa using calm
    · simpa [same] using others j other

theorem Steady.call {i : ℕ} {function : Call} (steady : s.Steady)
    (sequential : s.Sequential (.call i function)) (rest : atRest (s.callers i) = true) :
    Steady { s with callers := Function.update s.callers i (callPc function) } := by
  obtain ⟨active, others, phase⟩ := steady.phase
  refine ⟨steady.turns, steady.callback, ?_⟩
  cases kind : pauses (callPc function) with
  | true =>
      rw [phase_of_not_pauses (sequential kind active)] at phase
      exact phase_update (fun j _ => sequential kind j) (fun _ => phase_callPc ▸ phase)
        fun other => absurd rfl other
  | false =>
      refine phase_update others (fun mine => ?_) fun _ => ⟨kind, phase⟩
      rw [← mine, phase_of_not_pauses (atRest_not_pauses rest)] at phase
      exact phase_callPc ▸ phase

theorem Steady.caller {i : ℕ} {answer : UsbAnswer} (steady : s.Steady) (scanning : s.Scanning)
    (moves : s.step (.caller i answer) = some s')
    (fine : pauses (s.callers i) = true → answer.Fine) (goesOn : ¬ endsStream (s.callers i)) :
    s'.Steady := by
  simp only [step, Option.map_eq_some_iff, Prod.exists] at moves
  obtain ⟨next, pc', stepped, rfl⟩ := moves
  obtain ⟨same, flight⟩ := callerStep_same stepped
  obtain ⟨active, others, phase⟩ := steady.phase
  refine ⟨same.reader ▸ steady.turns, ?_, ?_⟩
  · refine steady.callback.imp (same.callback ▸ ·) ?_
    rintro ⟨thread, k, young, running, landed⟩
    refine ⟨thread, k, same.xferBufNum ▸ young, same.callback ▸ running, ?_⟩
    by_contra flies
    rcases flight k (by simpa using flies) with before | ⟨hard, place, -⟩
    · simp [landed] at before
    · have mine : i = active := by
        by_contra foreign
        have calm := others i foreign
        rw [place] at calm
        cases hard <;> cases calm
      subst mine
      rw [place] at phase
      have resuming : s.Resuming k := phase
      exact scanning.callback thread k running (resuming.waiting k young (Nat.le_refl k)).1.2
  · refine phase_update (same.callers ▸ others) (fun mine => ?_) fun foreign => ?_
    · subst mine
      exact phase.callerStep (scanning.scanned i) stepped fine goesOn
    · obtain ⟨calm, -, unchanged⟩ := callerStep_calm (others i foreign) stepped
      obtain rfl := unchanged.resolve_right goesOn
      exact ⟨calm, phase⟩

/-! ## Calm steps -/

/-- A step in which no USB call fails, the device is not lost and the stream is neither cancelled
nor given up by a caller. -/
def Calm (s : Stream) : UsbLabel → Prop
  | .complete _ _ status => status ≠ .noDevice
  | .callback answer | .reader answer => answer.Fine
  | .caller i answer =>
      (pauses (s.callers i) = true → answer.Fine) ∧ ¬ endsStream (s.callers i)
  | .call _ _ => True

instance : DecidableRel Calm := fun s label =>
  match label with
  | .complete _ _ status => inferInstanceAs (Decidable (status ≠ .noDevice))
  | .callback answer | .reader answer => inferInstanceAs (Decidable answer.Fine)
  | .caller i answer => inferInstanceAs (Decidable
      ((pauses (s.callers i) = true → answer.Fine) ∧ ¬ endsStream (s.callers i)))
  | .call _ _ => inferInstanceAs (Decidable True)

/-- **A calm step keeps the stream steady.** -/
theorem Steady.step {label : UsbLabel} (steady : s.Steady) (scanning : s.Scanning)
    (sequential : s.Sequential label) (calm : s.Calm label) (moves : s.step label = some s') :
    s'.Steady := by
  cases label with
  | complete thread k status => exact steady.complete moves calm
  | callback answer => exact steady.callbackStep scanning moves calm
  | reader answer => exact steady.reader moves calm
  | call i function =>
      simp only [Stream.step] at moves
      split at moves
      · next rest =>
          cases moves
          exact steady.call sequential rest
      · cases moves
  | caller i answer => exact steady.caller scanning moves calm.1 calm.2

/-- The stream is `RUNNING` with every transfer in flight, and no callback, no pause and no end of
it is under way. -/
structure InFlight (s : Stream) : Prop where
  running : s.asyncStatus = .running
  flying : ∀ k < s.xferBufNum, (s.xfer k).inFlight = true
  idle : s.callback = .idle
  turns : Stream.turns s.reader = true
  calm : ∀ i, pauses (s.callers i) = false

/-- **From there on the stream is steady.** -/
theorem InFlight.steady (inFlight : s.InFlight) (unpaused : s.paused = false) : s.Steady := by
  refine ⟨inFlight.turns, .inl inFlight.idle, 0, fun i _ => inFlight.calm i, ?_⟩
  rw [phase_of_not_pauses (inFlight.calm 0)]
  exact .inl ⟨inFlight.running, unpaused, fun k young => .inl (.inl (inFlight.flying k young))⟩

end Stream

end MsiSdrDriver.Async
