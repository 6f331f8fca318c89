import MsiSdrDriver.Async.PausePhases

/-!
# What the scan of a stop has passed

`msisdr_stop_async` infers from the last recorded status of a transfer that it is no longer in
flight. Where that status is not left over from an earlier stop (`Stream.FreshScan`), and the
calls that pause and resume come one after the other (`Stream.Sequential`), what the scan has
passed is cancelled, and no other thread undoes it (`Stream.Scanning`).
-/

set_option autoImplicit false

namespace MsiSdrDriver.Async

open MsiSdrDriver.Driver

namespace Stream

/-! ## Runs -/

/-- The calls that pause or resume the stream come one after the other, from whatever threads. -/
def Sequential (s : Stream) : UsbLabel → Prop
  | .call _ function => pauses (callPc function) = true → ∀ j, pauses (s.callers j) = false
  | _ => True

/-- The scan of `msisdr_stop_async` does not take the `CANCELLED` that an earlier stop has left
on a transfer in flight for the end of that transfer. -/
def FreshScan (s : Stream) : CallerPc → Prop
  | .stop _ (.scan k true) => ¬ ((s.xfer k).inFlight = true ∧ (s.xfer k).status = .cancelled)
  | _ => True

/-- No scan is misled in this step. -/
def FreshStep (s : Stream) : UsbLabel → Prop
  | .caller i _ => s.FreshScan (s.callers i)
  | _ => True

/-- A step of a sequential run in which no scan is misled. -/
def Fresh (s : Stream) (label : UsbLabel) : Prop := s.Sequential label ∧ s.FreshStep label

variable {s s' : Stream}

/-! ## What a scan has passed -/

/-- What the scan of `msisdr_stop_async` has passed is cancelled. -/
def Scanned (s : Stream) : CallerPc → Prop
  | .stop _ (.scan i true) => ∀ k < i, s.Cancelled k
  | .stop _ .lastTest => s.asyncStatus = .running → ∀ k < s.xferBufNum, s.Cancelled k
  | .stop _ .storePaused => ∀ k < s.xferBufNum, s.Cancelled k
  | _ => True

theorem scanned_of_not_pauses {pc : CallerPc} (calm : pauses pc = false) : s.Scanned pc := by
  cases pc with
  | stop hard stop => cases hard <;> cases stop <;> trivial
  | _ => trivial

theorem scanned_of_passive {pc : CallerPc} (passive : Stream.passive pc = true) :
    s.Scanned pc := by
  cases pc with
  | stop hard stop => cases hard <;> cases stop <;> trivial
  | _ => trivial

@[simp] theorem scanned_callers {callers : ℕ → CallerPc} {pc : CallerPc} :
    Scanned { s with callers := callers } pc ↔ s.Scanned pc := Iff.rfl

theorem scanned_callPc {function : Call} : s.Scanned (callPc function) := by
  cases function <;> trivial

/-- A step that submits no cancelled transfer and does not store `RUNNING`. -/
structure Spares (s s' : Stream) : Prop where
  cancelled : ∀ k, s.Cancelled k → s'.Cancelled k
  running : s'.asyncStatus = .running → s.asyncStatus = .running
  xferBufNum : s'.xferBufNum = s.xferBufNum

theorem Scanned.mono {pc : CallerPc} (scanned : s.Scanned pc) (spares : Spares s s') :
    s'.Scanned pc := by
  cases pc with
  | stop hard stop =>
      cases stop with
      | scan i semafor =>
          cases semafor
          · trivial
          · exact fun k below => spares.cancelled k (scanned k below)
      | lastTest =>
          intro running k young
          rw [spares.xferBufNum] at young
          exact spares.cancelled k (scanned (spares.running running) k young)
      | storePaused =>
          intro k young
          rw [spares.xferBufNum] at young
          exact spares.cancelled k (scanned k young)
      | _ => trivial
  | _ => trivial

theorem complete_spares {thread : Thread} {k : ℕ} {status : XferStatus}
    (moves : s.complete thread k status = some s') : Spares s s' := by
  unfold Stream.complete at moves
  split at moves
  · next enabled =>
      have keeps : ∀ j, s.Cancelled j → (Function.update s.xfer k
          { s.xfer k with status := status, inFlight := false }) j = s.xfer j := by
        intro j cancelled
        refine Function.update_of_ne ?_ ..
        rintro rfl
        exact absurd (enabled.2.2.2.2.1.symm.trans cancelled.1) (by simp)
      cases status <;> cases moves <;>
        exact ⟨fun j cancelled => by
          simpa only [Cancelled, keeps j cancelled] using cancelled, id, rfl⟩
  · cases moves

theorem submitXfer_cancelled {k j : ℕ} {success : Bool} (other : j ≠ k)
    (cancelled : s.Cancelled j) : (s.submitXfer k success).Cancelled j := by
  simpa only [Cancelled, submitXfer_of_ne s success other] using cancelled

theorem callbackStep_spares {answer : UsbAnswer}
    (live : ∀ thread k, s.callback = .resubmit thread k → (s.xfer k).status ≠ .cancelled)
    (moves : s.callbackStep answer = some s') : Spares s s' := by
  cases running : s.callback with
  | idle => simp [callbackStep, running] at moves
  | resubmit thread k =>
      have other : ∀ j, s.Cancelled j → j ≠ k := by
        rintro j cancelled rfl
        exact live thread j running cancelled.2
      simp only [callbackStep, running] at moves
      split at moves <;> cases moves <;>
        exact ⟨fun j cancelled => submitXfer_cancelled (other j cancelled) cancelled, id, rfl⟩
  | failedTest thread k =>
      simp only [callbackStep, running] at moves
      split at moves <;> cases moves <;> exact ⟨fun _ => id, id, rfl⟩
  | failedStore thread k =>
      simp only [callbackStep, running] at moves
      cases moves
      exact ⟨fun _ => id, by simp, rfl⟩

/-- Once the stream has run, `msisdr_read_async` submits no transfer and does not store
`RUNNING`. -/
theorem readAsyncStep_late {answer : UsbAnswer} (late : opening s.reader = false)
    (moves : s.readAsyncStep answer = some s') : Spares s s' := by
  have cancels : ∀ i, Spares s (s.cancelXfer i) := fun i =>
    ⟨fun k cancelled => by simpa [Cancelled] using cancelled, id, rfl⟩
  cases place : s.reader with
  | called | altSetting | alloc | submit i | isocCancel i j | isocEvents | isocFree
  | storeRunning =>
      rw [place] at late
      cases late
  | scanCancel i | failedCancel i =>
      simp only [readAsyncStep, place] at moves
      repeat' split at moves
      all_goals cases moves
      all_goals first
        | exact ⟨(cancels i).cancelled, id, rfl⟩
        | exact ⟨fun _ => id, id, rfl⟩
  | _ =>
      simp only [readAsyncStep, place] at moves
      repeat' split at moves
      all_goals cases moves
      all_goals exact ⟨fun _ => id, by simp [asyncFree], rfl⟩

/-! ## The callers -/

/-- The caller is about to end the stream. -/
def endsStream (pc : CallerPc) : Prop :=
  callerStores pc = some .canceling ∨ callerStores pc = some .failed

instance : DecidablePred endsStream := fun _ => inferInstanceAs (Decidable (_ ∨ _))

/-- A caller that neither pauses nor resumes ends the stream, or changes nothing. -/
theorem callerStep_calm {i : ℕ} {answer : UsbAnswer} {pc pc' : CallerPc}
    (calm : pauses pc = false) (moves : s.callerStep i answer pc = some (s', pc')) :
    pauses pc' = false ∧ Spares s s' ∧ (s' = s ∨ endsStream pc) := by
  have same : Spares s s := ⟨fun _ => id, id, rfl⟩
  cases pc with
  | idle | hardReturned result => cases moves
  | hardTest | hardAdcStop | hardWrite streaming => cases calm
  | stop hard stop => cases hard <;> cases stop <;> first | (cases calm; done) | cases moves
  | start hard start => cases hard <;> cases start <;> first | (cases calm; done) | cases moves
  | cancel cancel =>
      simp only [callerStep, setHardStep, calleeStep, Option.none_or, Option.map_eq_some_iff,
        Prod.exists, Prod.mk.injEq] at moves
      obtain ⟨_, cancel', stepped, rfl, rfl⟩ := moves
      refine ⟨rfl, ?_⟩
      cases cancel with
      | called =>
          simp only [cancelAsyncStep] at stepped
          split at stepped <;> cases stepped <;> exact ⟨same, .inl rfl⟩
      | store =>
          cases stepped
          exact ⟨⟨fun _ => id, by simp, rfl⟩, .inr (.inl rfl)⟩
      | returned result => cases stepped
  | cancelNow cancel =>
      simp only [callerStep, setHardStep, calleeStep, Option.none_or, Option.map_eq_some_iff,
        Prod.exists, Prod.mk.injEq] at moves
      obtain ⟨_, cancel', stepped, rfl, rfl⟩ := moves
      refine ⟨rfl, ?_⟩
      cases cancel with
      | called =>
          simp only [cancelAsyncNowStep] at stepped
          split at stepped <;> cases stepped <;> exact ⟨same, .inl rfl⟩
      | waiting =>
          simp only [cancelAsyncNowStep] at stepped
          repeat' split at stepped
          all_goals cases stepped
          all_goals exact ⟨same, .inl rfl⟩
      | store =>
          cases stepped
          exact ⟨⟨fun _ => id, by simp, rfl⟩, .inr (.inl rfl)⟩
      | storeFailed =>
          cases stepped
          exact ⟨⟨fun _ => id, by simp, rfl⟩, .inr (.inr rfl)⟩
      | returned result => cases stepped

/-- The caller that scans passes only what is cancelled. -/
theorem Scanned.callerStep {i : ℕ} {answer : UsbAnswer} {pc pc' : CallerPc}
    (scanned : s.Scanned pc) (fresh : s.FreshScan pc)
    (moves : s.callerStep i answer pc = some (s', pc')) : s'.Scanned pc' := by
  rcases callerStep_cases moves with hard | ⟨hard, stop, _, _, rfl, rfl, stepped, rfl⟩ |
    ⟨_, _, _, rfl, rfl, stepped⟩ | ⟨_, _, rfl, rfl, stepped⟩ | ⟨_, _, rfl, rfl, stepped⟩
  · unfold setHardStep at hard
    repeat' split at hard
    all_goals cases hard
    all_goals trivial
  · cases stop with
    | called =>
        simp only [stopAsyncStep] at stepped
        split at stepped <;> cases stepped <;> trivial
    | loopTest =>
        simp only [stopAsyncStep] at stepped
        split at stepped <;> cases stepped
        · exact fun k below => absurd below (Nat.not_lt_zero k)
        · next stopped => exact fun running => absurd running stopped
    | scan i semafor =>
        simp only [stopAsyncStep] at stepped
        repeat' split at stepped
        all_goals cases stepped
        · trivial
        · next cancelled =>
            cases semafor
            · trivial
            · intro k below
              rcases Nat.lt_succ_iff_lt_or_eq.mp below with before | rfl
              · exact scanned k before
              · have landed : ¬ (s.xfer k).inFlight = true := fun flies =>
                  fresh ⟨flies, not_not.mp cancelled⟩
                exact ⟨by simpa using landed, not_not.mp cancelled⟩
        · next last all =>
            subst all
            exact fun _ k young => scanned k (Nat.lt_of_lt_of_le young (Nat.le_of_not_lt last))
        · trivial
    | lastTest =>
        simp only [stopAsyncStep] at stepped
        split at stepped <;> cases stepped
        · trivial
        · next running => exact scanned (not_not.mp running)
    | _ =>
        simp only [stopAsyncStep] at stepped
        repeat' split at stepped
        all_goals cases stepped
        all_goals trivial
  · trivial
  · trivial
  · trivial

/-- What holds in every run: the running callback has not come back cancelled, what a scan has
passed is cancelled, and only one caller at a time pauses or resumes. -/
structure Scanning (s : Stream) : Prop where
  callback : ∀ thread k, s.callback = .resubmit thread k → (s.xfer k).status ≠ .cancelled
  scanned : ∀ i, s.Scanned (s.callers i)
  alone : ∃ i, ∀ j, j ≠ i → pauses (s.callers j) = false

/-- A step of another thread than the callers. -/
theorem Scanning.of_spares (scanning : s.Scanning) (callers : s'.callers = s.callers)
    (callback : ∀ thread k, s'.callback = .resubmit thread k → (s'.xfer k).status ≠ .cancelled)
    (spares : Spares s s') : s'.Scanning :=
  ⟨callback, fun i => callers ▸ (scanning.scanned i).mono spares, callers ▸ scanning.alone⟩

theorem Scanning.complete {thread : Thread} {k : ℕ} {status : XferStatus}
    (scanning : s.Scanning) (moves : s.complete thread k status = some s') : s'.Scanning := by
  have spares := complete_spares moves
  unfold Stream.complete at moves
  split at moves
  · next enabled =>
      cases status <;> cases moves
      case cancelled | noDevice => exact scanning.of_spares rfl (by simp [enabled.2.1]) spares
      all_goals
        refine scanning.of_spares rfl (fun thread' k' running => ?_) spares
        obtain ⟨-, rfl⟩ : thread = thread' ∧ k = k' := by simpa using running
        simp
  · cases moves

theorem Scanning.callbackStep {answer : UsbAnswer} (scanning : s.Scanning)
    (moves : s.callbackStep answer = some s') : s'.Scanning := by
  have spares := callbackStep_spares scanning.callback moves
  unfold Stream.callbackStep at moves
  repeat' split at moves
  all_goals cases moves
  all_goals exact scanning.of_spares rfl (by simp) spares

theorem Scanning.reader {answer : UsbAnswer} (scanning : s.Scanning)
    (opened : opening s.reader = true → s.Opening)
    (moves : s.readAsyncStep answer = some s') : s'.Scanning := by
  obtain ⟨callback, callers, -, status⟩ := readAsyncStep_same moves
  have live : ∀ thread k, s'.callback = .resubmit thread k → (s'.xfer k).status ≠ .cancelled := by
    intro thread k running cancelled
    rcases status k with same | completed
    · exact scanning.callback thread k (callback ▸ running) (same ▸ cancelled)
    · cases completed.symm.trans cancelled
  cases early : opening s.reader with
  | true =>
      exact ⟨live, fun i => scanned_of_passive (callers ▸ (opened early).passive i),
        callers ▸ scanning.alone⟩
  | false => exact scanning.of_spares callers live (readAsyncStep_late early moves)

theorem Scanning.call {i : ℕ} {function : Call} (scanning : s.Scanning)
    (sequential : s.Sequential (.call i function)) :
    Scanning { s with callers := Function.update s.callers i (callPc function) } := by
  refine ⟨scanning.callback, fun j => ?_, ?_⟩
  · by_cases same : j = i
    · subst same
      simpa using scanned_callPc
    · simpa [same] using scanning.scanned j
  · cases kind : pauses (callPc function) with
    | true => exact ⟨i, fun j other => by simpa [other] using sequential kind j⟩
    | false =>
        obtain ⟨active, others⟩ := scanning.alone
        refine ⟨active, fun j other => ?_⟩
        by_cases same : j = i
        · subst same
          simpa using kind
        · simpa [same] using others j other

theorem Scanning.caller {i : ℕ} {answer : UsbAnswer} (scanning : s.Scanning)
    (fresh : s.FreshScan (s.callers i)) (moves : s.step (.caller i answer) = some s') :
    s'.Scanning := by
  simp only [step, Option.map_eq_some_iff, Prod.exists] at moves
  obtain ⟨next, pc', stepped, rfl⟩ := moves
  obtain ⟨same, -⟩ := callerStep_same stepped
  have live : ∀ thread k, next.callback = .resubmit thread k →
      (next.xfer k).status ≠ .cancelled := by
    intro thread k running
    rw [same.status]
    exact scanning.callback thread k (same.callback ▸ running)
  have own := (scanning.scanned i).callerStep fresh stepped
  obtain ⟨active, others⟩ := scanning.alone
  by_cases mine : i = active
  · subst mine
    have calm : ∀ j, j ≠ i → pauses (next.callers j) = false := fun j other => by
      rw [same.callers]
      exact others j other
    refine ⟨live, fun j => ?_, i, fun j other => by simpa [other] using calm j other⟩
    by_cases this : j = i
    · subst this
      simpa using own
    · simpa [this] using scanned_of_not_pauses (calm j this)
  · obtain ⟨calm, spares, -⟩ := callerStep_calm (others i mine) stepped
    refine ⟨live, fun j => ?_, active, fun j other => ?_⟩
    · by_cases this : j = i
      · subst this
        simpa using own
      · simpa [this, same.callers] using (scanning.scanned j).mono spares
    · by_cases this : j = i
      · subst this
        simpa using calm
      · simpa [this, same.callers] using others j other

theorem Scanning.step {label : UsbLabel} (scanning : s.Scanning)
    (opened : opening s.reader = true → s.Opening) (fresh : s.Fresh label)
    (moves : s.step label = some s') : s'.Scanning := by
  cases label with
  | complete thread k status => exact scanning.complete moves
  | callback answer => exact scanning.callbackStep moves
  | reader answer => exact scanning.reader opened moves
  | call i function =>
      simp only [Stream.step] at moves
      split at moves <;> cases moves
      exact scanning.call fresh.1
  | caller i answer => exact scanning.caller fresh.2 moves

end Stream

end MsiSdrDriver.Async
