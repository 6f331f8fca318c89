import MsiSdrDriver.Async.Stream

/-!
# Phases of a stream

Two facts that hold in every run. While `msisdr_read_async` is between its allocation and its
deallocation the transfers exist, and in its loop the stream is not `INACTIVE` (`Stream.Live`).
Until it stores `RUNNING`, no caller finds a stream, so that only the transfers it has itself
submitted are in flight (`Stream.Opening`).
-/

set_option autoImplicit false

namespace MsiSdrDriver.Async

open MsiSdrDriver.Driver

namespace Stream

/-! ## While the transfers exist -/

/-- The thread is between `msisdr_async_alloc` and `msisdr_async_free`. -/
def holdsXfers : ReadAsyncPc → Bool
  | .called | .altSetting | .alloc | .failed | .returned _ => false
  | _ => true

/-- The thread is in the loop. -/
def inLoop : ReadAsyncPc → Bool
  | .loopTest | .events | .cancelingTest | .storeInactiveEmpty | .scan _ _ | .scanCancel _
  | .storeInactive | .failedTest => true
  | _ => false

/-- The transfers exist as long as the thread uses them, and the stream is not `INACTIVE` in
the loop. -/
structure Live (s : Stream) : Prop where
  holds : holdsXfers s.reader = true → s.allocated = true
  active : inLoop s.reader = true → s.asyncStatus ≠ .inactive
  nonempty : s.reader ≠ .storeInactiveEmpty

theorem Live.of_same {s s' : Stream} (live : s.Live) (reader : s'.reader = s.reader)
    (allocated : s'.allocated = s.allocated)
    (status : s'.asyncStatus = s.asyncStatus ∨ s'.asyncStatus ≠ .inactive) : s'.Live := by
  refine ⟨?_, ?_, reader ▸ live.nonempty⟩
  · rw [reader, allocated]
    exact live.holds
  · rw [reader]
    intro inside
    rcases status with same | active
    · rw [same]
      exact live.active inside
    · exact active

theorem Live.readAsyncStep {s s' : Stream} {answer : UsbAnswer} (live : s.Live)
    (moves : s.readAsyncStep answer = some s') : s'.Live := by
  obtain ⟨holds, active, nonempty⟩ := live
  cases place : s.reader with
  | storeInactiveEmpty => exact absurd place nonempty
  | _ =>
      rw [place] at holds active
      simp only [Stream.readAsyncStep, place] at moves
      repeat' split at moves
      all_goals cases moves
      all_goals refine ⟨?_, ?_, ?_⟩
      all_goals simp_all [holdsXfers, inLoop, submitXfer, cancelXfer, asyncFree]

/-- The invariant of all runs. -/
theorem Live.step {s s' : Stream} {label : UsbLabel} (live : s.Live)
    (moves : s.step label = some s') : s'.Live := by
  cases label with
  | complete thread k status =>
      simp only [Stream.step, Stream.complete] at moves
      split at moves
      · cases status <;> cases moves <;> exact live.of_same rfl rfl (.inl rfl)
      · cases moves
  | callback answer =>
      simp only [Stream.step, Stream.callbackStep] at moves
      split at moves
      · cases moves
      · split at moves <;> cases moves <;> exact live.of_same rfl rfl (.inl rfl)
      · split at moves <;> cases moves <;> exact live.of_same rfl rfl (.inl rfl)
      · cases moves
        exact live.of_same rfl rfl (.inr (by simp))
  | reader answer => exact live.readAsyncStep moves
  | call i function =>
      simp only [Stream.step] at moves
      split at moves <;> cases moves
      exact live.of_same rfl rfl (.inl rfl)
  | caller i answer =>
      simp only [Stream.step, Option.map_eq_some_iff, Prod.exists] at moves
      obtain ⟨next, pc', stepped, rfl⟩ := moves
      have same := (callerStep_same stepped).1
      have status : next.asyncStatus = s.asyncStatus ∨ next.asyncStatus ≠ .inactive := by
        rw [callerStep_asyncStatus stepped]
        unfold callerStores
        split <;> simp
      exact live.of_same same.reader same.allocated status

theorem Live.starts (transfer : Transfer) (num : ℕ) : (initial transfer num).Live :=
  ⟨by simp [initial, holdsXfers], by simp [initial, inLoop], by simp [initial]⟩

/-! ## Before the stream runs -/

/-- The thread has not stored `RUNNING` yet. -/
def opening : ReadAsyncPc → Bool
  | .called | .altSetting | .alloc | .submit _ | .isocCancel _ _ | .isocEvents | .isocFree
  | .storeRunning => true
  | _ => false

/-- A caller that has not found a stream. -/
def passive : CallerPc → Bool
  | .idle | .stop false .called | .stop false (.returned _) | .start false .called
  | .start false (.returned _) | .cancel .called | .cancel (.returned _) | .cancelNow .called
  | .cancelNow (.returned _) | .hardTest | .hardWrite false | .hardReturned _ => true
  | _ => false

/-- What holds until `RUNNING` is stored: the callers find no stream, and the transfers in
flight are those that have been submitted. -/
structure Opening (s : Stream) : Prop where
  inactive : s.asyncStatus = .inactive
  passive : ∀ i, passive (s.callers i) = true
  callback : s.callback = .idle ∨ s.reader = .isocEvents ∧
    ∃ k, s.callback = .resubmit .reader k ∨ s.callback = .failedTest .reader k
  unallocated : s.reader = .called ∨ s.reader = .altSetting ∨ s.reader = .alloc →
    s.allocated = false
  unsubmitted : ∀ i, (s.reader = .submit i ∨ ∃ j, s.reader = .isocCancel i j) →
    ∀ k, i ≤ k → (s.xfer k).inFlight = false
  flying : ∀ k < s.xferBufNum, (s.reader = .storeRunning ∨ ∃ i, s.reader = .submit i ∧ k < i) →
    (s.xfer k).inFlight = true ∧ (s.xfer k).cancelRequested = false

/-- A caller that finds no stream does nothing. -/
theorem passive_step {s s' : Stream} {i : ℕ} {answer : UsbAnswer} {pc pc' : CallerPc}
    (inactive : s.asyncStatus = .inactive) (before : Stream.passive pc = true)
    (moves : s.callerStep i answer pc = some (s', pc')) :
    s' = s ∧ Stream.passive pc' = true := by
  cases pc with
  | idle | hardReturned result => cases moves
  | hardAdcStop => cases before
  | hardTest =>
      simp only [callerStep, setHardStep, inactive] at moves
      cases moves
      exact ⟨rfl, rfl⟩
  | hardWrite streaming =>
      cases streaming
      · cases moves
        exact ⟨rfl, rfl⟩
      · cases before
  | stop hard stop =>
      cases stop with
      | called =>
          cases hard
          · have stopped : s.stopAsyncStep (.caller i) answer .called =
                some (s, .returned (-1)) := by simp [stopAsyncStep, inactive]
            simp only [callerStep, setHardStep, Option.none_or, calleeStep, stopped,
              Option.map_some] at moves
            cases moves
            exact ⟨by simp, rfl⟩
          · cases before
      | returned result =>
          cases hard
          · cases moves
          · cases before
      | loopTest | scan i semafor | scanCancel i | events | lastTest | storePaused =>
          cases hard <;> cases before
  | start hard start =>
      cases start with
      | called =>
          cases hard
          · have refused : s.startAsyncStep answer .called = some (s, .returned (-1)) := by
              simp [startAsyncStep, inactive]
            simp only [callerStep, setHardStep, Option.none_or, calleeStep, refused,
              Option.map_some] at moves
            cases moves
            exact ⟨rfl, rfl⟩
          · cases before
      | returned result =>
          cases hard
          · cases moves
          · cases before
      | submit i | lastTest | storeRunning => cases hard <;> cases before
  | cancel cancel =>
      cases cancel with
      | called =>
          simp only [callerStep, setHardStep, Option.none_or, calleeStep, cancelAsyncStep, inactive,
            Option.map_some] at moves
          cases moves
          exact ⟨rfl, rfl⟩
      | returned result => cases moves
      | store => cases before
  | cancelNow cancel =>
      cases cancel with
      | called =>
          simp only [callerStep, setHardStep, Option.none_or, calleeStep, cancelAsyncNowStep,
            inactive, Option.map_some] at moves
          cases moves
          exact ⟨rfl, rfl⟩
      | returned result => cases moves
      | store | waiting | storeFailed => cases before

variable {s s' : Stream}

/-- A thread that handles events before the stream runs is in the fallback to `BULK`. -/
theorem Opening.handler (opened : s.Opening) (early : opening s.reader = true) {thread : Thread}
    (handles : s.handlesEvents thread = true) : thread = .reader ∧ s.reader = .isocEvents := by
  cases thread with
  | reader =>
      refine ⟨rfl, ?_⟩
      revert handles early
      cases place : s.reader <;> simp [handlesEvents, opening, place]
  | caller i =>
      have passive := opened.passive i
      revert handles passive
      cases place : s.callers i with
      | stop hard stop => cases stop <;> simp [handlesEvents, Stream.passive, place]
      | _ => simp [handlesEvents, place]

theorem Opening.complete {thread : Thread} {k : ℕ} {status : XferStatus} (opened : s.Opening)
    (early : opening s.reader = true) (moves : s.complete thread k status = some s') :
    s'.Opening := by
  unfold Stream.complete at moves
  split at moves
  · next enabled =>
      obtain ⟨rfl, place⟩ := opened.handler early enabled.1
      cases status <;> cases moves <;>
        exact ⟨opened.inactive, opened.passive, by simp [place, enabled.2.1], by simp [place],
          by simp [place], by simp [place]⟩
  · cases moves

theorem Opening.callbackStep {answer : UsbAnswer} (opened : s.Opening)
    (moves : s.callbackStep answer = some s') : s'.Opening := by
  rcases opened.callback with idle | ⟨place, k, callback | callback⟩
  · simp [Stream.callbackStep, idle] at moves
  · simp only [Stream.callbackStep, callback] at moves
    split at moves <;> cases moves
    · exact ⟨opened.inactive, opened.passive, .inl rfl, by simp [submitXfer, place],
        by simp [submitXfer, place], by simp [submitXfer, place]⟩
    · exact ⟨opened.inactive, opened.passive, .inr ⟨place, k, .inr rfl⟩,
        by simp [submitXfer, place], by simp [submitXfer, place], by simp [submitXfer, place]⟩
  · simp only [Stream.callbackStep, callback, opened.inactive] at moves
    cases moves
    exact ⟨rfl, opened.passive, .inl rfl, by simp [place], by simp [place], by simp [place]⟩

theorem Opening.callers (opened : s.Opening) {i : ℕ} {pc : CallerPc}
    (passive : Stream.passive pc = true) :
    Opening { s with callers := Function.update s.callers i pc } := by
  refine ⟨opened.inactive, fun j => ?_, opened.callback, opened.unallocated,
    opened.unsubmitted, opened.flying⟩
  by_cases same : j = i
  · subst same
    simp [passive]
  · simp [same, opened.passive j]

/-- A submission while the stream is being set up: the transfer flies, or the set-up fails. -/
theorem Opening.submit {answer : UsbAnswer} {i : ℕ} (opened : s.Opening)
    (place : s.reader = .submit i) (moves : s.readAsyncStep answer = some s')
    (still : opening s'.reader = true) : s'.Opening := by
  obtain ⟨inactive, passive, callback, -, unsubmitted, flying⟩ := opened
  have quiet : s.callback = .idle := by simpa [place] using callback
  have fresh := unsubmitted i (.inl place)
  have flies : ∀ k < s.xferBufNum, k < i →
      (s.xfer k).inFlight = true ∧ (s.xfer k).cancelRequested = false :=
    fun k young before => flying k young (.inr ⟨i, place, before⟩)
  simp only [readAsyncStep, place] at moves
  split at moves
  · split at moves
    · next submits =>
        cases moves
        refine ⟨inactive, passive, .inl quiet, by simp, fun i' here k above => ?_,
          fun k young here => ?_⟩
        · obtain rfl : i + 1 = i' := by simpa using here
          simp only [submitXfer_of_ne s _ (show k ≠ i by omega)]
          exact fresh k (by omega)
        · have before : k < i + 1 := by simpa using here
          by_cases last : k = i
          · subst last
            simp [submitXfer_self s submits]
          · simp only [submitXfer_of_ne s _ last]
            exact flies k young (by omega)
    · next fails =>
        split at moves <;> cases moves
        · refine ⟨inactive, passive, .inl quiet, by simp, fun i' here k above => ?_, by simp⟩
          obtain rfl : i = i' := by simpa using here
          simp only [submitXfer_fails s (by simpa using fails)]
          exact fresh k above
        · cases still
  · next all =>
      cases moves
      exact ⟨inactive, passive, .inl quiet, by simp, by simp,
        fun k young _ => flies k young (Nat.lt_of_lt_of_le young (Nat.le_of_not_lt all))⟩

theorem Opening.reader {answer : UsbAnswer} (opened : s.Opening)
    (moves : s.readAsyncStep answer = some s') (early : opening s.reader = true)
    (still : opening s'.reader = true) : s'.Opening := by
  obtain ⟨inactive, passive, callback, unallocated, unsubmitted, -⟩ := id opened
  cases place : s.reader with
  | called =>
      simp only [readAsyncStep, place, inactive] at moves
      cases moves
      exact ⟨rfl, passive, by simpa [place] using callback, fun _ => unallocated (.inl place),
        by simp, by simp⟩
  | altSetting =>
      have none := unallocated (.inr (.inl place))
      simp only [readAsyncStep, place] at moves
      split at moves
      · cases moves
        exact ⟨inactive, passive, by simpa [place] using callback, fun _ => none, by simp, by simp⟩
      · split at moves <;> cases moves <;>
          exact ⟨inactive, passive, by simpa [place] using callback, fun _ => none, by simp,
            by simp⟩
  | alloc =>
      simp only [readAsyncStep, place, unallocated (.inr (.inr place))] at moves
      cases moves
      exact ⟨inactive, passive, by simpa [place] using callback, by simp, fun _ _ _ _ => rfl,
        by simp⟩
  | submit i => exact opened.submit place moves still
  | isocCancel i j =>
      have quiet : s.callback = .idle := by simpa [place] using callback
      have fresh := unsubmitted i (.inr ⟨j, place⟩)
      simp only [readAsyncStep, place] at moves
      split at moves
      · cases moves
        refine ⟨inactive, passive, .inl quiet, by simp, fun i' here k above => ?_, by simp⟩
        obtain rfl : i = i' := by simpa using here
        simp only [cancelXfer_inFlight]
        exact fresh k above
      · split at moves <;> cases moves <;>
          exact ⟨inactive, passive, .inl quiet, by simp, by simp, by simp⟩
  | isocEvents =>
      simp only [readAsyncStep, place] at moves
      split at moves <;> cases moves
      next leaves =>
        refine ⟨inactive, passive, .inl ?_, by simp, by simp, by simp⟩
        rcases callback with idle | ⟨-, k, running | running⟩
        · exact idle
        · simp [mayReturn, running, CallbackPc.thread?] at leaves
        · simp [mayReturn, running, CallbackPc.thread?] at leaves
  | isocFree =>
      simp only [readAsyncStep, place] at moves
      cases moves
      exact ⟨inactive, passive, by simpa [place, asyncFree] using callback, fun _ => rfl, by simp,
        by simp⟩
  | storeRunning =>
      simp only [readAsyncStep, place] at moves
      cases moves
      cases still
  | _ => simp [place, opening] at early

theorem Opening.starts (transfer : Transfer) (num : ℕ) : (initial transfer num).Opening :=
  ⟨rfl, fun _ => rfl, .inl rfl, fun _ => rfl, by simp [initial], by simp [initial]⟩

/-- No step leads back to before `RUNNING` is stored. -/
theorem opening_before {label : UsbLabel} (moves : s.step label = some s')
    (early : opening s'.reader = true) : opening s.reader = true := by
  rcases step_reader moves with same | ⟨answer, rfl⟩
  · rwa [← same]
  · have moves : s.readAsyncStep answer = some s' := moves
    cases place : s.reader with
    | called | altSetting | alloc | submit i | isocCancel i j | isocEvents | isocFree
    | storeRunning => rfl
    | _ =>
        simp only [readAsyncStep, place] at moves
        repeat' split at moves
        all_goals cases moves
        all_goals cases early

/-- Until the stream runs, every step keeps to the opening. -/
theorem Opening.step {label : UsbLabel} (opened : opening s.reader = true → s.Opening)
    (moves : s.step label = some s') (still : opening s'.reader = true) : s'.Opening := by
  have early : opening s.reader = true := opening_before moves still
  cases label with
  | complete thread k status => exact (opened early).complete early moves
  | callback answer => exact (opened early).callbackStep moves
  | reader answer => exact (opened early).reader moves early still
  | call i function =>
      simp only [Stream.step] at moves
      split at moves <;> cases moves
      exact (opened still).callers (by cases function <;> rfl)
  | caller i answer =>
      simp only [Stream.step, Option.map_eq_some_iff, Prod.exists] at moves
      obtain ⟨next, pc', stepped, rfl⟩ := moves
      have opened := opened early
      obtain ⟨rfl, passive⟩ := passive_step opened.inactive (opened.passive i) stepped
      exact opened.callers passive

end Stream

end MsiSdrDriver.Async
