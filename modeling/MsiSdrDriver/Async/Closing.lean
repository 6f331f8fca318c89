import MsiSdrDriver.Async.Teardown

/-!
# Closing a device that is being read

`msisdr_close` waits in `msisdr_cancel_async_now` until the stream is `INACTIVE` or `FAILED`, or
until three seconds have passed, and then frees the device whatever the wait has returned. None of
the three means that `msisdr_read_async` is done: it stores `INACTIVE` before it handles its last
events, frees its transfers and stops the device, `FAILED` is what makes it begin its clean-up, and
before it stores `RUNNING` the stream is `INACTIVE` as well (`Closing.frees_too_early`).

These are the only ways. Where the stream is under way when `msisdr_close` is called, nobody stores
`FAILED` while it waits, and it does not look at the status while `msisdr_read_async` takes its last
steps, an `INACTIVE` that it finds says that `msisdr_read_async` is done (`Closing.UnderWay.done`),
and the device is freed after that (`Closing.close_waits`). A wait that ends before comes too early
(`Closing.close_does_not_wait`).
-/

set_option autoImplicit false

namespace MsiSdrDriver.Async

open MsiSdrDriver.Driver MsiSdrDriver.Foundations

/-! ## Closing -/

/-- Where the closing thread is inside `msisdr_close`. -/
inductive ClosePc where
  | called
  | cancelNow (pc : CancelAsyncNowPc)
  | sleep
  | releaseInterface
  /-- the test for `FAILED` -/
  | statusTest
  | closeHandle
  | exitContext
  | freeDevice
  | returned
  deriving DecidableEq

/-- One step of `msisdr_close`. The handle that it tests for is never cleared. -/
def Stream.closeStep (s : Stream) (answer : UsbAnswer) : ClosePc → Option (Stream × ClosePc)
  | .called => some (s, .cancelNow .called)
  | .cancelNow (.returned _) => some (s, .sleep)
  | .cancelNow pc => (s.cancelAsyncNowStep answer pc).map fun (s, pc') => (s, .cancelNow pc')
  | .sleep => some (s, .releaseInterface)
  | .releaseInterface => some (s, .statusTest)
  | .statusTest =>
      if s.asyncStatus ≠ .failed then some (s, .closeHandle) else some (s, .exitContext)
  | .closeHandle => some (s, .exitContext)
  | .exitContext => some (s, .freeDevice)
  | .freeDevice => some (s, .returned)
  | .returned => none

/-- A stream, and a thread that closes its device. -/
structure Closing where
  stream : Stream
  close : ClosePc

/-- What can happen: a step of the stream, or of `msisdr_close`. -/
inductive ClosingLabel where
  | stream (label : UsbLabel)
  | close (answer : UsbAnswer)
  deriving DecidableEq

/-- `msisdr_cancel_async_now` has returned to `msisdr_close`. -/
def ClosePc.past : ClosePc → Bool
  | .called | .cancelNow .called | .cancelNow .store | .cancelNow .waiting
  | .cancelNow .storeFailed => false
  | _ => true

/-- `msisdr_read_async` uses the device no more. -/
def ReadAsyncPc.done : ReadAsyncPc → Bool
  | .returned _ => true
  | _ => false

/-- `msisdr_read_async` has not got so far as to store `RUNNING`, nor `CANCELING` after a
submission that failed. -/
def ReadAsyncPc.settingUp : ReadAsyncPc → Bool
  | .failedFree => true
  | pc => Stream.opening pc

/-- `msisdr_read_async` has stored `INACTIVE` and has still to clean up. -/
def ReadAsyncPc.windingUp : ReadAsyncPc → Bool
  | .lastEvents | .free => true
  | _ => false

namespace Closing

def step (c : Closing) : ClosingLabel → Option Closing
  | .stream label => (c.stream.step label).map fun stream => { c with stream := stream }
  | .close answer =>
      (c.stream.closeStep answer c.close).map fun (stream, close) => ⟨stream, close⟩

/-- `msisdr_read_async` and `msisdr_close` have both been called. -/
def Starts (c : Closing) : Prop := c.stream.Starts ∧ c.close = .called

/-- `msisdr_cancel_async_now` returns to `msisdr_close` when `msisdr_read_async` is done. -/
def ClosesLate (c : Closing) : Prop := c.close.past = true → c.stream.reader.done = true

/-- The stream is under way: `msisdr_read_async` has stored `RUNNING`, or `CANCELING` after a
submission that failed, and the stream has not failed. -/
def UnderWay (s : Stream) : Prop :=
  Stream.opening s.reader = false ∧ (s.reader = .failedFree → s.asyncStatus ≠ .inactive) ∧
    s.asyncStatus ≠ .failed

/-- `msisdr_close` is called on a stream that is under way, it does not look at the status while
`msisdr_read_async` takes its last steps, and its wait does not time out. -/
def Patient (s : Stream) (answer : UsbAnswer) : ClosePc → Prop
  | .called => UnderWay s
  | .cancelNow .called => s.reader.windingUp = false
  | .cancelNow .waiting => s.reader.windingUp = false ∧ answer.success = true
  | _ => True

/-- As long as `msisdr_read_async` is not done, `msisdr_close` is patient, and nobody stores
`FAILED` once it has been called. -/
def WaitsOut (c : Closing) : ClosingLabel → Prop
  | .stream label => c.stream.reader.done = true ∨ c.close = .called ∨
      c.stream.stores label ≠ some .failed
  | .close answer => c.stream.reader.done = true ∨ Patient c.stream answer c.close

instance : DecidablePred UnderWay := fun _ => inferInstanceAs (Decidable (_ ∧ _))

instance (s : Stream) (answer : UsbAnswer) : DecidablePred (Patient s answer) := fun pc =>
  match pc with
  | .called => inferInstanceAs (Decidable (UnderWay s))
  | .cancelNow .called => inferInstanceAs (Decidable (_ = _))
  | .cancelNow .waiting => inferInstanceAs (Decidable (_ ∧ _))
  | .cancelNow .store | .cancelNow .storeFailed | .cancelNow (.returned _) | .sleep
  | .releaseInterface | .statusTest | .closeHandle | .exitContext | .freeDevice | .returned =>
      inferInstanceAs (Decidable True)

instance : DecidableRel WaitsOut := fun _ label =>
  match label with
  | .stream _ => inferInstanceAs (Decidable (_ ∨ _ ∨ _))
  | .close _ => inferInstanceAs (Decidable (_ ∨ _))

/-! ## Closing too early -/

/-- The stream finds `CANCELING`, and its transfer comes back. -/
def endingStream : List UsbLabel :=
  List.replicate 6 (.reader Stream.succeeds) ++ [.complete .reader 0 .cancelled] ++
    List.replicate 5 (.reader Stream.succeeds)

/-- `msisdr_close` cancels the stream, finds `INACTIVE`, and frees the device. -/
def closedEarly : List ClosingLabel :=
  Stream.runningStream.map .stream ++ List.replicate 3 (.close Stream.succeeds) ++
    endingStream.map .stream ++ List.replicate 8 (.close Stream.succeeds)

/-- **The device can be freed while `msisdr_read_async` uses it.** -/
theorem frees_too_early : ¬ ∀ c : Closing, Reach step Starts Always c → c.ClosesLate := by
  intro late
  have moved : (replay step ⟨.initial .bulk 1, .called⟩ closedEarly).map
      (fun c => (c.close, c.stream.reader)) = some (.returned, .lastEvents) := by decide
  obtain ⟨c, replayed, shown⟩ := Option.map_eq_some_iff.mp moved
  simp only [Prod.mk.injEq] at shown
  obtain ⟨freed, reading⟩ := shown
  have done := late c (Reach.of_replay (.start ⟨⟨.bulk, 1, rfl⟩, rfl⟩) _ replayed)
    (by rw [freed]; rfl)
  rw [reading] at done
  cases done

variable {c c' : Closing} {s s' : Stream}

/-- The wait of `msisdr_cancel_async_now` ends in this step, or with the next. -/
def WaitEnds (s : Stream) (answer : UsbAnswer) : ClosePc → Prop
  | .cancelNow .called => s.asyncStatus = .failed ∨ s.asyncStatus = .inactive
  | .cancelNow .waiting =>
      s.asyncStatus = .failed ∨ s.asyncStatus = .inactive ∨ answer.success = false
  | _ => False

/-- **A wait that ends while `msisdr_read_async` is busy comes too early.** -/
theorem close_does_not_wait {answer : UsbAnswer} (busy : c.stream.reader.done = false)
    (ends : WaitEnds c.stream answer c.close) :
    ∃ labels c', replay step c labels = some c' ∧ ¬ c'.ClosesLate := by
  obtain ⟨s, close⟩ := c
  have ends : WaitEnds s answer close := ends
  have early : ∀ (stream : Stream) (result : ℤ), stream.reader = s.reader →
      ¬ ClosesLate ⟨stream, .cancelNow (.returned result)⟩ := by
    intro stream result same late
    have done : stream.reader.done = true := late rfl
    rw [same, busy] at done
    cases done
  cases close with
  | cancelNow cancel =>
      cases cancel with
      | called =>
          have ends : s.asyncStatus = .failed ∨ s.asyncStatus = .inactive := ends
          rcases ends with failed | inactive
          · refine ⟨[.close answer], _, ?_, early s (-1) rfl⟩
            simp [replay, step, Stream.closeStep, Stream.cancelAsyncNowStep, failed]
          · refine ⟨[.close answer], _, ?_, early s 0 rfl⟩
            simp [replay, step, Stream.closeStep, Stream.cancelAsyncNowStep, inactive]
      | waiting =>
          by_cases goesOn : s.asyncStatus ≠ .inactive ∧ s.asyncStatus ≠ .failed
          · have timedOut : answer.success = false :=
              (ends.resolve_left goesOn.2).resolve_left goesOn.1
            refine ⟨[.close answer, .close answer], _, ?_,
              early { s with asyncStatus := .failed } 0 rfl⟩
            simp only [replay, step, Stream.closeStep, Stream.cancelAsyncNowStep, if_pos goesOn,
              timedOut]
            rfl
          · refine ⟨[.close answer], _, ?_, early s 0 rfl⟩
            simp [replay, step, Stream.closeStep, Stream.cancelAsyncNowStep, goesOn]
      | store | storeFailed | returned result => exact ends.elim
  | called | sleep | releaseInterface | statusTest | closeHandle | exitContext | freeDevice
  | returned => exact ends.elim

/-! ## What `INACTIVE` says -/

/-- An `INACTIVE` stream has not got into its loop, has left it, or is done. -/
def Marked (s : Stream) : Prop :=
  s.asyncStatus = .inactive → s.reader.settingUp = true ∨ s.reader.windingUp = true ∨
    s.reader.done = true

theorem Marked.readAsyncStep {answer : UsbAnswer} (marked : Marked s) (live : s.Live)
    (moves : s.readAsyncStep answer = some s') : Marked s' := by
  intro inactive
  cases place : s.reader with
  | storeInactiveEmpty => exact absurd place live.nonempty
  | storeInactive | failed =>
      simp only [Stream.readAsyncStep, place] at moves
      cases moves
      simp [ReadAsyncPc.windingUp, ReadAsyncPc.done]
  | _ =>
      simp only [Marked, place, ReadAsyncPc.settingUp, ReadAsyncPc.windingUp,
        ReadAsyncPc.done, Stream.opening] at marked
      simp only [Stream.readAsyncStep, place] at moves
      repeat' split at moves
      all_goals cases moves
      all_goals simp_all [ReadAsyncPc.settingUp, ReadAsyncPc.windingUp, ReadAsyncPc.done,
        Stream.opening, Stream.submitXfer, Stream.cancelXfer, Stream.asyncFree]

/-- The other threads do not store `INACTIVE`. -/
theorem Marked.of_same (marked : Marked s) (reader : s'.reader = s.reader)
    (status : s'.asyncStatus = s.asyncStatus ∨ s'.asyncStatus ≠ .inactive) : Marked s' := by
  intro inactive
  rw [reader]
  exact marked ((status.resolve_right (not_not.mpr inactive)).symm.trans inactive)

theorem Marked.step {label : UsbLabel} (marked : Marked s) (live : s.Live)
    (moves : s.step label = some s') : Marked s' := by
  cases label with
  | reader answer => exact marked.readAsyncStep live moves
  | complete | callback | call | caller =>
      refine marked.of_same ?_ ?_
      · exact (Stream.step_reader moves).resolve_right (by simp)
      · by_cases inactive : s'.asyncStatus = .inactive
        · rcases Stream.step_inactive moves inactive with before | ⟨_, label, -⟩
          · exact .inl (inactive.trans before.symm)
          · cases label
        · exact .inr inactive

/-! ## The wait -/

/-- `msisdr_read_async` does not come back. -/
theorem done_stays {label : UsbLabel} (done : s.reader.done = true)
    (moves : s.step label = some s') : s'.reader.done = true := by
  rcases Stream.step_reader moves with same | ⟨answer, rfl⟩
  · rwa [same]
  · cases place : s.reader with
    | returned result =>
        have moves : s.readAsyncStep answer = some s' := moves
        simp [Stream.readAsyncStep, place] at moves
    | _ => simp [place, ReadAsyncPc.done] at done

/-- What a step of `msisdr_close` leaves alone. -/
theorem closeStep_same {answer : UsbAnswer} {pc pc' : ClosePc}
    (moves : s.closeStep answer pc = some (s', pc')) :
    Stream.SameReader s s' ∧ (s'.asyncStatus = s.asyncStatus ∨ s'.asyncStatus ≠ .inactive) := by
  unfold Stream.closeStep at moves
  split at moves
  case h_3 cancel _ =>
    obtain ⟨⟨next, cancel'⟩, stepped, same⟩ := Option.map_eq_some_iff.mp moves
    cases same
    refine ⟨(Stream.cancelAsyncNowStep_same stepped).1, ?_⟩
    cases cancel <;> simp only [Stream.cancelAsyncNowStep] at stepped
    all_goals repeat' split at stepped
    all_goals cases stepped
    all_goals first | exact .inl rfl | exact .inr (by simp)
  all_goals try split at moves
  all_goals cases moves
  all_goals exact ⟨.refl s, .inl rfl⟩

/-- **What `INACTIVE` says** of a stream that was under way: `msisdr_read_async` takes its last
steps, or is done. -/
theorem UnderWay.done (underWay : UnderWay s) (marked : Marked s)
    (clean : s.reader.windingUp = false) (inactive : s.asyncStatus = .inactive) :
    s.reader.done = true := by
  obtain ⟨started, unmarked, -⟩ := underWay
  rcases marked inactive with early | winding | done
  · cases place : s.reader with
    | failedFree => exact absurd inactive (unmarked place)
    | _ => simp_all [ReadAsyncPc.settingUp]
  · exact absurd winding (by simp [clean])
  · exact done

/-- The stream stays under way until somebody stores `FAILED`. -/
theorem UnderWay.step {label : UsbLabel} (underWay : UnderWay s) (live : s.Live)
    (moves : s.step label = some s') (spares : s.stores label ≠ some .failed) : UnderWay s' := by
  obtain ⟨started, unmarked, unfailed⟩ := underWay
  refine ⟨eq_false_of_ne_true fun early => ?_, fun place inactive => ?_, fun failed => ?_⟩
  · rw [Stream.opening_before moves early] at started
    cases started
  · -- Nobody stores `INACTIVE` before `failed_free`, and the loop is not `INACTIVE`.
    rcases Stream.step_inactive moves inactive with before | ⟨answer, rfl, stores⟩
    · rcases Stream.step_reader moves with same | ⟨answer, rfl⟩
      · exact unmarked (same ▸ place) before
      · have moves : s.readAsyncStep answer = some s' := moves
        have active := live.active
        cases before : s.reader with
        | _ =>
            simp only [before, Stream.inLoop, Stream.opening] at active started
            simp only [Stream.readAsyncStep, before] at moves
            repeat' split at moves
            all_goals cases moves
            all_goals simp_all
    · have moves : s.readAsyncStep answer = some s' := moves
      cases before : s.reader with
      | storeInactiveEmpty | storeInactive | failed =>
          simp only [Stream.readAsyncStep, before] at moves
          cases moves
          cases place
      | _ => simp [before, Stream.readerStores] at stores
  · rcases Stream.step_stores moves with same | stored
    · exact unfailed (same ▸ failed)
    · exact spares (stored.trans (congrArg some failed))

/-- What holds in every run in which `msisdr_close` waits its wait out. -/
structure Waiting (c : Closing) : Prop where
  live : c.stream.Live
  marked : Marked c.stream
  began : c.close ≠ .called → c.stream.reader.done = true ∨ UnderWay c.stream
  patient : c.close = .cancelNow .storeFailed → c.stream.reader.done = true
  late : c.ClosesLate

/-- Once `msisdr_read_async` is done nothing can go wrong. -/
theorem Waiting.of_done (live : c.stream.Live) (marked : Marked c.stream)
    (done : c.stream.reader.done = true) : c.Waiting :=
  ⟨live, marked, fun _ => .inl done, fun _ => done, fun _ => done⟩

/-- As long as `msisdr_read_async` is busy, `msisdr_close` stays in its wait. -/
theorem Waiting.closeStep {answer : UsbAnswer} {pc' : ClosePc} (waiting : c.Waiting)
    (busy : ¬ c.stream.reader.done = true) (patient : Patient c.stream answer c.close)
    (moves : c.stream.closeStep answer c.close = some (s', pc')) :
    UnderWay s' ∧ pc' ≠ .cancelNow .storeFailed ∧ pc'.past = false := by
  obtain ⟨s, close⟩ := c
  have begun : close ≠ .called → UnderWay s := fun begun =>
    (waiting.began begun).resolve_left busy
  have active : UnderWay s → s.reader.windingUp = false → s.asyncStatus ≠ .inactive :=
    fun underWay clean inactive => busy (underWay.done waiting.marked clean inactive)
  cases close with
  | called =>
      cases moves
      exact ⟨patient, by simp, rfl⟩
  | cancelNow cancel =>
      have underWay := begun (by simp)
      cases cancel with
      | called =>
          have active := active underWay patient
          simp only [Stream.closeStep, Stream.cancelAsyncNowStep] at moves
          cases status : s.asyncStatus with
          | inactive => exact absurd status active
          | failed => exact absurd status underWay.2.2
          | running | paused | canceling =>
              rw [status] at moves
              cases moves
              exact ⟨underWay, by simp, rfl⟩
      | store =>
          cases moves
          exact ⟨⟨underWay.1, by simp, by simp⟩, by simp, rfl⟩
      | waiting =>
          obtain ⟨clean, success⟩ := patient
          have goesOn : s.asyncStatus ≠ .inactive ∧ s.asyncStatus ≠ .failed :=
            ⟨active underWay clean, underWay.2.2⟩
          simp only [Stream.closeStep, Stream.cancelAsyncNowStep, if_pos goesOn, success] at moves
          cases moves
          exact ⟨underWay, by simp, rfl⟩
      | storeFailed => exact absurd (waiting.patient rfl) busy
      | returned result => exact absurd (waiting.late rfl) busy
  | sleep | releaseInterface | statusTest | closeHandle | exitContext | freeDevice | returned =>
      exact absurd (waiting.late rfl) busy

theorem Waiting.step {label : ClosingLabel} (waiting : c.Waiting) (waitsOut : WaitsOut c label)
    (moves : c.step label = some c') : c'.Waiting := by
  cases label with
  | stream label =>
      obtain ⟨next, stepped, rfl⟩ := Option.map_eq_some_iff.mp moves
      have live := waiting.live.step stepped
      have marked := waiting.marked.step waiting.live stepped
      by_cases done : c.stream.reader.done = true
      · exact .of_done live marked (done_stays done stepped)
      · refine ⟨live, marked, fun begun => .inr ?_,
          fun failed => absurd (waiting.patient failed) done,
          fun past => absurd (waiting.late past) done⟩
        exact ((waiting.began begun).resolve_left done).step waiting.live stepped
          ((waitsOut.resolve_left done).resolve_left begun)
  | close answer =>
      obtain ⟨⟨next, close⟩, stepped, rfl⟩ := Option.map_eq_some_iff.mp moves
      obtain ⟨same, status⟩ := closeStep_same stepped
      have live := waiting.live.of_same same.reader same.allocated status
      have marked := waiting.marked.of_same same.reader status
      by_cases done : c.stream.reader.done = true
      · exact .of_done live marked (same.reader ▸ done)
      · obtain ⟨underWay, inTime, inside⟩ :=
          waiting.closeStep done (waitsOut.resolve_left done) stepped
        exact ⟨live, marked, fun _ => .inr underWay, fun failed => absurd failed inTime,
          fun past => by simp [inside] at past⟩

/-- **The device is freed after `msisdr_read_async` has returned**, in every run in which the stream
is under way when `msisdr_close` is called, nobody stores `FAILED` while it waits, and it does not
look at the status during the last steps of `msisdr_read_async`. -/
theorem close_waits {c : Closing} (reached : Reach step Starts WaitsOut c) : c.ClosesLate := by
  have waiting : c.Waiting := by
    refine reached.invariant ?_ fun c label c' waiting waitsOut moves => waiting.step waitsOut moves
    rintro ⟨stream, close⟩ ⟨⟨transfer, num, rfl⟩, rfl⟩
    exact ⟨.starts transfer num, fun _ => .inl rfl, by simp, by simp, nofun⟩
  exact waiting.late

/-- `msisdr_close` cancels the stream, and frees the device when `msisdr_read_async` has
returned. -/
def closedLate : List ClosingLabel :=
  Stream.runningStream.map .stream ++ List.replicate 3 (.close Stream.succeeds) ++
    (endingStream ++ List.replicate 2 (UsbLabel.reader Stream.succeeds)).map .stream ++
      List.replicate 8 (.close Stream.succeeds)

theorem close_waits_closedLate :
    ∃ c : Closing, c.ClosesLate ∧ c.close = .returned ∧ c.stream.reader = .returned 0 := by
  have moved : (replayWhere step WaitsOut ⟨.initial .bulk 1, .called⟩ closedLate).map
      (fun c => (c.close, c.stream.reader)) = some (.returned, .returned 0) := by decide
  obtain ⟨c, replayed, shown⟩ := Option.map_eq_some_iff.mp moved
  simp only [Prod.mk.injEq] at shown
  exact ⟨c, close_waits (Reach.of_replayWhere (.start ⟨⟨.bulk, 1, rfl⟩, rfl⟩) _ replayed), shown⟩

end Closing

end MsiSdrDriver.Async
