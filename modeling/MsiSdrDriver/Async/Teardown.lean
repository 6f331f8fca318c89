import MsiSdrDriver.Async.StreamPhases
import MsiSdrDriver.Foundations.LabelledRuns

/-!
# The end of a stream

`msisdr_read_async` frees its transfers at three places, and each time it infers from the last
recorded status of every transfer that none is in flight. A status left over from before the
last submission misleads it. The plainest case is the drain loop of `failed_free`, which takes
`COMPLETED` for done: that is what a transfer in flight usually carries, and what
`libusb_alloc_transfer` puts there (`Stream.frees_in_flight`).

Where no status that is read is left over in this way, no transfer is submitted behind the
scan, and the waits that are not checked do complete what is in flight (`Stream.Conclusive`),
nothing is freed in flight (`Stream.frees_quiescent`).
-/

set_option autoImplicit false

namespace MsiSdrDriver.Async

open MsiSdrDriver.Driver MsiSdrDriver.Foundations

namespace Stream

/-- The thread is about to run `msisdr_async_free`. -/
def frees : ReadAsyncPc → Bool
  | .isocFree | .free | .freeFailed => true
  | _ => false

/-- No transfer is freed in flight. -/
def FreesQuiescent (s : Stream) : Prop :=
  frees s.reader = true → s.allocated = true →
    ∀ k < s.xferBufNum, (s.xfer k).inFlight = false

/-- A USB call that succeeds. -/
def succeeds : UsbAnswer := ⟨true, .success⟩

/-- A stream of one transfer comes into its loop, and the transfer completes once. -/
def runningStream : List UsbLabel :=
  List.replicate 7 (.reader succeeds) ++ [.complete .reader 0 .completed, .callback succeeds]

/-- A stream of one transfer starts, and handling its events fails. -/
def lostDevice : List UsbLabel :=
  List.replicate 7 (.reader succeeds) ++ [.reader ⟨true, .error⟩] ++
    List.replicate 5 (.reader succeeds)

/-- **A transfer can be freed in flight.** -/
theorem frees_in_flight : ¬ ∀ s : Stream, Reach step Starts Always s → s.FreesQuiescent := by
  intro quiescent
  have moved : (replay step (initial .bulk 1) lostDevice).map
      (fun s => (frees s.reader, s.allocated, s.xferBufNum, (s.xfer 0).inFlight)) =
        some (true, true, 1, true) := by decide
  obtain ⟨s, replayed, shown⟩ := Option.map_eq_some_iff.mp moved
  simp only [Prod.mk.injEq] at shown
  obtain ⟨freeing, allocated, num, inFlight⟩ := shown
  have quiet := quiescent s (Reach.of_replay (.start ⟨.bulk, 1, rfl⟩) _ replayed) freeing
    allocated 0 (by omega)
  simp [inFlight] at quiet

/-! ## When the status can be trusted -/

/-- The scan or the drain loop has counted transfer `k` as done, and nothing will make it look
again before the transfers are freed. -/
def counted : ReadAsyncPc → ℕ → Bool
  | .scan i true, k => k < i
  | .drainScan _ j, k => k < j
  | .storeInactive, _ | .lastEvents, _ | .free, _ | .freeFailed, _ | .isocFree, _ => true
  | _, _ => false

/-- What `msisdr_read_async` looks at is conclusive: a transfer in flight does not carry a
status left over from before its submission that the scan or the drain loop takes for its end,
and when the one wait of the fallback to `BULK` ends, or the last of the twenty waits of the
drain loop, no transfer is in flight. -/
def ReaderConclusive (s : Stream) : ReadAsyncPc → Prop
  | .scan i true => ¬ ((s.xfer i).inFlight = true ∧ (s.xfer i).status = .cancelled)
  | .drainScan _ j => ¬ ((s.xfer j).inFlight = true ∧ drained (s.xfer j).status = true)
  | .drainEvents tries => 20 ≤ tries + 1 → ∀ k < s.xferBufNum, (s.xfer k).inFlight = false
  | .isocEvents => ∀ k < s.xferBufNum, (s.xfer k).inFlight = false
  | _ => True

/-- The callback does not submit a transfer that has been counted as done. -/
def CallbackConclusive (s : Stream) (answer : UsbAnswer) : CallbackPc → Prop
  | .resubmit _ k => answer.success = true → counted s.reader k = false
  | _ => True

/-- `msisdr_start_async` does not submit a transfer that has been counted as done. -/
def CallerConclusive (s : Stream) (answer : UsbAnswer) : CallerPc → Prop
  | .start _ (.submit k) => answer.success = true → counted s.reader k = false
  | _ => True

/-- What is read is conclusive, and stays so. -/
def Conclusive (s : Stream) : UsbLabel → Prop
  | .reader _ => s.ReaderConclusive s.reader
  | .callback answer => s.CallbackConclusive answer s.callback
  | .caller i answer => s.CallerConclusive answer (s.callers i)
  | .complete _ _ _ | .call _ _ => True

instance (s : Stream) : DecidablePred s.ReaderConclusive := by
  intro pc
  cases pc with
  | scan i semafor => cases semafor <;> unfold ReaderConclusive <;> infer_instance
  | _ => unfold ReaderConclusive; infer_instance

instance (s : Stream) (answer : UsbAnswer) : DecidablePred (s.CallbackConclusive answer) := by
  intro pc
  cases pc <;> unfold CallbackConclusive <;> infer_instance

instance (s : Stream) (answer : UsbAnswer) : DecidablePred (s.CallerConclusive answer) := by
  intro pc
  cases pc with
  | start hard start => cases start <;> unfold CallerConclusive <;> infer_instance
  | _ => unfold CallerConclusive; infer_instance

instance : DecidableRel Conclusive := by
  intro s label
  cases label <;> unfold Conclusive <;> infer_instance

variable {s s' : Stream}

/-! ## What has been counted is done -/

/-- No transfer that has been counted as done is in flight. -/
def CountedDone (s : Stream) : Prop :=
  s.allocated = true → ∀ k < s.xferBufNum, counted s.reader k = true →
    (s.xfer k).inFlight = false

/-- A step that counts no further transfer, and puts none of the counted ones in flight. -/
theorem CountedDone.of_flight (done : s.CountedDone) (allocated : s'.allocated = s.allocated)
    (num : s'.xferBufNum = s.xferBufNum)
    (counts : ∀ k < s.xferBufNum, counted s'.reader k = true → counted s.reader k = true)
    (flight : ∀ k < s.xferBufNum, (s'.xfer k).inFlight = true → counted s'.reader k = true →
      (s.xfer k).inFlight = true) : s'.CountedDone := by
  intro isAllocated k young isCounted
  rw [num] at young
  by_contra flies
  have before := done (allocated ▸ isAllocated) k young (counts k young isCounted)
  rw [flight k young (by simpa using flies) isCounted] at before
  cases before

/-- A place of the thread at which nothing has been counted. -/
theorem CountedDone.of_none (none : ∀ k, counted s.reader k = false) : s.CountedDone := by
  intro _ k _ isCounted
  rw [none k] at isCounted
  cases isCounted

/-- The transfers below `i` have been counted, and `i`, if there is such a transfer, is not in
flight. -/
theorem CountedDone.counts {i : ℕ} {reader : ReadAsyncPc} (done : s.CountedDone)
    (allocated : s.allocated = true) (before : ∀ k, counted s.reader k = decide (k < i))
    (after : ∀ k < s.xferBufNum, counted reader k = true → k < i + 1)
    (rests : i < s.xferBufNum → (s.xfer i).inFlight = false) :
    CountedDone { s with reader := reader } := by
  intro _ k young isCounted
  have young : k < s.xferBufNum := young
  have below : k < i ∨ k = i := by
    have := after k young isCounted
    omega
  rcases below with passed | rfl
  · exact done allocated k young (by rw [before k]; exact decide_eq_true passed)
  · exact rests young

theorem CountedDone.complete {thread : Thread} {k : ℕ} {status : XferStatus}
    (done : s.CountedDone) (moves : s.complete thread k status = some s') : s'.CountedDone := by
  have lands : ∀ j, ((Function.update s.xfer k
      { s.xfer k with status := status, inFlight := false }) j).inFlight = true →
        (s.xfer j).inFlight = true := by
    intro j flies
    by_cases same : j = k
    · subst same
      simp at flies
    · rwa [Function.update_of_ne same] at flies
  unfold Stream.complete at moves
  split at moves
  · cases status <;> cases moves <;>
      exact done.of_flight rfl rfl (fun _ _ => id) fun j _ flies _ => lands j flies
  · cases moves

theorem CountedDone.callbackStep {answer : UsbAnswer} (done : s.CountedDone)
    (conclusive : s.Conclusive (.callback answer)) (moves : s.callbackStep answer = some s') :
    s'.CountedDone := by
  cases running : s.callback with
  | idle => simp [Stream.callbackStep, running] at moves
  | resubmit thread k =>
      simp only [Stream.callbackStep, running] at moves
      split at moves <;> cases moves
      · next submits =>
          simp only [Conclusive, CallbackConclusive, running] at conclusive
          have uncounted := conclusive (Bool.and_eq_true_iff.mp submits).2
          refine done.of_flight rfl rfl (fun _ _ => id) fun j _ flies isCounted => ?_
          by_cases same : j = k
          · subst same
            simp [submitXfer, uncounted] at isCounted
          · rwa [submitXfer_of_ne s _ same] at flies
      · next fails =>
          refine done.of_flight rfl rfl (fun _ _ => id) fun j _ flies _ => ?_
          rwa [submitXfer_fails s (by simpa using fails)] at flies
  | failedTest thread k =>
      simp only [Stream.callbackStep, running] at moves
      split at moves <;> cases moves <;>
        exact done.of_flight rfl rfl (fun _ _ => id) fun _ _ flies _ => flies
  | failedStore thread k =>
      simp only [Stream.callbackStep, running] at moves
      cases moves
      exact done.of_flight rfl rfl (fun _ _ => id) fun _ _ flies _ => flies

theorem CountedDone.caller {i : ℕ} {answer : UsbAnswer} (done : s.CountedDone)
    (conclusive : s.Conclusive (.caller i answer)) (moves : s.step (.caller i answer) = some s') :
    s'.CountedDone := by
  simp only [step, Option.map_eq_some_iff, Prod.exists] at moves
  obtain ⟨next, pc', stepped, rfl⟩ := moves
  obtain ⟨same, flight⟩ := callerStep_same stepped
  refine done.of_flight same.allocated same.xferBufNum (fun k _ => ?_) fun k _ flies isCounted => ?_
  · simp only [same.reader]
    exact id
  · rcases flight k flies with before | ⟨hard, place, ok⟩
    · exact before
    · simp only [Conclusive, place, CallerConclusive] at conclusive
      simp only [same.reader, conclusive ok] at isCounted
      cases isCounted

theorem CountedDone.reader {answer : UsbAnswer} (done : s.CountedDone) (live : s.Live)
    (opened : opening s.reader = true → s.Opening) (conclusive : s.Conclusive (.reader answer))
    (moves : s.readAsyncStep answer = some s') : s'.CountedDone := by
  have held := live.holds
  simp only [Conclusive] at conclusive
  cases place : s.reader with
  | scan i semafor =>
      rw [place] at held conclusive
      simp only [readAsyncStep, place] at moves
      split at moves
      · split at moves <;> cases moves
        · exact .of_none fun _ => rfl
        · next cancelled =>
            cases semafor
            · exact .of_none fun _ => rfl
            · refine done.counts (held rfl) (fun k => by rw [place]; rfl)
                (fun k _ isCounted => by simpa [counted] using isCounted) fun _ => ?_
              simpa [ReaderConclusive, not_not.mp cancelled] using conclusive
      · next last =>
          split at moves <;> cases moves
          · next all =>
              subst all
              exact done.counts (held rfl) (fun k => by rw [place]; rfl)
                (fun k young _ => by omega) fun young => absurd young last
          · exact .of_none fun _ => rfl
  | drainScan tries j =>
      rw [place] at held conclusive
      simp only [readAsyncStep, place] at moves
      split at moves
      · split at moves <;> cases moves
        · next final =>
            refine done.counts (held rfl) (fun k => by rw [place]; rfl)
              (fun k _ isCounted => by simpa [counted] using isCounted) fun _ => ?_
            simpa [ReaderConclusive, final] using conclusive
        · exact .of_none fun _ => rfl
      · next last =>
          cases moves
          exact done.counts (held rfl) (fun k => by rw [place]; rfl)
            (fun k young _ => by omega) fun young => absurd young last
  | drainEvents tries =>
      rw [place] at conclusive
      simp only [readAsyncStep, place] at moves
      split at moves
      · split at moves <;> cases moves
        · exact .of_none fun _ => by simp [counted]
        · next exhausted =>
            exact fun _ k young _ => conclusive (by omega) k young
      · cases moves
  | isocCancel i j =>
      simp only [readAsyncStep, place] at moves
      split at moves
      · cases moves
        exact .of_none fun _ => rfl
      · split at moves <;> cases moves
        · exact .of_none fun _ => rfl
        · next first =>
            intro _ k _ _
            exact (opened (by rw [place]; rfl)).unsubmitted i (.inr ⟨j, place⟩) k (by omega)
  | isocEvents =>
      rw [place] at conclusive
      simp only [readAsyncStep, place] at moves
      split at moves <;> cases moves
      exact fun _ k young _ => conclusive k young
  | storeInactive =>
      simp only [readAsyncStep, place] at moves
      cases moves
      exact fun _ k young _ => done (held (by rw [place]; rfl)) k young (by rw [place]; rfl)
  | lastEvents =>
      simp only [readAsyncStep, place] at moves
      split at moves <;> cases moves
      exact fun _ k young _ => done (held (by rw [place]; rfl)) k young (by rw [place]; rfl)
  | loopTest =>
      have active := live.active (by rw [place]; rfl)
      simp only [readAsyncStep, place] at moves
      split at moves <;> cases moves
      · exact .of_none fun _ => rfl
      · next stopped => exact absurd (not_not.mp stopped) active
  | storeInactiveEmpty => exact absurd place live.nonempty
  | failedFree =>
      simp only [readAsyncStep, place, held (by rw [place]; rfl)] at moves
      cases moves
      exact .of_none fun _ => rfl
  | _ =>
      simp only [readAsyncStep, place] at moves
      repeat' split at moves
      all_goals cases moves
      all_goals exact .of_none fun _ => by simp [counted]

theorem CountedDone.step {label : UsbLabel} (done : s.CountedDone) (live : s.Live)
    (opened : opening s.reader = true → s.Opening) (conclusive : s.Conclusive label)
    (moves : s.step label = some s') : s'.CountedDone := by
  cases label with
  | complete thread k status => exact done.complete moves
  | callback answer => exact done.callbackStep conclusive moves
  | reader answer => exact done.reader live opened conclusive moves
  | call i function =>
      simp only [Stream.step] at moves
      split at moves <;> cases moves
      exact done.of_flight rfl rfl (fun _ _ => id) fun _ _ flies _ => flies
  | caller i answer => exact done.caller conclusive moves

/-- **No transfer is freed in flight**, in every run in which what the code looks at is
conclusive. -/
theorem frees_quiescent {s : Stream} (reached : Reach step Starts Conclusive s) :
    s.FreesQuiescent := by
  have sound : s.CountedDone ∧ s.Live ∧ (opening s.reader = true → s.Opening) := by
    refine reached.invariant
      (I := fun s => s.CountedDone ∧ s.Live ∧ (opening s.reader = true → s.Opening)) ?_ ?_
    · rintro s ⟨transfer, num, rfl⟩
      exact ⟨by simp [CountedDone, initial], Live.starts transfer num,
        fun _ => Opening.starts transfer num⟩
    · rintro s label s' ⟨done, live, opened⟩ conclusive moves
      exact ⟨done.step live opened conclusive moves, live.step moves, Opening.step opened moves⟩
  intro freeing allocated k young
  refine sound.1 allocated k young ?_
  revert freeing
  cases s.reader <;> simp [frees, counted]

/-- A stream of one transfer runs, is cancelled, and ends. -/
def cancelledStream : List UsbLabel :=
  List.replicate 7 (.reader succeeds) ++ [.complete .reader 0 .completed, .callback succeeds] ++
    [.call 0 .cancel, .caller 0 succeeds, .caller 0 succeeds] ++
    List.replicate 6 (.reader succeeds) ++ [.complete .reader 0 .cancelled] ++
    List.replicate 6 (.reader succeeds)

theorem frees_quiescent_cancelledStream :
    ∃ s : Stream, s.reader = .free ∧ s.allocated = true ∧ s.xferBufNum = 1 ∧
      s.FreesQuiescent := by
  have moved : (replayWhere step Conclusive (initial .bulk 1) cancelledStream).map
      (fun s => (s.reader, s.allocated, s.xferBufNum)) = some (.free, true, 1) := by decide
  obtain ⟨s, replayed, shown⟩ := Option.map_eq_some_iff.mp moved
  simp only [Prod.mk.injEq] at shown
  exact ⟨s, shown.1, shown.2.1, shown.2.2,
    frees_quiescent (Reach.of_replayWhere (.start ⟨.bulk, 1, rfl⟩) _ replayed)⟩

end Stream

end MsiSdrDriver.Async
