import MsiSdrDriver.Async.StreamPhases
import MsiSdrDriver.Foundations.Histories

/-!
# Cancels that are lost

`msisdr_stop_async` and `msisdr_start_async` test `async_status` a last time, sleep or issue a
request to the device, and then store `PAUSED` or `RUNNING` whatever has been stored meanwhile. A
cancel that falls between the test and the store returns zero and is overwritten
(`Stream.cancel_is_lost`). This is the only way to lose one: where a cancel finds no caller past
its last test, it is kept until the stream is `INACTIVE` (`Stream.cancel_is_kept`), and where it
finds such a caller, it is lost if that caller moves next (`Stream.cancel_is_overwritten`).
-/

set_option autoImplicit false

namespace MsiSdrDriver.Async

open MsiSdrDriver.Driver MsiSdrDriver.Foundations

namespace Stream

/-! ## Accepted cancels -/

/-- In this step a `msisdr_cancel_async` stores `CANCELING` and returns zero. -/
def accepts (s : Stream) : UsbLabel → Bool
  | .caller i _ => s.callers i = .cancel .store
  | _ => false

/-- Whether a cancel has been accepted since the stream was last `INACTIVE`. -/
def recordCancel (accepted : Bool) (s : Stream) (label : UsbLabel) (s' : Stream) : Bool :=
  s'.asyncStatus ≠ .inactive && (accepted || s.accepts label)

/-- A step of the stream that records the accepted cancels. -/
def cancelStep : Recorded Stream Bool → UsbLabel → Option (Recorded Stream Bool) :=
  recording step recordCancel

/-- The states in which a recorded run starts. -/
def CancelStarts : Recorded Stream Bool → Prop := unrecorded Starts false

/-- An accepted cancel is not overwritten. -/
def CancelKept (r : Recorded Stream Bool) : Prop :=
  r.history = true → r.state.asyncStatus ≠ .running ∧ r.state.asyncStatus ≠ .paused

/-- A caller that has made its last test and is about to store `PAUSED` or `RUNNING`. -/
def pastTest : CallerPc → Bool
  | .stop _ .storePaused | .start _ .storeRunning => true
  | _ => false

/-- A cancel stores `CANCELING` while no caller is past its last test. -/
def CancelsClear (r : Recorded Stream Bool) (label : UsbLabel) : Prop :=
  r.state.accepts label = true → ∀ j, pastTest (r.state.callers j) = false

/-! ## The loss -/

/-- A stream of one transfer starts, and is stopped up to where `PAUSED` is about to be stored. -/
def stopPastTest : List UsbLabel :=
  List.replicate 7 (.reader ⟨true, .success⟩) ++ [.call 0 .stop] ++
    List.replicate 5 (.caller 0 ⟨true, .success⟩) ++ [.complete (.caller 0) 0 .cancelled] ++
    List.replicate 5 (.caller 0 ⟨true, .success⟩)

/-- Then the stream is cancelled, and `PAUSED` is stored. -/
def lostCancel : List UsbLabel :=
  stopPastTest ++ [.call 1 .cancel] ++ List.replicate 2 (.caller 1 ⟨true, .success⟩) ++
    [.caller 0 ⟨true, .success⟩]

/-- **An accepted cancel can be lost.** -/
theorem cancel_is_lost :
    ¬ ∀ r : Recorded Stream Bool, Reach cancelStep CancelStarts Always r → CancelKept r := by
  intro kept
  have moved : (replay cancelStep ⟨initial .bulk 1, false⟩ lostCancel).map
      (fun r => (r.history, r.state.asyncStatus, r.state.callers 1)) =
        some (true, .paused, .cancel (.returned 0)) := by decide
  obtain ⟨r, replayed, shown⟩ := Option.map_eq_some_iff.mp moved
  simp only [Prod.mk.injEq] at shown
  obtain ⟨accepted, paused, -⟩ := shown
  exact (kept r (Reach.of_replay (.start ⟨⟨.bulk, 1, rfl⟩, rfl⟩) _ replayed) accepted).2 paused

variable {s s' : Stream}

/-- The stream after caller `i` has stored `CANCELING` and returned zero. -/
def accepted (s : Stream) (i : ℕ) : Stream :=
  { s with
    asyncStatus := .canceling
    callers := Function.update s.callers i (.cancel (.returned 0)) }

theorem step_accept {i : ℕ} (cancels : s.callers i = .cancel .store) (answer : UsbAnswer) :
    s.step (.caller i answer) = some (s.accepted i) := by
  simp only [step, cancels]
  rfl

/-- The next step of a caller past its last test stores `PAUSED` or `RUNNING`. -/
theorem pastTest_stores {j : ℕ} (past : pastTest (s.callers j) = true) (answer : UsbAnswer) :
    ∃ s', s.step (.caller j answer) = some s' ∧
      (s'.asyncStatus = .paused ∨ s'.asyncStatus = .running) := by
  cases place : s.callers j with
  | stop hard stop =>
      cases stop with
      | storePaused =>
          obtain ⟨s', moves⟩ : ∃ s', s.step (.caller j answer) = some s' := by
            simp only [step, place]
            cases hard <;> exact ⟨_, rfl⟩
          refine ⟨s', moves, .inl ?_⟩
          simp [step_asyncStatus moves, stores, callerStores, place]
      | _ => simp [place, pastTest] at past
  | start hard start =>
      cases start with
      | storeRunning =>
          obtain ⟨s', moves⟩ : ∃ s', s.step (.caller j answer) = some s' := by
            simp only [step, place]
            cases hard <;> exact ⟨_, rfl⟩
          refine ⟨s', moves, .inr ?_⟩
          simp [step_asyncStatus moves, stores, callerStores, place]
      | _ => simp [place, pastTest] at past
  | _ => simp [place, pastTest] at past

/-- **A cancel that finds a caller past its last test is lost** if that caller moves next. -/
theorem cancel_is_overwritten {i j : ℕ} (cancels : s.callers i = .cancel .store)
    (past : pastTest (s.callers j) = true) (answer : UsbAnswer) (accepted : Bool) :
    ∃ r r', cancelStep ⟨s, accepted⟩ (.caller i answer) = some r ∧
      cancelStep r (.caller j answer) = some r' ∧ ¬ CancelKept r' := by
  have other : j ≠ i := by
    rintro rfl
    simp [cancels, pastTest] at past
  have same : (s.accepted i).callers j = s.callers j := Function.update_of_ne other ..
  obtain ⟨s', overwrites, status⟩ := pastTest_stores (s := s.accepted i) (same ▸ past) answer
  have recorded : recordCancel accepted s (.caller i answer) (s.accepted i) = true := by
    simp [recordCancel, accepts, cancels, Stream.accepted]
  refine ⟨⟨s.accepted i, true⟩, ⟨s', true⟩,
    recording_eq_some_iff.mpr ⟨step_accept cancels answer, recorded.symm⟩,
    recording_eq_some_iff.mpr ⟨overwrites, ?_⟩, fun kept => ?_⟩
  · rcases status with paused | running
    · simp [recordCancel, paused]
    · simp [recordCancel, running]
  · rcases status with paused | running
    · exact (kept rfl).2 paused
    · exact (kept rfl).1 running

/-! ## The cancels that are kept -/

/-- A caller comes past its last test only in a stream that is `RUNNING` or `PAUSED`. -/
theorem callerStep_pastTest {i : ℕ} {answer : UsbAnswer} {pc pc' : CallerPc}
    (moves : s.callerStep i answer pc = some (s', pc')) (past : pastTest pc' = true) :
    s.asyncStatus = .running ∨ s.asyncStatus = .paused := by
  rcases callerStep_cases moves with hard | ⟨_, stop, _, _, rfl, rfl, stepped, rfl⟩ |
    ⟨_, start, _, rfl, rfl, stepped⟩ | ⟨_, _, rfl, rfl, -⟩ | ⟨_, _, rfl, rfl, -⟩
  · unfold setHardStep at hard
    repeat' split at hard
    all_goals cases hard
    all_goals cases past
  · unfold stopAsyncStep at stepped
    repeat' split at stepped
    all_goals cases stepped
    all_goals first | exact .inl (not_not.mp ‹_›) | cases past
  · unfold startAsyncStep at stepped
    repeat' split at stepped
    all_goals cases stepped
    all_goals first | exact .inr (not_not.mp ‹_›) | cases past
  · cases past
  · cases past

/-- No caller is past its last test, nor will be. -/
structure Clear (s : Stream) : Prop where
  late : opening s.reader = false
  stopped : s.asyncStatus ≠ .running ∧ s.asyncStatus ≠ .paused
  callers : ∀ j, pastTest (s.callers j) = false

theorem Clear.step {label : UsbLabel} (clear : s.Clear) (moves : s.step label = some s') :
    s'.Clear := by
  have late := clear.late
  have callers := clear.callers
  refine ⟨?_, ⟨fun running => ?_, fun paused => ?_⟩, fun j => ?_⟩
  · exact eq_false_of_ne_true fun early => by simp [opening_before moves early] at late
  · rcases step_running moves running with before | ⟨_, -, place⟩ | ⟨i, _, _, -, place⟩
    · exact clear.stopped.1 before
    · simp [place, opening] at late
    · exact absurd (callers i) (by simp [place, pastTest])
  · rcases step_paused moves paused with before | ⟨i, _, _, -, place⟩
    · exact clear.stopped.2 before
    · exact absurd (callers i) (by simp [place, pastTest])
  · by_contra past
    have past : pastTest (s'.callers j) = true := by simpa using past
    have moved : s'.callers j ≠ s.callers j := fun same => by simp [same, callers j] at past
    rcases step_callers moves moved with ⟨function, -, begins⟩ | ⟨_, _, -, stepped, -⟩
    · rw [begins] at past
      cases function <;> cases past
    · rcases callerStep_pastTest stepped past with running | paused
      · exact clear.stopped.1 running
      · exact clear.stopped.2 paused

/-- A cancel that finds no caller past its last test leaves the stream clear. -/
theorem Clear.of_accept {i : ℕ} (opened : opening s.reader = true → s.Opening)
    (cancels : s.callers i = .cancel .store) (clear : ∀ j, pastTest (s.callers j) = false) :
    (s.accepted i).Clear := by
  refine ⟨eq_false_of_ne_true fun early => ?_, ⟨by simp [accepted], by simp [accepted]⟩,
    fun j => ?_⟩
  · simpa [cancels, Stream.passive] using (opened early).passive i
  · by_cases mine : j = i
    · subst mine
      simp [accepted, pastTest]
    · simpa [accepted, mine] using clear j

/-- **An accepted cancel is not lost**, in every run in which every cancel finds no caller past
its last test. -/
theorem cancel_is_kept {r : Recorded Stream Bool}
    (reached : Reach cancelStep CancelStarts CancelsClear r) : CancelKept r := by
  suffices r.history = true → r.state.Clear from fun accepted => (this accepted).stopped
  have opened : ∀ {r : Recorded Stream Bool}, Reach cancelStep CancelStarts CancelsClear r →
      opening r.state.reader = true → r.state.Opening := fun reached =>
    reached.recorded_invariant (I := fun s => opening s.reader = true → s.Opening)
      (fun s ⟨transfer, num, start⟩ _ => start ▸ Opening.starts transfer num)
      fun s label s' opened moves => Opening.step opened moves
  induction reached with
  | start initial => simp [initial.2]
  | @step r r' label reached clear moves ih =>
      obtain ⟨moves, recorded⟩ := recording_eq_some_iff.mp moves
      rw [recorded]
      intro accepted
      simp only [recordCancel, Bool.and_eq_true, Bool.or_eq_true] at accepted
      rcases accepted.2 with before | accepts
      · exact (ih before).step moves
      · cases label with
        | caller i answer =>
            have cancels : r.state.callers i = .cancel .store := by
              simpa [Stream.accepts] using accepts
            rw [← Option.some.inj ((step_accept cancels answer).symm.trans moves)]
            exact .of_accept (opened reached) cancels (clear accepts)
        | _ => cases accepts

/-- The cancels of a single caller find no other caller in a call. -/
theorem cancelsClear_of_firstCaller {r : Recorded Stream Bool}
    (reached : Reach cancelStep CancelStarts (fun r label => FirstCaller r.state label) r) :
    Reach cancelStep CancelStarts CancelsClear r := by
  refine reached.strengthen (I := fun r => ∀ j, j ≠ 0 → r.state.callers j = .idle) ?_ ?_ ?_
  · rintro ⟨_, _⟩ ⟨⟨transfer, num, rfl⟩, -⟩ j -
    rfl
  · intro r label r' idle first moves j other
    exact first.idle (idle j other) other (recording_eq_some_iff.mp moves).1
  · intro r label r' idle first moves accepts j
    cases label with
    | caller i answer =>
        have cancels : r.state.callers i = .cancel .store := by simpa [Stream.accepts] using accepts
        by_cases zero : j = 0
        · subst zero
          by_cases mine : i = 0
          · subst mine
            simp [cancels, pastTest]
          · simp [idle i mine] at cancels
        · rw [idle j zero]
          rfl
    | _ => cases accepts

/-- A stream of one transfer is stopped, and then cancelled. -/
def keptCancel : List UsbLabel :=
  stopPastTest ++ [.caller 0 ⟨true, .success⟩, .call 0 .cancel] ++
    List.replicate 2 (.caller 0 ⟨true, .success⟩)

theorem cancel_is_kept_keptCancel :
    ∃ r : Recorded Stream Bool, CancelKept r ∧ r.history = true ∧
      r.state.callers 0 = .cancel (.returned 0) := by
  have moved : (replayWhere cancelStep (fun r label => FirstCaller r.state label)
      ⟨initial .bulk 1, false⟩ keptCancel).map (fun r => (r.history, r.state.callers 0)) =
        some (true, .cancel (.returned 0)) := by decide
  obtain ⟨r, replayed, shown⟩ := Option.map_eq_some_iff.mp moved
  simp only [Prod.mk.injEq] at shown
  exact ⟨r, cancel_is_kept (cancelsClear_of_firstCaller
    (Reach.of_replayWhere (.start ⟨⟨.bulk, 1, rfl⟩, rfl⟩) _ replayed)), shown⟩

end Stream

end MsiSdrDriver.Async
