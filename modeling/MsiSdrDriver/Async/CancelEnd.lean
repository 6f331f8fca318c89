import MsiSdrDriver.Async.Teardown

/-!
# The end of a cancelled stream

Once `msisdr_read_async` finds `CANCELING` it leaves its loop in the first iteration whose scan
finds every transfer `CANCELLED`. A transfer can end otherwise: one that reports `NO_DEVICE`, or
that cannot be submitted again, is not in flight any more, keeps its status, and cannot be
cancelled. The scan then cancels it in vain in every iteration, and the loop goes on for ever
(`Stream.cancel_spins`).

`Stream.Turn` is one iteration in which event handling succeeds, with any steps of the other
threads in between that leave the state of the stream and the transfers alone. When no transfer is
in flight, the iteration ends the stream exactly if the last status of every transfer is
`CANCELLED` (`Stream.leaves_loop_iff`).
-/

set_option autoImplicit false

namespace MsiSdrDriver.Async

open MsiSdrDriver.Driver MsiSdrDriver.Foundations

namespace Stream

/-! ## One iteration -/

/-- No transfer is in flight. -/
def Landed (s : Stream) : Prop := ∀ k < s.xferBufNum, (s.xfer k).inFlight = false

/-- A cancelled stream at the beginning of an iteration, or in its event handling, when every
transfer has had its last callback. -/
structure AwaitsEnd (s : Stream) : Prop where
  top : s.reader = .loopTest ∨ s.reader = .events
  canceling : s.asyncStatus = .canceling
  landed : s.Landed
  called : s.callback = .idle

/-- The states of an iteration that begins in `s`, in which event handling succeeds. Between the
steps of `msisdr_read_async` the other threads may move, but store no status and put no transfer
in flight. -/
inductive Turn (s : Stream) : Stream → Prop
  | begins {t : Stream} {answer : UsbAnswer} (succeeds : answer.events = .success)
      (moves : s.readAsyncStep answer = some t) : Turn s t
  | reader {t t' : Stream} {answer : UsbAnswer} (turn : Turn s t)
      (inside : inLoop t.reader = true) (unfinished : t.reader ≠ .loopTest)
      (succeeds : answer.events = .success) (moves : t.readAsyncStep answer = some t') : Turn s t'
  | other {t t' : Stream} {label : UsbLabel} (turn : Turn s t)
      (foreign : ∀ answer, label ≠ .reader answer) (status : t'.asyncStatus = t.asyncStatus)
      (landed : t'.Landed) (moves : t.step label = some t') : Turn s t'

/-- The iteration is at its end: `msisdr_read_async` is back at the loop test, or has left the
loop. -/
def Finished (t : Stream) : Prop := t.reader = .loopTest ∨ inLoop t.reader = false

/-- The iteration that begins in `s` comes to an end, and has then stored `INACTIVE` and left the
loop. -/
def LeavesLoop (s : Stream) : Prop :=
  (∃ t, Turn s t ∧ t.Finished) ∧
    ∀ t, Turn s t → t.Finished → t.asyncStatus = .inactive ∧ inLoop t.reader = false

/-! ## What an iteration does -/

variable {s t t' : Stream}

/-- What the place of `msisdr_read_async` in the iteration says. -/
def TurnPhase (s t : Stream) : ReadAsyncPc → Prop
  | .loopTest => t.asyncStatus = .canceling ∧ ∃ k < s.xferBufNum, (s.xfer k).status ≠ .cancelled
  | .events | .cancelingTest => t.asyncStatus = .canceling
  | .scan i semafor => t.asyncStatus = .canceling ∧ i ≤ s.xferBufNum ∧
      (semafor = true ↔ ∀ k < i, (s.xfer k).status = .cancelled)
  | .scanCancel i => t.asyncStatus = .canceling ∧ i < s.xferBufNum ∧
      (s.xfer i).status ≠ .cancelled
  | .storeInactive => t.asyncStatus = .canceling ∧
      ∀ k < s.xferBufNum, (s.xfer k).status = .cancelled
  | .lastEvents => t.asyncStatus = .inactive ∧ ∀ k < s.xferBufNum, (s.xfer k).status = .cancelled
  | _ => False

/-- What holds in an iteration. -/
structure Turning (s t : Stream) : Prop where
  live : t.Live
  num : t.xferBufNum = s.xferBufNum
  status : ∀ k, (t.xfer k).status = (s.xfer k).status
  landed : t.Landed
  called : t.callback = .idle
  phase : TurnPhase s t t.reader

/-- With no transfer in flight, the other threads change no transfer's status. -/
theorem foreign_same {label : UsbLabel} (landed : t.Landed) (called : t.callback = .idle)
    (foreign : ∀ answer, label ≠ .reader answer) (moves : t.step label = some t') :
    t'.callback = .idle ∧ t'.xferBufNum = t.xferBufNum ∧
      ∀ k, (t'.xfer k).status = (t.xfer k).status := by
  cases label with
  | complete thread k status =>
      simp only [Stream.step, Stream.complete] at moves
      split at moves
      · next enabled =>
          obtain ⟨-, -, -, young, flies, -⟩ := enabled
          simp [landed k young] at flies
      · cases moves
  | callback answer => simp [Stream.step, Stream.callbackStep, called] at moves
  | reader answer => exact absurd rfl (foreign answer)
  | call i function =>
      simp only [Stream.step] at moves
      split at moves <;> cases moves
      exact ⟨called, rfl, fun _ => rfl⟩
  | caller i answer =>
      simp only [Stream.step, Option.map_eq_some_iff, Prod.exists] at moves
      obtain ⟨next, pc', stepped, rfl⟩ := moves
      have same := (callerStep_same stepped).1
      exact ⟨same.callback.trans called, same.xferBufNum, same.status⟩

theorem Turning.other {label : UsbLabel} (turning : Turning s t)
    (foreign : ∀ answer, label ≠ .reader answer) (status : t'.asyncStatus = t.asyncStatus)
    (landed : t'.Landed) (moves : t.step label = some t') : Turning s t' := by
  obtain ⟨called, num, statuses⟩ := foreign_same turning.landed turning.called foreign moves
  have reader := (step_reader moves).resolve_right fun ⟨answer, same⟩ => foreign answer same
  refine ⟨turning.live.step moves, num.trans turning.num,
    fun k => (statuses k).trans (turning.status k), landed, called, ?_⟩
  have phase := turning.phase
  rw [reader]
  cases place : t.reader <;> simp only [TurnPhase, place, status] at phase ⊢ <;> exact phase

/-- A step inside the iteration. -/
theorem Turning.reader {answer : UsbAnswer} (turning : Turning s t)
    (inside : inLoop t.reader = true) (unfinished : t.reader ≠ .loopTest)
    (succeeds : answer.events = .success) (moves : t.readAsyncStep answer = some t') :
    Turning s t' := by
  obtain ⟨live, num, status, landed, called, phase⟩ := turning
  have live' := live.readAsyncStep moves
  have held := live.holds
  cases place : t.reader with
  | events =>
      simp only [TurnPhase, place] at phase
      simp only [readAsyncStep, place, succeeds] at moves
      split at moves <;> cases moves
      exact ⟨live', num, status, landed, called, phase⟩
  | cancelingTest =>
      simp only [TurnPhase, place] at phase
      simp only [readAsyncStep, place] at moves
      rw [if_pos phase, if_pos (held (by rw [place]; rfl))] at moves
      cases moves
      exact ⟨live', num, status, landed, called, phase, Nat.zero_le _, by simp⟩
  | scan i semafor =>
      simp only [TurnPhase, place] at phase
      obtain ⟨canceling, bound, seen⟩ := phase
      simp only [readAsyncStep, place] at moves
      split at moves
      · next young =>
          split at moves <;> cases moves
          · next other =>
              exact ⟨live', num, status, landed, called, canceling, num ▸ young, status i ▸ other⟩
          · next cancelled =>
              refine ⟨live', num, status, landed, called, canceling, by omega, ?_⟩
              have last : (s.xfer i).status = .cancelled := status i ▸ not_not.mp cancelled
              rw [seen]
              constructor
              · intro below k young
                rcases Nat.lt_succ_iff_lt_or_eq.mp young with before | rfl
                · exact below k before
                · exact last
              · exact fun below k young => below k (by omega)
      · next past =>
          obtain rfl : i = s.xferBufNum := by omega
          split at moves <;> cases moves
          · next all => exact ⟨live', num, status, landed, called, canceling, seen.mp all⟩
          · next some =>
              refine ⟨live', num, status, landed, called, canceling, ?_⟩
              by_contra none
              refine some (seen.mpr fun k young => ?_)
              by_contra other
              exact none ⟨k, young, other⟩
  | scanCancel i =>
      simp only [TurnPhase, place] at phase
      obtain ⟨canceling, young, other⟩ := phase
      simp only [readAsyncStep, place] at moves
      cases moves
      refine ⟨live', num, fun k => by simp [status k], fun k below => ?_, called, canceling,
        young, ?_⟩
      · simpa using landed k below
      · simp only [Bool.false_eq_true, false_iff, not_forall]
        exact ⟨i, by omega, other⟩
  | storeInactive =>
      simp only [TurnPhase, place] at phase
      simp only [readAsyncStep, place] at moves
      cases moves
      exact ⟨live', num, status, landed, called, rfl, phase.2⟩
  | loopTest => exact absurd place unfinished
  | lastEvents =>
      rw [place] at inside
      cases inside
  | _ => simp only [TurnPhase, place] at phase

/-- The first step of an iteration. -/
theorem AwaitsEnd.begins {answer : UsbAnswer} (awaits : s.AwaitsEnd) (live : s.Live)
    (succeeds : answer.events = .success) (moves : s.readAsyncStep answer = some t) :
    Turning s t := by
  have live' := live.readAsyncStep moves
  rcases awaits.top with place | place
  · simp only [readAsyncStep, place] at moves
    rw [if_pos (by simp [awaits.canceling])] at moves
    cases moves
    exact ⟨live', rfl, fun _ => rfl, awaits.landed, awaits.called, awaits.canceling⟩
  · simp only [readAsyncStep, place, succeeds] at moves
    split at moves <;> cases moves
    exact ⟨live', rfl, fun _ => rfl, awaits.landed, awaits.called, awaits.canceling⟩

/-- What holds in every state of an iteration. -/
theorem AwaitsEnd.turning (awaits : s.AwaitsEnd) (live : s.Live) (turn : Turn s t) :
    Turning s t := by
  induction turn with
  | begins succeeds moves => exact awaits.begins live succeeds moves
  | reader _ inside unfinished succeeds moves ih => exact ih.reader inside unfinished succeeds moves
  | other _ foreign status landed moves ih => exact ih.other foreign status landed moves

/-! ## How an iteration ends -/

/-- A step of an iteration inside the loop. -/
theorem Turn.next (turn : Turn s t) (inside : inLoop t.reader = true)
    (unfinished : t.reader ≠ .loopTest) (moves : t.readAsyncStep succeeds = some t') : Turn s t' :=
  turn.reader inside unfinished rfl moves

/-- A scan comes to its end. -/
theorem Turn.scan_ends (turn : Turn s t) {i : ℕ} {semafor : Bool}
    (place : t.reader = .scan i semafor) : ∃ t', Turn s t' ∧ t'.Finished := by
  -- The induction is on the number of transfers that the scan has still to look at.
  obtain ⟨remaining, length⟩ : ∃ remaining, t.xferBufNum - i = remaining := ⟨_, rfl⟩
  induction remaining generalizing t i semafor with
  | zero =>
      have past : ¬ i < t.xferBufNum := by omega
      cases semafor with
      | false =>
          have moves : t.readAsyncStep succeeds = some { t with reader := .loopTest } := by
            simp [readAsyncStep, place, past]
          exact ⟨_, turn.next (by simp [place, inLoop]) (by simp [place]) moves, .inl rfl⟩
      | true =>
          have moves : t.readAsyncStep succeeds = some { t with reader := .storeInactive } := by
            simp [readAsyncStep, place, past]
          have stores := turn.next (by simp [place, inLoop]) (by simp [place]) moves
          exact ⟨_, stores.next rfl (by simp) rfl, .inr rfl⟩
  | succ remaining ih =>
      have young : i < t.xferBufNum := by omega
      by_cases cancelled : (t.xfer i).status = .cancelled
      · have moves : t.readAsyncStep succeeds =
            some { t with reader := .scan (i + 1) semafor } := by
          simp [readAsyncStep, place, young, cancelled]
        refine ih (turn.next (by simp [place, inLoop]) (by simp [place]) moves) rfl ?_
        show t.xferBufNum - (i + 1) = remaining
        omega
      · have moves : t.readAsyncStep succeeds = some { t with reader := .scanCancel i } := by
          simp [readAsyncStep, place, young, cancelled]
        have cancels := turn.next (by simp [place, inLoop]) (by simp [place]) moves
        refine ih (cancels.next rfl (by simp) rfl) rfl ?_
        show t.xferBufNum - (i + 1) = remaining
        omega

/-- An iteration comes to its end. -/
theorem AwaitsEnd.ends (awaits : s.AwaitsEnd) (live : s.Live) : ∃ t, Turn s t ∧ t.Finished := by
  have handled : ∃ t, Turn s t ∧ t.reader = .cancelingTest := by
    rcases awaits.top with place | place
    · have enters : s.readAsyncStep succeeds = some { s with reader := .events } := by
        simp [readAsyncStep, place, awaits.canceling]
      have moves : ({ s with reader := .events } : Stream).readAsyncStep succeeds =
          some { s with reader := .cancelingTest } := by
        simp [readAsyncStep, mayReturn, awaits.called, CallbackPc.thread?, succeeds]
      exact ⟨_, (Turn.begins rfl enters).next rfl (by simp) moves, rfl⟩
    · have moves : s.readAsyncStep succeeds = some { s with reader := .cancelingTest } := by
        simp [readAsyncStep, place, mayReturn, awaits.called, CallbackPc.thread?, succeeds]
      exact ⟨_, .begins rfl moves, rfl⟩
  obtain ⟨t, turn, place⟩ := handled
  have turning := awaits.turning live turn
  have canceling := turning.phase
  simp only [TurnPhase, place] at canceling
  have moves : t.readAsyncStep succeeds = some { t with reader := .scan 0 true } := by
    simp only [readAsyncStep, place]
    rw [if_pos canceling, if_pos (turning.live.holds (by rw [place]; rfl))]
  exact (turn.next (by simp [place, inLoop]) (by simp [place]) moves).scan_ends rfl

/-- The iteration in which every transfer has ended as `CANCELLED` is the last. -/
theorem AwaitsEnd.leaves (awaits : s.AwaitsEnd) (live : s.Live)
    (cancelled : ∀ k < s.xferBufNum, (s.xfer k).status = .cancelled) : s.LeavesLoop := by
  refine ⟨awaits.ends live, fun t turn finished => ?_⟩
  have phase := (awaits.turning live turn).phase
  rcases finished with back | left
  · simp only [TurnPhase, back] at phase
    obtain ⟨-, k, young, other⟩ := phase
    exact absurd (cancelled k young) other
  · cases place : t.reader <;> simp only [TurnPhase, place, inLoop] at phase left ⊢
    all_goals first | exact ⟨phase.1, trivial⟩ | cases left

/-- **A transfer that has ended otherwise keeps the loop going**: the iteration comes back to the
loop test, with everything as it was. -/
theorem AwaitsEnd.spins (awaits : s.AwaitsEnd) (live : s.Live) {k : ℕ} (young : k < s.xferBufNum)
    (other : (s.xfer k).status ≠ .cancelled) (turn : Turn s t) (finished : t.Finished) :
    t.AwaitsEnd ∧ t.xferBufNum = s.xferBufNum ∧ ∀ k, (t.xfer k).status = (s.xfer k).status := by
  have turning := awaits.turning live turn
  have phase := turning.phase
  rcases finished with back | left
  · simp only [TurnPhase, back] at phase
    exact ⟨⟨.inl back, phase.1, turning.landed, turning.called⟩, turning.num, turning.status⟩
  · cases place : t.reader <;> simp only [TurnPhase, place, inLoop] at phase left
    all_goals first | exact absurd (phase.2 k young) other | cases left

/-- What `AwaitsEnd` needs of the run. -/
theorem live_of_reach (reached : Reach step Starts Always s) : s.Live :=
  reached.invariant (fun _ ⟨transfer, num, start⟩ => start ▸ Live.starts transfer num)
    fun _ _ _ live _ moves => live.step moves

/-- A stream of one transfer is cancelled, and the transfer comes back with a status. -/
def endedStream (status : XferStatus) : List UsbLabel :=
  runningStream ++ [.call 0 .cancel, .caller 0 succeeds, .caller 0 succeeds] ++
    List.replicate 6 (.reader succeeds) ++ [.complete .reader 0 status]

/-- **A cancel can leave the reader spinning.** -/
theorem cancel_spins : ¬ ∀ s : Stream, Reach step Starts Always s → s.AwaitsEnd →
    s.LeavesLoop := by
  intro leaves
  have moved : (replay step (initial .bulk 1) (endedStream .noDevice ++ [.callback succeeds])).map
      (fun s => (s.reader, s.asyncStatus, s.xferBufNum, s.xfer 0, s.callback)) =
        some (.events, .canceling, 1, ⟨.noDevice, false, true⟩, .idle) := by decide
  obtain ⟨s, replayed, shown⟩ := Option.map_eq_some_iff.mp moved
  simp only [Prod.mk.injEq] at shown
  obtain ⟨place, canceling, num, xfer, called⟩ := shown
  have reached : Reach step Starts Always s :=
    Reach.of_replay (.start ⟨.bulk, 1, rfl⟩) _ replayed
  have landed : s.Landed := by
    intro k young
    obtain rfl : k = 0 := by omega
    rw [xfer]
  have awaits : s.AwaitsEnd := ⟨.inr place, canceling, landed, called⟩
  obtain ⟨⟨t, turn, finished⟩, leaves⟩ := leaves s reached awaits
  have spins := awaits.spins (live_of_reach reached) (k := 0) (by omega) (by simp [xfer]) turn
    finished
  have left := (leaves t turn finished).1
  rw [spins.1.canceling] at left
  cases left

/-- **The next iteration ends a cancelled stream exactly if every transfer has ended as
`CANCELLED`.** -/
theorem leaves_loop_iff {s : Stream} (reached : Reach step Starts Always s)
    (awaits : s.AwaitsEnd) :
    s.LeavesLoop ↔ ∀ k < s.xferBufNum, (s.xfer k).status = .cancelled := by
  have live := live_of_reach reached
  constructor
  · rintro ⟨⟨t, turn, finished⟩, leaves⟩ k young
    by_contra other
    have spins := awaits.spins live young other turn finished
    have left := (leaves t turn finished).1
    rw [spins.1.canceling] at left
    cases left
  · exact awaits.leaves live

theorem leaves_loop_iff_endedStream :
    ∃ s : Stream, (s.LeavesLoop ↔ ∀ k < s.xferBufNum, (s.xfer k).status = .cancelled) ∧
      s.xferBufNum = 1 ∧ (s.xfer 0).status = .cancelled := by
  have moved : (replay step (initial .bulk 1) (endedStream .cancelled)).map
      (fun s => (s.reader, s.asyncStatus, s.xferBufNum, s.xfer 0, s.callback)) =
        some (.events, .canceling, 1, ⟨.cancelled, false, true⟩, .idle) := by decide
  obtain ⟨s, replayed, shown⟩ := Option.map_eq_some_iff.mp moved
  simp only [Prod.mk.injEq] at shown
  obtain ⟨place, canceling, num, xfer, called⟩ := shown
  have landed : s.Landed := by
    intro k young
    obtain rfl : k = 0 := by omega
    rw [xfer]
  exact ⟨s, leaves_loop_iff (Reach.of_replay (.start ⟨.bulk, 1, rfl⟩) _ replayed)
    ⟨.inr place, canceling, landed, called⟩, num, by rw [xfer]⟩

end Stream

end MsiSdrDriver.Async
