import MsiSdrDriver.Async.Closing
import MsiSdrDriver.Foundations.Histories

/-!
# A device that is lost

When a transfer reports `NO_DEVICE`, its callback stores `FAILED` at most: `p->dh`, by which every
control request is guarded, stays as it is. So `msisdr_read_async`, which ends with
`msisdr_streaming_stop` on each of its paths, talks to the lost device whenever it returns
(`DeviceLoss.leaves_lost_device_alone_iff`), and so does every setter that is called
(`DeviceLoss.setter_requests`).
-/

set_option autoImplicit false

namespace MsiSdrDriver.Async

open MsiSdrDriver.Driver MsiSdrDriver.Foundations

namespace DeviceLoss

/-! ## Control requests -/

/-- A stream, and whether `p->dh` is not `NULL`. -/
structure OpenStream where
  stream : Stream
  dh : Bool

/-- What can happen: a step of the stream, and a setter that writes a register. -/
inductive OpenLabel where
  | stream (label : UsbLabel)
  | setter
  deriving DecidableEq

/-- One step. None touches `p->dh`. -/
def step (p : OpenStream) : OpenLabel → Option OpenStream
  | .stream label => (p.stream.step label).map fun stream => { p with stream := stream }
  | .setter => some p

/-- `msisdr_read_async` comes to `msisdr_streaming_start` or `msisdr_streaming_stop`. -/
def readerRequests : ReadAsyncPc → Bool
  | .storeRunning | .free | .freeFailed => true
  | _ => false

/-- A caller comes to `msisdr_streaming_start`, `msisdr_streaming_stop` or
`msisdr_write_reg`. -/
def callerRequests : CallerPc → Bool
  | .stop _ .storePaused | .start _ .storeRunning | .hardAdcStop | .hardWrite _ => true
  | _ => false

/-- In this step a control request is issued. -/
def requests (p : OpenStream) (label : OpenLabel) : Bool :=
  p.dh && match label with
    | .stream (.reader _) => readerRequests p.stream.reader
    | .stream (.caller i _) => callerRequests (p.stream.callers i)
    | .stream (.complete _ _ _) | .stream (.callback _) | .stream (.call _ _) => false
    | .setter => true

/-- In this step a transfer reports `NO_DEVICE`. -/
def reportsLoss : OpenLabel → Bool
  | .stream (.complete _ _ .noDevice) => true
  | _ => false

/-- Whether the device has been reported lost, and whether a control request has been issued
since. -/
structure LossHistory where
  lost : Bool
  requested : Bool
  deriving DecidableEq

def recordLoss (history : LossHistory) (p : OpenStream) (label : OpenLabel) (_ : OpenStream) :
    LossHistory where
  lost := history.lost || reportsLoss label
  requested := history.requested || (history.lost && requests p label)

/-- A step that records the loss. -/
def lossStep : Recorded OpenStream LossHistory → OpenLabel →
    Option (Recorded OpenStream LossHistory) :=
  recording step recordLoss

/-- `msisdr_read_async` is called on an opened device. -/
def Starts (p : OpenStream) : Prop := p.stream.Starts ∧ p.dh = true

def LossStarts : Recorded OpenStream LossHistory → Prop := unrecorded Starts ⟨false, false⟩

/-- A lost device is not talked to again. -/
def LeavesAlone (history : LossHistory) : Prop := history.lost = true → history.requested = false

/-! ## A request to a lost device -/

/-- The device of a stream of one transfer is unplugged, and `msisdr_read_async` returns. -/
def unpluggedStream : List UsbLabel :=
  Stream.runningStream ++ [.complete .reader 0 .noDevice] ++
    List.replicate 2 (.callback Stream.succeeds) ++ List.replicate 10 (.reader Stream.succeeds)

theorem unpluggedStream_reaches : ∃ r : Recorded OpenStream LossHistory,
    Reach lossStep LossStarts Always r ∧ r.history = ⟨true, true⟩ ∧
      r.state.stream.reader = .returned (-1) := by
  have moved : (replay lossStep ⟨⟨.initial .bulk 1, true⟩, ⟨false, false⟩⟩
      (unpluggedStream.map .stream)).map (fun r => (r.history, r.state.stream.reader)) =
        some (⟨true, true⟩, .returned (-1)) := by decide
  obtain ⟨r, replayed, shown⟩ := Option.map_eq_some_iff.mp moved
  simp only [Prod.mk.injEq] at shown
  exact ⟨r, Reach.of_replay (.start ⟨⟨⟨.bulk, 1, rfl⟩, rfl⟩, rfl⟩) _ replayed, shown⟩

/-- **A lost device can be talked to.** -/
theorem talks_to_lost_device :
    ¬ ∀ r, Reach lossStep LossStarts Always r → LeavesAlone r.history := by
  intro leavesAlone
  obtain ⟨r, reached, history, -⟩ := unpluggedStream_reaches
  have quiet := leavesAlone r reached
  rw [history] at quiet
  cases quiet rfl

/-! ## Every stream that is lost -/

variable {p p' : OpenStream} {s s' : Stream}

/-- `msisdr_read_async` has passed its test for `INACTIVE` and has still to stop the device. -/
def owes : ReadAsyncPc → Bool
  | .called | .failed | .returned _ => false
  | _ => true

/-- The last thing that `msisdr_read_async` does with the device is to stop it. -/
theorem owes_step {answer : UsbAnswer} (moves : s.readAsyncStep answer = some s')
    (owing : owes s.reader = true) : owes s'.reader = true ∨ readerRequests s.reader = true := by
  cases place : s.reader with
  | free | freeFailed => exact .inr rfl
  | called | failed | returned result =>
      rw [place] at owing
      cases owing
  | _ =>
      simp only [Stream.readAsyncStep, place] at moves
      repeat' split at moves
      all_goals cases moves
      all_goals exact .inl rfl

/-- There are transfers only while `msisdr_read_async` has still to stop the device. -/
def Holds (s : Stream) : Prop := s.allocated = true → owes s.reader = true

theorem Holds.readAsyncStep {answer : UsbAnswer} (holds : Holds s)
    (moves : s.readAsyncStep answer = some s') : Holds s' := by
  intro allocated
  cases place : s.reader with
  | free | freeFailed =>
      simp only [Stream.readAsyncStep, place] at moves
      cases moves
      cases allocated
  | called | failed | returned result =>
      simp only [Holds, place] at holds
      simp only [Stream.readAsyncStep, place] at moves
      repeat' split at moves
      all_goals cases moves
      all_goals cases holds allocated
  | _ =>
      simp only [Stream.readAsyncStep, place] at moves
      repeat' split at moves
      all_goals cases moves
      all_goals rfl

theorem Holds.step {label : UsbLabel} (holds : Holds s) (moves : s.step label = some s') :
    Holds s' := by
  cases label with
  | reader answer => exact holds.readAsyncStep moves
  | complete | callback | call | caller =>
      have reader := (Stream.step_reader moves).resolve_right (by simp)
      have allocated := (Stream.step_allocated moves).resolve_right (by simp)
      rw [Holds, reader, allocated]
      exact holds

/-- What holds in every run: a device that has been reported lost and has not been talked to
since still will be. -/
structure Owing (r : Recorded OpenStream LossHistory) : Prop where
  dh : r.state.dh = true
  holds : Holds r.state.stream
  owing : r.history.lost = true → r.history.requested = true ∨ owes r.state.stream.reader = true

/-- A report comes from a transfer. -/
theorem reportsLoss_allocated {label : OpenLabel} (reports : reportsLoss label = true)
    (moves : step p label = some p') :
    p.stream.allocated = true ∧ p'.stream.reader = p.stream.reader := by
  unfold reportsLoss at reports
  split at reports
  · obtain ⟨next, stepped, rfl⟩ := Option.map_eq_some_iff.mp moves
    refine ⟨?_, (Stream.step_reader stepped).resolve_right (by simp)⟩
    simp only [Stream.step, Stream.complete] at stepped
    split at stepped
    · next enabled => exact enabled.2.2.1
    · cases stepped
  · cases reports

/-- A step leaves the device to be stopped, or issues a request. -/
theorem owes_or_requests {label : OpenLabel} (dh : p.dh = true)
    (owing : owes p.stream.reader = true) (moves : step p label = some p') :
    owes p'.stream.reader = true ∨ requests p label = true := by
  cases label with
  | setter => exact .inr (by simp [requests, dh])
  | stream label =>
      obtain ⟨next, stepped, rfl⟩ := Option.map_eq_some_iff.mp moves
      cases label with
      | reader answer =>
          exact (owes_step stepped owing).imp_right fun stops => by simp [requests, dh, stops]
      | complete | callback | call | caller =>
          left
          rwa [(Stream.step_reader stepped).resolve_right (by simp)]

theorem Owing.step {r r' : Recorded OpenStream LossHistory} {label : OpenLabel} (owing : Owing r)
    (moves : lossStep r label = some r') : Owing r' := by
  obtain ⟨moves, recorded⟩ := recording_eq_some_iff.mp moves
  obtain ⟨dh, holds, owed⟩ := owing
  refine ⟨?_, ?_, fun lost => ?_⟩
  · cases label with
    | setter => rwa [← Option.some.inj moves]
    | stream label =>
        obtain ⟨next, stepped, same⟩ := Option.map_eq_some_iff.mp moves
        rwa [← same]
  · cases label with
    | setter => rwa [← Option.some.inj moves]
    | stream label =>
        obtain ⟨next, stepped, same⟩ := Option.map_eq_some_iff.mp moves
        rw [← same]
        exact holds.step stepped
  · rw [recorded] at lost ⊢
    rcases Bool.or_eq_true_iff.mp lost with before | reports
    · rcases owed before with requested | owing
      · exact .inl (by simp [recordLoss, requested])
      · rcases owes_or_requests dh owing moves with still | requested
        · exact .inr still
        · exact .inl (by simp [recordLoss, before, requested])
    · obtain ⟨allocated, same⟩ := reportsLoss_allocated reports moves
      exact .inr (same ▸ holds allocated)

theorem owing_of_reach {r : Recorded OpenStream LossHistory}
    (reached : Reach lossStep LossStarts Always r) : Owing r := by
  refine reached.invariant ?_ fun r label r' owing _ moves => owing.step moves
  rintro ⟨⟨stream, dh⟩, history⟩ ⟨⟨⟨transfer, num, rfl⟩, rfl⟩, rfl⟩
  exact ⟨rfl, nofun, nofun⟩

/-- **A lost device is left alone only if none is lost**: when `msisdr_read_async` returns after
a report of `NO_DEVICE`, a control request has followed the report. -/
theorem leaves_lost_device_alone_iff {r : Recorded OpenStream LossHistory}
    (reached : Reach lossStep LossStarts Always r) (returned : r.state.stream.reader.done = true) :
    LeavesAlone r.history ↔ r.history.lost = false := by
  constructor
  · intro leavesAlone
    refine eq_false_of_ne_true fun lost => ?_
    rcases (owing_of_reach reached).owing lost with requested | owing
    · simp [leavesAlone lost] at requested
    · revert returned owing
      cases r.state.stream.reader <;> simp [ReadAsyncPc.done, owes]
  · intro present lost
    simp [present] at lost

theorem leaves_lost_device_alone_iff_unpluggedStream :
    ∃ history : LossHistory, (LeavesAlone history ↔ history.lost = false) ∧
      history = ⟨true, true⟩ := by
  obtain ⟨r, reached, history, returned⟩ := unpluggedStream_reaches
  exact ⟨r.history, leaves_lost_device_alone_iff reached (by rw [returned]; rfl), history⟩

/-- **A setter talks to a lost device** whenever it is called. -/
theorem setter_requests {r : Recorded OpenStream LossHistory}
    (reached : Reach lossStep LossStarts Always r) (lost : r.history.lost = true) :
    ∃ r', lossStep r .setter = some r' ∧ ¬ LeavesAlone r'.history := by
  have requested : (recordLoss r.history r.state .setter r.state).requested = true := by
    simp [recordLoss, requests, lost, (owing_of_reach reached).dh]
  refine ⟨⟨r.state, recordLoss r.history r.state .setter r.state⟩, rfl, fun leavesAlone => ?_⟩
  have quiet := leavesAlone (by simp [recordLoss, lost])
  rw [requested] at quiet
  cases quiet

end DeviceLoss

end MsiSdrDriver.Async
