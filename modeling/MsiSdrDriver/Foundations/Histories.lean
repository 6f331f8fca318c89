import MsiSdrDriver.Foundations.LabelledRuns

/-!
# History variables

A property of a run that is no property of its last state, such as "since the request was
accepted", is one of the state together with a record of the run so far. `recording` adds such a
record to a step function. The record never decides whether a step is taken, so that a recorded
run is a run (`Reach.forget`) and has its invariants (`Reach.recorded_invariant`).
-/

set_option autoImplicit false

namespace MsiSdrDriver.Foundations

universe u v w

variable {σ : Type u} {α : Type v} {η : Type w}

/-- A state, and what has been recorded of the run that led to it. -/
structure Recorded (σ : Type u) (η : Type w) where
  state : σ
  history : η

/-- A step function that also keeps a record. -/
def recording (step : σ → α → Option σ) (record : η → σ → α → σ → η) :
    Recorded σ η → α → Option (Recorded σ η)
  | ⟨s, past⟩, a => (step s a).map fun s' => ⟨s', record past s a s'⟩

/-- A run starts with the empty record. -/
def unrecorded (init : σ → Prop) (empty : η) (r : Recorded σ η) : Prop :=
  init r.state ∧ r.history = empty

variable {step : σ → α → Option σ} {record : η → σ → α → σ → η} {init : σ → Prop} {empty : η}

theorem recording_eq_some_iff {r r' : Recorded σ η} {a : α} :
    recording step record r a = some r' ↔
      step r.state a = some r'.state ∧ r'.history = record r.history r.state a r'.state := by
  obtain ⟨s, past⟩ := r
  obtain ⟨s', past'⟩ := r'
  simp only [recording, Option.map_eq_some_iff, Recorded.mk.injEq]
  constructor
  · rintro ⟨_, moves, rfl, rfl⟩
    exact ⟨moves, rfl⟩
  · rintro ⟨moves, rfl⟩
    exact ⟨s', moves, rfl, rfl⟩

/-- A recorded run is a run. -/
theorem Reach.forget {ok : Recorded σ η → α → Prop} {r : Recorded σ η}
    (reached : Reach (recording step record) (unrecorded init empty) ok r) :
    Reach step init Always r.state := by
  induction reached with
  | start initial => exact .start initial.1
  | step _ _ moves ih => exact .step ih trivial (recording_eq_some_iff.mp moves).1

/-- An invariant of the runs is one of the recorded runs. -/
theorem Reach.recorded_invariant {I : σ → Prop} (initial : ∀ s, init s → I s)
    (preserved : ∀ s a s', I s → step s a = some s' → I s')
    {ok : Recorded σ η → α → Prop} {r : Recorded σ η}
    (reached : Reach (recording step record) (unrecorded init empty) ok r) : I r.state :=
  reached.forget.invariant initial fun s a s' holds _ moves => preserved s a s' holds moves

end MsiSdrDriver.Foundations
