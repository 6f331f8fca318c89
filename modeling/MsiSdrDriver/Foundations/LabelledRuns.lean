import Mathlib.Data.Nat.Notation
import Mathlib.Logic.Relation

/-!
# Runs of a labelled step function

A concurrent program is a step function on a shared state. A label names the thread that
moves together with what its environment answers it: the result of a system call, the status
of a completed transfer. The step function is partial, and a label that the state does not
enable has no step.

`Reach` is what a run can reach. It carries a guard on steps, so that one definition serves
both the runs of the program (`Always`) and the runs that keep off a named branch. An
invariant is proved once for a step and holds of every state reached (`Reach.invariant`),
and a guard can use an invariant already proved (`Reach.strengthen`).

A list of labels is replayed by `replay`, and `replayWhere` replays it while checking a
decidable guard. Both produce reachable states, which is how one concrete interleaving is
shown to be a run (`Reach.of_replayWhere`). Two rules count the labels of a replay: labels that
use up a measure run out (`replay_count_le`), and a label that is enabled in every state of an
invariant can be repeated for ever (`replay_replicate`).
-/

set_option autoImplicit false

namespace MsiSdrDriver.Foundations

universe u v

variable {σ : Type u} {α : Type v}

/-- Every step is allowed. -/
def Always : σ → α → Prop := fun _ _ => True

instance : DecidableRel (Always : σ → α → Prop) := fun _ _ => isTrue trivial

/-- The states reached from the initial ones by steps that all meet the guard. -/
inductive Reach (step : σ → α → Option σ) (init : σ → Prop) (ok : σ → α → Prop) : σ → Prop where
  | start {s : σ} (initial : init s) : Reach step init ok s
  | step {s s' : σ} {a : α} (reached : Reach step init ok s) (allowed : ok s a)
      (moves : step s a = some s') : Reach step init ok s'

variable {step : σ → α → Option σ} {init : σ → Prop} {ok : σ → α → Prop}

/-- **The invariant rule.** What holds initially and is preserved by every allowed step holds
of every state reached. -/
theorem Reach.invariant {I : σ → Prop} (initial : ∀ s, init s → I s)
    (preserved : ∀ s a s', I s → ok s a → step s a = some s' → I s')
    {s : σ} (reached : Reach step init ok s) : I s := by
  induction reached with
  | start start => exact initial _ start
  | step _ allowed moves ih => exact preserved _ _ _ ih allowed moves

/-- A run goes on from what it has reached. -/
theorem Reach.trans {s₀ s : σ} (first : Reach step init ok s₀)
    (later : Reach step (· = s₀) ok s) : Reach step init ok s := by
  induction later with
  | start here =>
      subst here
      exact first
  | step _ allowed moves ih => exact .step ih allowed moves

/-- A weaker guard and more initial states reach at least as much. -/
theorem Reach.mono {init' : σ → Prop} {ok' : σ → α → Prop} (initial : ∀ s, init s → init' s)
    (weaker : ∀ s a, ok s a → ok' s a) {s : σ} (reached : Reach step init ok s) :
    Reach step init' ok' s := by
  induction reached with
  | start start => exact .start (initial _ start)
  | step _ allowed moves ih => exact .step ih (weaker _ _ allowed) moves

/-- A run whose guard follows from an invariant is a run of the stronger guard. -/
theorem Reach.strengthen {ok' : σ → α → Prop} {I : σ → Prop} (initial : ∀ s, init s → I s)
    (preserved : ∀ s a s', I s → ok s a → step s a = some s' → I s')
    (stronger : ∀ s a s', I s → ok s a → step s a = some s' → ok' s a)
    {s : σ} (reached : Reach step init ok s) : Reach step init ok' s := by
  suffices I s ∧ Reach step init ok' s from this.2
  induction reached with
  | start start => exact ⟨initial _ start, .start start⟩
  | step _ allowed moves ih =>
      exact ⟨preserved _ _ _ ih.1 allowed moves,
        .step ih.2 (stronger _ _ _ ih.1 allowed moves) moves⟩

/-- Replay a list of labels. -/
def replay (step : σ → α → Option σ) : σ → List α → Option σ
  | s, [] => some s
  | s, a :: rest => (step s a).bind fun s' => replay step s' rest

/-- Replay a list of labels as long as each step meets a decidable guard. -/
def replayWhere (step : σ → α → Option σ) (ok : σ → α → Prop) [DecidableRel ok] :
    σ → List α → Option σ
  | s, [] => some s
  | s, a :: rest =>
      if ok s a then (step s a).bind fun s' => replayWhere step ok s' rest else none

theorem Reach.of_replayWhere [DecidableRel ok] {s s' : σ} (reached : Reach step init ok s)
    (labels : List α) (replayed : replayWhere step ok s labels = some s') :
    Reach step init ok s' := by
  induction labels generalizing s with
  | nil =>
      cases replayed
      exact reached
  | cons a rest ih =>
      simp only [replayWhere] at replayed
      split at replayed
      · next allowed =>
          obtain ⟨middle, moves, remaining⟩ := Option.bind_eq_some_iff.mp replayed
          exact ih (.step reached allowed moves) remaining
      · cases replayed

theorem Reach.of_replay {s s' : σ} (reached : Reach step init Always s) (labels : List α)
    (replayed : replay step s labels = some s') : Reach step init Always s' := by
  induction labels generalizing s with
  | nil =>
      cases replayed
      exact reached
  | cons a rest ih =>
      obtain ⟨middle, moves, remaining⟩ := Option.bind_eq_some_iff.mp replayed
      exact ih (.step reached trivial moves) remaining

/-- **The measure rule.** Where the counted labels use up a measure and no label adds to it, a run
has no more counted labels than the measure allows. -/
theorem replay_count_le [DecidableEq α] {I : σ → Prop} (measure : σ → ℕ) (counted : α)
    (preserved : ∀ s a s', I s → step s a = some s' → I s')
    (lower : ∀ s a s', I s → step s a = some s' → measure s' ≤ measure s)
    (drops : ∀ s s', I s → step s counted = some s' → measure s' < measure s)
    {s s' : σ} (holds : I s) (labels : List α) (replayed : replay step s labels = some s') :
    labels.count counted + measure s' ≤ measure s := by
  induction labels generalizing s with
  | nil =>
      cases replayed
      exact Nat.le_of_eq (Nat.zero_add _)
  | cons a rest ih =>
      obtain ⟨middle, moves, remaining⟩ := Option.bind_eq_some_iff.mp replayed
      have later := ih (preserved s a middle holds moves) remaining
      by_cases same : a = counted
      · rw [same] at moves ⊢
        have dropped := drops s middle holds moves
        rw [List.count_cons_self]
        omega
      · have kept := lower s a middle holds moves
        rw [List.count_cons_of_ne same]
        omega

/-- Where every state has a step with a label, the label can be repeated for ever. -/
theorem replay_replicate {I : σ → Prop} {a : α}
    (moves : ∀ s, I s → ∃ s', step s a = some s' ∧ I s') {s : σ} (holds : I s) (n : ℕ) :
    ∃ s', replay step s (List.replicate n a) = some s' ∧ I s' := by
  induction n generalizing s with
  | zero => exact ⟨s, rfl, holds⟩
  | succ n ih =>
      obtain ⟨middle, moved, holds⟩ := moves s holds
      obtain ⟨s', replayed, holds⟩ := ih holds
      refine ⟨s', ?_, holds⟩
      rw [List.replicate_succ, replay, moved]
      exact replayed

end MsiSdrDriver.Foundations
