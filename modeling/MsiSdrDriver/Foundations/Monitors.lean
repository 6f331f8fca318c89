import Mathlib.Data.Finset.Insert
import Mathlib.Data.Finset.Erase
import Mathlib.Logic.Function.Basic

/-!
# Monitors with a wait set

A monitor is a lock with a set of threads that wait inside it. A thread that waits gives the lock
up. It leaves the wait set when it is notified, or by itself (a spurious wake-up, or the end of a
timed wait), and then has to take the lock again before its wait returns.

The monitor does not say what the threads do. `Serves` ties it to a map of where each thread is:
who is inside its block owns the lock, and who waits is in the wait set or woken from it. Each
operation of a thread moves that thread alone (`Serves.enter`, `Serves.exit`, `Serves.wait`,
`Serves.reenter`), and waking a thread moves nobody (`Serves.wake`, `Serves.notify`).
-/

set_option autoImplicit false

namespace MsiSdrDriver.Foundations

universe u

/-- The thread that owns the lock, those in the wait set, and those that have left it and want the
lock back. -/
structure Monitor (τ : Type u) where
  owner : Option τ
  waiting : Finset τ
  woken : Finset τ

/-- Where a thread is with respect to a monitor. -/
inductive Place where
  | outside
  | inside
  | waits

namespace Monitor

variable {τ : Type u} {m m' : Monitor τ} {t : τ} {place : τ → Place}

/-- Nobody has used the monitor. -/
def unused : Monitor τ := ⟨none, ∅, ∅⟩

/-- Take the lock. -/
def enter (m : Monitor τ) (t : τ) : Option (Monitor τ) :=
  if m.owner = none then some { m with owner := some t } else none

theorem enter_eq_some :
    m.enter t = some m' ↔ m.owner = none ∧ m' = { m with owner := some t } := by
  simp [enter, eq_comm]

/-- Who is inside owns the lock, and who waits is in the wait set or has been woken. -/
structure Serves (m : Monitor τ) (place : τ → Place) : Prop where
  excludes : ∀ t, place t = .inside → m.owner = some t
  listed : ∀ t, place t = .waits ↔ t ∈ m.waiting ∨ t ∈ m.woken
  apart : ∀ t ∈ m.waiting, t ∉ m.woken

namespace Serves

theorem unused (outside : ∀ t, place t = .outside) : (unused : Monitor τ).Serves place := by
  refine ⟨?_, ?_, ?_⟩
  · intro t inside
    rw [outside t] at inside
    cases inside
  · intro t
    simp [outside t, Monitor.unused]
  · intro t waits
    exact absurd waits (Finset.notMem_empty t)

/-- Nobody is inside while the lock is free. -/
theorem not_inside (serves : m.Serves place) (free : m.owner = none) (t : τ) :
    place t ≠ .inside := by
  intro inside
  have owner := serves.excludes t inside
  rw [free] at owner
  cases owner

/-- **Mutual exclusion.** -/
theorem unique (serves : m.Serves place) {u : τ} (first : place t = .inside)
    (second : place u = .inside) : t = u :=
  Option.some.inj ((serves.excludes t first).symm.trans (serves.excludes u second))

end Serves

variable [DecidableEq τ]

/-- Give the lock up. -/
def exit (m : Monitor τ) (t : τ) : Option (Monitor τ) :=
  if m.owner = some t then some { m with owner := none } else none

/-- Give the lock up and enter the wait set. -/
def wait (m : Monitor τ) (t : τ) : Option (Monitor τ) :=
  if m.owner = some t then some { m with owner := none, waiting := insert t m.waiting } else none

/-- A thread leaves the wait set. -/
def wake (m : Monitor τ) (t : τ) : Option (Monitor τ) :=
  if t ∈ m.waiting then
    some { m with waiting := m.waiting.erase t, woken := insert t m.woken }
  else none

/-- The owner wakes one thread of the wait set, any one, and none only if the set is empty. -/
def notify (m : Monitor τ) (t : τ) (chosen : Option τ) : Option (Monitor τ) :=
  if m.owner = some t then
    match chosen with
    | some u => m.wake u
    | none => if m.waiting = ∅ then some m else none
  else none

/-- A woken thread takes the lock back. -/
def reenter (m : Monitor τ) (t : τ) : Option (Monitor τ) :=
  if m.owner = none ∧ t ∈ m.woken then
    some { m with owner := some t, woken := m.woken.erase t }
  else none

/-! ## What the operations do -/

theorem exit_eq_some :
    m.exit t = some m' ↔ m.owner = some t ∧ m' = { m with owner := none } := by
  simp [exit, eq_comm (a := m')]

theorem wait_eq_some :
    m.wait t = some m' ↔
      m.owner = some t ∧ m' = { m with owner := none, waiting := insert t m.waiting } := by
  simp [wait, eq_comm (a := m')]

theorem wake_eq_some :
    m.wake t = some m' ↔
      t ∈ m.waiting ∧
        m' = { m with waiting := m.waiting.erase t, woken := insert t m.woken } := by
  simp [wake, eq_comm (a := m')]

theorem reenter_eq_some :
    m.reenter t = some m' ↔
      (m.owner = none ∧ t ∈ m.woken) ∧
        m' = { m with owner := some t, woken := m.woken.erase t } := by
  simp [reenter, eq_comm (a := m')]

/-- **What `notify` does**: the thread chosen leaves the wait set, or the set is empty. -/
theorem notify_eq_some {chosen : Option τ} :
    m.notify t chosen = some m' ↔
      m.owner = some t ∧
        ((∃ u, chosen = some u ∧ m.wake u = some m') ∨
          (chosen = none ∧ m.waiting = ∅ ∧ m' = m)) := by
  cases chosen <;> simp [notify, eq_comm (a := m')]

/-- Who waits when a thread is woken is that thread, or goes on waiting. -/
theorem wake_waiting {u : τ} (woke : m.wake u = some m') (waits : t ∈ m.waiting) :
    (t = u ∧ t ∈ m'.woken) ∨ (t ≠ u ∧ t ∈ m'.waiting) := by
  obtain ⟨-, rfl⟩ := wake_eq_some.mp woke
  by_cases same : t = u
  · exact .inl ⟨same, Finset.mem_insert.mpr (.inl same)⟩
  · exact .inr ⟨same, Finset.mem_erase.mpr ⟨same, waits⟩⟩

/-- Of those that wait, `notify` wakes the one it chooses and no other. -/
theorem notify_waiting {u : τ} {chosen : Option τ} (notified : m.notify t chosen = some m')
    (waits : u ∈ m.waiting) :
    (chosen = some u ∧ u ∈ m'.woken) ∨ (chosen ≠ some u ∧ u ∈ m'.waiting) := by
  obtain ⟨-, ⟨w, rfl, woke⟩ | ⟨-, empty, -⟩⟩ := notify_eq_some.mp notified
  · rcases wake_waiting woke waits with ⟨rfl, woken⟩ | ⟨other, still⟩
    · exact .inl ⟨rfl, woken⟩
    · exact .inr ⟨fun same => other (Option.some.inj same).symm, still⟩
  · rw [empty] at waits
    exact absurd waits (Finset.notMem_empty u)

theorem wake_woken {u : τ} (woke : m.wake u = some m') (woken : t ∈ m.woken) : t ∈ m'.woken := by
  obtain ⟨-, rfl⟩ := wake_eq_some.mp woke
  exact Finset.mem_insert_of_mem woken

theorem notify_woken {u : τ} {chosen : Option τ} (notified : m.notify t chosen = some m')
    (woken : u ∈ m.woken) : u ∈ m'.woken := by
  obtain ⟨-, ⟨w, -, woke⟩ | ⟨-, -, rfl⟩⟩ := notify_eq_some.mp notified
  · exact wake_woken woke woken
  · exact woken

/-! ## The operations serve the threads -/

namespace Serves

/-- A thread that stays where it is. -/
theorem stays (serves : m.Serves place) {p : Place} (same : place t = p) :
    m.Serves (Function.update place t p) := by
  rw [← same, Function.update_eq_self]
  exact serves

/-- Nobody is inside once the thread that was has left. -/
theorem left_free (serves : m.Serves place) (inside : place t = .inside) {p : Place}
    (gone : p ≠ .inside) (u : τ) : Function.update place t p u ≠ .inside := by
  intro second
  by_cases same : u = t
  · rw [same, Function.update_self] at second
    exact gone second
  · rw [Function.update_of_ne same] at second
    exact same (serves.unique second inside)

/-- The thread that takes a free lock is the one inside. -/
theorem entered_alone (serves : m.Serves place) (free : m.owner = none) {u : τ}
    (inside : Function.update place t .inside u = .inside) : t = u := by
  by_cases same : u = t
  · exact same.symm
  · rw [Function.update_of_ne same] at inside
    exact absurd inside (serves.not_inside free u)

theorem enter (serves : m.Serves place) (outside : place t = .outside)
    (entered : m.enter t = some m') : m'.Serves (Function.update place t .inside) := by
  obtain ⟨free, rfl⟩ := enter_eq_some.mp entered
  refine ⟨fun u inside => congrArg some (serves.entered_alone free inside), ?_, serves.apart⟩
  intro u
  by_cases same : u = t
  · subst same
    simp [← serves.listed u, outside]
  · rw [Function.update_of_ne same]
    exact serves.listed u

theorem exit (serves : m.Serves place) (inside : place t = .inside)
    (left : m.exit t = some m') : m'.Serves (Function.update place t .outside) := by
  obtain ⟨-, rfl⟩ := exit_eq_some.mp left
  refine ⟨fun u second => absurd second (serves.left_free inside (by simp) u), ?_, serves.apart⟩
  intro u
  by_cases same : u = t
  · subst same
    simp [← serves.listed u, inside]
  · rw [Function.update_of_ne same]
    exact serves.listed u

theorem wait (serves : m.Serves place) (inside : place t = .inside)
    (waited : m.wait t = some m') : m'.Serves (Function.update place t .waits) := by
  obtain ⟨-, rfl⟩ := wait_eq_some.mp waited
  have absent : t ∉ m.woken := by
    intro woken
    have waits := (serves.listed t).mpr (.inr woken)
    rw [inside] at waits
    cases waits
  refine ⟨fun u second => absurd second (serves.left_free inside (by simp) u), ?_, ?_⟩
  · intro u
    by_cases same : u = t
    · subst same
      simp
    · rw [Function.update_of_ne same, serves.listed u]
      simp [same]
  · intro u waits
    rcases Finset.mem_insert.mp waits with rfl | waited
    · exact absent
    · exact serves.apart u waited

theorem wake (serves : m.Serves place) (woke : m.wake t = some m') : m'.Serves place := by
  obtain ⟨waits, rfl⟩ := wake_eq_some.mp woke
  refine ⟨serves.excludes, ?_, ?_⟩
  · intro u
    by_cases same : u = t
    · subst same
      simp [serves.listed u, waits]
    · simp [serves.listed u, same]
  · intro u still woken
    obtain ⟨other, waited⟩ := Finset.mem_erase.mp still
    rcases Finset.mem_insert.mp woken with same | before
    · exact other same
    · exact serves.apart u waited before

theorem notify (serves : m.Serves place) {chosen : Option τ}
    (notified : m.notify t chosen = some m') : m'.Serves place := by
  obtain ⟨-, ⟨u, -, woke⟩ | ⟨-, -, rfl⟩⟩ := notify_eq_some.mp notified
  · exact serves.wake woke
  · exact serves

theorem reenter (serves : m.Serves place) (back : m.reenter t = some m') :
    m'.Serves (Function.update place t .inside) := by
  obtain ⟨⟨free, woken⟩, rfl⟩ := reenter_eq_some.mp back
  refine ⟨fun u inside => congrArg some (serves.entered_alone free inside), ?_, ?_⟩
  · intro u
    by_cases same : u = t
    · subst same
      have gone : u ∉ m.waiting := fun waits => serves.apart u waits woken
      simp [gone]
    · rw [Function.update_of_ne same, serves.listed u]
      simp [same]
  · intro u waits still
    exact serves.apart u waits (Finset.mem_of_mem_erase still)

end Serves

end Monitor

end MsiSdrDriver.Foundations
