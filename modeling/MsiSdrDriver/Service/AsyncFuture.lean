import MsiSdrDriver.Foundations.LabelledRuns
import MsiSdrDriver.Foundations.Monitors

/-!
# The future that a permission dialog completes

`AsyncFuture` hands a result from the thread that calls `setDone` to the threads that call `get`,
under one monitor. `get` waits whenever it is called: it does not look at `ready`, before or after.
`setDone` notifies once, and `notify` wakes one thread.

So the result reaches a `get` only when three things hold: it has begun to wait before `setDone`
takes the monitor, it is not woken and back in the monitor before then, and it is the thread that
`notify` chooses. In every run that keeps to them, nothing is lost (`Handoff.result_kept`), and
each of the other steps loses the result (`Handoff.lost_otherwise`). A `get` that comes late waits
for ever, but for a spurious wake-up (`Handoff.stays_blocked`). `UsbPermissionObtainer` returns the
future after it has asked for the permission, so how soon the user answers decides.
-/

set_option autoImplicit false

namespace MsiSdrDriver.Service

open MsiSdrDriver.Foundations

universe u

/-! ## The future -/

/-- The threads that use a future: the one that calls `setDone`, and any number of others. -/
inductive Caller where
  | setter
  | getter (t : ℕ)
  deriving DecidableEq

/-- The fields of `AsyncFuture`. `none` stands for a `null` object. -/
structure AsyncFuture (V : Type u) where
  locker : Monitor Caller
  object : Option V
  ready : Bool

/-- The calls of the other threads, `getTimeout` with the milliseconds of its timeout. -/
inductive Call where
  | isDone
  | get
  | getTimeout (millis : ℤ)
  deriving DecidableEq

/-- Where a thread is in a call, or what its last call has come to. `late` is history: the call
began after `setDone` had returned. -/
inductive GetPc (V : Type u) where
  | idle
  | entering (call : Call) (late : Bool)
  | inside (call : Call) (late : Bool)
  | waits (call : Call) (late : Bool)
  | reading (call : Call)
  | returned (call : Call) (object : Option V)
  | answered (ready : Bool)
  | illegalArgumentException
  deriving DecidableEq

/-- Where `setDone` is: at its `synchronized`, at one of its four statements, or at the end of the
block. -/
inductive SetPc where
  | entering
  | checking
  | storing
  | readying
  | notifying
  | leaving
  | returned
  | runtimeException
  deriving DecidableEq

variable {V : Type u}

/-- One step of `setDone(object)`. `chosen` is the thread that `notify` wakes. -/
def setDoneStep (f : AsyncFuture V) (object : Option V) (chosen : Option Caller) :
    SetPc → Option (AsyncFuture V × SetPc)
  | .entering =>
      (f.locker.enter .setter).map fun locker => ({ f with locker := locker }, .checking)
  | .checking =>
      if f.ready then
        (f.locker.exit .setter).map fun locker =>
          ({ f with locker := locker }, .runtimeException)
      else some (f, .storing)
  | .storing => some ({ f with object := object }, .readying)
  | .readying => some ({ f with ready := true }, .notifying)
  | .notifying =>
      (f.locker.notify .setter chosen).map fun locker => ({ f with locker := locker }, .leaving)
  | .leaving =>
      (f.locker.exit .setter).map fun locker => ({ f with locker := locker }, .returned)
  | .returned | .runtimeException => none

/-- One step of a call of `isDone`, `get` or `get(timeout)` on thread `t`. `Object.wait` refuses a
negative timeout. -/
def getStep (f : AsyncFuture V) (t : ℕ) : GetPc V → Option (AsyncFuture V × GetPc V)
  | .entering call late =>
      (f.locker.enter (.getter t)).map fun locker =>
        ({ f with locker := locker }, .inside call late)
  | .inside .isDone _ =>
      (f.locker.exit (.getter t)).map fun locker =>
        ({ f with locker := locker }, .answered f.ready)
  | .inside .get late =>
      (f.locker.wait (.getter t)).map fun locker =>
        ({ f with locker := locker }, .waits .get late)
  | .inside (.getTimeout millis) late =>
      if millis < 0 then
        (f.locker.exit (.getter t)).map fun locker =>
          ({ f with locker := locker }, .illegalArgumentException)
      else
        (f.locker.wait (.getter t)).map fun locker =>
          ({ f with locker := locker }, .waits (.getTimeout millis) late)
  | .waits call _ =>
      (f.locker.reenter (.getter t)).map fun locker =>
        ({ f with locker := locker }, .reading call)
  | .reading call =>
      (f.locker.exit (.getter t)).map fun locker =>
        ({ f with locker := locker }, .returned call f.object)
  | .idle | .returned _ _ | .answered _ | .illegalArgumentException => none

namespace SetPc

def place : SetPc → Place
  | .entering | .returned | .runtimeException => .outside
  | .checking | .storing | .readying | .notifying | .leaving => .inside

/-- `object` has been stored. -/
def stored : SetPc → Bool
  | .readying | .notifying | .leaving | .returned => true
  | .entering | .checking | .storing | .runtimeException => false

/-- `ready` has been set. -/
def published : SetPc → Bool
  | .notifying | .leaving | .returned => true
  | .entering | .checking | .storing | .readying | .runtimeException => false

/-- `notify` has been called. -/
def notified : SetPc → Bool
  | .leaving | .returned => true
  | .entering | .checking | .storing | .readying | .notifying | .runtimeException => false

end SetPc

namespace GetPc

def place : GetPc V → Place
  | .inside _ _ | .reading _ => .inside
  | .waits _ _ => .waits
  | .idle | .entering _ _ | .returned _ _ | .answered _ | .illegalArgumentException => .outside

/-- No call is in progress. -/
def free : GetPc V → Bool
  | .idle | .returned _ _ | .answered _ | .illegalArgumentException => true
  | .entering _ _ | .inside _ _ | .waits _ _ | .reading _ => false

/-- A call that began after `setDone` and has not had its wait. -/
def late : GetPc V → Bool
  | .entering _ late | .inside _ late | .waits _ late => late
  | .idle | .reading _ | .returned _ _ | .answered _ | .illegalArgumentException => false

/-- In the wait of a `get` without a timeout. -/
def inGet : GetPc V → Bool
  | .waits .get _ => true
  | _ => false

/-- A `get` begins to wait only before the result is there, and goes on only after. -/
def inTime (ready : Bool) : GetPc V → Bool
  | .inside .get _ => !ready
  | .waits .get _ => ready
  | _ => true

/-- A call of `get` is safe when it waits early, is woken once `setDone` has notified, and reads
after `setDone` has returned. -/
def Safe (object : Option V) (setter : SetPc) (isWoken : Prop) : GetPc V → Prop
  | .waits .get late => late = false ∧ (setter.notified = true → isWoken)
  | .reading .get => setter = .returned
  | .returned .get result => setter = .returned ∧ result = object
  | _ => True

variable {object : Option V} {setter setter' : SetPc} {isWoken isWoken' : Prop} {pc : GetPc V}

theorem Safe.woken (safe : pc.Safe object setter isWoken) (inGet : pc.inGet = true)
    (notified : setter.notified = true) : isWoken := by
  cases pc with
  | waits call late =>
      cases call with
      | get => exact safe.2 notified
      | isDone | getTimeout millis => cases inGet
  | _ => cases inGet

/-- `setDone` goes on, and whoever is then notified of it is woken. -/
theorem Safe.setter_moves (safe : pc.Safe object setter isWoken) (going : setter ≠ .returned)
    (reaches : pc.inGet = true → setter'.notified = true → isWoken') :
    pc.Safe object setter' isWoken' := by
  cases pc with
  | waits call late =>
      cases call with
      | get => exact ⟨safe.1, reaches rfl⟩
      | isDone | getTimeout millis => trivial
  | reading call =>
      cases call with
      | get => exact absurd safe going
      | isDone | getTimeout millis => trivial
  | returned call result =>
      cases call with
      | get => exact absurd safe.1 going
      | isDone | getTimeout millis => trivial
  | _ => trivial

/-- A thread that was woken has been woken. -/
theorem Safe.mono (safe : pc.Safe object setter isWoken) (more : isWoken → isWoken') :
    pc.Safe object setter isWoken' := by
  cases pc with
  | waits call late =>
      cases call with
      | get => exact ⟨safe.1, fun notified => more (safe.2 notified)⟩
      | isDone | getTimeout millis => trivial
  | reading call | returned call result => cases call <;> exact safe
  | _ => trivial

end GetPc

/-! ## The threads -/

/-- A future, where `setDone` is, and where the other threads are. -/
structure Handoff (V : Type u) where
  future : AsyncFuture V
  setter : SetPc
  getters : ℕ → GetPc V

/-- The labels of steps: `setDone` goes on, a thread makes a call, its call goes on, and a thread
that waits wakes up by itself, spuriously or at the end of its timeout. Nobody interrupts a
thread. -/
inductive Action where
  | setDone (chosen : Option Caller)
  | call (t : ℕ) (call : Call)
  | get (t : ℕ)
  | wake (t : ℕ)

namespace Handoff

/-- A new future, on which nobody has called anything. -/
def created : Handoff V := ⟨⟨.unused, none, false⟩, .entering, fun _ => .idle⟩

def Starts (s : Handoff V) : Prop := s = created

def withSetter (s : Handoff V) (future : AsyncFuture V) (pc : SetPc) : Handoff V :=
  { s with future := future, setter := pc }

def withGetter (s : Handoff V) (t : ℕ) (future : AsyncFuture V) (pc : GetPc V) : Handoff V :=
  { s with future := future, getters := Function.update s.getters t pc }

@[simp] theorem withGetter_self (s : Handoff V) (t : ℕ) (future : AsyncFuture V) (pc : GetPc V) :
    (s.withGetter t future pc).getters t = pc := by
  simp [withGetter]

theorem withGetter_of_ne (s : Handoff V) {t u : ℕ} (other : u ≠ t) (future : AsyncFuture V)
    (pc : GetPc V) : (s.withGetter t future pc).getters u = s.getters u := by
  simp [withGetter, other]

/-- One step, for a `setDone(object)`. -/
def step (object : Option V) (s : Handoff V) : Action → Option (Handoff V)
  | .setDone chosen =>
      (setDoneStep s.future object chosen s.setter).map fun moved =>
        s.withSetter moved.1 moved.2
  | .call t call =>
      if (s.getters t).free then
        some (s.withGetter t s.future (.entering call (s.setter = .returned)))
      else none
  | .get t =>
      (getStep s.future t (s.getters t)).map fun moved => s.withGetter t moved.1 moved.2
  | .wake t =>
      (s.future.locker.wake (.getter t)).map fun locker =>
        { s with future := { s.future with locker := locker } }

/-- **The future loses nothing**: `get` has returned only the result and only after `setDone`, no
`get` that came after `setDone` waits, and once the result is there whoever is in the wait of a
`get` will be notified or has been woken. -/
structure Kept (object : Option V) (s : Handoff V) : Prop where
  onlyResult : ∀ t result, s.getters t = .returned .get result →
    s.setter = .returned ∧ result = object
  lateNeverWaits : ∀ t, s.getters t ≠ .waits .get true
  noneStranded : s.future.ready = true → ∀ t, (s.getters t).inGet = true →
    s.setter = .notifying ∨ Caller.getter t ∈ s.future.locker.woken

def inGet (s : Handoff V) : Caller → Bool
  | .setter => false
  | .getter t => (s.getters t).inGet

/-- A `get` begins to wait only before the result is there and goes on only after, and when
`setDone` notifies, nobody but the thread chosen waits in a `get`. -/
def InTime (s : Handoff V) : Action → Prop
  | .setDone chosen =>
      s.setter = .notifying → ∀ caller ∈ s.future.locker.waiting, s.inGet caller = true →
        chosen = some caller
  | .get t => (s.getters t).inTime s.future.ready = true
  | .call _ _ | .wake _ => True

instance : DecidableRel (InTime : Handoff V → Action → Prop) := fun s action =>
  match action with
  | .setDone chosen =>
      inferInstanceAs (Decidable (s.setter = .notifying → ∀ caller ∈ s.future.locker.waiting,
        s.inGet caller = true → chosen = some caller))
  | .get t => inferInstanceAs (Decidable ((s.getters t).inTime s.future.ready = true))
  | .call _ _ | .wake _ => inferInstanceAs (Decidable True)

/-! ## A result that is lost -/

/-- The user answers before the activity asks for the result. -/
def answeredFirst : List Action :=
  [.setDone none, .setDone none, .setDone none, .setDone none, .setDone none, .setDone none,
    .call 0 .get, .get 0, .get 0]

/-- **The future loses a result.** It is ready and `setDone` has returned, nobody is woken, and a
`get` that came after waits. -/
theorem get_after_setDone_waits :
    ¬ ∀ (object : Option ℕ) (s : Handoff ℕ), Reach (step object) Starts Always s →
      s.Kept object := by
  intro kept
  have moved : (replay (step (some 7)) created answeredFirst).map
      (fun s : Handoff ℕ => (s.future.ready, s.setter, s.future.locker.woken, s.getters 0)) =
        some (true, .returned, ∅, .waits .get true) := by decide
  obtain ⟨s, replayed, shown⟩ := Option.map_eq_some_iff.mp moved
  have reached : Reach (step (some 7)) Starts Always s := Reach.of_replay (.start rfl) _ replayed
  simp only [Prod.mk.injEq] at shown
  exact (kept (some 7) s reached).lateNeverWaits 0 shown.2.2.2

/-! ## What a step does -/

variable {object : Option V} {s s' : Handoff V}

/-- **What one step of a call can do**: take the monitor, leave it without a wait, enter the wait
set, take the monitor back from it, or return the object. -/
theorem getStep_cases {f f' : AsyncFuture V} {t : ℕ} {pc pc' : GetPc V}
    (moves : getStep f t pc = some (f', pc')) :
    ∃ locker, f' = { f with locker := locker } ∧
      ((∃ call late, pc = .entering call late ∧ f.locker.enter (.getter t) = some locker ∧
          pc' = .inside call late) ∨
        (∃ call late, pc = .inside call late ∧ call ≠ .get ∧
          f.locker.exit (.getter t) = some locker ∧
          ((∃ ready, pc' = .answered ready) ∨ pc' = .illegalArgumentException)) ∨
        (∃ call late, pc = .inside call late ∧ f.locker.wait (.getter t) = some locker ∧
          pc' = .waits call late) ∨
        (∃ call late, pc = .waits call late ∧ f.locker.reenter (.getter t) = some locker ∧
          pc' = .reading call) ∨
        ∃ call, pc = .reading call ∧ f.locker.exit (.getter t) = some locker ∧
          pc' = .returned call f.object) := by
  cases pc with
  | idle | returned call object | answered ready | illegalArgumentException => cases moves
  | entering call late =>
      obtain ⟨locker, entered, same⟩ := Option.map_eq_some_iff.mp moves
      cases same
      exact ⟨locker, rfl, .inl ⟨call, late, rfl, entered, rfl⟩⟩
  | waits call late =>
      obtain ⟨locker, back, same⟩ := Option.map_eq_some_iff.mp moves
      cases same
      exact ⟨locker, rfl, .inr (.inr (.inr (.inl ⟨call, late, rfl, back, rfl⟩)))⟩
  | reading call =>
      obtain ⟨locker, left, same⟩ := Option.map_eq_some_iff.mp moves
      cases same
      exact ⟨locker, rfl, .inr (.inr (.inr (.inr ⟨call, rfl, left, rfl⟩)))⟩
  | inside call late =>
      cases call with
      | isDone =>
          obtain ⟨locker, left, same⟩ := Option.map_eq_some_iff.mp moves
          cases same
          exact ⟨locker, rfl, .inr (.inl ⟨.isDone, late, rfl, by simp, left, .inl ⟨_, rfl⟩⟩)⟩
      | get =>
          obtain ⟨locker, waited, same⟩ := Option.map_eq_some_iff.mp moves
          cases same
          exact ⟨locker, rfl, .inr (.inr (.inl ⟨.get, late, rfl, waited, rfl⟩))⟩
      | getTimeout millis =>
          simp only [getStep] at moves
          split at moves
          · obtain ⟨locker, left, same⟩ := Option.map_eq_some_iff.mp moves
            cases same
            exact ⟨locker, rfl, .inr (.inl ⟨.getTimeout millis, late, rfl, by simp, left,
              .inr rfl⟩)⟩
          · obtain ⟨locker, waited, same⟩ := Option.map_eq_some_iff.mp moves
            cases same
            exact ⟨locker, rfl, .inr (.inr (.inl ⟨.getTimeout millis, late, rfl, waited, rfl⟩))⟩

/-- Where each thread is with respect to the monitor. -/
def place (s : Handoff V) : Caller → Place
  | .setter => s.setter.place
  | .getter t => (s.getters t).place

theorem place_setter {pc : SetPc} (here : s.setter = pc) : s.place .setter = pc.place :=
  congrArg SetPc.place here

theorem place_getter {t : ℕ} {pc : GetPc V} (here : s.getters t = pc) :
    s.place (.getter t) = pc.place :=
  congrArg GetPc.place here

theorem place_withSetter (future : AsyncFuture V) (pc : SetPc) :
    (s.withSetter future pc).place = Function.update s.place .setter pc.place := by
  funext caller
  cases caller with
  | setter => simp [place, withSetter]
  | getter t => simp [place, withSetter]

theorem place_withGetter (t : ℕ) (future : AsyncFuture V) (pc : GetPc V) :
    (s.withGetter t future pc).place = Function.update s.place (.getter t) pc.place := by
  funext caller
  cases caller with
  | setter => simp [place, withGetter]
  | getter u =>
      by_cases same : u = t
      · subst same
        simp [place, withGetter]
      · simp [place, withGetter, same]

/-- The monitor serves the threads, the fields tell how far `setDone` has come, and a late call is
one that came after it. -/
structure Consistent (object : Option V) (s : Handoff V) : Prop where
  serves : s.future.locker.Serves s.place
  ready : s.future.ready = s.setter.published
  stored : s.setter.stored = true → s.future.object = object
  late : ∀ t, (s.getters t).late = true → s.setter = .returned

/-- `setDone` moves on, and its fields are as far as it is. -/
theorem Consistent.withSetter (consistent : s.Consistent object) (going : s.setter ≠ .returned)
    {future : AsyncFuture V} {pc : SetPc}
    (serves : future.locker.Serves (Function.update s.place .setter pc.place))
    (ready : future.ready = pc.published)
    (stored : pc.stored = true → future.object = object) :
    (s.withSetter future pc).Consistent object := by
  refine ⟨?_, ready, stored, fun t late => absurd (consistent.late t late) going⟩
  rw [place_withSetter]
  exact serves

theorem Consistent.setter (consistent : s.Consistent object) {chosen : Option Caller}
    {f' : AsyncFuture V} {pc' : SetPc}
    (moves : setDoneStep s.future object chosen s.setter = some (f', pc')) :
    (s.withSetter f' pc').Consistent object := by
  have ready := consistent.ready
  have stored := consistent.stored
  have next := @consistent.withSetter
  cases here : s.setter with
  | returned | runtimeException =>
      rw [here] at moves
      cases moves
  | entering =>
      have place := place_setter here
      rw [here] at moves ready next
      obtain ⟨locker, entered, same⟩ := Option.map_eq_some_iff.mp moves
      cases same
      exact next (by simp) (consistent.serves.enter place entered) ready (by simp [SetPc.stored])
  | checking =>
      have place := place_setter here
      rw [here] at moves ready next
      have unready : s.future.ready = false := ready
      simp only [setDoneStep, unready, Bool.false_eq_true, if_false] at moves
      cases moves
      exact next (by simp) (consistent.serves.stays place) ready (by simp [SetPc.stored])
  | storing =>
      have place := place_setter here
      rw [here] at moves ready next
      cases moves
      exact next (by simp) (consistent.serves.stays place) ready fun _ => rfl
  | readying =>
      have place := place_setter here
      rw [here] at moves stored next
      cases moves
      exact next (by simp) (consistent.serves.stays place) rfl stored
  | notifying =>
      have place := place_setter here
      rw [here] at moves ready stored next
      obtain ⟨locker, notified, same⟩ := Option.map_eq_some_iff.mp moves
      cases same
      exact next (by simp) ((consistent.serves.notify notified).stays place) ready stored
  | leaving =>
      have place := place_setter here
      rw [here] at moves ready stored next
      obtain ⟨locker, left, same⟩ := Option.map_eq_some_iff.mp moves
      cases same
      exact next (by simp) (consistent.serves.exit place left) ready stored

/-- A thread moves in its call, and is not late unless it was. -/
theorem Consistent.withGetter (consistent : s.Consistent object) {t : ℕ}
    {locker : Monitor Caller} {pc : GetPc V}
    (serves : locker.Serves (Function.update s.place (.getter t) pc.place))
    (late : pc.late = true → s.setter = .returned) :
    (s.withGetter t { s.future with locker := locker } pc).Consistent object := by
  refine ⟨?_, consistent.ready, consistent.stored, ?_⟩
  · rw [place_withGetter]
    exact serves
  · intro u
    by_cases same : u = t
    · subst same
      rw [withGetter_self]
      exact late
    · rw [withGetter_of_ne s same]
      exact consistent.late u

theorem Consistent.getter (consistent : s.Consistent object) {t : ℕ} {f' : AsyncFuture V}
    {pc' : GetPc V} (moves : getStep s.future t (s.getters t) = some (f', pc')) :
    (s.withGetter t f' pc').Consistent object := by
  have late := consistent.late t
  obtain ⟨locker, rfl, ⟨call, came, here, entered, rfl⟩ | ⟨call, came, here, -, left, finished⟩ |
    ⟨call, came, here, waited, rfl⟩ | ⟨call, came, here, back, rfl⟩ | ⟨call, here, left, rfl⟩⟩ :=
    getStep_cases moves <;> rw [here] at late
  · exact consistent.withGetter (consistent.serves.enter (place_getter here) entered) late
  · rcases finished with ⟨ready, rfl⟩ | rfl
    · exact consistent.withGetter (consistent.serves.exit (place_getter here) left)
        (by simp [GetPc.late])
    · exact consistent.withGetter (consistent.serves.exit (place_getter here) left)
        (by simp [GetPc.late])
  · exact consistent.withGetter (consistent.serves.wait (place_getter here) waited) late
  · exact consistent.withGetter (consistent.serves.reenter back) (by simp [GetPc.late])
  · exact consistent.withGetter (consistent.serves.exit (place_getter here) left)
      (by simp [GetPc.late])

theorem Consistent.step {action : Action} (consistent : s.Consistent object)
    (moves : s.step object action = some s') : s'.Consistent object := by
  cases action with
  | setDone chosen =>
      obtain ⟨moved, stepped, rfl⟩ := Option.map_eq_some_iff.mp moves
      exact consistent.setter stepped
  | call t call =>
      simp only [Handoff.step] at moves
      split at moves
      · next free =>
          cases moves
          have outside : s.place (.getter t) = .outside := by
            show (s.getters t).place = .outside
            cases here : s.getters t <;> simp_all [GetPc.free, GetPc.place]
          exact consistent.withGetter (consistent.serves.stays outside) of_decide_eq_true
      · cases moves
  | get t =>
      obtain ⟨moved, stepped, rfl⟩ := Option.map_eq_some_iff.mp moves
      exact consistent.getter stepped
  | wake t =>
      obtain ⟨locker, woke, rfl⟩ := Option.map_eq_some_iff.mp moves
      exact ⟨consistent.serves.wake woke, consistent.ready, consistent.stored, consistent.late⟩

theorem created_consistent : (created : Handoff V).Consistent object := by
  refine ⟨.unused ?_, rfl, by simp [created, SetPc.stored], by simp [created, GetPc.late]⟩
  intro caller
  cases caller <;> rfl

theorem consistent_of_reach {ok : Handoff V → Action → Prop}
    (reached : Reach (step object) Starts ok s) : s.Consistent object := by
  refine reached.invariant ?_ fun s action s' consistent _ moves => consistent.step moves
  rintro s rfl
  exact created_consistent

/-! ## The runs that lose nothing -/

/-- Every call of `get` is safe. -/
def Safe (object : Option V) (s : Handoff V) : Prop :=
  ∀ t, (s.getters t).Safe object s.setter (.getter t ∈ s.future.locker.woken)

theorem Safe.kept (safe : s.Safe object) (consistent : s.Consistent object) :
    s.Kept object := by
  refine ⟨?_, ?_, ?_⟩
  · intro t result returned
    have call := safe t
    rw [returned] at call
    exact call
  · intro t waits
    have call := safe t
    rw [waits] at call
    exact Bool.noConfusion call.1
  · intro ready t inGet
    rw [consistent.ready] at ready
    by_cases pending : s.setter = .notifying
    · exact .inl pending
    · right
      apply (safe t).woken inGet
      cases here : s.setter <;> simp_all [SetPc.published, SetPc.notified]

/-- Whoever is in the wait of a `get` is in the wait set or has been woken. -/
theorem Consistent.listed (consistent : s.Consistent object) {t : ℕ}
    (inGet : (s.getters t).inGet = true) :
    .getter t ∈ s.future.locker.waiting ∨ .getter t ∈ s.future.locker.woken := by
  apply (consistent.serves.listed (.getter t)).mp
  cases here : s.getters t with
  | waits call late => exact place_getter here
  | _ =>
      rw [here] at inGet
      cases inGet

theorem Safe.setter (safe : s.Safe object) (consistent : s.Consistent object)
    {chosen : Option Caller} {f' : AsyncFuture V} {pc' : SetPc}
    (inTime : s.InTime (.setDone chosen))
    (moves : setDoneStep s.future object chosen s.setter = some (f', pc')) :
    (s.withSetter f' pc').Safe object := by
  have going : s.setter ≠ .returned := by
    intro finished
    rw [finished] at moves
    cases moves
  intro t
  refine (safe t).setter_moves going fun inGet notified => ?_
  show Caller.getter t ∈ f'.locker.woken
  have woken := (safe t).woken inGet
  cases here : s.setter with
  | returned => exact absurd here going
  | runtimeException =>
      rw [here] at moves
      cases moves
  | entering =>
      rw [here] at moves
      obtain ⟨locker, -, same⟩ := Option.map_eq_some_iff.mp moves
      cases same
      cases notified
  | checking =>
      rw [here] at moves
      simp only [setDoneStep] at moves
      split at moves
      · obtain ⟨locker, -, same⟩ := Option.map_eq_some_iff.mp moves
        cases same
        cases notified
      · cases moves
        cases notified
  | storing | readying =>
      rw [here] at moves
      cases moves
      cases notified
  | notifying =>
      -- the one thread that `notify` wakes is this one, if it is in the wait set
      rw [here] at moves
      obtain ⟨locker, notifies, same⟩ := Option.map_eq_some_iff.mp moves
      cases same
      rcases consistent.listed inGet with waits | before
      · rcases Monitor.notify_waiting notifies waits with ⟨-, woken⟩ | ⟨other, -⟩
        · exact woken
        · exact absurd (inTime here _ waits inGet) other
      · exact Monitor.notify_woken notifies before
  | leaving =>
      rw [here] at moves woken
      obtain ⟨locker, left, same⟩ := Option.map_eq_some_iff.mp moves
      cases same
      obtain ⟨-, rfl⟩ := Monitor.exit_eq_some.mp left
      exact woken rfl

/-- A thread moves in its call, and the others that were woken still are. -/
theorem Safe.withGetter (safe : s.Safe object) {t : ℕ} {locker : Monitor Caller} {pc : GetPc V}
    (own : pc.Safe object s.setter (.getter t ∈ locker.woken))
    (others : ∀ u ≠ t, Caller.getter u ∈ s.future.locker.woken → .getter u ∈ locker.woken) :
    (s.withGetter t { s.future with locker := locker } pc).Safe object := by
  intro u
  by_cases same : u = t
  · subst same
    rw [withGetter_self]
    exact own
  · rw [withGetter_of_ne s same]
    exact (safe u).mono (others u same)

/-- A `get` that begins to wait in time is early, and will be notified. -/
theorem Consistent.waits_early (consistent : s.Consistent object) {t : ℕ} {late : Bool}
    (here : s.getters t = .inside .get late) (unready : s.future.ready = false) {isWoken : Prop} :
    (GetPc.waits .get late : GetPc V).Safe object s.setter isWoken := by
  rw [consistent.ready] at unready
  have early := consistent.late t
  rw [here] at early
  refine ⟨?_, ?_⟩
  · cases late with
    | false => rfl
    | true =>
        rw [early rfl] at unready
        cases unready
  · intro notified
    cases setter : s.setter <;> simp_all [SetPc.published, SetPc.notified]

/-- `setDone` has returned when the lock is free and the result is there. -/
theorem Consistent.returned_of_free (consistent : s.Consistent object)
    (free : s.future.locker.owner = none) (ready : s.future.ready = true) :
    s.setter = .returned := by
  rw [consistent.ready] at ready
  have outside : s.setter.place ≠ .inside := consistent.serves.not_inside free .setter
  cases here : s.setter with
  | returned => rfl
  | _ =>
      rw [here] at ready outside
      first
        | exact absurd rfl outside
        | cases ready

theorem Safe.getter (safe : s.Safe object) (consistent : s.Consistent object) {t : ℕ}
    {f' : AsyncFuture V} {pc' : GetPc V} (inTime : s.InTime (.get t))
    (moves : getStep s.future t (s.getters t) = some (f', pc')) :
    (s.withGetter t f' pc').Safe object := by
  have own := safe t
  replace inTime : (s.getters t).inTime s.future.ready = true := inTime
  obtain ⟨locker, rfl, ⟨call, late, here, entered, rfl⟩ | ⟨call, late, here, -, left, finished⟩ |
    ⟨call, late, here, waited, rfl⟩ | ⟨call, late, here, back, rfl⟩ | ⟨call, here, left, rfl⟩⟩ :=
    getStep_cases moves <;> rw [here] at own inTime
  · obtain ⟨-, rfl⟩ := Monitor.enter_eq_some.mp entered
    exact safe.withGetter trivial fun _ _ => id
  · obtain ⟨-, rfl⟩ := Monitor.exit_eq_some.mp left
    rcases finished with ⟨ready, rfl⟩ | rfl
    · exact safe.withGetter trivial fun _ _ => id
    · exact safe.withGetter trivial fun _ _ => id
  · obtain ⟨-, rfl⟩ := Monitor.wait_eq_some.mp waited
    refine safe.withGetter ?_ fun _ _ => id
    cases call with
    | get => exact consistent.waits_early here (by simpa [GetPc.inTime] using inTime)
    | isDone | getTimeout millis => trivial
  · obtain ⟨⟨free, -⟩, rfl⟩ := Monitor.reenter_eq_some.mp back
    refine safe.withGetter ?_ ?_
    · cases call with
      | get => exact consistent.returned_of_free free inTime
      | isDone | getTimeout millis => trivial
    · intro u other woken
      exact Finset.mem_erase.mpr ⟨fun same => other (Caller.getter.inj same), woken⟩
  · obtain ⟨-, rfl⟩ := Monitor.exit_eq_some.mp left
    refine safe.withGetter ?_ fun _ _ => id
    cases call with
    | get =>
        have finished : s.setter = .returned := own
        exact ⟨finished, consistent.stored (by rw [finished]; rfl)⟩
    | isDone | getTimeout millis => trivial

theorem Safe.step {action : Action} (safe : s.Safe object) (consistent : s.Consistent object)
    (inTime : s.InTime action) (moves : s.step object action = some s') : s'.Safe object := by
  cases action with
  | setDone chosen =>
      obtain ⟨moved, stepped, rfl⟩ := Option.map_eq_some_iff.mp moves
      exact safe.setter consistent inTime stepped
  | call t call =>
      simp only [Handoff.step] at moves
      split at moves
      · cases moves
        exact safe.withGetter trivial fun _ _ => id
      · cases moves
  | get t =>
      obtain ⟨moved, stepped, rfl⟩ := Option.map_eq_some_iff.mp moves
      exact safe.getter consistent inTime stepped
  | wake t =>
      obtain ⟨locker, woke, rfl⟩ := Option.map_eq_some_iff.mp moves
      exact fun u => (safe u).mono (Monitor.wake_woken woke)

/-- **The future loses nothing** in any run in which every `get` begins to wait before the result is
there, goes on only after, and is the one that `setDone` notifies. -/
theorem result_kept (reached : Reach (step object) Starts InTime s) : s.Kept object := by
  suffices s.Consistent object ∧ s.Safe object from this.2.kept this.1
  induction reached with
  | start initial =>
      cases initial
      exact ⟨created_consistent, fun t => trivial⟩
  | step _ inTime moves ih => exact ⟨ih.1.step moves, ih.2.step ih.1 inTime moves⟩

/-- A `get` waits and so does a timed one. The result comes, and both return it. -/
def answeredLater : List Action :=
  [.call 0 .get, .call 1 (.getTimeout 500), .get 0, .get 0, .get 1, .get 1,
    .setDone none, .setDone none, .setDone none, .setDone none, .setDone (some (.getter 0)),
    .setDone none, .get 0, .get 0, .wake 1, .get 1, .get 1]

theorem result_kept_answered :
    ∃ s : Handoff ℕ, s.getters 0 = .returned .get (some 7) ∧
      s.getters 1 = .returned (.getTimeout 500) (some 7) ∧ s.Kept (some 7) := by
  have moved : (replayWhere (step (some 7)) InTime created answeredLater).map
      (fun s : Handoff ℕ => (s.getters 0, s.getters 1)) =
        some (.returned .get (some 7), .returned (.getTimeout 500) (some 7)) := by decide
  obtain ⟨s, replayed, shown⟩ := Option.map_eq_some_iff.mp moved
  simp only [Prod.mk.injEq] at shown
  exact ⟨s, shown.1, shown.2, result_kept (Reach.of_replayWhere (.start rfl) _ replayed)⟩

/-! ## The other steps lose the result -/

/-- A `get` that begins to wait when the result is there is stranded. -/
theorem Consistent.waits_stranded (consistent : s.Consistent object) {t : ℕ} {late : Bool}
    (here : s.getters t = .inside .get late) (ready : s.future.ready = true)
    (moves : s.step object (.get t) = some s') : ¬ s'.Kept object := by
  intro kept
  have next := consistent.step moves
  obtain ⟨moved, stepped, rfl⟩ := Option.map_eq_some_iff.mp moves
  rw [here] at stepped
  obtain ⟨locker, waited, rfl⟩ := Option.map_eq_some_iff.mp stepped
  obtain ⟨owner, rfl⟩ := Monitor.wait_eq_some.mp waited
  rcases kept.noneStranded ready t (by rw [withGetter_self]; rfl) with notifying | woken
  · -- `setDone` is inside at its `notify`, and so is the `get`
    have setter : s.place .setter = .inside := place_setter (s := s) notifying
    have same := consistent.serves.unique setter (place_getter here)
    cases same
  · exact next.serves.apart _ (Finset.mem_insert_self _ _) woken

/-- A `get` that has gone on before the result is there returns before it. -/
theorem Consistent.returns_early (consistent : s.Consistent object) {t : ℕ}
    (here : s.getters t = .reading .get) (unready : s.future.ready = false) :
    ∃ s', s.step object (.get t) = some s' ∧ ¬ s'.Kept object := by
  have left : s.future.locker.exit (.getter t) = some { s.future.locker with owner := none } :=
    Monitor.exit_eq_some.mpr ⟨consistent.serves.excludes _ (place_getter here), rfl⟩
  refine ⟨_, by rw [Handoff.step, here, getStep, left]; rfl, fun kept => ?_⟩
  have finished : s.setter = .returned := (kept.onlyResult t _ (withGetter_self ..)).1
  rw [consistent.ready, finished] at unready
  cases unready

/-- A `get` that waits when `notify` chooses another thread is stranded. -/
theorem Consistent.passed_over (consistent : s.Consistent object) {chosen : Option Caller} {t : ℕ}
    (notifying : s.setter = .notifying) (waits : .getter t ∈ s.future.locker.waiting)
    (inGet : (s.getters t).inGet = true) (other : chosen ≠ some (.getter t))
    (moves : s.step object (.setDone chosen) = some s') : ¬ s'.Kept object := by
  intro kept
  have next := consistent.step moves
  have ready : s.future.ready = true := by
    rw [consistent.ready, notifying]
    rfl
  obtain ⟨moved, stepped, rfl⟩ := Option.map_eq_some_iff.mp moves
  rw [notifying] at stepped
  obtain ⟨locker, notified, rfl⟩ := Option.map_eq_some_iff.mp stepped
  rcases Monitor.notify_waiting notified waits with ⟨same, -⟩ | ⟨-, still⟩
  · exact other same
  · rcases kept.noneStranded ready t inGet with before | woken
    · cases before
    · exact next.serves.apart _ still woken

/-- **Each step that the condition leaves out loses the result**, at once or when the `get` that has
gone on too early returns. -/
theorem lost_otherwise {action : Action} (reached : Reach (step object) Starts Always s)
    (untimely : ¬ s.InTime action) (moves : s.step object action = some s') :
    ∃ s'', Reach (step object) (· = s') Always s'' ∧ ¬ s''.Kept object := by
  have consistent := consistent_of_reach reached
  cases action with
  | call t call | wake t => exact absurd trivial untimely
  | setDone chosen =>
      simp only [InTime, not_forall] at untimely
      obtain ⟨notifying, caller, waits, inGet, other⟩ := untimely
      cases caller with
      | setter => cases inGet
      | getter t =>
          exact ⟨s', .start rfl, consistent.passed_over notifying waits inGet other moves⟩
  | get t =>
      replace untimely : ¬ (s.getters t).inTime s.future.ready = true := untimely
      cases here : s.getters t with
      | inside call late =>
          rw [here] at untimely
          cases call with
          | get =>
              have ready : s.future.ready = true := by simpa [GetPc.inTime] using untimely
              exact ⟨s', .start rfl, consistent.waits_stranded here ready moves⟩
          | isDone | getTimeout millis => exact absurd rfl untimely
      | waits call late =>
          rw [here] at untimely
          cases call with
          | get =>
              have unready : s.future.ready = false := by simpa [GetPc.inTime] using untimely
              have next := consistent.step moves
              obtain ⟨moved, stepped, rfl⟩ := Option.map_eq_some_iff.mp moves
              rw [here] at stepped
              obtain ⟨locker, -, rfl⟩ := Option.map_eq_some_iff.mp stepped
              obtain ⟨s'', returns, lost⟩ := next.returns_early (withGetter_self ..) unready
              exact ⟨s'', .step (.start rfl) trivial returns, lost⟩
          | isDone | getTimeout millis => exact absurd rfl untimely
      | _ =>
          rw [here] at untimely
          exact absurd rfl untimely

/-- `setDone` has returned, and a `get` is in the wait set. -/
structure Blocked (t : ℕ) (late : Bool) (s : Handoff V) : Prop where
  finished : s.setter = .returned
  here : s.getters t = .waits .get late
  waits : Caller.getter t ∈ s.future.locker.waiting

/-- Another thread moves in its call. -/
theorem Blocked.other {t u : ℕ} {late : Bool} (blocked : s.Blocked t late) (other : t ≠ u)
    {future : AsyncFuture V} {pc : GetPc V}
    (waits : .getter t ∈ s.future.locker.waiting → .getter t ∈ future.locker.waiting) :
    (s.withGetter u future pc).Blocked t late :=
  ⟨blocked.finished, (withGetter_of_ne s other _ _).trans blocked.here, waits blocked.waits⟩

/-- No step of a call takes another thread out of the wait set. -/
theorem getStep_waiting {f f' : AsyncFuture V} {t : ℕ} {pc pc' : GetPc V}
    (moves : getStep f t pc = some (f', pc')) {caller : Caller}
    (waits : caller ∈ f.locker.waiting) : caller ∈ f'.locker.waiting := by
  obtain ⟨locker, rfl, ⟨_, _, -, entered, -⟩ | ⟨_, _, -, -, left, -⟩ | ⟨_, _, -, waited, -⟩ |
    ⟨_, _, -, back, -⟩ | ⟨_, -, left, -⟩⟩ := getStep_cases moves
  · obtain ⟨-, rfl⟩ := Monitor.enter_eq_some.mp entered
    exact waits
  · obtain ⟨-, rfl⟩ := Monitor.exit_eq_some.mp left
    exact waits
  · obtain ⟨-, rfl⟩ := Monitor.wait_eq_some.mp waited
    exact Finset.mem_insert_of_mem waits
  · obtain ⟨-, rfl⟩ := Monitor.reenter_eq_some.mp back
    exact waits
  · obtain ⟨-, rfl⟩ := Monitor.exit_eq_some.mp left
    exact waits

theorem Blocked.step {t : ℕ} {late : Bool} {action : Action} (blocked : s.Blocked t late)
    (consistent : s.Consistent object) (asleep : action ≠ .wake t)
    (moves : s.step object action = some s') : s'.Blocked t late := by
  cases action with
  | setDone chosen =>
      obtain ⟨moved, stepped, rfl⟩ := Option.map_eq_some_iff.mp moves
      rw [blocked.finished] at stepped
      cases stepped
  | call u call =>
      simp only [Handoff.step] at moves
      split at moves
      · next free =>
          cases moves
          refine blocked.other ?_ id
          rintro rfl
          rw [blocked.here] at free
          cases free
      · cases moves
  | get u =>
      obtain ⟨moved, stepped, rfl⟩ := Option.map_eq_some_iff.mp moves
      refine blocked.other ?_ (getStep_waiting stepped)
      rintro rfl
      -- it has not been woken, so it cannot take the lock back
      rw [blocked.here] at stepped
      obtain ⟨locker, back, -⟩ := Option.map_eq_some_iff.mp stepped
      obtain ⟨⟨-, woken⟩, -⟩ := Monitor.reenter_eq_some.mp back
      exact consistent.serves.apart _ blocked.waits woken
  | wake u =>
      obtain ⟨locker, woke, rfl⟩ := Option.map_eq_some_iff.mp moves
      rcases Monitor.wake_waiting woke blocked.waits with ⟨same, -⟩ | ⟨-, still⟩
      · exact absurd (congrArg Action.wake (Caller.getter.inj same).symm) asleep
      · exact ⟨blocked.finished, blocked.here, still⟩

/-- **A `get` that waits after `setDone` waits for ever**, unless it wakes up by itself. -/
theorem stays_blocked {t : ℕ} {late : Bool} (reached : Reach (step object) Starts Always s)
    (blocked : s.Blocked t late)
    (later : Reach (step object) (· = s) (fun _ action => action ≠ .wake t) s') :
    s'.Blocked t late := by
  suffices s'.Blocked t late ∧ s'.Consistent object from this.1
  induction later with
  | start initial =>
      cases initial
      exact ⟨blocked, consistent_of_reach reached⟩
  | step _ asleep moves ih => exact ⟨ih.1.step ih.2 asleep moves, ih.2.step moves⟩

/-- **A `get` that comes late never returns.** It begins to wait when `setDone` has returned.
However the other threads go on, it is still waiting, unless it wakes up by itself. -/
theorem late_get_never_returns {t : ℕ} {late : Bool} {s'' : Handoff V}
    (reached : Reach (step object) Starts Always s) (finished : s.setter = .returned)
    (here : s.getters t = .inside .get late) (moves : s.step object (.get t) = some s')
    (later : Reach (step object) (· = s') (fun _ action => action ≠ .wake t) s'') :
    s''.getters t = .waits .get late := by
  have next : Reach (step object) Starts Always s' := .step reached trivial moves
  obtain ⟨moved, stepped, rfl⟩ := Option.map_eq_some_iff.mp moves
  rw [here] at stepped
  obtain ⟨locker, waited, rfl⟩ := Option.map_eq_some_iff.mp stepped
  obtain ⟨owner, rfl⟩ := Monitor.wait_eq_some.mp waited
  refine (stays_blocked next ⟨finished, withGetter_self .., ?_⟩ later).here
  exact Finset.mem_insert_self ..

/-- The user answers before the activity asks. -/
theorem late_get_never_returns_answeredFirst :
    ∃ s s' : Handoff ℕ, s.future.object = some 7 ∧ s.step (some 7) (.get 0) = some s' ∧
      ∀ s'', Reach (step (some 7)) (· = s') (fun _ action => action ≠ .wake 0) s'' →
        s''.getters 0 = .waits .get true := by
  have moved : (replay (step (some 7)) created (answeredFirst.take 8)).map
      (fun s : Handoff ℕ => (s.future.object, s.setter, s.getters 0,
        (s.step (some 7) (.get 0)).isSome)) =
        some (some 7, .returned, .inside .get true, true) := by decide
  obtain ⟨s, replayed, shown⟩ := Option.map_eq_some_iff.mp moved
  simp only [Prod.mk.injEq] at shown
  obtain ⟨object, finished, here, steps⟩ := shown
  obtain ⟨s', moves⟩ := Option.isSome_iff_exists.mp steps
  exact ⟨s, s', object, moves, fun s'' later => late_get_never_returns
    (Reach.of_replay (.start rfl) _ replayed) finished here moves later⟩

end Handoff

end MsiSdrDriver.Service
