import MsiSdrDriver.Foundations.LabelledRuns

/-!
# What the listeners of a device are told

`SdrDevice` keeps a list of status listeners, and `MsiSdrDevice.openAsync` starts a thread that
tells them of the opening and of the end. Listeners are added by other threads at any time, but not
while an announcement goes through the list, which holds its lock.

`announceOnClosed` takes each listener off the list before it calls it. So whatever the native code
returns or throws, and although a listener may throw, each listener hears of the end once, in the
order in which they were added (`closed_told_once`): what a listener throws is caught by `run` and
announced to the rest. Only a second exception is not caught, and then the rest hears nothing.
-/

set_option autoImplicit false

namespace MsiSdrDriver.Service

open MsiSdrDriver.Foundations

universe u v

variable {ℓ : Type u} {ε : Type v}

/-! ## The thread -/

/-- Where the thread of `openAsync` is. A reason is what `onClosed` is called with, and `guarded`
tells whether `announceOnClosed` is called inside the `try` of `run`. -/
inductive RunPc (ℓ : Type u) (ε : Type v) where
  | unborn
  /-- `openSessionAndGetFd`, and the native code up to `announceOnOpen` -/
  | opening
  /-- `announceOnOpen`, with the listeners that are still to be told -/
  | telling (rest : List ℓ)
  /-- the native code from there on, with the exception that is pending, if there is one -/
  | streaming (pending : Option ε)
  /-- before the lock of `announceOnClosed` is taken -/
  | closing (guarded : Bool) (reason : Option ε)
  /-- the loop of `announceOnClosed` -/
  | polling (guarded : Bool) (reason : Option ε)
  /-- the end of the thread, with the exception that was not caught, if there is one -/
  | finished (uncaught : Option ε)
  deriving DecidableEq

/-- What a listener is told. -/
inductive StatusCall (ε : Type v) where
  | onOpen
  | onClosed (reason : Option ε)
  deriving DecidableEq

/-- A device with the thread of its `openAsync`. The last four fields are history: the listeners
that have been added, the calls of listeners, the listeners that had been added when the thread came
to its end, and how many exceptions have come to `run`. -/
structure DeviceThread (ℓ : Type u) (ε : Type v) where
  listeners : List ℓ
  pc : RunPc ℓ ε
  registered : List ℓ
  calls : List (ℓ × StatusCall ε)
  atEnd : List ℓ
  faults : ℕ

/-- A step of another thread or of this one, with what the environment answers: what the native code
or a listener throws, and what `openAsync` returns. -/
inductive DeviceThreadLabel (ℓ : Type u) (ε : Type v) where
  | addOnStatusListener (listener : ℓ)
  | start
  | throws (thrown : ε)
  | announceOnOpen
  | onOpen (thrown : Option ε)
  | returns (result : Bool)
  | announceOnClosed
  | poll (thrown : Option ε)

/-- A place where the thread holds the lock of the list. -/
def RunPc.locks : RunPc ℓ ε → Bool
  | .telling _ | .polling _ _ => true
  | _ => false

namespace DeviceThread

/-- A new device. -/
def initial : DeviceThread ℓ ε := ⟨[], .unborn, [], [], [], 0⟩

def Starts (s : DeviceThread ℓ ε) : Prop := s = initial

/-- One turn of the loop in `announceOnOpen`. What a listener throws stays pending in the native
code, which goes on. -/
def tell (s : DeviceThread ℓ ε) (thrown : Option ε) : List ℓ → DeviceThread ℓ ε
  | [] => { s with pc := .streaming none }
  | listener :: rest =>
      match thrown with
      | none => { s with pc := .telling rest, calls := s.calls ++ [(listener, .onOpen)] }
      | some thrown =>
          { s with
            pc := .streaming (some thrown)
            calls := s.calls ++ [(listener, .onOpen)]
            faults := s.faults + 1 }

/-- One turn of the loop in `announceOnClosed`. -/
def pollNext (s : DeviceThread ℓ ε) (guarded : Bool) (reason : Option ε) (thrown : Option ε) :
    DeviceThread ℓ ε :=
  match s.listeners with
  | [] => { s with pc := .finished none, atEnd := s.registered }
  | listener :: rest =>
      let s := { s with listeners := rest, calls := s.calls ++ [(listener, .onClosed reason)] }
      match thrown with
      | none => s
      | some thrown =>
          { s with
            pc := if guarded then .closing false (some thrown) else .finished (some thrown)
            faults := s.faults + 1
            atEnd := s.registered }

variable (exitUnknown : ε)

/-- One step. `exitUnknown` is the exception for a result that is `false`. -/
def step (s : DeviceThread ℓ ε) : DeviceThreadLabel ℓ ε → Option (DeviceThread ℓ ε)
  | .addOnStatusListener listener =>
      if s.pc.locks then none
      else
        some { s with
          listeners := s.listeners ++ [listener]
          registered := s.registered ++ [listener] }
  | .start =>
      match s.pc with
      | .unborn => some { s with pc := .opening }
      | _ => none
  | .throws thrown =>
      match s.pc with
      | .opening => some { s with pc := .closing false (some thrown), faults := s.faults + 1 }
      | _ => none
  | .announceOnOpen =>
      match s.pc with
      | .opening => some { s with pc := .telling s.listeners }
      | _ => none
  | .onOpen thrown =>
      match s.pc with
      | .telling rest => some (s.tell thrown rest)
      | _ => none
  | .returns result =>
      match s.pc with
      | .streaming none =>
          some { s with pc := .closing true (if result then none else some exitUnknown) }
      | .streaming (some pending) => some { s with pc := .closing false (some pending) }
      | _ => none
  | .announceOnClosed =>
      match s.pc with
      | .closing guarded reason => some { s with pc := .polling guarded reason }
      | _ => none
  | .poll thrown =>
      match s.pc with
      | .polling guarded reason => some (s.pollNext guarded reason thrown)
      | _ => none

/-! ## What has been told -/

/-- The calls so far: `opened` have been told of the opening, then `first` of the end with one
reason, and `second` with another one, which is an exception. -/
structure Tells (s : DeviceThread ℓ ε) (opened first second : List ℓ) (reason later : Option ε) :
    Prop where
  calls : s.calls = opened.map (·, .onOpen) ++ first.map (·, .onClosed reason) ++
    second.map (·, .onClosed later)
  opened : opened <+: s.registered
  closed : first ++ second ++ s.listeners = s.registered
  exception : second ≠ [] → later.isSome = true

/-- How far the calls are at a place of the thread. -/
def Place (s : DeviceThread ℓ ε) (opened first second : List ℓ) (reason later : Option ε) :
    RunPc ℓ ε → Prop
  | .unborn | .opening => opened = [] ∧ first = [] ∧ second = [] ∧ s.faults = 0
  | .telling rest => opened ++ rest = s.listeners ∧ first = [] ∧ second = [] ∧ s.faults = 0
  | .streaming pending => first = [] ∧ second = [] ∧ s.faults = pending.toList.length
  | .closing true _ => first = [] ∧ second = [] ∧ s.faults = 0
  | .closing false announced => second = [] ∧ announced.isSome = true ∧ s.faults = 1
  | .polling true announced => second = [] ∧ reason = announced ∧ s.faults = 0
  | .polling false announced => later = announced ∧ announced.isSome = true ∧ s.faults = 1
  | .finished none => first ++ second = s.atEnd ∧ s.faults ≤ 1
  | .finished (some _) => s.faults = 2

/-- The invariant. -/
def Told (s : DeviceThread ℓ ε) : Prop :=
  ∃ opened first second reason later,
    s.Tells opened first second reason later ∧ s.Place opened first second reason later s.pc

variable {s s' : DeviceThread ℓ ε} {exitUnknown : ε}

theorem Told.starts (begins : Starts s) : s.Told := by
  cases begins
  exact ⟨[], [], [], none, none, ⟨rfl, List.nil_prefix, rfl, absurd rfl⟩, rfl, rfl, rfl, rfl⟩

variable {opened first second : List ℓ} {reason later : Option ε}

/-- A place depends on the list only where the thread holds its lock. -/
theorem Place.congr {pc : RunPc ℓ ε} (place : s.Place opened first second reason later pc)
    (faults : s'.faults = s.faults) (atEnd : s'.atEnd = s.atEnd)
    (listeners : pc.locks = true → s'.listeners = s.listeners) :
    s'.Place opened first second reason later pc := by
  revert place
  unfold Place
  rw [faults, atEnd]
  cases pc with
  | telling rest =>
      rw [listeners rfl]
      exact id
  | closing guarded announced | polling guarded announced => cases guarded <;> exact id
  | finished uncaught => cases uncaught <;> exact id
  | unborn | opening | streaming pending => exact id

/-- A listener is added behind the others. -/
theorem Told.add {listener : ℓ} (told : s.Told)
    (moves : s.step exitUnknown (.addOnStatusListener listener) = some s') : s'.Told := by
  simp only [step] at moves
  split at moves
  · cases moves
  next free =>
    cases moves
    obtain ⟨opened, first, second, reason, later, tells, place⟩ := told
    refine ⟨opened, first, second, reason, later, ⟨tells.calls, ?_, ?_, tells.exception⟩,
      place.congr rfl rfl fun locks => absurd locks free⟩
    · exact tells.opened.trans (List.prefix_append ..)
    · show first ++ second ++ (s.listeners ++ [listener]) = s.registered ++ [listener]
      rw [← tells.closed, List.append_assoc _ s.listeners]

/-- **One turn of `announceOnOpen`.** -/
theorem Told.tell {thrown : Option ε} {rest : List ℓ} (told : s.Told)
    (place : s.pc = .telling rest) : (s.tell thrown rest).Told := by
  obtain ⟨opened, first, second, reason, later, tells, here⟩ := told
  rw [place] at here
  obtain ⟨listed, rfl, rfl, none⟩ := here
  have all : s.listeners = s.registered := tells.closed
  cases rest with
  | nil => exact ⟨opened, [], [], reason, later, ⟨tells.calls, tells.opened, tells.closed,
      tells.exception⟩, rfl, rfl, none⟩
  | cons listener rest =>
      have calls : s.calls ++ [(listener, .onOpen)] =
          (opened ++ [listener]).map (·, StatusCall.onOpen) := by
        rw [tells.calls, List.map_append]
        simp
      have before : opened ++ [listener] ++ rest = s.listeners := by
        rw [List.append_assoc]
        exact listed
      have told : ∀ pc faults, DeviceThread.Tells { s with
          pc := pc, calls := s.calls ++ [(listener, .onOpen)], faults := faults }
          (opened ++ [listener]) [] [] reason later := by
        intro pc faults
        refine ⟨?_, ?_, tells.closed, absurd rfl⟩
        · rw [List.map_nil, List.map_nil, List.append_nil, List.append_nil]
          exact calls
        · exact ⟨rest, before.trans all⟩
      cases thrown with
      | none => exact ⟨_, _, _, _, _, told _ _, before, rfl, rfl, none⟩
      | some thrown =>
          have one : s.faults + 1 = 1 := congrArg (· + 1) none
          exact ⟨_, _, _, _, _, told _ _, rfl, rfl, one⟩

/-- The next listener is told of the end, with the first reason as long as `run` has not caught an
exception of a listener, and then with the second. -/
theorem Tells.next {listener : ℓ} {rest : List ℓ} (tells : s.Tells opened first second reason later)
    (listed : s.listeners = listener :: rest) (pc : RunPc ℓ ε) (faults : ℕ) (atEnd : List ℓ) :
    (second = [] → DeviceThread.Tells
      ⟨rest, pc, s.registered, s.calls ++ [(listener, .onClosed reason)], atEnd, faults⟩
      opened (first ++ [listener]) [] reason later) ∧
    (later.isSome = true → DeviceThread.Tells
      ⟨rest, pc, s.registered, s.calls ++ [(listener, .onClosed later)], atEnd, faults⟩
      opened first (second ++ [listener]) reason later) := by
  have closed := tells.closed
  rw [listed] at closed
  constructor
  · rintro rfl
    refine ⟨?_, tells.opened, ?_, absurd rfl⟩
    · rw [tells.calls]
      simp
    · rw [← closed]
      simp
  · intro exception
    refine ⟨?_, tells.opened, ?_, fun _ => exception⟩
    · rw [tells.calls]
      simp
    · rw [← closed]
      simp

/-- **One turn of `announceOnClosed`.** -/
theorem Told.pollNext {guarded : Bool} {announced thrown : Option ε} (told : s.Told)
    (place : s.pc = .polling guarded announced) : (s.pollNext guarded announced thrown).Told := by
  obtain ⟨opened, first, second, reason, later, tells, here⟩ := told
  rw [place] at here
  unfold DeviceThread.pollNext
  cases listed : s.listeners with
  | nil =>
      have closed := tells.closed
      rw [listed] at closed
      have all : first ++ second = s.registered := (List.append_nil _).symm.trans closed
      have few : s.faults ≤ 1 := by
        cases guarded with
        | true =>
            rw [here.2.2]
            exact Nat.zero_le 1
        | false => exact Nat.le_of_eq here.2.2
      exact ⟨opened, first, second, reason, later,
        ⟨tells.calls, tells.opened, closed, tells.exception⟩, all, few⟩
  | cons listener rest =>
      have next := tells.next listed
      cases guarded with
      | true =>
          obtain ⟨rfl, rfl, none⟩ := here
          cases thrown with
          | none => exact ⟨_, _, _, _, _, (next _ _ _).1 rfl, by rw [place]; exact ⟨rfl, rfl, none⟩⟩
          | some thrown => exact ⟨_, _, _, _, later, (next _ _ _).1 rfl, rfl, rfl, by rw [none]⟩
      | false =>
          obtain ⟨rfl, exception, one⟩ := here
          cases thrown with
          | none =>
              exact ⟨_, _, _, _, _, (next _ _ _).2 exception, by
                rw [place]; exact ⟨rfl, exception, one⟩⟩
          | some thrown => exact ⟨_, _, _, _, _, (next _ _ _).2 exception, by
              show s.faults + 1 = 2
              rw [one]⟩

/-- **One step.** -/
theorem Told.step {label : DeviceThreadLabel ℓ ε} (told : s.Told)
    (moves : s.step exitUnknown label = some s') : s'.Told := by
  cases label with
  | addOnStatusListener listener => exact told.add moves
  | start =>
      simp only [DeviceThread.step] at moves
      split at moves <;> cases moves
      next place =>
        obtain ⟨opened, first, second, reason, later, tells, here⟩ := told
        rw [place] at here
        exact ⟨_, _, _, _, _, ⟨tells.calls, tells.opened, tells.closed, tells.exception⟩, here⟩
  | throws thrown =>
      simp only [DeviceThread.step] at moves
      split at moves <;> cases moves
      next place =>
        obtain ⟨opened, first, second, reason, later, tells, here⟩ := told
        rw [place] at here
        obtain ⟨-, -, rfl, none⟩ := here
        exact ⟨_, _, _, _, _, ⟨tells.calls, tells.opened, tells.closed, tells.exception⟩,
          rfl, rfl, congrArg (· + 1) none⟩
  | announceOnOpen =>
      simp only [DeviceThread.step] at moves
      split at moves <;> cases moves
      next place =>
        obtain ⟨opened, first, second, reason, later, tells, here⟩ := told
        rw [place] at here
        obtain ⟨rfl, rfl, rfl, none⟩ := here
        exact ⟨_, _, _, _, _, ⟨tells.calls, tells.opened, tells.closed, tells.exception⟩,
          rfl, rfl, rfl, none⟩
  | onOpen thrown =>
      simp only [DeviceThread.step] at moves
      split at moves <;> cases moves
      next rest place => exact told.tell place
  | returns result =>
      simp only [DeviceThread.step] at moves
      obtain ⟨opened, first, second, reason, later, tells, here⟩ := told
      split at moves <;> cases moves
      · next place =>
          rw [place] at here
          obtain ⟨rfl, rfl, none⟩ := here
          exact ⟨_, _, _, _, _, ⟨tells.calls, tells.opened, tells.closed, tells.exception⟩,
            rfl, rfl, none⟩
      · next pending place =>
          rw [place] at here
          obtain ⟨rfl, rfl, one⟩ := here
          exact ⟨_, _, _, _, _, ⟨tells.calls, tells.opened, tells.closed, tells.exception⟩,
            rfl, rfl, one⟩
  | announceOnClosed =>
      simp only [DeviceThread.step] at moves
      split at moves <;> cases moves
      next guarded announced place =>
        obtain ⟨opened, first, second, reason, later, tells, here⟩ := told
        rw [place] at here
        cases guarded with
        | true =>
            obtain ⟨rfl, rfl, none⟩ := here
            exact ⟨opened, [], [], announced, later, ⟨tells.calls, tells.opened, tells.closed,
              tells.exception⟩, rfl, rfl, none⟩
        | false =>
            obtain ⟨rfl, exception, one⟩ := here
            exact ⟨opened, first, [], reason, announced, ⟨tells.calls, tells.opened, tells.closed,
              absurd rfl⟩, rfl, exception, one⟩
  | poll thrown =>
      simp only [DeviceThread.step] at moves
      split at moves <;> cases moves
      next guarded announced place => exact told.pollNext place

/-! ## Every run -/

/-- **Each listener hears of the end once.** In every order of the steps, whatever is thrown: the
calls are, in this order, those of the opening, those of the end, and those of the end after an
exception of a listener. The listeners of the last two and those that wait are all that have been
added, in order. The thread comes to its end without an exception exactly when `run` has had one at
most, and then every listener that had been added has been told. -/
theorem closed_told_once (reached : Reach (step exitUnknown) Starts Always s) :
    ∃ opened first second reason later,
      s.Tells opened first second reason later ∧
      ∀ uncaught, s.pc = .finished uncaught →
        (uncaught = none ↔ s.faults ≤ 1) ∧ (uncaught = none → first ++ second = s.atEnd) := by
  have told : s.Told := reached.invariant (fun _ begins => .starts begins)
    fun _ _ _ before _ moves => before.step moves
  obtain ⟨opened, first, second, reason, later, tells, here⟩ := told
  refine ⟨opened, first, second, reason, later, tells, fun uncaught place => ?_⟩
  rw [place] at here
  cases uncaught with
  | none => exact ⟨iff_of_true rfl here.2, fun _ => here.1⟩
  | some thrown =>
      have two : s.faults = 2 := here
      rw [two]
      refine ⟨iff_of_false (fun caught => ?_) (by decide), fun caught => ?_⟩
      · cases caught
      · cases caught

/-- The activity and the service listen, and the activity throws when it is told of the end. -/
def throwingActivity : List (DeviceThreadLabel ℕ ℕ) :=
  [.addOnStatusListener 0, .addOnStatusListener 1, .start, .announceOnOpen, .onOpen none,
    .onOpen none, .onOpen none, .returns true, .announceOnClosed, .poll (some 5),
    .announceOnClosed, .poll none, .poll none]

theorem closed_told_once_throwingActivity :
    ∃ (s : DeviceThread ℕ ℕ) (opened first second : List ℕ) (reason later : Option ℕ),
      s.calls = [(0, .onOpen), (1, .onOpen), (0, .onClosed none), (1, .onClosed (some 5))] ∧
        s.Tells opened first second reason later ∧ first ++ second = [0, 1] := by
  have moved : (replay (step 7) initial throwingActivity).map
      (fun s => (s.calls, s.pc, s.atEnd)) =
        some ([(0, .onOpen), (1, .onOpen), (0, .onClosed none), (1, .onClosed (some 5))],
          .finished none, [0, 1]) := by decide
  obtain ⟨s, replayed, shown⟩ := Option.map_eq_some_iff.mp moved
  simp only [Prod.mk.injEq] at shown
  obtain ⟨calls, place, atEnd⟩ := shown
  obtain ⟨opened, first, second, reason, later, tells, ends⟩ :=
    closed_told_once (Reach.of_replay (.start rfl) _ replayed)
  exact ⟨s, opened, first, second, reason, later, calls, tells,
    ((ends none place).2 rfl).trans atEnd⟩

end DeviceThread

end MsiSdrDriver.Service
