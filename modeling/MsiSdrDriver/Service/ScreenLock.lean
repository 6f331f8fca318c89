import MsiSdrDriver.Service.OneDevice

/-!
# The screen is kept on while a device is open

The service acquires a wake lock when a device reports that it has opened, and releases it when it
hears that the device has closed. A lock lapses after an hour. `ackquireWakeLock` forgets the lock
that it finds, which is right only if that one is not held.

Where start commands are delivered only while no device is open, no held lock is forgotten, and a
lock is held exactly while a device is open that has reported so, unless the lock has lapsed
(`ScreenLock.held_while_open`). Otherwise a lock can be held while no device is open, and the
service cannot release it (`ScreenLock.held_without_device`). The handlers run one at a time here.
-/

set_option autoImplicit false

namespace MsiSdrDriver.Service

open MsiSdrDriver.Foundations

universe u v w

variable {δ : Type u} {α : Type v} {κ : Type w}

/-- The service with the wake locks that it has acquired. The devices that have reported that they
are open, and whether the last lock has lapsed, are history. -/
structure ScreenLock (δ : Type u) (α : Type v) (κ : Type w) where
  world : World δ α κ
  reported : List δ
  /-- the held locks that `wl` does not refer to -/
  forgotten : ℕ
  lapsed : Bool

/-- What happens: an event of the service, or a lock lapses. -/
inductive ScreenEvent (δ : Type u) (α : Type v) (κ : Type w) where
  | service (event : Event δ α κ)
  | lapse
  | lapseForgotten

namespace ScreenLock

/-- A new service, before any event. -/
def initial : ScreenLock δ α κ := ⟨⟨.created, [], [], []⟩, [], 0, false⟩

def Starts (s : ScreenLock δ α κ) : Prop := s = initial

/-- The lock of `wl` is held. -/
def Held (s : ScreenLock δ α κ) : Prop := s.world.service.wl = some true

instance (s : ScreenLock δ α κ) : Decidable s.Held := inferInstanceAs (Decidable (_ = _))

/-- A device is open and has reported so. -/
def Serves (s : ScreenLock δ α κ) : Prop :=
  ∃ sdrDevice ∈ s.world.openDevices, sdrDevice ∈ s.reported

/-- One event. A device reports once that it has opened. -/
def step [DecidableEq δ] [DecidableEq κ] (s : ScreenLock δ α κ) :
    ScreenEvent δ α κ → Option (ScreenLock δ α κ)
  | .service (.onOpen sdrDevice) =>
      if sdrDevice ∈ s.reported then none
      else
        (s.world.step (.onOpen sdrDevice)).map fun world =>
          { world := world
            reported := s.reported ++ [sdrDevice]
            forgotten := if s.Held then s.forgotten + 1 else s.forgotten
            lapsed := false }
  | .service event => (s.world.step event).map fun world => { s with world := world }
  | .lapse =>
      if s.Held then
        some { s with
          world := { s.world with service := { s.world.service with wl := some false } }
          lapsed := true }
      else none
  | .lapseForgotten =>
      if s.forgotten = 0 then none else some { s with forgotten := s.forgotten - 1 }

/-- The start command is delivered only while no device is open. -/
def StartsIdle (s : ScreenLock δ α κ) : ScreenEvent δ α κ → Prop
  | .service event => s.world.StartsIdle event
  | .lapse | .lapseForgotten => True

instance : DecidableRel (StartsIdle : ScreenLock δ α κ → ScreenEvent δ α κ → Prop) := fun s event =>
  match event with
  | .service event => inferInstanceAs (Decidable (s.world.StartsIdle event))
  | .lapse | .lapseForgotten => inferInstanceAs (Decidable True)

/-- A lock is held exactly while a device serves, or until it has lapsed. -/
structure Faithful (s : ScreenLock δ α κ) : Prop where
  slot : s.world.Slot
  queued : s.world.Queued
  opened : ∀ sdrDevice ∈ s.world.openDevices, sdrDevice ∈ s.world.opened.map Prod.fst
  reported : ∀ sdrDevice ∈ s.reported, sdrDevice ∈ s.world.opened.map Prod.fst
  forgotten : s.forgotten = 0
  held : s.Held ↔ s.lapsed = false ∧ s.Serves

/-! ## The handlers and the lock -/

theorem startWithDevice_wl (s : BinaryRunnerService δ α κ) : s.startWithDevice.1.wl = s.wl := by
  unfold BinaryRunnerService.startWithDevice
  split <;> rfl

/-- A request that is queued is for a device that has not been opened. -/
theorem queued_unopened {w : World δ α κ} (queued : w.Queued) {sdrDevice : δ}
    (waits : sdrDevice ∈ w.service.workQueue.map Prod.fst) : sdrDevice ∉ w.opened.map Prod.fst := by
  have distinct := queued.distinct
  rw [queued.requests, List.map_append] at distinct
  exact fun opened => List.disjoint_of_nodup_append distinct opened waits

/-- A device that a handler opens has not reported. -/
theorem Faithful.unreported {s : ScreenLock δ α κ} (faithful : s.Faithful)
    {result : BinaryRunnerService δ α κ × List (Effect δ α κ)}
    (takes : s.world.service.workQueue = opens result.2 ++ result.1.workQueue) {sdrDevice : δ}
    (opened : sdrDevice ∈ (opens result.2).map Prod.fst) : sdrDevice ∉ s.reported := by
  intro reported
  refine queued_unopened faithful.queued ?_ (faithful.reported sdrDevice reported)
  rw [takes, List.map_append]
  exact List.mem_append_left _ opened

/-! ## The events -/

/-- A handler that leaves the lock alone. -/
theorem Faithful.after {s : ScreenLock δ α κ} (faithful : s.Faithful)
    {result : BinaryRunnerService δ α κ × List (Effect δ α κ)} {requests : List (δ × α)}
    {world : World δ α κ} (moved : world = { s.world.after result with requests := requests })
    (slot : world.Slot) (queued : world.Queued) (wl : result.1.wl = s.world.service.wl)
    (fresh : ∀ sdrDevice ∈ (opens result.2).map Prod.fst, sdrDevice ∉ s.reported) :
    ({ s with world := world } : ScreenLock δ α κ).Faithful := by
  subst moved
  refine ⟨slot, queued, fun sdrDevice known => ?_, fun sdrDevice reported => ?_,
    faithful.forgotten, ?_⟩
  · simp only [World.after, List.map_append, List.mem_append] at known ⊢
    exact known.imp_left (faithful.opened sdrDevice)
  · simp only [World.after, List.map_append, List.mem_append]
    exact .inl (faithful.reported sdrDevice reported)
  · have serves : ({ s with world := { s.world.after result with requests := requests } } :
        ScreenLock δ α κ).Serves ↔ s.Serves := by
      simp only [Serves, World.after, List.mem_append]
      constructor
      · rintro ⟨sdrDevice, before | next, reported⟩
        · exact ⟨sdrDevice, before, reported⟩
        · exact absurd reported (fresh sdrDevice next)
      · rintro ⟨sdrDevice, before, reported⟩
        exact ⟨sdrDevice, .inl before, reported⟩
    rw [serves, ← faithful.held]
    simp only [Held, World.after, wl]

variable [DecidableEq δ] [DecidableEq κ] {s s' : ScreenLock δ α κ}

/-- The device closes: its lock is released, and the next device has not reported. -/
theorem Faithful.onClosed (faithful : s.Faithful) {sdrDevice : δ} {world : World δ α κ}
    (moves : s.world.step (.onClosed sdrDevice) = some world) :
    ({ s with world := world } : ScreenLock δ α κ).Faithful := by
  have slot : world.Slot :=
    faithful.slot.step (show s.world.StartsIdle (.onClosed _) from trivial) moves
  have queued := faithful.queued.step moves
  have takes := World.onClosed_takes s.world.service
  have devices := faithful.slot.openDevices
  simp only [World.step] at moves
  split at moves
  next mem =>
    cases moves
    rw [devices] at mem
    have this : s.world.service.thisSdrDevice = some sdrDevice := Option.mem_toList.mp mem
    refine ⟨slot, queued, fun other known => ?_, fun other reported => ?_,
      faithful.forgotten, ?_⟩
    · simp only [World.after, List.map_append, List.mem_append] at known ⊢
      exact known.imp_left fun open' => faithful.opened other (List.mem_of_mem_erase open')
    · simp only [World.after, List.map_append, List.mem_append]
      exact .inl (faithful.reported other reported)
    · have released : s.world.service.onClosed.1.wl ≠ some true := by
        simp only [BinaryRunnerService.onClosed, this, startWithDevice_wl]
        cases s.world.service.wl <;> simp
      refine ⟨fun held => absurd held released, ?_⟩
      rintro ⟨-, other, opened, reported⟩
      simp only [World.after, devices, this, Option.toList_some, List.erase_cons_head,
        List.nil_append] at opened
      exact absurd reported (faithful.unreported takes opened)
  · cases moves

/-- The device reports that it has opened: no lock is held before. -/
theorem Faithful.onOpen (faithful : s.Faithful) {sdrDevice : δ}
    (moves : s.step (.service (.onOpen sdrDevice)) = some s') : s'.Faithful := by
  simp only [step] at moves
  split at moves
  · cases moves
  next first =>
    obtain ⟨world, moved, rfl⟩ := Option.map_eq_some_iff.mp moves
    have slot : world.Slot :=
      faithful.slot.step (show s.world.StartsIdle (.onOpen _) from trivial) moved
    have queued := faithful.queued.step moved
    simp only [World.step] at moved
    split at moved
    next mem =>
      cases moved
      have dark : ¬ s.Held := by
        rw [faithful.held]
        rintro ⟨-, other, opened, reported⟩
        rw [faithful.slot.openDevices] at mem opened
        have same : some other = some sdrDevice :=
          (Option.mem_toList.mp opened).symm.trans (Option.mem_toList.mp mem)
        exact first (Option.some.inj same ▸ reported)
      have devices : (s.world.after s.world.service.onOpen).openDevices = s.world.openDevices :=
        List.append_nil _
      have opened : (s.world.after s.world.service.onOpen).opened = s.world.opened :=
        List.append_nil _
      refine ⟨slot, queued, ?_, ?_, ?_, fun _ => ⟨rfl, sdrDevice, ?_, ?_⟩, fun _ => rfl⟩
      · rw [devices, opened]
        exact faithful.opened
      · intro other reported
        rw [opened]
        rcases List.mem_append.mp reported with before | now
        · exact faithful.reported other before
        · rw [List.mem_singleton.mp now]
          exact faithful.opened sdrDevice mem
      · simp only [if_neg dark, faithful.forgotten]
      · exact devices ▸ mem
      · exact List.mem_append_right _ (List.mem_singleton_self _)
    · cases moved

/-- The other events of the service. -/
theorem Faithful.service (faithful : s.Faithful) {event : Event δ α κ}
    (startsIdle : s.world.StartsIdle event) {world : World δ α κ}
    (moves : s.world.step event = some world) (reports : ∀ sdrDevice, event ≠ .onOpen sdrDevice) :
    ({ s with world := world } : ScreenLock δ α κ).Faithful := by
  have slot : world.Slot := faithful.slot.step startsIdle moves
  have queued : world.Queued := faithful.queued.step moves
  have silent : ∀ {effects : List (Effect δ α κ)}, opens effects = [] →
      ∀ sdrDevice ∈ (opens effects).map Prod.fst, sdrDevice ∉ s.reported := by
    intro effects nothing sdrDevice opened
    rw [nothing] at opened
    cases opened
  cases event with
  | onOpen sdrDevice => exact absurd rfl (reports sdrDevice)
  | onClosed sdrDevice => exact faithful.onClosed moves
  | onStartCommand =>
      cases moves
      exact faithful.after rfl slot queued (startWithDevice_wl _) fun _ =>
        faithful.unreported (World.startWithDevice_takes _)
  | startWithDevice sdrDevice sdrTcpArguments =>
      simp only [World.step] at moves
      split at moves
      · cases moves
      cases moves
      exact faithful.after rfl slot queued rfl
        (silent (LocalBinder.opens_startWithDevice _ sdrDevice sdrTcpArguments))
  | registerCallback callback =>
      cases moves
      exact faithful.after rfl slot queued rfl
        (silent (LocalBinder.opens_registerCallback _ callback))
  | closeService =>
      have moved : world = { s.world.after (s.world.service, s.world.service.closeService) with
          requests := s.world.requests } := (Option.some.inj moves).symm
      exact faithful.after moved slot queued rfl (silent s.world.service.opens_closeService)

/-- **Every event** keeps the lock to the device. -/
theorem Faithful.step {event : ScreenEvent δ α κ} (faithful : s.Faithful)
    (startsIdle : s.StartsIdle event) (moves : s.step event = some s') : s'.Faithful := by
  cases event with
  | service event =>
      have startsIdle : s.world.StartsIdle event := startsIdle
      cases event with
      | onOpen sdrDevice => exact faithful.onOpen moves
      | onClosed | onStartCommand | startWithDevice | registerCallback | closeService =>
          simp only [ScreenLock.step, Option.map_eq_some_iff] at moves
          obtain ⟨world, moves, rfl⟩ := moves
          exact faithful.service startsIdle moves nofun
  | lapse =>
      simp only [ScreenLock.step] at moves
      split at moves <;> cases moves
      refine ⟨⟨faithful.slot.openDevices, faithful.slot.isRunning⟩,
        ⟨faithful.queued.requests, faithful.queued.distinct⟩, faithful.opened, faithful.reported,
        faithful.forgotten, ?_⟩
      simp [Held]
  | lapseForgotten =>
      rw [ScreenLock.step, if_pos faithful.forgotten] at moves
      cases moves

/-! ## Every order of events -/

/-- **The screen is kept on exactly while a device is open** that has reported so, or until the lock
lapses, in every order of events in which start commands are delivered only while no device is
open. -/
theorem held_while_open (reached : Reach step Starts StartsIdle s) :
    s.forgotten = 0 ∧ (s.Held ↔ s.lapsed = false ∧ s.Serves) := by
  have faithful : s.Faithful := by
    refine reached.invariant ?_ fun s event s' faithful startsIdle moves =>
      faithful.step startsIdle moves
    rintro s rfl
    refine ⟨⟨rfl, rfl⟩, ⟨rfl, List.nodup_nil⟩, ?_, ?_, rfl, ?_⟩
    · exact fun _ known => absurd known List.not_mem_nil
    · exact fun _ reported => absurd reported List.not_mem_nil
    · constructor
      · exact nofun
      · rintro ⟨-, sdrDevice, opened, -⟩
        cases opened
  exact ⟨faithful.forgotten, faithful.held⟩

/-- A device reports, a second one is requested, and the first one closes. -/
def darkHandover : List (ScreenEvent ℕ Unit Empty) :=
  [.service .onStartCommand, .service (.startWithDevice 1 ()), .service .onStartCommand,
    .service (.onOpen 1), .service (.startWithDevice 2 ()), .service (.onClosed 1)]

/-- The second device is open, and the screen stays dark until it reports. -/
theorem held_while_open_darkHandover : ∃ s : ScreenLock ℕ Unit Empty,
    s.world.openDevices = [2] ∧ s.reported = [1] ∧ ¬ s.Held := by
  have moved : (replayWhere step StartsIdle initial darkHandover).map
      (fun s => (s.world.openDevices, s.reported)) = some ([2], [1]) := by decide
  obtain ⟨s, replayed, shown⟩ := Option.map_eq_some_iff.mp moved
  simp only [Prod.mk.injEq] at shown
  obtain ⟨devices, reported⟩ := shown
  refine ⟨s, devices, reported, ?_⟩
  rw [(held_while_open (Reach.of_replayWhere (.start rfl) _ replayed)).2]
  rintro ⟨-, sdrDevice, opened, known⟩
  rw [devices, List.mem_singleton] at opened
  rw [reported, List.mem_singleton, opened] at known
  cases known

/-! ## A start command while a device is open -/

/-- A held lock that is forgotten lasts until it lapses. -/
theorem forgotten_stays {event : ScreenEvent δ α κ} (moves : s.step event = some s')
    (lasts : event ≠ .lapseForgotten) : s.forgotten ≤ s'.forgotten := by
  cases event with
  | service event =>
      cases event with
      | onOpen sdrDevice =>
          simp only [step] at moves
          split at moves
          · cases moves
          · obtain ⟨world, -, rfl⟩ := Option.map_eq_some_iff.mp moves
            dsimp only
            split
            · exact Nat.le_succ _
            · exact Nat.le_refl _
      | onClosed | onStartCommand | startWithDevice | registerCallback | closeService =>
          simp only [step, Option.map_eq_some_iff] at moves
          obtain ⟨world, -, rfl⟩ := moves
          exact Nat.le_refl _
  | lapse =>
      simp only [step] at moves
      split at moves <;> cases moves
      exact Nat.le_refl _
  | lapseForgotten => exact absurd rfl lasts

/-- A second device is started while the first one is open; both report, and both close. -/
def overlap : List (ScreenEvent ℕ Unit Empty) :=
  [.service .onStartCommand, .service (.startWithDevice 1 ()), .service .onStartCommand,
    .service (.onOpen 1), .service (.startWithDevice 2 ()), .service .onStartCommand,
    .service (.onOpen 2), .service (.onClosed 2), .service (.onClosed 1)]

/-- **The screen can be kept on without a device.** -/
theorem held_without_device : ∃ s : ScreenLock ℕ Unit Empty,
    Reach step Starts Always s ∧ s.world.openDevices = [] ∧ s.forgotten = 1 := by
  have moved : (replay step initial overlap).map
      (fun s : ScreenLock ℕ Unit Empty => (s.world.openDevices, s.forgotten)) =
      some ([], 1) := by decide
  obtain ⟨s, replayed, shown⟩ := Option.map_eq_some_iff.mp moved
  simp only [Prod.mk.injEq] at shown
  exact ⟨s, Reach.of_replay (.start rfl) _ replayed, shown⟩

end ScreenLock

end MsiSdrDriver.Service
