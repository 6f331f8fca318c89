import MsiSdrDriver.Service.OneDevice

/-!
# What the callbacks are told

The runs of the service with everything that its handlers ask of others, in order (`Journal`). Each
handler is one step here.

In every order of events, a registered callback was last told what `isRunning` is, and a callback
that is not registered was not last told that the service runs (`Journal.callbacks_told`). A
callback is dropped when the service stops, and after that hears nothing of a later start.
-/

set_option autoImplicit false

namespace MsiSdrDriver.Service

open MsiSdrDriver.Foundations

universe u v w

variable {δ : Type u} {α : Type v} {κ : Type w}

/-! ## Effects in order -/

/-- The handler of an event. -/
def BinaryRunnerService.handle [DecidableEq κ] (s : BinaryRunnerService δ α κ) :
    Event δ α κ → BinaryRunnerService δ α κ × List (Effect δ α κ)
  | .onStartCommand => s.onStartCommand
  | .startWithDevice sdrDevice sdrTcpArguments =>
      LocalBinder.startWithDevice s sdrDevice sdrTcpArguments
  | .registerCallback callback => LocalBinder.registerCallback s callback
  | .closeService => (s, s.closeService)
  | .onOpen _ => s.onOpen
  | .onClosed _ => s.onClosed

/-- The service and its devices, with all effects so far as history. -/
structure Journal (δ : Type u) (α : Type v) (κ : Type w) where
  world : World δ α κ
  effects : List (Effect δ α κ)

/-- What an effect tells a callback about the service. -/
def Effect.tells [DecidableEq κ] (callback : κ) : Effect δ α κ → Option Bool
  | .onServerRunning other => if other = callback then some true else none
  | .onServerNotRunning other => if other = callback then some false else none
  | _ => none

/-- What a callback was told last. -/
def lastTold [DecidableEq κ] (callback : κ) (effects : List (Effect δ α κ)) : Option Bool :=
  (effects.filterMap (·.tells callback)).getLast?

namespace Journal

/-- A new service, before any event. -/
def initial : Journal δ α κ := ⟨⟨.created, [], [], []⟩, []⟩

variable [DecidableEq δ] [DecidableEq κ]

def Starts (j : Journal δ α κ) : Prop := j = initial

def step (j : Journal δ α κ) (event : Event δ α κ) : Option (Journal δ α κ) :=
  (j.world.step event).map fun world =>
    ⟨world, j.effects ++ (j.world.service.handle event).2⟩

/-- The service of the next world is what the handler returns. -/
theorem service_step {w w' : World δ α κ} {event : Event δ α κ} (moves : w.step event = some w') :
    w'.service = (w.service.handle event).1 := by
  cases event with
  | onStartCommand | registerCallback callback | closeService =>
      cases moves
      rfl
  | startWithDevice sdrDevice sdrTcpArguments =>
      simp only [World.step] at moves
      split at moves <;> cases moves
      rfl
  | onOpen sdrDevice | onClosed sdrDevice =>
      simp only [World.step] at moves
      split at moves <;> cases moves
      rfl

variable {j j' : Journal δ α κ} {event : Event δ α κ}

/-- A step of the journal appends what the handler asks for. -/
theorem step_cases (moves : j.step event = some j') :
    j'.world.service = (j.world.service.handle event).1 ∧
      j'.effects = j.effects ++ (j.world.service.handle event).2 := by
  obtain ⟨world, moved, rfl⟩ := Option.map_eq_some_iff.mp moves
  exact ⟨service_step moved, rfl⟩

end Journal

/-! ## What a callback is told -/

section Told

variable [DecidableEq κ] {callback : κ}

theorem lastTold_append (before after : List (Effect δ α κ)) :
    lastTold callback (before ++ after) =
      (lastTold callback after).or (lastTold callback before) := by
  rw [lastTold, List.filterMap_append, List.getLast?_append]
  rfl

/-- All callbacks are told the same. -/
theorem lastTold_announcement {announce : κ → Effect δ α κ} {running : Bool}
    (tells : ∀ other, (announce other).tells callback =
      if other = callback then some running else none) (callbacks : List κ) :
    lastTold callback (callbacks.map announce) =
      if callback ∈ callbacks then some running else none := by
  induction callbacks with
  | nil => rfl
  | cons other rest ih =>
      have first : lastTold callback [announce other] =
          if other = callback then some running else none := by
        by_cases same : other = callback <;> simp [lastTold, tells, same]
      rw [List.map_cons, ← List.singleton_append, lastTold_append, ih, first]
      by_cases same : other = callback
      · simp [same]
        split <;> rfl
      · have different : callback ≠ other := fun equal => same equal.symm
        simp [same, different]

theorem lastTold_running (callbacks : List κ) :
    lastTold callback (callbacks.map .onServerRunning : List (Effect δ α κ)) =
      if callback ∈ callbacks then some true else none :=
  lastTold_announcement (fun _ => rfl) callbacks

theorem lastTold_notRunning (callbacks : List κ) :
    lastTold callback (callbacks.map .onServerNotRunning : List (Effect δ α κ)) =
      if callback ∈ callbacks then some false else none :=
  lastTold_announcement (fun _ => rfl) callbacks

/-- What a callback has been told last is right. -/
structure Hears (s : BinaryRunnerService δ α κ) (callback : κ) (told : Option Bool) : Prop where
  registered : callback ∈ s.statusCallbacks → told = some s.isRunning
  dropped : callback ∉ s.statusCallbacks → told ≠ some true

variable {s s' : BinaryRunnerService δ α κ} {effects later : List (Effect δ α κ)}

/-- A handler that tells nobody. -/
theorem Hears.silent (hears : Hears s callback (lastTold callback effects))
    (silent : lastTold callback later = none) (callbacks : s'.statusCallbacks = s.statusCallbacks)
    (isRunning : s'.isRunning = s.isRunning) :
    Hears s' callback (lastTold callback (effects ++ later)) := by
  rw [lastTold_append, silent, Option.none_or]
  constructor
  · rw [callbacks, isRunning]
    exact hears.registered
  · rw [callbacks]
    exact hears.dropped

/-- **The service starts or stops**, and tells every registered callback. -/
theorem Hears.startWithDevice (hears : Hears s callback (lastTold callback effects)) :
    Hears s.startWithDevice.1 callback
      (lastTold callback (effects ++ s.startWithDevice.2)) := by
  unfold BinaryRunnerService.startWithDevice
  split
  · refine ⟨fun registered => absurd registered List.not_mem_nil, fun _ => ?_⟩
    show lastTold callback
      (effects ++ (s.statusCallbacks.map .onServerNotRunning ++ [.stopSelf])) ≠ _
    rw [lastTold_append, lastTold_append, lastTold_notRunning]
    by_cases registered : callback ∈ s.statusCallbacks
    · rw [if_pos registered]
      simp [lastTold, Effect.tells]
    · rw [if_neg registered]
      exact hears.dropped registered
  · next device sdrTcpArguments rest queue =>
      have told : lastTold callback (effects ++ (s.statusCallbacks.map .onServerRunning ++
          [.addOnStatusListener device, .openAsync device sdrTcpArguments, .startForeground])) =
          if callback ∈ s.statusCallbacks then some true else lastTold callback effects := by
        rw [lastTold_append, lastTold_append, lastTold_running]
        split <;> rfl
      refine ⟨fun registered => told.trans (if_pos registered), fun dropped => ?_⟩
      have kept := told.trans (if_neg dropped)
      exact fun same => hears.dropped dropped (kept.symm.trans same)

/-- **One event.** -/
theorem Hears.handle (hears : Hears s callback (lastTold callback effects))
    (event : Event δ α κ) :
    Hears (s.handle event).1 callback (lastTold callback (effects ++ (s.handle event).2)) := by
  cases event with
  | onStartCommand => exact hears.startWithDevice
  | startWithDevice sdrDevice sdrTcpArguments =>
      refine hears.silent ?_ rfl rfl
      simp only [BinaryRunnerService.handle, LocalBinder.startWithDevice,
        BinaryRunnerService.closeService]
      split
      · split <;> rfl
      · rfl
  | registerCallback other =>
      show Hears { s with statusCallbacks := s.statusCallbacks.insert other } callback
        (lastTold callback (effects ++
          [if s.isRunning then .onServerRunning other else .onServerNotRunning other]))
      rw [lastTold_append]
      by_cases same : other = callback
      · rw [← same]
        refine ⟨fun _ => ?_, fun dropped => absurd List.mem_insert_self dropped⟩
        cases running : s.isRunning <;> simp [lastTold, Effect.tells]
      · have silent : lastTold callback ([if s.isRunning then .onServerRunning other
            else .onServerNotRunning other] : List (Effect δ α κ)) = none := by
          cases s.isRunning <;> simp [lastTold, Effect.tells, same]
        have different : callback ≠ other := fun equal => same equal.symm
        rw [silent, Option.none_or]
        refine ⟨fun registered => ?_, fun dropped => ?_⟩
        · exact hears.registered ((List.mem_insert_iff.mp registered).resolve_left different)
        · exact hears.dropped fun registered => dropped (List.mem_insert_of_mem registered)
  | closeService =>
      refine hears.silent ?_ rfl rfl
      simp only [BinaryRunnerService.handle, BinaryRunnerService.closeService]
      split
      · split <;> rfl
      · rfl
  | onOpen sdrDevice => exact hears.silent rfl rfl rfl
  | onClosed sdrDevice =>
      simp only [BinaryRunnerService.handle, BinaryRunnerService.onClosed]
      split
      · exact hears.silent rfl rfl rfl
      next device this =>
        have closed : Hears { s with thisSdrDevice := none, wl := s.wl.map fun _ => false } callback
            (lastTold callback (effects ++ [.sendDetached device, .stopForeground])) :=
          hears.silent rfl rfl rfl
        have started := closed.startWithDevice
        rw [List.append_assoc] at started
        exact started

end Told

/-! ## Every run -/

namespace Journal

variable [DecidableEq δ] [DecidableEq κ] {j : Journal δ α κ}

/-- **A registered callback knows whether the service runs**, in every order of events, and one that
has been dropped does not take it to run. -/
theorem callbacks_told (reached : Reach step Starts Always j) (callback : κ) :
    (callback ∈ j.world.service.statusCallbacks →
      lastTold callback j.effects = some j.world.service.isRunning) ∧
    (callback ∉ j.world.service.statusCallbacks → lastTold callback j.effects ≠ some true) := by
  have hears : Hears j.world.service callback (lastTold callback j.effects) := by
    refine reached.invariant (I := fun j => Hears j.world.service callback
      (lastTold callback j.effects)) ?_ ?_
    · rintro j rfl
      exact ⟨fun registered => absurd registered List.not_mem_nil, fun _ => by
        rintro ⟨⟩⟩
    · intro j event j' hears _ moves
      obtain ⟨service, effects⟩ := step_cases moves
      rw [service, effects]
      exact hears.handle event
  exact ⟨hears.registered, hears.dropped⟩

/-- Two callbacks hear of a device that opens and closes. One of them had been dropped before, when
a start command found the queue empty. -/
def droppedCallback : List (Event ℕ Unit ℕ) :=
  [.registerCallback 8, .onStartCommand, .registerCallback 9, .startWithDevice 1 (),
    .onStartCommand, .onOpen 1]

theorem callbacks_told_droppedCallback :
    ∃ j : Journal ℕ Unit ℕ, j.world.openDevices = [1] ∧
      lastTold 9 j.effects = some true ∧ lastTold 8 j.effects ≠ some true := by
  have moved : (replay step initial droppedCallback).map
      (fun j => (j.world.openDevices, j.world.service.statusCallbacks,
        j.world.service.isRunning)) = some ([1], [9], true) := by decide
  obtain ⟨j, replayed, shown⟩ := Option.map_eq_some_iff.mp moved
  simp only [Prod.mk.injEq] at shown
  obtain ⟨openDevices, callbacks, running⟩ := shown
  have told := callbacks_told (Reach.of_replay (.start rfl) _ replayed)
  simp only [callbacks, running] at told
  exact ⟨j, openDevices, (told 9).1 (by decide), (told 8).2 (by decide)⟩

end Journal

end MsiSdrDriver.Service
