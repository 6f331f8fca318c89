import Mathlib.Data.List.Nodup
import MsiSdrDriver.Foundations.LabelledRuns
import MsiSdrDriver.Service.BinaryRunner

/-!
# At most one device runs in the service

The service with the devices that it has opened, under any order of its events: start commands,
requests through the binder for distinct devices, calls of `closeService`, and the devices
reporting that they have opened and, once each, that they have closed. The handlers run one at a
time. `MsiSdrDriver.Service.HandlerSteps` lets them disturb each other.

In every order of events the requests are opened at most once and in queue order
(`World.opened_in_order`). `onStartCommand` does not look at `isRunning`. Delivered while a device
is open it either opens a second one, or announces that nothing is running
(`World.start_while_open`), and `DeviceOpenActivity` has a start command delivered before it makes
its request (`World.two_devices_run`). Where start commands are delivered only while no device is
open, at most one device is open, and `isRunning` and `thisSdrDevice` tell which
(`World.one_device_runs`). The service then is one slot that the requests pass through in order
(`Slot`).
-/

set_option autoImplicit false

namespace MsiSdrDriver.Service

open MsiSdrDriver.Foundations

universe u v w

variable {δ : Type u} {α : Type v} {κ : Type w}

/-- The events of the service. -/
inductive Event (δ : Type u) (α : Type v) (κ : Type w) where
  | onStartCommand
  | startWithDevice (sdrDevice : δ) (sdrTcpArguments : α)
  | registerCallback (callback : κ)
  | closeService
  | onOpen (sdrDevice : δ)
  | onClosed (sdrDevice : δ)

/-- The service and its devices. `openDevices` are those on which `openAsync` has been called and
that have not reported `onClosed`. The requests that were queued, and the calls of `openAsync`, are
history. -/
structure World (δ : Type u) (α : Type v) (κ : Type w) where
  service : BinaryRunnerService δ α κ
  openDevices : List δ
  requests : List (δ × α)
  opened : List (δ × α)

namespace World

/-- A new service, before any event. -/
def Starts (w : World δ α κ) : Prop := w = ⟨.created, [], [], []⟩

/-- A handler has run. -/
def after (w : World δ α κ) (result : BinaryRunnerService δ α κ × List (Effect δ α κ)) :
    World δ α κ :=
  { w with
    service := result.1
    openDevices := w.openDevices ++ (opens result.2).map Prod.fst
    opened := w.opened ++ opens result.2 }

/-- At most one device is open, `isRunning` tells whether one is, `thisSdrDevice` is that device,
and the requests are opened in queue order and at most once. -/
structure OneRunning (w : World δ α κ) : Prop where
  atMostOne : w.openDevices.length ≤ 1
  running : w.service.isRunning = true ↔ w.openDevices ≠ []
  this : ∀ sdrDevice ∈ w.openDevices, w.service.thisSdrDevice = some sdrDevice
  order : w.opened <+: w.requests
  once : (w.opened.map Prod.fst).Nodup

/-- One event. The requests are for distinct devices, and only an open device reports. -/
def step [DecidableEq δ] [DecidableEq κ] (w : World δ α κ) : Event δ α κ → Option (World δ α κ)
  | .onStartCommand => some (w.after w.service.onStartCommand)
  | .startWithDevice sdrDevice sdrTcpArguments =>
      if sdrDevice ∈ w.requests.map Prod.fst then none
      else
        some { w.after (LocalBinder.startWithDevice w.service sdrDevice sdrTcpArguments) with
          requests := w.requests ++ [(sdrDevice, sdrTcpArguments)] }
  | .registerCallback callback =>
      some (w.after (LocalBinder.registerCallback w.service callback))
  | .closeService => some (w.after (w.service, w.service.closeService))
  | .onOpen sdrDevice =>
      if sdrDevice ∈ w.openDevices then some (w.after w.service.onOpen) else none
  | .onClosed sdrDevice =>
      if sdrDevice ∈ w.openDevices then
        some ({ w with openDevices := w.openDevices.erase sdrDevice }.after w.service.onClosed)
      else none

/-! ## Two devices -/

/-- A device is opened. `DeviceOpenActivity` starts the service and makes a request for a second
device, whose start command is then delivered. -/
def secondStart : List (Event ℕ Unit Empty) :=
  [.onStartCommand, .startWithDevice 1 (), .onStartCommand,
    .onStartCommand, .startWithDevice 2 (), .onStartCommand]

/-- **Two devices can run at once.** The start command that precedes the second request takes the
queue to be empty, and announces that nothing is running. -/
theorem two_devices_run :
    ¬ ∀ w : World ℕ Unit Empty, Reach step Starts Always w → w.OneRunning := by
  intro one
  have moved : (replay step ⟨.created, [], [], []⟩ secondStart).map
      (fun w : World ℕ Unit Empty => w.openDevices) = some [1, 2] := by decide
  obtain ⟨w, replayed, shown⟩ := Option.map_eq_some_iff.mp moved
  have reached : Reach step Starts Always w := Reach.of_replay (.start rfl) _ replayed
  have atMostOne := (one w reached).atMostOne
  rw [shown] at atMostOne
  exact absurd atMostOne (by decide)

/-! ## The order of the queue -/

/-- What has been requested has been opened or is queued, in order, and the devices are
distinct. -/
structure Queued (w : World δ α κ) : Prop where
  requests : w.requests = w.opened ++ w.service.workQueue
  distinct : (w.requests.map Prod.fst).Nodup

/-- A handler that opens what it takes from the queue. -/
theorem Queued.after {w : World δ α κ} (queued : w.Queued)
    {result : BinaryRunnerService δ α κ × List (Effect δ α κ)}
    (takes : w.service.workQueue = opens result.2 ++ result.1.workQueue) :
    (w.after result).Queued := by
  refine ⟨?_, queued.distinct⟩
  show w.requests = (w.opened ++ opens result.2) ++ result.1.workQueue
  rw [queued.requests, takes, List.append_assoc]

theorem startWithDevice_takes (s : BinaryRunnerService δ α κ) :
    s.workQueue = opens s.startWithDevice.2 ++ s.startWithDevice.1.workQueue := by
  rw [s.opens_startWithDevice, s.startWithDevice_workQueue]
  cases s.workQueue <;> rfl

theorem onClosed_takes (s : BinaryRunnerService δ α κ) :
    s.workQueue = opens s.onClosed.2 ++ s.onClosed.1.workQueue := by
  unfold BinaryRunnerService.onClosed
  split
  · rfl
  · exact startWithDevice_takes
      { s with thisSdrDevice := none, wl := s.wl.map fun _ => false }

theorem Queued.once {w : World δ α κ} (queued : w.Queued) : (w.opened.map Prod.fst).Nodup := by
  have distinct := queued.distinct
  rw [queued.requests, List.map_append] at distinct
  exact distinct.of_append_left

/-! ## One device -/

/-- The start command is delivered only while no device is open. -/
def StartsIdle (w : World δ α κ) : Event δ α κ → Prop
  | .onStartCommand => w.openDevices = []
  | _ => True

instance : DecidableRel (StartsIdle : World δ α κ → Event δ α κ → Prop) := fun w event =>
  match event with
  | .onStartCommand => decidable_of_iff (w.openDevices.isEmpty = true) List.isEmpty_iff
  | .startWithDevice _ _ | .registerCallback _ | .closeService | .onOpen _ | .onClosed _ =>
      inferInstanceAs (Decidable True)

/-- The service is a slot for one device. -/
structure Slot (w : World δ α κ) : Prop where
  openDevices : w.openDevices = w.service.thisSdrDevice.toList
  isRunning : w.service.isRunning = w.service.thisSdrDevice.isSome

theorem Slot.oneRunning {w : World δ α κ} (slot : w.Slot) (queued : w.Queued) : w.OneRunning := by
  obtain ⟨devices, running⟩ := slot
  refine ⟨?_, ?_, ?_, ⟨_, queued.requests.symm⟩, queued.once⟩
  · rw [devices]
    cases w.service.thisSdrDevice <;> simp
  · rw [devices, running]
    cases w.service.thisSdrDevice <;> simp
  · intro sdrDevice mem
    rw [devices] at mem
    exact Option.mem_toList.mp mem

/-- A handler that opens nothing, and leaves the slot as it is. -/
theorem Slot.after {w : World δ α κ} (slot : w.Slot)
    {result : BinaryRunnerService δ α κ × List (Effect δ α κ)} (silent : opens result.2 = [])
    (this : result.1.thisSdrDevice = w.service.thisSdrDevice)
    (isRunning : result.1.isRunning = w.service.isRunning) : (w.after result).Slot := by
  refine ⟨?_, ?_⟩
  · simp only [World.after, silent, this, List.map_nil, List.append_nil]
    exact slot.openDevices
  · simp only [World.after, this, isRunning]
    exact slot.isRunning

/-- The next request enters an empty slot. -/
theorem Slot.start {w : World δ α κ} {s : BinaryRunnerService δ α κ}
    (idle : w.openDevices = []) (empty : s.thisSdrDevice = none) :
    (w.after s.startWithDevice).Slot := by
  refine ⟨?_, ?_⟩
  · simp only [World.after, s.opens_startWithDevice, s.startWithDevice_thisSdrDevice, idle, empty]
    cases s.workQueue <;> rfl
  · simp only [World.after, s.startWithDevice_isRunning, s.startWithDevice_thisSdrDevice, empty]
    cases s.workQueue <;> rfl

/-! ## The events -/

variable [DecidableEq δ] [DecidableEq κ] {w w' : World δ α κ}

theorem Queued.step {event : Event δ α κ} (queued : w.Queued)
    (moves : w.step event = some w') : w'.Queued := by
  cases event with
  | onStartCommand =>
      cases moves
      exact queued.after (startWithDevice_takes w.service)
  | startWithDevice sdrDevice sdrTcpArguments =>
      simp only [World.step] at moves
      split at moves
      · cases moves
      next fresh =>
        cases moves
        refine ⟨?_, ?_⟩
        · simp only [World.after, LocalBinder.opens_startWithDevice, List.append_nil]
          rw [queued.requests, List.append_assoc]
          rfl
        · show ((w.requests ++ [(sdrDevice, sdrTcpArguments)]).map Prod.fst).Nodup
          rw [List.map_append]
          exact queued.distinct.append (List.nodup_singleton _)
            (List.disjoint_singleton.mpr fresh)
  | registerCallback callback =>
      cases moves
      exact queued.after (by rw [LocalBinder.opens_registerCallback]; rfl)
  | closeService =>
      cases moves
      exact queued.after (by rw [w.service.opens_closeService]; rfl)
  | onOpen sdrDevice =>
      simp only [World.step] at moves
      split at moves <;> cases moves
      exact queued.after rfl
  | onClosed sdrDevice =>
      simp only [World.step] at moves
      split at moves <;> cases moves
      have reported : { w with openDevices := w.openDevices.erase sdrDevice }.Queued :=
        ⟨queued.requests, queued.distinct⟩
      exact reported.after (onClosed_takes w.service)

theorem queued_of_reach {ok : World δ α κ → Event δ α κ → Prop}
    (reached : Reach step Starts ok w) : w.Queued := by
  refine reached.invariant ?_ fun w event w' queued _ moves => queued.step moves
  rintro w rfl
  exact ⟨rfl, List.nodup_nil⟩

/-- **Every request is opened at most once and in queue order**, in every order of events. -/
theorem opened_in_order {ok : World δ α κ → Event δ α κ → Prop}
    (reached : Reach step Starts ok w) :
    w.opened <+: w.requests ∧ (w.opened.map Prod.fst).Nodup :=
  ⟨⟨_, (queued_of_reach reached).requests.symm⟩, (queued_of_reach reached).once⟩

/-- The two devices that run at once are opened in order too. -/
theorem opened_in_order_secondStart :
    ∃ w : World ℕ Unit Empty, w.openDevices = [1, 2] ∧ w.opened <+: w.requests := by
  have moved : (replay step ⟨.created, [], [], []⟩ secondStart).map
      (fun w : World ℕ Unit Empty => w.openDevices) = some [1, 2] := by decide
  obtain ⟨w, replayed, shown⟩ := Option.map_eq_some_iff.mp moved
  exact ⟨w, shown, (opened_in_order (Reach.of_replay (.start rfl) _ replayed)).1⟩

theorem Slot.step {event : Event δ α κ} (slot : w.Slot) (startsIdle : w.StartsIdle event)
    (moves : w.step event = some w') : w'.Slot := by
  cases event with
  | onStartCommand =>
      cases moves
      have idle : w.openDevices = [] := startsIdle
      have empty : w.service.thisSdrDevice = none := by
        rw [slot.openDevices] at idle
        exact Option.toList_eq_nil_iff.mp idle
      exact .start idle empty
  | startWithDevice sdrDevice sdrTcpArguments =>
      simp only [World.step] at moves
      split at moves
      · cases moves
      cases moves
      have next := slot.after
        (LocalBinder.opens_startWithDevice w.service sdrDevice sdrTcpArguments) rfl rfl
      exact ⟨next.openDevices, next.isRunning⟩
  | registerCallback callback =>
      cases moves
      exact slot.after (LocalBinder.opens_registerCallback w.service callback) rfl rfl
  | closeService =>
      cases moves
      exact slot.after w.service.opens_closeService rfl rfl
  | onOpen sdrDevice =>
      simp only [World.step] at moves
      split at moves <;> cases moves
      exact slot.after rfl rfl rfl
  | onClosed sdrDevice =>
      simp only [World.step] at moves
      split at moves
      next mem =>
        cases moves
        rw [slot.openDevices] at mem
        have this : w.service.thisSdrDevice = some sdrDevice := Option.mem_toList.mp mem
        simp only [BinaryRunnerService.onClosed, this]
        refine .start ?_ rfl
        simp [slot.openDevices, this]
      · cases moves

/-- **At most one device runs**, in every order of events in which start commands are delivered
only while no device is open. -/
theorem one_device_runs (reached : Reach step Starts StartsIdle w) : w.OneRunning := by
  have slot : w.Slot := by
    refine reached.invariant ?_ fun w event w' slot startsIdle moves => slot.step startsIdle moves
    rintro w rfl
    exact ⟨rfl, rfl⟩
  exact slot.oneRunning (queued_of_reach reached)

/-- A device is opened, a second one is requested, and the first one reports that it has
closed. -/
def handover : List (Event ℕ Unit Empty) :=
  [.onStartCommand, .startWithDevice 1 (), .onStartCommand, .onOpen 1, .startWithDevice 2 (),
    .onClosed 1]

theorem one_device_runs_handover :
    ∃ w : World ℕ Unit Empty, w.openDevices = [2] ∧ w.opened = [(1, ()), (2, ())] ∧
      w.OneRunning := by
  have moved : (replayWhere step StartsIdle ⟨.created, [], [], []⟩ handover).map
      (fun w => (w.openDevices, w.opened)) = some ([2], [(1, ()), (2, ())]) := by decide
  obtain ⟨w, replayed, shown⟩ := Option.map_eq_some_iff.mp moved
  simp only [Prod.mk.injEq] at shown
  exact ⟨w, shown.1, shown.2, one_device_runs (Reach.of_replayWhere (.start rfl) _ replayed)⟩

/-- A start command that is delivered while a device is open opens a second one, or announces that
none is. -/
theorem start_while_open (busy : w.openDevices ≠ []) (moves : w.step .onStartCommand = some w') :
    ¬ w'.OneRunning := by
  cases moves
  intro one
  cases queue : w.service.workQueue with
  | nil =>
      have stays : (w.after w.service.onStartCommand).openDevices ≠ [] := by
        simp [World.after, busy]
      have running := one.running.mpr stays
      simp [World.after, BinaryRunnerService.onStartCommand,
        BinaryRunnerService.startWithDevice_isRunning, queue] at running
  | cons request rest =>
      have grows : (w.after w.service.onStartCommand).openDevices.length =
          w.openDevices.length + 1 := by
        simp [World.after, BinaryRunnerService.onStartCommand,
          BinaryRunnerService.opens_startWithDevice, queue]
      have atMostOne := one.atMostOne
      have some := List.length_pos_of_ne_nil busy
      omega

end World

end MsiSdrDriver.Service
