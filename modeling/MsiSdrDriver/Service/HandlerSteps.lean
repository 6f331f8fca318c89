import Mathlib.Logic.Function.Basic
import MsiSdrDriver.Service.BinaryRunner

/-!
# The handlers of the service, step by step

`BinaryRunnerService` has no lock for `isRunning` and `thisSdrDevice`. The start commands, the
requests through the binder and `closeService` run on the main thread, one at a time. A device
reports its end on a thread of its own, and goes on with `startWithDevice` there. So here every
access to a field is a step, and what is known of a field in one step may be wrong in the next.

A block that is `synchronized` is one step. A handler that reads `thisSdrDevice` where it is `null`
throws: on the main thread this is the end of the process, and on the thread of a device the end of
the thread. A handler that nobody disturbs does what it does in one step of
`MsiSdrDriver.Service.BinaryRunner` (`startWithDevice_undisturbed`, `onClosed_undisturbed`,
`request_undisturbed`).
-/

set_option autoImplicit false

namespace MsiSdrDriver.Service

universe u v w x

variable {δ : Type u} {α : Type v} {κ : Type w}

/-! ## Where a handler is -/

/-- Where a handler is in `startWithDevice`. The variable `sdrTcpArguments` is its own, and
`thisSdrDevice` is read again in every step. -/
inductive StartPc (δ : Type u) (α : Type v) where
  | poll
  -- `announceNotRunning`, and what follows
  | storeNotRunning
  | tellNotRunning
  | clearCallbacks
  | stopSelf
  -- a request has been taken from the queue
  | storeDevice (sdrDevice : δ) (sdrTcpArguments : α)
  | check (sdrTcpArguments : α)
  -- `announceRunning`, and what follows
  | readName (sdrTcpArguments : α)
  | storeRunning (sdrTcpArguments : α)
  | tellRunning (sdrTcpArguments : α)
  | addListener (sdrTcpArguments : α)
  | openAsync (sdrTcpArguments : α)
  | startForeground

/-- Where the thread of a device is: in the native `openAsync`, or in `onClosed`. -/
inductive DevicePc (δ : Type u) (α : Type v) where
  | unstarted
  | opened
  | sendDetached
  | stopForeground
  | forget
  | releaseLock
  | start (pc : StartPc δ α)
  | ended

/-- Where the main thread is: in a start command, in `LocalBinder.startWithDevice`, or in
`closeService`. -/
inductive MainPc (δ : Type u) (α : Type v) where
  | idle
  | start (pc : StartPc δ α)
  | isRunning
  | startService
  | closeIfRunning
  | readDevice
  | close (sdrDevice : δ)
  | crashed

/-- How a step of a handler ends. -/
inductive Progress (ρ : Type x) where
  | goes (pc : ρ)
  | returns
  | throws

def Progress.map {ρ σ : Type x} (f : ρ → σ) : Progress ρ → Progress σ
  | .goes pc => .goes (f pc)
  | .returns => .returns
  | .throws => .throws

/-- A step of a handler: the service after it, what it asks for, and how it ends. -/
structure HandlerStep (δ : Type u) (α : Type v) (κ : Type w) (ρ : Type x) where
  service : BinaryRunnerService δ α κ
  effects : List (Effect δ α κ)
  progress : Progress ρ

def HandlerStep.map {ρ σ : Type x} (f : ρ → σ) (r : HandlerStep δ α κ ρ) :
    HandlerStep δ α κ σ where
  service := r.service
  effects := r.effects
  progress := r.progress.map f

/-! ## Steps -/

/-- A step that needs the device. -/
def withDevice {ρ : Type x} (s : BinaryRunnerService δ α κ)
    (step : δ → List (Effect δ α κ) × ρ) : HandlerStep δ α κ ρ :=
  match s.thisSdrDevice with
  | none => ⟨s, [.nullPointerException], .throws⟩
  | some sdrDevice => ⟨s, (step sdrDevice).1, .goes (step sdrDevice).2⟩

/-- A step of `startWithDevice`. -/
def StartPc.step (s : BinaryRunnerService δ α κ) :
    StartPc δ α → HandlerStep δ α κ (StartPc δ α)
  | .poll =>
      match s.workQueue with
      | [] => ⟨s, [], .goes .storeNotRunning⟩
      | (sdrDevice, sdrTcpArguments) :: rest =>
          ⟨{ s with workQueue := rest }, [], .goes (.storeDevice sdrDevice sdrTcpArguments)⟩
  | .storeNotRunning => ⟨{ s with isRunning := false }, [], .goes .tellNotRunning⟩
  | .tellNotRunning => ⟨s, s.statusCallbacks.map .onServerNotRunning, .goes .clearCallbacks⟩
  | .clearCallbacks => ⟨{ s with statusCallbacks := [] }, [], .goes .stopSelf⟩
  | .stopSelf => ⟨s, [.stopSelf], .returns⟩
  | .storeDevice sdrDevice sdrTcpArguments =>
      ⟨{ s with thisSdrDevice := some sdrDevice }, [], .goes (.check sdrTcpArguments)⟩
  | .check sdrTcpArguments => withDevice s fun _ => ([], .readName sdrTcpArguments)
  | .readName sdrTcpArguments => withDevice s fun _ => ([], .storeRunning sdrTcpArguments)
  | .storeRunning sdrTcpArguments =>
      ⟨{ s with isRunning := true }, [], .goes (.tellRunning sdrTcpArguments)⟩
  | .tellRunning sdrTcpArguments =>
      ⟨s, s.statusCallbacks.map .onServerRunning, .goes (.addListener sdrTcpArguments)⟩
  | .addListener sdrTcpArguments =>
      withDevice s fun sdrDevice => ([.addOnStatusListener sdrDevice], .openAsync sdrTcpArguments)
  | .openAsync sdrTcpArguments =>
      withDevice s fun sdrDevice => ([.openAsync sdrDevice sdrTcpArguments], .startForeground)
  | .startForeground => ⟨s, [.startForeground], .returns⟩

/-- A step of the thread of a device. -/
def DevicePc.step (s : BinaryRunnerService δ α κ) :
    DevicePc δ α → Option (HandlerStep δ α κ (DevicePc δ α))
  | .unstarted | .ended => none
  | .opened => some ⟨s, [], .goes .sendDetached⟩
  | .sendDetached =>
      some (withDevice s fun sdrDevice => ([.sendDetached sdrDevice], .stopForeground))
  | .stopForeground => some ⟨s, [.stopForeground], .goes .forget⟩
  | .forget => some ⟨{ s with thisSdrDevice := none }, [], .goes .releaseLock⟩
  | .releaseLock =>
      some ⟨{ s with wl := s.wl.map fun _ => false }, [], .goes (.start .poll)⟩
  | .start pc => some ((pc.step s).map .start)

/-- A step of the main thread. -/
def MainPc.step (s : BinaryRunnerService δ α κ) :
    MainPc δ α → Option (HandlerStep δ α κ (MainPc δ α))
  | .idle | .crashed => none
  | .start pc => some ((pc.step s).map .start)
  | .isRunning => some ⟨s, [], .goes (if s.isRunning then .closeIfRunning else .startService)⟩
  | .startService => some ⟨s, [.startService], .returns⟩
  | .closeIfRunning => some ⟨s, [], if s.isRunning then .goes .readDevice else .returns⟩
  | .readDevice => some (withDevice s fun sdrDevice => ([], .close sdrDevice))
  | .close sdrDevice => some ⟨s, [.close sdrDevice], .returns⟩

theorem withDevice_some {ρ : Type x} {s : BinaryRunnerService δ α κ} {sdrDevice : δ}
    (this : s.thisSdrDevice = some sdrDevice) (step : δ → List (Effect δ α κ) × ρ) :
    withDevice s step = ⟨s, (step sdrDevice).1, .goes (step sdrDevice).2⟩ := by
  rw [withDevice, this]

theorem step_poll_nil {s : BinaryRunnerService δ α κ} (queue : s.workQueue = []) :
    StartPc.step s .poll = ⟨s, [], .goes .storeNotRunning⟩ := by
  rw [StartPc.step, queue]

theorem step_poll_cons {s : BinaryRunnerService δ α κ} {sdrDevice : δ} {sdrTcpArguments : α}
    {rest : List (δ × α)} (queue : s.workQueue = (sdrDevice, sdrTcpArguments) :: rest) :
    StartPc.step s .poll =
      ⟨{ s with workQueue := rest }, [], .goes (.storeDevice sdrDevice sdrTcpArguments)⟩ := by
  rw [StartPc.step, queue]

/-! ## Handlers that nobody disturbs -/

/-- The steps of a handler, with nothing in between. -/
inductive Undisturbed {ρ : Type x}
    (step : BinaryRunnerService δ α κ → ρ → Option (HandlerStep δ α κ ρ)) :
    BinaryRunnerService δ α κ → ρ → List (Effect δ α κ) → BinaryRunnerService δ α κ → Prop where
  | returns {s s' : BinaryRunnerService δ α κ} {pc : ρ} {effects : List (Effect δ α κ)} :
      step s pc = some ⟨s', effects, .returns⟩ → Undisturbed step s pc effects s'
  | throws {s s' : BinaryRunnerService δ α κ} {pc : ρ} {effects : List (Effect δ α κ)} :
      step s pc = some ⟨s', effects, .throws⟩ → Undisturbed step s pc effects s'
  | goes {s s' s'' : BinaryRunnerService δ α κ} {pc pc' : ρ}
      {effects effects' : List (Effect δ α κ)} :
      step s pc = some ⟨s', effects, .goes pc'⟩ → Undisturbed step s' pc' effects' s'' →
        Undisturbed step s pc (effects ++ effects') s''

section Undisturbed

variable {s s' : BinaryRunnerService δ α κ}

/-- The steps of a handler that is a part of another one. -/
theorem Undisturbed.map {ρ σ : Type x}
    {part : BinaryRunnerService δ α κ → ρ → Option (HandlerStep δ α κ ρ)}
    {whole : BinaryRunnerService δ α κ → σ → Option (HandlerStep δ α κ σ)} (f : ρ → σ)
    (same : ∀ s pc, whole s (f pc) = (part s pc).map (HandlerStep.map f)) {pc : ρ}
    {effects : List (Effect δ α κ)} (undisturbed : Undisturbed part s pc effects s') :
    Undisturbed whole s (f pc) effects s' := by
  induction undisturbed with
  | returns last =>
      refine .returns ?_
      rw [same, last]
      rfl
  | throws last =>
      refine .throws ?_
      rw [same, last]
      rfl
  | goes first _ ih =>
      refine .goes ?_ ih
      rw [same, first]
      rfl

theorem startWithDevice_undisturbed (s : BinaryRunnerService δ α κ) :
    Undisturbed (fun s pc => some (StartPc.step s pc)) s .poll s.startWithDevice.2
      s.startWithDevice.1 := by
  obtain ⟨isRunning, thisSdrDevice, statusCallbacks, workQueue, wl⟩ := s
  cases workQueue with
  | nil =>
      show Undisturbed _ _ _ ([] ++ ([] ++ (statusCallbacks.map .onServerNotRunning ++
        ([] ++ [.stopSelf])))) _
      exact .goes rfl (.goes rfl (.goes rfl (.goes rfl (.returns rfl))))
  | cons request rest =>
      obtain ⟨sdrDevice, sdrTcpArguments⟩ := request
      show Undisturbed _ _ _ ([] ++ ([] ++ ([] ++ ([] ++ ([] ++
        (statusCallbacks.map .onServerRunning ++ ([.addOnStatusListener sdrDevice] ++
          ([.openAsync sdrDevice sdrTcpArguments] ++ [.startForeground])))))))) _
      exact .goes rfl (.goes rfl (.goes rfl (.goes rfl (.goes rfl (.goes rfl (.goes rfl
        (.goes rfl (.returns rfl))))))))

theorem onStartCommand_undisturbed (s : BinaryRunnerService δ α κ) :
    Undisturbed MainPc.step s (.start .poll) s.onStartCommand.2 s.onStartCommand.1 :=
  (startWithDevice_undisturbed s).map MainPc.start fun _ _ => rfl

theorem onClosed_undisturbed (s : BinaryRunnerService δ α κ) :
    Undisturbed DevicePc.step s .sendDetached s.onClosed.2 s.onClosed.1 := by
  obtain ⟨isRunning, thisSdrDevice, statusCallbacks, workQueue, wl⟩ := s
  cases thisSdrDevice with
  | none => exact .throws rfl
  | some sdrDevice =>
      let forgotten : BinaryRunnerService δ α κ :=
        ⟨isRunning, none, statusCallbacks, workQueue, wl.map fun _ => false⟩
      have started : Undisturbed DevicePc.step forgotten (.start .poll)
          forgotten.startWithDevice.2 forgotten.startWithDevice.1 :=
        (startWithDevice_undisturbed forgotten).map DevicePc.start fun _ _ => rfl
      show Undisturbed _ _ _ ([.sendDetached sdrDevice] ++ ([.stopForeground] ++
        ([] ++ ([] ++ forgotten.startWithDevice.2)))) forgotten.startWithDevice.1
      exact .goes rfl (.goes rfl (.goes rfl (.goes rfl started)))

theorem closeService_undisturbed (s : BinaryRunnerService δ α κ) :
    Undisturbed MainPc.step s .closeIfRunning s.closeService s := by
  unfold BinaryRunnerService.closeService
  split
  next running =>
    have found : MainPc.step s .closeIfRunning = some ⟨s, [], .goes .readDevice⟩ := by
      rw [MainPc.step, if_pos running]
    refine .goes found ?_
    split
    next sdrDevice this =>
      have read : MainPc.step s .readDevice = some ⟨s, [], .goes (.close sdrDevice)⟩ := by
        rw [MainPc.step, withDevice, this]
      exact .goes read (.returns rfl)
    next gone =>
      refine .throws ?_
      rw [MainPc.step, withDevice, gone]
  next stopped =>
    refine .returns ?_
    rw [MainPc.step, if_neg stopped]

theorem request_undisturbed (s : BinaryRunnerService δ α κ) (sdrDevice : δ)
    (sdrTcpArguments : α) :
    Undisturbed MainPc.step (s.addWork sdrDevice sdrTcpArguments) .isRunning
      (LocalBinder.startWithDevice s sdrDevice sdrTcpArguments).2
      (LocalBinder.startWithDevice s sdrDevice sdrTcpArguments).1 := by
  unfold LocalBinder.startWithDevice
  dsimp only
  generalize s.addWork sdrDevice sdrTcpArguments = s
  cases running : s.isRunning with
  | true =>
      have looked : MainPc.step s .isRunning = some ⟨s, [], .goes .closeIfRunning⟩ := by
        rw [MainPc.step, if_pos running]
      rw [if_pos rfl]
      exact .goes looked (closeService_undisturbed s)
  | false =>
      have looked : MainPc.step s .isRunning = some ⟨s, [], .goes .startService⟩ := by
        rw [MainPc.step, running]
        rfl
      rw [if_neg Bool.false_ne_true]
      exact .goes looked (.returns rfl)

end Undisturbed

/-! ## Threads -/

/-- The service, the main thread and the threads of the devices. `owed` counts the start commands
that the system has still to deliver. What was requested, and what the handlers of start commands
and of closed devices have asked for, are history. -/
structure Handlers (δ : Type u) (α : Type v) (κ : Type w) where
  service : BinaryRunnerService δ α κ
  main : MainPc δ α
  threads : δ → DevicePc δ α
  owed : ℕ
  requests : List (δ × α)
  effects : List (Effect δ α κ)

/-- A handler of the main thread begins, a handler takes a step, or a device has opened. -/
inductive HandlerEvent (δ : Type u) (α : Type v) (κ : Type w) where
  | onStartCommand
  | startWithDevice (sdrDevice : δ) (sdrTcpArguments : α)
  | registerCallback (callback : κ)
  | closeService
  | main
  | onOpen (sdrDevice : δ)
  | device (sdrDevice : δ)

/-- Where the main thread is after a step. -/
def Progress.main : Progress (MainPc δ α) → MainPc δ α
  | .goes pc => pc
  | .returns => .idle
  | .throws => .crashed

/-- Where the thread of a device is after a step. -/
def Progress.device : Progress (DevicePc δ α) → DevicePc δ α
  | .goes pc => pc
  | .returns | .throws => .ended

/-- `openAsync` starts the thread of a device. -/
def startThreads [DecidableEq δ] (threads : δ → DevicePc δ α) (opened : List (δ × α)) :
    δ → DevicePc δ α :=
  opened.foldl (fun threads request => Function.update threads request.1 .opened) threads

/-- A call of `startService`, for which the system owes a start command. -/
def Effect.asksStart : Effect δ α κ → Bool
  | .startService => true
  | _ => false

namespace Handlers

/-- A new service. -/
def initial : Handlers δ α κ where
  service := .created
  main := .idle
  threads := fun _ => .unstarted
  owed := 0
  requests := []
  effects := []

def Starts (s : Handlers δ α κ) : Prop := s = initial

variable [DecidableEq δ]

/-- The main thread has taken a step of a start command. -/
def afterStart (s : Handlers δ α κ) (r : HandlerStep δ α κ (StartPc δ α)) : Handlers δ α κ :=
  { s with
    service := r.service
    main := (r.progress.map MainPc.start).main
    threads := startThreads s.threads (opens r.effects)
    effects := s.effects ++ r.effects }

/-- The main thread has taken a step of another handler. Of what it asks for, the start commands are
counted. -/
def afterMain (s : Handlers δ α κ) (r : HandlerStep δ α κ (MainPc δ α)) : Handlers δ α κ :=
  { s with
    service := r.service
    main := r.progress.main
    owed := s.owed + r.effects.countP Effect.asksStart }

/-- The thread of a device has taken a step. -/
def afterDevice (s : Handlers δ α κ) (sdrDevice : δ) (r : HandlerStep δ α κ (DevicePc δ α)) :
    Handlers δ α κ :=
  { s with
    service := r.service
    threads := startThreads (Function.update s.threads sdrDevice r.progress.device)
      (opens r.effects)
    effects := s.effects ++ r.effects }

/-- One step of one thread. The main thread begins a handler when the last one has returned. The
requests are for distinct devices. -/
def step [DecidableEq κ] (s : Handlers δ α κ) : HandlerEvent δ α κ → Option (Handlers δ α κ)
  | .onStartCommand =>
      match s.main with
      | .idle => some { s with main := .start .poll, owed := s.owed - 1 }
      | _ => none
  | .startWithDevice sdrDevice sdrTcpArguments =>
      match s.main with
      | .idle =>
          if sdrDevice ∈ s.requests.map Prod.fst then none
          else
            some { s with
              service := s.service.addWork sdrDevice sdrTcpArguments
              main := .isRunning
              requests := s.requests ++ [(sdrDevice, sdrTcpArguments)] }
      | _ => none
  | .registerCallback callback =>
      match s.main with
      | .idle =>
          some { s with service := (LocalBinder.registerCallback s.service callback).1 }
      | _ => none
  | .closeService =>
      match s.main with
      | .idle => some { s with main := .closeIfRunning }
      | _ => none
  | .main =>
      match s.main with
      | .start pc => some (s.afterStart (pc.step s.service))
      | pc => (pc.step s.service).map s.afterMain
  | .onOpen sdrDevice =>
      match s.threads sdrDevice with
      | .opened => some { s with service := s.service.onOpen.1 }
      | _ => none
  | .device sdrDevice => ((s.threads sdrDevice).step s.service).map (s.afterDevice sdrDevice)

end Handlers

end MsiSdrDriver.Service
