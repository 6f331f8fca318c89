import Mathlib.Data.List.Basic

/-!
# The service that runs the devices

`BinaryRunnerService` keeps a queue of requests, and runs the device of one of them. Its handlers
are functions of the service that return the new service and, in order, what they ask of the
devices, of the registered callbacks and of the system (`Effect`). A handler that throws stops
where it is, and its last effect says so.

The start command, the request through the binder and the report of a closed device all come to
`BinaryRunnerService.startWithDevice`, which takes the next request from the queue, or decides that
nothing is running. Over an event it takes at most the head of the queue
(`startWithDevice_workQueue`), and opens that and nothing else (`opens_startWithDevice`).
-/

set_option autoImplicit false

namespace MsiSdrDriver.Service

universe u v w

/-- What the service asks of others: of devices `δ`, with the arguments `α` of a request, and of
callbacks `κ`. -/
inductive Effect (δ : Type u) (α : Type v) (κ : Type w) where
  | onServerRunning (callback : κ)
  | onServerNotRunning (callback : κ)
  | addOnStatusListener (device : δ)
  | openAsync (device : δ) (sdrTcpArguments : α)
  | close (device : δ)
  /-- the broadcast `ACTION_SDR_DEVICE_DETACHED`, with the name of the device -/
  | sendDetached (device : δ)
  | startService
  | stopSelf
  | startForeground
  | stopForeground
  | nullPointerException

/-- The fields of the service. `wl` is the wake lock, if there is one, and whether it is held. -/
structure BinaryRunnerService (δ : Type u) (α : Type v) (κ : Type w) where
  isRunning : Bool
  thisSdrDevice : Option δ
  statusCallbacks : List κ
  workQueue : List (δ × α)
  wl : Option Bool

variable {δ : Type u} {α : Type v} {κ : Type w}

namespace BinaryRunnerService

/-- A new service. -/
def created : BinaryRunnerService δ α κ := ⟨false, none, [], [], none⟩

def addWork (s : BinaryRunnerService δ α κ) (sdrDevice : δ) (arguments : α) :
    BinaryRunnerService δ α κ :=
  { s with workQueue := s.workQueue ++ [(sdrDevice, arguments)] }

def announceRunning (s : BinaryRunnerService δ α κ) :
    BinaryRunnerService δ α κ × List (Effect δ α κ) :=
  ({ s with isRunning := true }, s.statusCallbacks.map .onServerRunning)

def announceNotRunning (s : BinaryRunnerService δ α κ) :
    BinaryRunnerService δ α κ × List (Effect δ α κ) :=
  ({ s with isRunning := false }, s.statusCallbacks.map .onServerNotRunning)

/-- Take the next request from the queue and open its device. -/
def startWithDevice (s : BinaryRunnerService δ α κ) :
    BinaryRunnerService δ α κ × List (Effect δ α κ) :=
  match s.workQueue with
  | [] =>
      let (s, announced) := s.announceNotRunning
      ({ s with statusCallbacks := [] }, announced ++ [.stopSelf])
  | (device, sdrTcpArguments) :: rest =>
      let (s, announced) :=
        { s with workQueue := rest, thisSdrDevice := some device }.announceRunning
      (s, announced ++
        [.addOnStatusListener device, .openAsync device sdrTcpArguments, .startForeground])

/-- The system delivers a start command. -/
def onStartCommand (s : BinaryRunnerService δ α κ) :
    BinaryRunnerService δ α κ × List (Effect δ α κ) :=
  s.startWithDevice

/-- The status listener: a device has opened. It acquires a new wake lock. -/
def onOpen (s : BinaryRunnerService δ α κ) :
    BinaryRunnerService δ α κ × List (Effect δ α κ) :=
  ({ s with wl := some true }, [])

/-- The status listener: a device has closed. It is not told which, and takes the name from
`thisSdrDevice`. -/
def onClosed (s : BinaryRunnerService δ α κ) :
    BinaryRunnerService δ α κ × List (Effect δ α κ) :=
  match s.thisSdrDevice with
  | none => (s, [.nullPointerException])
  | some device =>
      let (s, started) :=
        { s with thisSdrDevice := none, wl := s.wl.map fun _ => false }.startWithDevice
      (s, .sendDetached device :: .stopForeground :: started)

/-- It changes no field. -/
def closeService (s : BinaryRunnerService δ α κ) : List (Effect δ α κ) :=
  if s.isRunning then
    match s.thisSdrDevice with
    | some device => [.close device]
    | none => [.nullPointerException]
  else []

end BinaryRunnerService

namespace LocalBinder

def registerCallback [DecidableEq κ] (s : BinaryRunnerService δ α κ) (callback : κ) :
    BinaryRunnerService δ α κ × List (Effect δ α κ) :=
  ({ s with statusCallbacks := s.statusCallbacks.insert callback },
    [if s.isRunning then .onServerRunning callback else .onServerNotRunning callback])

/-- A request through the binder. It starts the service, or closes the device that is running, so
that the report of its end takes the request from the queue. -/
def startWithDevice (s : BinaryRunnerService δ α κ) (sdrDevice : δ) (sdrTcpArguments : α) :
    BinaryRunnerService δ α κ × List (Effect δ α κ) :=
  let s := s.addWork sdrDevice sdrTcpArguments
  (s, if s.isRunning then s.closeService else [.startService])

end LocalBinder

/-! ## What the handlers open -/

/-- The calls of `openAsync` among some effects. -/
def opens (effects : List (Effect δ α κ)) : List (δ × α) :=
  effects.filterMap fun
    | .openAsync device sdrTcpArguments => some (device, sdrTcpArguments)
    | _ => none

namespace BinaryRunnerService

variable (s : BinaryRunnerService δ α κ)

theorem opens_startWithDevice : opens s.startWithDevice.2 = s.workQueue.head?.toList := by
  unfold startWithDevice
  split
  · next empty => simp [announceNotRunning, opens, empty]
  · next device sdrTcpArguments rest queue => simp [announceRunning, opens, queue]

theorem startWithDevice_workQueue : s.startWithDevice.1.workQueue = s.workQueue.tail := by
  unfold startWithDevice
  split
  · next empty => simp [announceNotRunning, empty]
  · next device sdrTcpArguments rest queue => simp [announceRunning, queue]

/-- Nothing is running after it only if nothing was queued. -/
theorem startWithDevice_isRunning :
    s.startWithDevice.1.isRunning = s.workQueue.head?.isSome := by
  unfold startWithDevice
  split
  · next empty => simp [announceNotRunning, empty]
  · next device sdrTcpArguments rest queue => simp [announceRunning, queue]

theorem startWithDevice_thisSdrDevice :
    s.startWithDevice.1.thisSdrDevice =
      (s.workQueue.head?.map Prod.fst).or s.thisSdrDevice := by
  unfold startWithDevice
  split
  · next empty => simp [announceNotRunning, empty]
  · next device sdrTcpArguments rest queue => simp [announceRunning, queue]

theorem opens_closeService : opens s.closeService = [] := by
  unfold closeService
  split
  · split <;> rfl
  · rfl

end BinaryRunnerService

namespace LocalBinder

variable (s : BinaryRunnerService δ α κ)

theorem opens_registerCallback [DecidableEq κ] (callback : κ) :
    opens (registerCallback s callback).2 = [] := by
  simp only [registerCallback]
  split <;> rfl

theorem opens_startWithDevice (sdrDevice : δ) (sdrTcpArguments : α) :
    opens (startWithDevice s sdrDevice sdrTcpArguments).2 = [] := by
  simp only [startWithDevice]
  split
  · exact BinaryRunnerService.opens_closeService _
  · rfl

end LocalBinder

end MsiSdrDriver.Service
