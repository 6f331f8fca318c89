import Mathlib.Data.List.Nodup
import MsiSdrDriver.Foundations.LabelledRuns
import MsiSdrDriver.Service.HandlerSteps

/-!
# Who runs the service

The fields of the service are safe without a lock as long as start commands are delivered only
while no device is open and no device's thread is in a handler. Then one thread at a time owns them,
whatever the others do meanwhile. It is the main thread in a start command, and then the thread of
the device that was opened, which goes on to the next one. The thread that has opened a device has
only `startForeground` left to call (`Owned`).

Requests do not need the fields to be owned. They are opened in the order of the queue
(`Owned.requests`).
-/

set_option autoImplicit false

namespace MsiSdrDriver.Service

open MsiSdrDriver.Foundations

universe u v w

variable {δ : Type u} {α : Type v} {κ : Type w}

/-! ## Places -/

/-- The owner of the fields, and where it is. -/
inductive Place (δ : Type u) (α : Type v) where
  | nobody
  | main (pc : StartPc δ α)
  | device (sdrDevice : δ) (pc : DevicePc δ α)

/-- The fields while their owner is in `startWithDevice`. `running` is what `isRunning` was when it
began. -/
def StartPc.Fits (running : Bool) (s : BinaryRunnerService δ α κ) : StartPc δ α → Prop
  | .poll | .storeNotRunning | .storeDevice _ _ => s.thisSdrDevice = none ∧ s.isRunning = running
  | .tellNotRunning | .clearCallbacks | .stopSelf =>
      s.thisSdrDevice = none ∧ s.isRunning = false
  | .check _ | .readName _ | .storeRunning _ =>
      s.thisSdrDevice ≠ none ∧ s.isRunning = running
  | .tellRunning _ | .addListener _ | .openAsync _ =>
      s.thisSdrDevice ≠ none ∧ s.isRunning = true
  | .startForeground => False

/-- The fields while the thread of a device owns them. -/
def DevicePc.Fits (sdrDevice : δ) (s : BinaryRunnerService δ α κ) : DevicePc δ α → Prop
  | .opened | .sendDetached | .stopForeground | .forget =>
      s.thisSdrDevice = some sdrDevice ∧ s.isRunning = true
  | .releaseLock => s.thisSdrDevice = none ∧ s.isRunning = true
  | .start pc => pc.Fits true s
  | .unstarted | .ended => False

/-- The request that has been taken from the queue and not opened. -/
def StartPc.flight (thisSdrDevice : Option δ) : StartPc δ α → List (δ × α)
  | .storeDevice sdrDevice sdrTcpArguments => [(sdrDevice, sdrTcpArguments)]
  | .check sdrTcpArguments | .readName sdrTcpArguments | .storeRunning sdrTcpArguments
  | .tellRunning sdrTcpArguments | .addListener sdrTcpArguments | .openAsync sdrTcpArguments =>
      (thisSdrDevice.map fun sdrDevice => (sdrDevice, sdrTcpArguments)).toList
  | .poll | .storeNotRunning | .tellNotRunning | .clearCallbacks | .stopSelf
  | .startForeground => []

def Place.flight (thisSdrDevice : Option δ) : Place δ α → List (δ × α)
  | .main pc | .device _ (.start pc) => pc.flight thisSdrDevice
  | _ => []

/-- A thread that does not own the fields is not in a handler that needs them. -/
def DevicePc.Rests : DevicePc δ α → Prop
  | .unstarted | .ended | .start .startForeground => True
  | _ => False

def MainPc.Rests : MainPc δ α → Prop
  | .start .startForeground => True
  | .start _ => False
  | _ => True

/-- A thread that may own the fields. -/
inductive Thread (δ : Type u) where
  | main
  | device (sdrDevice : δ)

/-- A thread in `startWithDevice`. -/
def Thread.at (pc : StartPc δ α) : Thread δ → Place δ α
  | .main => .main pc
  | .device sdrDevice => .device sdrDevice (.start pc)

/-- What `isRunning` is when a thread comes to `startWithDevice`. -/
def Thread.running : Thread δ → Bool
  | .main => false
  | .device _ => true

def Place.thread : Place δ α → Option (Thread δ)
  | .nobody => none
  | .main _ => some .main
  | .device sdrDevice _ => some (.device sdrDevice)

def Handlers.Rests (s : Handlers δ α κ) : Thread δ → Prop
  | .main => s.main.Rests
  | .device sdrDevice => (s.threads sdrDevice).Rests

/-- The owner is where it is said to be, and the fields fit. -/
def Place.Holds (s : Handlers δ α κ) : Place δ α → Prop
  | .nobody => s.service.thisSdrDevice = none ∧ s.service.isRunning = false
  | .main pc => s.main = .start pc ∧ pc.Fits false s.service
  | .device sdrDevice pc => s.threads sdrDevice = pc ∧ pc.Fits sdrDevice s.service

/-- **One thread owns the fields.** -/
structure Owned (s : Handlers δ α κ) (place : Place δ α) : Prop where
  holds : place.Holds s
  others : ∀ thread, place.thread ≠ some thread → s.Rests thread
  /-- what has been requested has been opened, is about to be, or is queued -/
  requests : s.requests =
    opens s.effects ++ place.flight s.service.thisSdrDevice ++ s.service.workQueue
  distinct : (s.requests.map Prod.fst).Nodup
  started : ∀ sdrDevice, s.threads sdrDevice ≠ .unstarted →
    sdrDevice ∈ (opens s.effects).map Prod.fst

/-! ## Steps of the owner -/

/-- Announcements open nothing. -/
theorem opens_map {tell : κ → Effect δ α κ} (silent : ∀ callback, opens [tell callback] = [])
    (callbacks : List κ) : opens (callbacks.map tell) = [] := by
  induction callbacks with
  | nil => rfl
  | cons callback rest ih =>
      rw [List.map_cons, ← List.singleton_append, opens, List.filterMap_append]
      exact List.append_eq_nil_iff.mpr ⟨silent callback, ih⟩

/-- The owner does not throw. It leaves `startWithDevice` in two places only. -/
theorem StartPc.cases_step {running : Bool} {s : BinaryRunnerService δ α κ} {pc : StartPc δ α}
    (fits : pc.Fits running s) :
    (∃ s' effects pc', pc.step s = ⟨s', effects, .goes pc'⟩ ∧ pc'.Fits running s' ∧
      opens effects = [] ∧
      pc.flight s.thisSdrDevice ++ s.workQueue = pc'.flight s'.thisSdrDevice ++ s'.workQueue) ∨
    (∃ sdrDevice sdrTcpArguments, pc = .openAsync sdrTcpArguments ∧
      s.thisSdrDevice = some sdrDevice ∧ s.isRunning = true) ∨
    (pc = .stopSelf ∧ s.thisSdrDevice = none ∧ s.isRunning = false) := by
  cases pc with
  | poll =>
      cases queue : s.workQueue with
      | nil => exact .inl ⟨_, _, _, step_poll_nil queue, fits, rfl, by rw [queue]; rfl⟩
      | cons request rest => exact .inl ⟨_, _, _, step_poll_cons queue, fits, rfl, rfl⟩
  | storeNotRunning => exact .inl ⟨_, _, _, rfl, ⟨fits.1, rfl⟩, rfl, rfl⟩
  | tellNotRunning => exact .inl ⟨_, _, _, rfl, fits, opens_map (fun _ => rfl) _, rfl⟩
  | clearCallbacks => exact .inl ⟨_, _, _, rfl, fits, rfl, rfl⟩
  | stopSelf => exact .inr (.inr ⟨rfl, fits⟩)
  | storeDevice sdrDevice sdrTcpArguments =>
      exact .inl ⟨_, _, _, rfl, ⟨nofun, fits.2⟩, rfl, rfl⟩
  | storeRunning sdrTcpArguments => exact .inl ⟨_, _, _, rfl, ⟨fits.1, rfl⟩, rfl, rfl⟩
  | tellRunning sdrTcpArguments =>
      exact .inl ⟨_, _, _, rfl, fits, opens_map (fun _ => rfl) _, rfl⟩
  | check sdrTcpArguments | readName sdrTcpArguments | addListener sdrTcpArguments =>
      obtain ⟨sdrDevice, this⟩ := Option.ne_none_iff_exists'.mp fits.1
      exact .inl ⟨_, _, _, withDevice_some this _, fits, rfl, rfl⟩
  | openAsync sdrTcpArguments =>
      obtain ⟨sdrDevice, this⟩ := Option.ne_none_iff_exists'.mp fits.1
      exact .inr (.inl ⟨sdrDevice, sdrTcpArguments, rfl, this, fits.2⟩)
  | startForeground => exact fits.elim

/-! ## Steps of the threads -/

theorem opens_append (before after : List (Effect δ α κ)) :
    opens (before ++ after) = opens before ++ opens after := List.filterMap_append

theorem at_thread (thread : Thread δ) (pc : StartPc δ α) : (thread.at pc).thread = some thread := by
  cases thread <;> rfl

theorem at_flight (thread : Thread δ) (pc : StartPc δ α) (thisSdrDevice : Option δ) :
    (thread.at pc).flight thisSdrDevice = pc.flight thisSdrDevice := by
  cases thread <;> rfl

section Steps

variable {s : Handlers δ α κ} {thread : Thread δ}

theorem Owned.known {pc : StartPc δ α} (owned : Owned s (thread.at pc)) (sdrDevice : δ)
    (device : thread = .device sdrDevice) : s.threads sdrDevice ≠ .unstarted := by
  subst device
  have here : s.threads sdrDevice = .start pc := owned.holds.1
  rw [here]
  nofun

theorem Owned.alive {sdrDevice : δ} {pc : DevicePc δ α} (owned : Owned s (.device sdrDevice pc)) :
    s.threads sdrDevice ≠ .unstarted := by
  obtain ⟨here, fits⟩ := owned.holds
  rw [here]
  rintro rfl
  exact fits

/-- The device that is about to be opened has not been opened before. -/
theorem Owned.fresh {sdrDevice : δ} {sdrTcpArguments : α}
    (owned : Owned s (thread.at (.openAsync sdrTcpArguments)))
    (this : s.service.thisSdrDevice = some sdrDevice) :
    sdrDevice ∉ (opens s.effects).map Prod.fst := by
  intro before
  have requests := owned.requests
  have distinct := owned.distinct
  rw [at_flight, this] at requests
  rw [requests, List.append_assoc, List.map_append] at distinct
  refine List.disjoint_of_nodup_append distinct before ?_
  rw [List.map_append]
  exact List.mem_append_left _ List.mem_cons_self

theorem Owned.fits {pc : StartPc δ α} (owned : Owned s (thread.at pc)) :
    pc.Fits thread.running s.service := by
  cases thread with
  | main => exact owned.holds.2
  | device sdrDevice => exact owned.holds.2

variable [DecidableEq δ]

/-- A thread has taken a step of `startWithDevice`. -/
def Handlers.turned (s : Handlers δ α κ) (r : HandlerStep δ α κ (StartPc δ α)) :
    Thread δ → Handlers δ α κ
  | .main => s.afterStart r
  | .device sdrDevice => s.afterDevice sdrDevice (r.map .start)

theorem turned_service (r : HandlerStep δ α κ (StartPc δ α)) :
    (s.turned r thread).service = r.service := by
  cases thread <;> rfl

theorem turned_requests (r : HandlerStep δ α κ (StartPc δ α)) :
    (s.turned r thread).requests = s.requests := by
  cases thread <;> rfl

theorem turned_effects (r : HandlerStep δ α κ (StartPc δ α)) :
    (s.turned r thread).effects = s.effects ++ r.effects := by
  cases thread <;> rfl

/-- A step that opens nothing moves the thread that takes it only. -/
theorem afterDevice_threads {r : HandlerStep δ α κ (DevicePc δ α)} {sdrDevice : δ}
    (silent : opens r.effects = []) :
    (s.afterDevice sdrDevice r).threads =
      Function.update s.threads sdrDevice r.progress.device := by
  rw [Handlers.afterDevice, silent]
  rfl

theorem afterStart_threads {r : HandlerStep δ α κ (StartPc δ α)} (silent : opens r.effects = []) :
    (s.afterStart r).threads = s.threads := by
  rw [Handlers.afterStart, silent]
  rfl

theorem afterDevice_rests {r : HandlerStep δ α κ (DevicePc δ α)} {sdrDevice : δ}
    (silent : opens r.effects = []) {other : Thread δ} (different : other ≠ .device sdrDevice) :
    (s.afterDevice sdrDevice r).Rests other ↔ s.Rests other := by
  cases other with
  | main => rfl
  | device other =>
      have apart : other ≠ sdrDevice := fun same => different (congrArg Thread.device same)
      rw [Handlers.Rests, afterDevice_threads silent, Function.update_of_ne apart]
      rfl

/-- A device is unknown until it is opened. -/
theorem afterDevice_started {r : HandlerStep δ α κ (DevicePc δ α)} {own : δ}
    (silent : opens r.effects = [])
    (started : ∀ sdrDevice, s.threads sdrDevice ≠ .unstarted →
      sdrDevice ∈ (opens s.effects).map Prod.fst)
    (known : s.threads own ≠ .unstarted) (sdrDevice : δ)
    (alive : (s.afterDevice own r).threads sdrDevice ≠ .unstarted) :
    sdrDevice ∈ (opens (s.afterDevice own r).effects).map Prod.fst := by
  have kept : opens (s.afterDevice own r).effects = opens s.effects := by
    rw [Handlers.afterDevice, opens_append, silent, List.append_nil]
  rw [kept]
  by_cases same : sdrDevice = own
  · rw [same]
    exact started own known
  · rw [afterDevice_threads silent, Function.update_of_ne same] at alive
    exact started sdrDevice alive

/-- Another thread stays where it is. -/
theorem turned_rests {r : HandlerStep δ α κ (StartPc δ α)} (silent : opens r.effects = [])
    {other : Thread δ} (different : other ≠ thread) :
    (s.turned r thread).Rests other ↔ s.Rests other := by
  cases thread with
  | main =>
      cases other with
      | main => exact absurd rfl different
      | device sdrDevice =>
          rw [Handlers.turned, Handlers.Rests, afterStart_threads silent]
          rfl
  | device sdrDevice => exact afterDevice_rests silent different

theorem started_turned {r : HandlerStep δ α κ (StartPc δ α)} (silent : opens r.effects = [])
    (started : ∀ sdrDevice, s.threads sdrDevice ≠ .unstarted →
      sdrDevice ∈ (opens s.effects).map Prod.fst)
    (known : ∀ sdrDevice, thread = .device sdrDevice → s.threads sdrDevice ≠ .unstarted)
    (sdrDevice : δ) (alive : (s.turned r thread).threads sdrDevice ≠ .unstarted) :
    sdrDevice ∈ (opens (s.turned r thread).effects).map Prod.fst := by
  cases thread with
  | main =>
      rw [Handlers.turned, afterStart_threads silent] at alive
      rw [turned_effects, opens_append, silent, List.append_nil]
      exact started sdrDevice alive
  | device own => exact afterDevice_started silent started (known own rfl) sdrDevice alive

/-- **The owner goes on** in `startWithDevice`. -/
theorem Owned.goes {pc pc' : StartPc δ α} {service : BinaryRunnerService δ α κ}
    {effects : List (Effect δ α κ)} (owned : Owned s (thread.at pc))
    (fits : pc'.Fits thread.running service) (silent : opens effects = [])
    (kept : pc.flight s.service.thisSdrDevice ++ s.service.workQueue =
      pc'.flight service.thisSdrDevice ++ service.workQueue) :
    Owned (s.turned ⟨service, effects, .goes pc'⟩ thread) (thread.at pc') where
  holds := by
    cases thread with
    | main => exact ⟨rfl, fits⟩
    | device sdrDevice =>
        have effects : opens (HandlerStep.map DevicePc.start
            ⟨service, effects, .goes pc'⟩).effects = [] := silent
        refine ⟨?_, fits⟩
        rw [Handlers.turned, afterDevice_threads effects, Function.update_self]
        rfl
  others := by
    intro other different
    rw [at_thread] at different
    have apart : other ≠ thread := fun same => different (congrArg some same.symm)
    refine (turned_rests silent apart).mpr (owned.others other ?_)
    rw [at_thread]
    exact different
  requests := by
    have requests := owned.requests
    rw [at_flight, List.append_assoc, kept, ← List.append_assoc] at requests
    rw [turned_requests, turned_effects, turned_service, opens_append, silent, List.append_nil,
      at_flight]
    exact requests
  distinct := by
    rw [turned_requests]
    exact owned.distinct
  started := started_turned silent owned.started owned.known

/-- **The owner leaves** `startWithDevice`, with nothing to run. -/
theorem Owned.stops (owned : Owned s (thread.at .stopSelf)) :
    Owned (s.turned ⟨s.service, [.stopSelf], .returns⟩ thread) .nobody where
  holds := by
    rw [Place.Holds, turned_service]
    exact owned.fits
  others := by
    intro other _
    by_cases same : other = thread
    · rw [same]
      cases thread with
      | main => exact trivial
      | device sdrDevice =>
          show (Function.update s.threads sdrDevice _ sdrDevice).Rests
          rw [Function.update_self]
          exact trivial
    · refine (turned_rests rfl same).mpr (owned.others other ?_)
      rw [at_thread]
      exact fun equal => same (Option.some.inj equal).symm
  requests := by
    have requests := owned.requests
    rw [at_flight] at requests
    have silent : opens ([.stopSelf] : List (Effect δ α κ)) = [] := rfl
    rw [turned_requests, turned_effects, turned_service, opens_append, silent, List.append_nil]
    exact requests
  distinct := by
    rw [turned_requests]
    exact owned.distinct
  started := started_turned rfl owned.started owned.known

/-- A thread that has opened a device has `startForeground` left to call. -/
theorem turned_opens {sdrDevice : δ} {sdrTcpArguments : α} {service : BinaryRunnerService δ α κ}
    (apart : thread ≠ .device sdrDevice) {other : Thread δ}
    (different : other ≠ .device sdrDevice) :
    (s.turned ⟨service, [.openAsync sdrDevice sdrTcpArguments], .goes .startForeground⟩
      thread).Rests other ↔ other = thread ∨ s.Rests other := by
  cases thread with
  | main =>
      cases other with
      | main => exact iff_of_true trivial (.inl rfl)
      | device other =>
          have elsewhere : other ≠ sdrDevice := fun same => different (congrArg Thread.device same)
          show (Function.update s.threads sdrDevice _ other).Rests ↔ _
          rw [Function.update_of_ne elsewhere]
          exact (or_iff_right nofun).symm
  | device own =>
      cases other with
      | main => exact (or_iff_right nofun).symm
      | device other =>
          have elsewhere : other ≠ sdrDevice := fun same => different (congrArg Thread.device same)
          show (Function.update (Function.update s.threads own _) sdrDevice _ other).Rests ↔ _
          rw [Function.update_of_ne elsewhere]
          by_cases same : other = own
          · rw [same, Function.update_self]
            exact iff_of_true trivial (.inl rfl)
          · rw [Function.update_of_ne same]
            exact (or_iff_right fun equal => same (Thread.device.inj equal)).symm

/-- **The owner opens a device**, whose thread owns the fields from then on. -/
theorem Owned.handsOver {sdrDevice : δ} {sdrTcpArguments : α}
    (owned : Owned s (thread.at (.openAsync sdrTcpArguments)))
    (this : s.service.thisSdrDevice = some sdrDevice) (running : s.service.isRunning = true) :
    Owned (s.turned
      ⟨s.service, [.openAsync sdrDevice sdrTcpArguments], .goes .startForeground⟩ thread)
      (.device sdrDevice .opened) := by
  have requests := owned.requests
  rw [at_flight, this] at requests
  have apart : thread ≠ .device sdrDevice := fun same =>
    owned.fresh this (owned.started sdrDevice (owned.known sdrDevice same))
  have opened : opens (s.effects ++ [.openAsync sdrDevice sdrTcpArguments]) =
      opens s.effects ++ [(sdrDevice, sdrTcpArguments)] := opens_append ..
  refine ⟨⟨?_, ?_⟩, ?_, ?_, ?_, ?_⟩
  · cases thread with
    | main => exact Function.update_self ..
    | device own => exact Function.update_self ..
  · rw [turned_service]
    exact ⟨this, running⟩
  · intro other different
    have elsewhere : other ≠ .device sdrDevice := fun same => different (congrArg some same.symm)
    refine (turned_opens apart elsewhere).mpr ?_
    by_cases same : other = thread
    · exact .inl same
    · refine .inr (owned.others other ?_)
      rw [at_thread]
      exact fun equal => same (Option.some.inj equal).symm
  · have empty : (Place.device sdrDevice (.opened : DevicePc δ α)).flight
        s.service.thisSdrDevice = [] := rfl
    rw [turned_requests, turned_effects, turned_service, opened, empty, List.append_nil]
    exact requests
  · rw [turned_requests]
    exact owned.distinct
  · intro other alive
    rw [turned_effects, opened, List.map_append]
    by_cases same : other = sdrDevice
    · rw [same]
      exact List.mem_append_right _ List.mem_cons_self
    · refine List.mem_append_left _ ?_
      cases thread with
      | main =>
          have alive : Function.update s.threads sdrDevice _ other ≠ .unstarted := alive
          rw [Function.update_of_ne same] at alive
          exact owned.started other alive
      | device own =>
          by_cases here : other = own
          · rw [here]
            exact owned.started own (owned.known own rfl)
          · have alive : Function.update (Function.update s.threads own _) sdrDevice _ other ≠
                .unstarted := alive
            rw [Function.update_of_ne same, Function.update_of_ne here] at alive
            exact owned.started other alive

/-- **The owner reports the end** of its device. -/
theorem Owned.closes {sdrDevice : δ} {pc pc' : DevicePc δ α}
    {service : BinaryRunnerService δ α κ} {effects : List (Effect δ α κ)}
    (owned : Owned s (.device sdrDevice pc)) (fits : pc'.Fits sdrDevice service)
    (silent : Service.opens effects = [])
    (kept : (Place.device sdrDevice pc).flight s.service.thisSdrDevice ++ s.service.workQueue =
      (Place.device sdrDevice pc').flight service.thisSdrDevice ++ service.workQueue) :
    Owned (s.afterDevice sdrDevice ⟨service, effects, .goes pc'⟩) (.device sdrDevice pc') where
  holds := by
    refine ⟨?_, fits⟩
    rw [afterDevice_threads silent, Function.update_self]
    rfl
  others := by
    intro other different
    have elsewhere : other ≠ .device sdrDevice := fun same => different (congrArg some same.symm)
    exact (afterDevice_rests silent elsewhere).mpr (owned.others other different)
  requests := by
    have requests := owned.requests
    rw [List.append_assoc, kept, ← List.append_assoc] at requests
    have opened : Service.opens (s.effects ++ effects) = Service.opens s.effects := by
      rw [opens_append, silent, List.append_nil]
    exact requests.trans (by rw [← opened]; rfl)
  distinct := owned.distinct
  started := afterDevice_started silent owned.started owned.alive

/-- **A thread that has opened a device** calls `startForeground`, whoever owns the fields. -/
theorem Owned.trails {place : Place δ α} (owned : Owned s place) (thread : Thread δ)
    (other : place.thread ≠ some thread)
    (known : ∀ sdrDevice, thread = .device sdrDevice → s.threads sdrDevice ≠ .unstarted) :
    Owned (s.turned ⟨s.service, [.startForeground], .returns⟩ thread) place where
  holds := by
    have holds := owned.holds
    cases place with
    | nobody =>
        rw [Place.Holds, turned_service]
        exact holds
    | main pc =>
        cases thread with
        | main => exact absurd rfl other
        | device own => exact holds
    | device sdrDevice pc =>
        cases thread with
        | main => exact holds
        | device own =>
            have elsewhere : sdrDevice ≠ own := fun same =>
              other (congrArg (some ∘ Thread.device) same)
            refine ⟨?_, holds.2⟩
            show Function.update s.threads own _ sdrDevice = pc
            rw [Function.update_of_ne elsewhere]
            exact holds.1
  others := by
    intro another different
    by_cases same : another = thread
    · rw [same]
      cases thread with
      | main => exact trivial
      | device own =>
          show (Function.update s.threads own _ own).Rests
          rw [Function.update_self]
          exact trivial
    · exact (turned_rests rfl same).mpr (owned.others another different)
  requests := by
    have silent : Service.opens ([.startForeground] : List (Effect δ α κ)) = [] := rfl
    rw [turned_requests, turned_effects, turned_service, opens_append, silent, List.append_nil]
    exact owned.requests
  distinct := by
    rw [turned_requests]
    exact owned.distinct
  started := started_turned rfl owned.started known

end Steps

/-! ## Steps beside the owner -/

section Beside

variable {s s' : Handlers δ α κ} {place : Place δ α}

/-- Other handlers leave the fields and the threads as they are. The main thread may be in one of
them if it is not the owner, and does not come to a start command with it. -/
structure Beside (place : Place δ α) (s s' : Handlers δ α κ) : Prop where
  thisSdrDevice : s'.service.thisSdrDevice = s.service.thisSdrDevice
  isRunning : s'.service.isRunning = s.service.isRunning
  threads : s'.threads = s.threads
  effects : s'.effects = s.effects
  elsewhere : place.thread ≠ some .main
  starts : ∀ pc, s'.main = .start pc ↔ s.main = .start pc

theorem StartPc.fits_congr {running : Bool} {service service' : BinaryRunnerService δ α κ}
    {pc : StartPc δ α} (this : service'.thisSdrDevice = service.thisSdrDevice)
    (isRunning : service'.isRunning = service.isRunning) (fits : pc.Fits running service) :
    pc.Fits running service' := by
  cases pc with
  | startForeground => exact fits
  | _ =>
      rw [StartPc.Fits, this, isRunning]
      exact fits

theorem Beside.holds (beside : Beside place s s') (holds : place.Holds s) : place.Holds s' := by
  obtain ⟨this, isRunning, threads, -, elsewhere, -⟩ := beside
  cases place with
  | nobody => exact ⟨this.trans holds.1, isRunning.trans holds.2⟩
  | main pc => exact absurd rfl elsewhere
  | device sdrDevice pc =>
      obtain ⟨here, fits⟩ := holds
      refine ⟨(congrFun threads sdrDevice).trans here, ?_⟩
      cases pc with
      | unstarted | ended => exact fits
      | start pc => exact StartPc.fits_congr this isRunning fits
      | _ =>
          rw [DevicePc.Fits, this, isRunning]
          exact fits

theorem Beside.others (beside : Beside place s s')
    (others : ∀ thread, place.thread ≠ some thread → s.Rests thread) (thread : Thread δ)
    (other : place.thread ≠ some thread) : s'.Rests thread := by
  cases thread with
  | main =>
      have rests : s.main.Rests := others .main beside.elsewhere
      show s'.main.Rests
      cases here : s'.main with
      | start pc =>
          rw [(beside.starts pc).mp here] at rests
          exact rests
      | _ => exact trivial
  | device sdrDevice =>
      rw [Handlers.Rests, beside.threads]
      exact others (.device sdrDevice) other

theorem Owned.beside (owned : Owned s place) (beside : Beside place s s')
    (requests : s'.requests = s.requests)
    (workQueue : s'.service.workQueue = s.service.workQueue) : Owned s' place where
  holds := beside.holds owned.holds
  others := beside.others owned.others
  requests := by
    rw [requests, workQueue, beside.effects, beside.thisSdrDevice]
    exact owned.requests
  distinct := by
    rw [requests]
    exact owned.distinct
  started := by
    rw [beside.threads, beside.effects]
    exact owned.started

/-- **A request** is put into the queue. -/
theorem Owned.request (owned : Owned s place) (beside : Beside place s s') {sdrDevice : δ}
    {sdrTcpArguments : α} (fresh : sdrDevice ∉ s.requests.map Prod.fst)
    (requests : s'.requests = s.requests ++ [(sdrDevice, sdrTcpArguments)])
    (workQueue : s'.service.workQueue = s.service.workQueue ++ [(sdrDevice, sdrTcpArguments)]) :
    Owned s' place where
  holds := beside.holds owned.holds
  others := beside.others owned.others
  requests := by
    rw [requests, workQueue, beside.effects, beside.thisSdrDevice, owned.requests,
      List.append_assoc]
  distinct := by
    rw [requests, List.map_append]
    exact owned.distinct.append (List.nodup_singleton _) (List.disjoint_singleton.mpr fresh)
  started := by
    rw [beside.threads, beside.effects]
    exact owned.started

end Beside

end MsiSdrDriver.Service
