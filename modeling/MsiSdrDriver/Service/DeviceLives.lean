import MsiSdrDriver.Service.OwnerTurns

/-!
# The lives of the devices

What the handlers of start commands and of closed devices ask for, in the order in which they do, on
whatever threads. Where start commands are delivered only while no device is open, it follows a
protocol (`follow`): the callbacks are told, the device gets its listener and is opened, and its own
name is broadcast when it ends, before the service leaves the foreground and the next device is
announced. These handlers do not meet a device that is `null`.

`startForeground` is the last call of the handler that opens a device. It may come at any later
time, also after the device has ended and `stopForeground` was called, or after the next device was
opened. Each handler that has opened a device calls it once (`Handlers.effects_follow`).
-/

set_option autoImplicit false

namespace MsiSdrDriver.Service

open MsiSdrDriver.Foundations

universe u v w

variable {δ : Type u} {α : Type v} {κ : Type w}

/-! ## The protocol -/

/-- Where the service is in the life of a device. -/
inductive ServicePhase (δ : Type u) where
  | idle
  | announcing
  | listening (sdrDevice : δ)
  | running (sdrDevice : δ)
  | detached
  deriving DecidableEq

/-- The effects that the protocol allows. The number counts the calls of `startForeground` that are
still to come. -/
def follow [DecidableEq δ] : ServicePhase δ × ℕ → Effect δ α κ → Option (ServicePhase δ × ℕ)
  | (.idle, n), .onServerNotRunning _ | (.idle, n), .stopSelf => some (.idle, n)
  | (.idle, n), .onServerRunning _ | (.announcing, n), .onServerRunning _ => some (.announcing, n)
  | (.idle, n), .addOnStatusListener sdrDevice | (.announcing, n), .addOnStatusListener sdrDevice =>
      some (.listening sdrDevice, n)
  | (.listening sdrDevice, n), .openAsync other _ =>
      if other = sdrDevice then some (.running sdrDevice, n + 1) else none
  | (.running sdrDevice, n), .sendDetached other =>
      if other = sdrDevice then some (.detached, n) else none
  | (.detached, n), .stopForeground => some (.idle, n)
  | (phase, n + 1), .startForeground => some (phase, n)
  | _, _ => none

/-- The phases in which the owner of the fields may be at a place. -/
def StartPc.In (thisSdrDevice : Option δ) (phase : ServicePhase δ) : StartPc δ α → Prop
  | .addListener _ => phase = .idle ∨ phase = .announcing
  | .openAsync _ => ∃ sdrDevice, thisSdrDevice = some sdrDevice ∧ phase = .listening sdrDevice
  | _ => phase = .idle

def DevicePc.In (sdrDevice : δ) (thisSdrDevice : Option δ) (phase : ServicePhase δ) :
    DevicePc δ α → Prop
  | .opened | .sendDetached => phase = .running sdrDevice
  | .stopForeground => phase = .detached
  | .start pc => pc.In thisSdrDevice phase
  | _ => phase = .idle

def Place.In (thisSdrDevice : Option δ) (phase : ServicePhase δ) : Place δ α → Prop
  | .nobody => phase = .idle
  | .main pc => pc.In thisSdrDevice phase
  | .device sdrDevice pc => pc.In sdrDevice thisSdrDevice phase

section Follow

variable [DecidableEq δ]

/-- Announcements that leave the phase as it is. -/
theorem follow_announcement {announce : κ → Effect δ α κ} {phase : ServicePhase δ × ℕ}
    (stays : ∀ callback, follow phase (announce callback) = some phase) (callbacks : List κ) :
    (callbacks.map announce).foldlM follow phase = some phase := by
  induction callbacks with
  | nil => rfl
  | cons callback rest ih =>
      rw [List.map_cons, List.foldlM_cons, stays]
      exact ih

/-- The announcements of a start, whoever is registered. -/
theorem follow_announceRunning (callbacks : List κ) (n : ℕ) :
    ∃ phase : ServicePhase δ, (phase = .idle ∨ phase = .announcing) ∧
      (callbacks.map .onServerRunning : List (Effect δ α κ)).foldlM follow (.idle, n) =
        some (phase, n) := by
  cases callbacks with
  | nil => exact ⟨.idle, .inl rfl, rfl⟩
  | cons callback rest =>
      refine ⟨.announcing, .inr rfl, ?_⟩
      rw [List.map_cons, List.foldlM_cons]
      exact follow_announcement (fun _ => rfl) rest

/-- **A step of `startWithDevice`** follows the protocol. -/
theorem StartPc.follow_step {s service : BinaryRunnerService δ α κ} {pc pc' : StartPc δ α}
    {effects : List (Effect δ α κ)} {phase : ServicePhase δ} (n : ℕ)
    (here : pc.In s.thisSdrDevice phase) (stepped : pc.step s = ⟨service, effects, .goes pc'⟩)
    (stays : pc' ≠ .startForeground) :
    ∃ phase', pc'.In service.thisSdrDevice phase' ∧
      effects.foldlM follow (phase, n) = some (phase', n) := by
  cases pc with
  | poll =>
      cases queue : s.workQueue with
      | nil =>
          rw [step_poll_nil queue] at stepped
          cases stepped
          exact ⟨phase, here, rfl⟩
      | cons request rest =>
          rw [step_poll_cons queue] at stepped
          cases stepped
          exact ⟨phase, here, rfl⟩
  | check sdrTcpArguments | readName sdrTcpArguments =>
      simp only [StartPc.step, withDevice] at stepped
      split at stepped
      · cases stepped
      · cases stepped
        exact ⟨phase, here, rfl⟩
  | addListener sdrTcpArguments =>
      simp only [StartPc.step, withDevice] at stepped
      split at stepped
      · cases stepped
      next sdrDevice this =>
        cases stepped
        refine ⟨.listening sdrDevice, ⟨sdrDevice, this, rfl⟩, ?_⟩
        rcases here with rfl | rfl
        · rfl
        · rfl
  | openAsync sdrTcpArguments =>
      simp only [StartPc.step, withDevice] at stepped
      split at stepped
      · cases stepped
      · cases stepped
        exact absurd rfl stays
  | tellRunning sdrTcpArguments =>
      cases stepped
      obtain rfl : phase = .idle := here
      exact follow_announceRunning s.statusCallbacks n
  | tellNotRunning =>
      cases stepped
      obtain rfl : phase = .idle := here
      exact ⟨.idle, rfl, follow_announcement (fun _ => rfl) _⟩
  | storeNotRunning | clearCallbacks =>
      cases stepped
      exact ⟨phase, here, rfl⟩
  | storeDevice sdrDevice sdrTcpArguments | storeRunning sdrTcpArguments =>
      cases stepped
      exact ⟨phase, here, rfl⟩
  | stopSelf | startForeground => cases stepped

/-- **A step of `onClosed`** follows the protocol. -/
theorem DevicePc.follow_step {s service : BinaryRunnerService δ α κ} {sdrDevice : δ}
    {pc pc' : DevicePc δ α} {effects : List (Effect δ α κ)} {phase : ServicePhase δ} (n : ℕ)
    (apart : ∀ start, pc ≠ .start start) (fits : pc.Fits sdrDevice s)
    (here : pc.In sdrDevice s.thisSdrDevice phase)
    (stepped : pc.step s = some ⟨service, effects, .goes pc'⟩) :
    ∃ phase', pc'.In sdrDevice service.thisSdrDevice phase' ∧
      effects.foldlM follow (phase, n) = some (phase', n) := by
  cases pc with
  | unstarted | ended => cases stepped
  | start pc => exact absurd rfl (apart pc)
  | sendDetached =>
      have sent : DevicePc.step s .sendDetached =
          some ⟨s, [.sendDetached sdrDevice], .goes .stopForeground⟩ :=
        congrArg some (withDevice_some fits.1 _)
      cases sent.symm.trans stepped
      obtain rfl : phase = .running sdrDevice := here
      refine ⟨.detached, rfl, ?_⟩
      rw [List.foldlM_cons, follow, if_pos rfl]
      rfl
  | stopForeground =>
      cases stepped
      obtain rfl : phase = .detached := here
      exact ⟨.idle, rfl, rfl⟩
  | opened | forget | releaseLock =>
      cases stepped
      exact ⟨phase, here, rfl⟩

end Follow

/-! ## The calls that are still to come -/

def StartPc.trails : StartPc δ α → Bool
  | .startForeground => true
  | _ => false

def MainPc.trails : MainPc δ α → Bool
  | .start pc => pc.trails
  | _ => false

def DevicePc.trails : DevicePc δ α → Bool
  | .start pc => pc.trails
  | _ => false

def Progress.trails : Progress (StartPc δ α) → Bool
  | .goes pc => pc.trails
  | _ => false

def Handlers.trails (s : Handlers δ α κ) : Thread δ → Bool
  | .main => s.main.trails
  | .device sdrDevice => (s.threads sdrDevice).trails

/-- How many of the threads have opened a device and not called `startForeground`. -/
def trailingThreads (threads : δ → DevicePc δ α) (opened : List (δ × α)) : ℕ :=
  opened.countP fun request => (threads request.1).trails

/-- How many calls of `startForeground` are still to come. -/
def Handlers.trailing (s : Handlers δ α κ) : ℕ :=
  s.main.trails.toNat + trailingThreads s.threads (opens s.effects)

section Trailing

variable [DecidableEq δ]

theorem trailingThreads_of_notMem (threads : δ → DevicePc δ α) {sdrDevice : δ}
    {opened : List (δ × α)} (other : sdrDevice ∉ opened.map Prod.fst) (pc : DevicePc δ α) :
    trailingThreads (Function.update threads sdrDevice pc) opened =
      trailingThreads threads opened := by
  refine List.countP_congr fun request member => ?_
  have apart : request.1 ≠ sdrDevice := fun same => other (same ▸ List.mem_map_of_mem member)
  rw [Function.update_of_ne apart]

/-- One thread goes somewhere else. -/
theorem trailingThreads_update (threads : δ → DevicePc δ α) {sdrDevice : δ}
    {opened : List (δ × α)} (distinct : (opened.map Prod.fst).Nodup)
    (member : sdrDevice ∈ opened.map Prod.fst) (pc : DevicePc δ α) :
    trailingThreads (Function.update threads sdrDevice pc) opened +
        (threads sdrDevice).trails.toNat =
      trailingThreads threads opened + pc.trails.toNat := by
  induction opened with
  | nil => cases member
  | cons request rest ih =>
      rw [List.map_cons, List.nodup_cons] at distinct
      obtain ⟨fresh, distinct⟩ := distinct
      have first : ∀ threads : δ → DevicePc δ α, trailingThreads threads (request :: rest) =
          trailingThreads threads rest + (threads request.1).trails.toNat := by
        intro threads
        rw [trailingThreads, List.countP_cons]
        cases (threads request.1).trails <;> rfl
      rw [first, first]
      by_cases same : request.1 = sdrDevice
      · rw [same] at fresh ⊢
        rw [trailingThreads_of_notMem threads fresh, Function.update_self]
        omega
      · have later : sdrDevice ∈ rest.map Prod.fst :=
          (List.mem_cons.mp member).resolve_left fun equal => same equal.symm
        have rest := ih distinct later
        rw [Function.update_of_ne same]
        omega

variable {s : Handlers δ α κ} {thread : Thread δ}

theorem trailing_afterDevice {sdrDevice : δ} {r : HandlerStep δ α κ (DevicePc δ α)}
    (distinct : ((opens s.effects).map Prod.fst).Nodup)
    (started : sdrDevice ∈ (opens s.effects).map Prod.fst) (silent : opens r.effects = []) :
    (s.afterDevice sdrDevice r).trailing + (s.threads sdrDevice).trails.toNat =
      s.trailing + r.progress.device.trails.toNat := by
  have update := trailingThreads_update s.threads distinct started r.progress.device
  have after : (s.afterDevice sdrDevice r).trailing = s.main.trails.toNat +
      trailingThreads (Function.update s.threads sdrDevice r.progress.device)
        (opens s.effects) := by
    simp only [Handlers.trailing, Handlers.afterDevice, opens_append, silent, List.append_nil]
    rfl
  rw [after, Handlers.trailing]
  omega

theorem trailing_turned {r : HandlerStep δ α κ (StartPc δ α)}
    (distinct : ((opens s.effects).map Prod.fst).Nodup)
    (started : ∀ sdrDevice, thread = .device sdrDevice →
      sdrDevice ∈ (opens s.effects).map Prod.fst) (silent : opens r.effects = []) :
    (s.turned r thread).trailing + (s.trails thread).toNat =
      s.trailing + r.progress.trails.toNat := by
  obtain ⟨service, effects, progress⟩ := r
  cases thread with
  | main =>
      have after : (s.turned ⟨service, effects, progress⟩ .main).trailing =
          progress.trails.toNat + trailingThreads s.threads (opens s.effects) := by
        simp only [Handlers.trailing, Handlers.turned, Handlers.afterStart, opens_append, silent,
          List.append_nil]
        cases progress <;> rfl
      rw [after, Handlers.trailing, Handlers.trails]
      show _ = _ + progress.trails.toNat
      omega
  | device sdrDevice =>
      have after : (s.turned ⟨service, effects, progress⟩ (.device sdrDevice)).trailing +
          (s.threads sdrDevice).trails.toNat =
          s.trailing + ((progress.map DevicePc.start).device).trails.toNat :=
        trailing_afterDevice distinct (started sdrDevice rfl) silent
      cases progress with
      | goes pc | returns | throws => exact after

/-- A thread that opens a device has still to call `startForeground`. -/
theorem trailing_handsOver {sdrDevice : δ} (sdrTcpArguments : α)
    (service : BinaryRunnerService δ α κ) (distinct : ((opens s.effects).map Prod.fst).Nodup)
    (fresh : sdrDevice ∉ (opens s.effects).map Prod.fst)
    (started : ∀ own, thread = .device own → own ∈ (opens s.effects).map Prod.fst)
    (busy : s.trails thread = false) :
    (s.turned ⟨service, [.openAsync sdrDevice sdrTcpArguments], .goes .startForeground⟩
      thread).trailing = s.trailing + 1 := by
  have opened : opens (s.effects ++ [.openAsync sdrDevice sdrTcpArguments]) =
      opens s.effects ++ [(sdrDevice, sdrTcpArguments)] := opens_append ..
  have last : ∀ threads : δ → DevicePc δ α,
      trailingThreads (Function.update threads sdrDevice .opened)
        (opens s.effects ++ [(sdrDevice, sdrTcpArguments)]) =
      trailingThreads threads (opens s.effects) := by
    intro threads
    have rest := trailingThreads_of_notMem threads fresh .opened
    rw [trailingThreads] at rest ⊢
    rw [List.countP_append, rest, List.countP_singleton, Function.update_self]
    rfl
  cases thread with
  | main =>
      have after : (s.turned ⟨service, [.openAsync sdrDevice sdrTcpArguments],
          .goes .startForeground⟩ .main).trailing =
          1 + trailingThreads s.threads (opens s.effects) := by
        simp only [Handlers.trailing, Handlers.turned, Handlers.afterStart, opened]
        exact congrArg (1 + ·) (last s.threads)
      have idle : s.main.trails = false := busy
      rw [after, Handlers.trailing, idle]
      exact (Nat.add_comm ..).trans (by rw [Bool.toNat_false, Nat.zero_add])
  | device own =>
      have after : (s.turned ⟨service, [.openAsync sdrDevice sdrTcpArguments],
          .goes .startForeground⟩ (.device own)).trailing = s.main.trails.toNat +
          trailingThreads (Function.update s.threads own (.start .startForeground))
            (opens s.effects) := by
        simp only [Handlers.trailing, Handlers.turned, Handlers.afterDevice, HandlerStep.map,
          opened]
        exact congrArg (s.main.trails.toNat + ·) (last _)
      have update := trailingThreads_update s.threads distinct (started own rfl)
        (.start .startForeground)
      have idle : (s.threads own).trails = false := busy
      rw [idle, Bool.toNat_false] at update
      rw [after, Handlers.trailing]
      have one : (DevicePc.trails (.start .startForeground : DevicePc δ α)).toNat = 1 := rfl
      omega

end Trailing

/-! ## Every step -/

/-- The effects so far follow the protocol, and the owner of the fields is where they have led. -/
def Lives (s : Handlers δ α κ) (place : Place δ α) [DecidableEq δ] : Prop :=
  ∃ phase, place.In s.service.thisSdrDevice phase ∧
    s.effects.foldlM follow (.idle, 0) = some (phase, s.trailing)

section Steps

variable {s s' : Handlers δ α κ} {place place' : Place δ α}

theorem Owned.openedDistinct (owned : Owned s place) :
    ((opens s.effects).map Prod.fst).Nodup := by
  have distinct := owned.distinct
  rw [owned.requests, List.append_assoc, List.map_append] at distinct
  exact distinct.of_append_left

theorem Owned.startedThread {thread : Thread δ} {pc : StartPc δ α} (owned : Owned s (thread.at pc))
    (sdrDevice : δ) (device : thread = .device sdrDevice) :
    sdrDevice ∈ (opens s.effects).map Prod.fst :=
  owned.started sdrDevice (owned.known sdrDevice device)

/-- The owner has nothing left to call. -/
theorem StartPc.Fits.trails {running : Bool} {service : BinaryRunnerService δ α κ}
    {pc : StartPc δ α} (fits : pc.Fits running service) : pc.trails = false := by
  cases pc with
  | startForeground => exact fits.elim
  | _ => rfl

theorem DevicePc.Fits.trails {sdrDevice : δ} {service : BinaryRunnerService δ α κ}
    {pc : DevicePc δ α} (fits : pc.Fits sdrDevice service) : pc.trails = false := by
  cases pc with
  | start pc => exact StartPc.Fits.trails fits
  | _ => rfl

theorem Owned.busy {thread : Thread δ} {pc : StartPc δ α} (owned : Owned s (thread.at pc)) :
    s.trails thread = false := by
  have fits := owned.fits
  cases thread with
  | main =>
      have here : s.main = .start pc := owned.holds.1
      rw [Handlers.trails, here]
      exact fits.trails
  | device sdrDevice =>
      have here : s.threads sdrDevice = .start pc := owned.holds.1
      rw [Handlers.trails, here]
      exact fits.trails

theorem Beside.trailing (beside : Beside place s s') : s'.trailing = s.trailing := by
  have main : s'.main.trails = s.main.trails := by
    by_cases starting : ∃ pc, s.main = .start pc
    · obtain ⟨pc, here⟩ := starting
      rw [here, (beside.starts pc).mpr here]
    · have never : ∀ main : MainPc δ α, (∀ pc, main ≠ .start pc) → main.trails = false := by
        intro main apart
        cases main with
        | start pc => exact absurd rfl (apart pc)
        | _ => rfl
      have apart := not_exists.mp starting
      rw [never _ apart, never _ fun pc here => apart pc ((beside.starts pc).mp here)]
  rw [Handlers.trailing, Handlers.trailing, main, beside.threads, beside.effects]

theorem at_in (thread : Thread δ) (pc : StartPc δ α) (thisSdrDevice : Option δ)
    (phase : ServicePhase δ) :
    (thread.at pc).In thisSdrDevice phase ↔ pc.In thisSdrDevice phase := by
  cases thread <;> exact Iff.rfl

variable [DecidableEq δ]

/-- A thread takes a step of `startWithDevice`, which the protocol allows. -/
theorem Lives.turned {thread : Thread δ} {r : HandlerStep δ α κ (StartPc δ α)}
    {phase : ServicePhase δ} (phase' : ServicePhase δ)
    (here : place'.In r.service.thisSdrDevice phase')
    (follows : s.effects.foldlM follow (.idle, 0) = some (phase, s.trailing))
    (goesOn : r.effects.foldlM follow (phase, s.trailing) =
      some (phase', (s.turned r thread).trailing)) : Lives (s.turned r thread) place' := by
  refine ⟨phase', ?_, ?_⟩
  · rw [turned_service]
    exact here
  · rw [turned_effects, List.foldlM_append, follows]
    exact goesOn

/-- **The step.** -/
theorem Lives.turn {event : HandlerEvent δ α κ} (lives : Lives s place) (owned : Owned s place)
    (owned' : Owned s' place') (turn : Turn s event place s' place') : Lives s' place' := by
  obtain ⟨phase, here, follows⟩ := lives
  cases turn with
  | delivers idle =>
      refine ⟨phase, here, ?_⟩
      have trailing : Handlers.trailing { s with main := .start .poll, owed := s.owed - 1 } =
          s.trailing := by
        rw [Handlers.trailing, Handlers.trailing, idle]
        rfl
      rw [trailing]
      exact follows
  | requests beside looks =>
      refine ⟨phase, ?_, ?_⟩
      · rw [beside.thisSdrDevice]
        exact here
      · rw [beside.effects, beside.trailing]
        exact follows
  | beside beside queue owes asks =>
      refine ⟨phase, ?_, ?_⟩
      · rw [beside.thisSdrDevice]
        exact here
      · rw [beside.effects, beside.trailing]
        exact follows
  | trails thread main device =>
      have started : ∀ sdrDevice, thread = .device sdrDevice →
          sdrDevice ∈ (opens s.effects).map Prod.fst := by
        intro sdrDevice same
        refine owned.started sdrDevice ?_
        rw [device sdrDevice same]
        nofun
      have busy : s.trails thread = true := by
        cases thread with
        | main =>
            rw [Handlers.trails, main rfl]
            rfl
        | device sdrDevice =>
            rw [Handlers.trails, device sdrDevice rfl]
            rfl
      have one := trailing_turned (r := ⟨s.service, [.startForeground], .returns⟩)
        owned.openedDistinct started rfl
      rw [busy] at one
      have called : s.trailing =
          (s.turned ⟨s.service, [.startForeground], .returns⟩ thread).trailing + 1 := one.symm
      refine .turned phase here follows ?_
      rw [called]
      cases phase <;> rfl
  | @goes _ thread pc pc' service effects fits stepped fits' silent =>
      rw [at_in] at here
      have stays : pc' ≠ .startForeground := by
        rintro rfl
        exact fits'
      obtain ⟨phase', here', steps⟩ := StartPc.follow_step s.trailing here stepped stays
      have same := trailing_turned owned.openedDistinct owned.startedThread
        (r := ⟨service, effects, .goes pc'⟩) silent
      have still : Progress.trails (.goes pc') = false := fits'.trails
      rw [owned.busy, still] at same
      have same : (s.turned ⟨service, effects, .goes pc'⟩ thread).trailing = s.trailing := same
      refine .turned phase' ((at_in ..).mpr here') follows ?_
      rw [same]
      exact steps
  | @handsOver _ thread sdrDevice sdrTcpArguments this =>
      rw [at_in] at here
      obtain ⟨other, same, rfl⟩ := here
      obtain rfl : sdrDevice = other := Option.some.inj (this.symm.trans same)
      have one := trailing_handsOver sdrTcpArguments s.service owned.openedDistinct
        (owned.fresh this) owned.startedThread owned.busy
      refine .turned (.running sdrDevice) rfl follows ?_
      rw [one, List.foldlM_cons, follow, if_pos rfl]
      rfl
  | @stops _ thread =>
      rw [at_in] at here
      obtain rfl : phase = .idle := here
      have same := trailing_turned owned.openedDistinct owned.startedThread
        (r := ⟨s.service, [.stopSelf], .returns⟩) rfl
      rw [owned.busy] at same
      have same : (s.turned ⟨s.service, [.stopSelf], .returns⟩ thread).trailing = s.trailing := same
      refine .turned .idle rfl follows ?_
      rw [same]
      rfl
  | @closes _ sdrDevice pc pc' service effects apart fits stepped silent =>
      obtain ⟨phase', here', steps⟩ := DevicePc.follow_step s.trailing apart fits here stepped
      have at_ : s.threads sdrDevice = pc := owned.holds.1
      have same := trailing_afterDevice owned.openedDistinct (owned.started sdrDevice owned.alive)
        (r := ⟨service, effects, .goes pc'⟩) silent
      have still : (Progress.device (.goes pc')).trails = false := owned'.holds.2.trails
      rw [at_, fits.trails, still] at same
      have same : (s.afterDevice sdrDevice ⟨service, effects, .goes pc'⟩).trailing = s.trailing :=
        same
      refine ⟨phase', here', ?_⟩
      show (s.effects ++ effects).foldlM follow (.idle, 0) = _
      rw [same, List.foldlM_append, follows]
      exact steps

end Steps

/-! ## Every run -/

namespace Handlers

variable [DecidableEq δ] [DecidableEq κ] {s : Handlers δ α κ}

theorem lives_of_reach (reached : Reach step Starts StartsIdle s) :
    ∃ place, Owned s place ∧ Lives s place := by
  refine reached.invariant (I := fun s => ∃ place, Owned s place ∧ Lives s place) ?_ ?_
  · intro s starts
    obtain ⟨place, owned⟩ := owned_of_reach
      (fun s event (startsIdle : StartsIdle s event) => startsIdle) (.start starts)
    cases starts
    have closed : NoneOpen (initial : Handlers δ α κ) := nofun
    obtain rfl := owned.nobody rfl closed
    exact ⟨.nobody, owned, .idle, rfl, rfl⟩
  · rintro s event s' ⟨place, owned, lives⟩ startsIdle moves
    obtain ⟨place', turn, owned'⟩ := owned.turn startsIdle moves
    exact ⟨place', owned', lives.turn owned owned' turn⟩

/-- **The effects follow the protocol**, in every order in which the threads take their steps. While
the thread of a device has not come to `onClosed`, it is this device that runs, and when no device
is open and the main thread is idle, none does. -/
theorem effects_follow (reached : Reach step Starts StartsIdle s) :
    ∃ phase, s.effects.foldlM follow (.idle, 0) = some (phase, s.trailing) ∧
      (∀ sdrDevice, s.threads sdrDevice = .opened → phase = .running sdrDevice) ∧
      (s.NoneOpen → s.main = .idle → phase = .idle ∧ s.trailing = 0) := by
  obtain ⟨place, owned, phase, here, follows⟩ := lives_of_reach reached
  refine ⟨phase, follows, ?_, ?_⟩
  · intro sdrDevice opened
    obtain rfl := owned.of_opened opened
    exact here
  · intro closed idle
    obtain rfl := owned.nobody idle closed
    refine ⟨here, ?_⟩
    have quiet : trailingThreads s.threads (opens s.effects) = 0 := by
      refine List.countP_eq_zero.mpr fun request member => ?_
      have gone := closed request.1 (owned.requested (List.mem_map_of_mem member))
      cases at_ : s.threads request.1 with
      | unstarted | ended => exact Bool.false_ne_true
      | _ =>
          rw [at_] at gone
          exact gone.elim
    rw [trailing, quiet, idle]
    rfl

/-- A device is replaced by a second one, which reports its end before the thread of the first one
has called `startForeground`. -/
def overtaking : List (HandlerEvent ℕ Unit ℕ) :=
  [.registerCallback 9, .startWithDevice 1 (), .main, .main, .onStartCommand] ++
    List.replicate 9 .main ++ [.onOpen 1, .startWithDevice 2 ()] ++ List.replicate 4 .main ++
    List.replicate 13 (.device 1) ++ List.replicate 3 (.device 2) ++ [.device 1]

theorem effects_follow_overtaking : ∃ s : Handlers ℕ Unit ℕ,
    s.effects.drop 6 = [.onServerRunning 9, .addOnStatusListener 2, .openAsync 2 (),
      .sendDetached 2, .stopForeground, .startForeground] ∧
    ∃ phase, s.effects.foldlM follow (.idle, 0) = some (phase, 0) := by
  have moved : (replayWhere step StartsIdle initial overtaking).map
      (fun s : Handlers ℕ Unit ℕ => (s.effects.drop 6, s.trailing)) =
      some ([.onServerRunning 9, .addOnStatusListener 2, .openAsync 2 (), .sendDetached 2,
        .stopForeground, .startForeground], 0) := rfl
  obtain ⟨s, replayed, shown⟩ := Option.map_eq_some_iff.mp moved
  simp only [Prod.mk.injEq] at shown
  obtain ⟨later, none⟩ := shown
  obtain ⟨phase, follows, -, -⟩ := effects_follow (Reach.of_replayWhere (.start rfl) _ replayed)
  rw [none] at follows
  exact ⟨s, later, phase, follows⟩

end Handlers

end MsiSdrDriver.Service
