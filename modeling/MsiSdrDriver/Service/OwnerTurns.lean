import MsiSdrDriver.Service.HandlerOwner

/-!
# How the owner of the fields changes

Every step of the threads is one of the owner, or leaves the owner where it is (`Owned.turn`). The
owner goes on in its handler, opens a device whose thread owns the fields then, or stops the
service. The others call `startForeground`, or are in handlers of the main thread that read the
fields only.
-/

set_option autoImplicit false

namespace MsiSdrDriver.Service

open MsiSdrDriver.Foundations

universe u v w

variable {δ : Type u} {α : Type v} {κ : Type w}

/-! ## Every step -/

/-- The thread of a device that is not open. -/
def DevicePc.Closed : DevicePc δ α → Prop
  | .unstarted | .ended => True
  | _ => False

instance : DecidablePred (DevicePc.Closed : DevicePc δ α → Prop) := fun pc =>
  match pc with
  | .unstarted | .ended => inferInstanceAs (Decidable True)
  | .opened | .sendDetached | .stopForeground | .forget | .releaseLock | .start _ =>
      inferInstanceAs (Decidable False)

namespace Handlers

/-- No device is open, and no thread of a device is in a handler. -/
def NoneOpen (s : Handlers δ α κ) : Prop :=
  ∀ sdrDevice ∈ s.requests.map Prod.fst, (s.threads sdrDevice).Closed

instance (s : Handlers δ α κ) : Decidable s.NoneOpen :=
  inferInstanceAs (Decidable (∀ _ ∈ _, _))

/-- Start commands are delivered only then. -/
def StartsIdle (s : Handlers δ α κ) : HandlerEvent δ α κ → Prop
  | .onStartCommand => s.NoneOpen
  | _ => True

instance : DecidableRel (StartsIdle : Handlers δ α κ → HandlerEvent δ α κ → Prop) :=
  fun s event =>
    match event with
    | .onStartCommand => inferInstanceAs (Decidable s.NoneOpen)
    | .startWithDevice _ _ | .registerCallback _ | .closeService | .main | .onOpen _ | .device _ =>
        inferInstanceAs (Decidable True)

end Handlers

/-- The main thread has still to look at `isRunning` for a request, or to ask for a start
command. -/
def MainPc.Asks : MainPc δ α → Prop
  | .isRunning | .startService => True
  | _ => False

/-- The other handlers of the main thread read the fields only. A request that finds that nothing is
running asks for a start command. -/
theorem MainPc.cases_step {s : BinaryRunnerService δ α κ} {pc : MainPc δ α}
    {r : HandlerStep δ α κ (MainPc δ α)} (apart : ∀ start, pc ≠ .start start)
    (moves : pc.step s = some r) :
    r.service = s ∧ (∀ start, r.progress.main ≠ .start start) ∧
      (pc.Asks → r.progress.main.Asks ∨ 0 < r.effects.countP Effect.asksStart ∨
        pc = .isRunning ∧ s.isRunning = true) := by
  cases pc with
  | idle | crashed => cases moves
  | start pc => exact absurd rfl (apart pc)
  | isRunning =>
      cases moves
      cases running : s.isRunning with
      | true => exact ⟨rfl, (fun _ here => by cases here), fun _ => .inr (.inr ⟨rfl, rfl⟩)⟩
      | false => exact ⟨rfl, (fun _ here => by cases here), fun _ => .inl trivial⟩
  | startService =>
      cases moves
      exact ⟨rfl, (fun _ here => by cases here), fun _ => .inr (.inl Nat.one_pos)⟩
  | closeIfRunning =>
      cases moves
      cases s.isRunning with
      | true | false => exact ⟨rfl, (fun _ here => by cases here), False.elim⟩
  | readDevice =>
      cases moves
      cases this : s.thisSdrDevice with
      | none =>
          rw [withDevice, this]
          exact ⟨rfl, (fun _ here => by cases here), False.elim⟩
      | some sdrDevice =>
          rw [withDevice_some this]
          exact ⟨rfl, (fun _ here => by cases here), False.elim⟩
  | close sdrDevice =>
      cases moves
      exact ⟨rfl, (fun _ here => by cases here), False.elim⟩

variable {s s' : Handlers δ α κ} {place : Place δ α}

/-- While the main thread is in no handler of a start command, it does not own the fields. -/
theorem Owned.elsewhere (owned : Owned s place) (resting : ∀ pc, s.main ≠ .start pc) :
    place.thread ≠ some .main := by
  intro mine
  cases place with
  | nobody => cases mine
  | main pc => exact resting pc owned.holds.1
  | device sdrDevice pc => cases mine

theorem Owned.requested (owned : Owned s place) {sdrDevice : δ}
    (opened : sdrDevice ∈ (opens s.effects).map Prod.fst) :
    sdrDevice ∈ s.requests.map Prod.fst := by
  rw [owned.requests, List.append_assoc, List.map_append]
  exact List.mem_append_left _ opened

/-- A start command is delivered only while nobody owns the fields. -/
theorem Owned.nobody (owned : Owned s place) (idle : s.main = .idle) (none : s.NoneOpen) :
    place = .nobody := by
  cases place with
  | nobody => rfl
  | main pc => exact absurd (idle.symm.trans owned.holds.1) nofun
  | device sdrDevice pc =>
      obtain ⟨here, fits⟩ := owned.holds
      have closed := none sdrDevice (owned.requested (owned.started sdrDevice owned.alive))
      rw [here] at closed
      cases pc with
      | unstarted | ended => exact fits.elim
      | _ => exact closed.elim

/-- A device that is open, and has not begun to report its end, owns the fields. -/
theorem Owned.of_opened (owned : Owned s place) {sdrDevice : δ}
    (opened : s.threads sdrDevice = .opened) : place = .device sdrDevice .opened := by
  have mine : place.thread = some (.device sdrDevice) := by
    by_contra other
    have rests : (s.threads sdrDevice).Rests := owned.others (.device sdrDevice) other
    rw [opened] at rests
    exact rests
  cases place with
  | nobody | main pc => cases mine
  | device own pc =>
      obtain rfl : own = sdrDevice := Thread.device.inj (Option.some.inj mine)
      obtain rfl : DevicePc.opened = pc := opened.symm.trans owned.holds.1
      rfl

variable [DecidableEq δ] {event : HandlerEvent δ α κ}

/-- What a step does to the owner. -/
inductive Turn (s : Handlers δ α κ) :
    HandlerEvent δ α κ → Place δ α → Handlers δ α κ → Place δ α → Prop where
  | delivers : s.main = .idle → Turn s .onStartCommand .nobody
      { s with main := .start .poll, owed := s.owed - 1 } (.main .poll)
  | requests {s' : Handlers δ α κ} {place : Place δ α} {sdrDevice : δ} {sdrTcpArguments : α} :
      Beside place s s' → s'.main = .isRunning →
      Turn s (.startWithDevice sdrDevice sdrTcpArguments) place s' place
  | beside {s' : Handlers δ α κ} {place : Place δ α} {event : HandlerEvent δ α κ} :
      Beside place s s' → s'.service.workQueue = s.service.workQueue → s.owed ≤ s'.owed →
      (s.main.Asks → s'.main.Asks ∨ 0 < s'.owed ∨
        event = .main ∧ s.main = .isRunning ∧ s.service.isRunning = true) →
      Turn s event place s' place
  | trails {place : Place δ α} {event : HandlerEvent δ α κ} (thread : Thread δ) :
      (thread = .main → s.main = .start .startForeground) →
      (∀ sdrDevice, thread = .device sdrDevice →
        s.threads sdrDevice = .start .startForeground) →
      Turn s event place (s.turned ⟨s.service, [.startForeground], .returns⟩ thread) place
  | goes {event : HandlerEvent δ α κ} {thread : Thread δ} {pc pc' : StartPc δ α}
      {service : BinaryRunnerService δ α κ} {effects : List (Effect δ α κ)} :
      pc.Fits thread.running s.service → pc.step s.service = ⟨service, effects, .goes pc'⟩ →
      pc'.Fits thread.running service → opens effects = [] →
      Turn s event (thread.at pc) (s.turned ⟨service, effects, .goes pc'⟩ thread) (thread.at pc')
  | handsOver {event : HandlerEvent δ α κ} {thread : Thread δ} {sdrDevice : δ}
      {sdrTcpArguments : α} : s.service.thisSdrDevice = some sdrDevice →
      Turn s event (thread.at (.openAsync sdrTcpArguments))
        (s.turned ⟨s.service, [.openAsync sdrDevice sdrTcpArguments], .goes .startForeground⟩
          thread)
        (.device sdrDevice .opened)
  | stops {event : HandlerEvent δ α κ} {thread : Thread δ} :
      Turn s event (thread.at .stopSelf) (s.turned ⟨s.service, [.stopSelf], .returns⟩ thread)
        .nobody
  | closes {event : HandlerEvent δ α κ} {sdrDevice : δ} {pc pc' : DevicePc δ α}
      {service : BinaryRunnerService δ α κ} {effects : List (Effect δ α κ)} :
      (∀ start, pc ≠ .start start) → pc.Fits sdrDevice s.service →
      pc.step s.service = some ⟨service, effects, .goes pc'⟩ → opens effects = [] →
      Turn s event (.device sdrDevice pc) (s.afterDevice sdrDevice ⟨service, effects, .goes pc'⟩)
        (.device sdrDevice pc')

/-- **A thread that owns the fields** takes a step of `startWithDevice`. -/
theorem Owned.turn_start (thread : Thread δ) {pc : StartPc δ α} (owned : Owned s (thread.at pc))
    (event : HandlerEvent δ α κ) :
    ∃ place', Turn s event (thread.at pc) (s.turned (pc.step s.service) thread) place' ∧
      Owned (s.turned (pc.step s.service) thread) place' := by
  rcases StartPc.cases_step owned.fits with ⟨service, effects, pc', stepped, fits, silent, kept⟩ |
    ⟨sdrDevice, sdrTcpArguments, rfl, this, running⟩ | ⟨rfl, -, -⟩
  · rw [stepped]
    exact ⟨_, .goes owned.fits stepped fits silent, owned.goes fits silent kept⟩
  · have stepped : StartPc.step s.service (.openAsync sdrTcpArguments) =
        ⟨s.service, [.openAsync sdrDevice sdrTcpArguments], .goes .startForeground⟩ :=
      withDevice_some this _
    rw [stepped]
    exact ⟨_, .handsOver this, owned.handsOver this running⟩
  · exact ⟨_, .stops, owned.stops⟩

/-- **The thread of a device that owns the fields** takes a step of `onClosed`. -/
theorem Owned.turn_closes {sdrDevice : δ} {pc : DevicePc δ α}
    (owned : Owned s (.device sdrDevice pc)) (apart : ∀ start, pc ≠ .start start)
    (event : HandlerEvent δ α κ) :
    ∃ r place', pc.step s.service = some r ∧
      Turn s event (.device sdrDevice pc) (s.afterDevice sdrDevice r) place' ∧
      Owned (s.afterDevice sdrDevice r) place' := by
  have fits := owned.holds.2
  cases pc with
  | unstarted | ended => exact fits.elim
  | start pc => exact absurd rfl (apart pc)
  | opened => exact ⟨_, _, rfl, .closes apart fits rfl rfl, owned.closes fits rfl rfl⟩
  | sendDetached =>
      have stepped : DevicePc.step s.service .sendDetached =
          some ⟨s.service, [.sendDetached sdrDevice], .goes .stopForeground⟩ :=
        congrArg some (withDevice_some fits.1 _)
      exact ⟨_, _, stepped, .closes apart fits stepped rfl, owned.closes fits rfl rfl⟩
  | stopForeground => exact ⟨_, _, rfl, .closes apart fits rfl rfl, owned.closes fits rfl rfl⟩
  | forget => exact ⟨_, _, rfl, .closes apart fits rfl rfl, owned.closes ⟨rfl, fits.2⟩ rfl rfl⟩
  | releaseLock => exact ⟨_, _, rfl, .closes apart fits rfl rfl, owned.closes fits rfl rfl⟩

/-- **The main thread takes a step.** -/
theorem Owned.turn_main [DecidableEq κ] (owned : Owned s place)
    (moves : s.step .main = some s') :
    ∃ place', Turn s .main place s' place' ∧ Owned s' place' := by
  by_cases starting : ∃ pc, s.main = .start pc
  · obtain ⟨pc, here⟩ := starting
    simp only [Handlers.step, here, Option.some.injEq] at moves
    subst moves
    by_cases mine : place.thread = some .main
    · cases place with
      | nobody | device sdrDevice pc => cases mine
      | main own =>
          obtain rfl : own = pc := MainPc.start.inj (owned.holds.1.symm.trans here)
          exact Owned.turn_start .main owned .main
    · have rests : s.main.Rests := owned.others .main mine
      rw [here] at rests
      cases pc with
      | startForeground =>
          exact ⟨place, .trails .main (fun _ => here) nofun, owned.trails .main mine nofun⟩
      | _ => exact rests.elim
  · have apart : ∀ pc, s.main ≠ .start pc := not_exists.mp starting
    have stepped : (s.main.step s.service).map s.afterMain = some s' := by
      rw [← moves, Handlers.step]
      split
      next pc here => exact absurd here (apart pc)
      · rfl
    obtain ⟨r, moved, rfl⟩ := Option.map_eq_some_iff.mp stepped
    obtain ⟨service, never, asks⟩ := MainPc.cases_step apart moved
    have beside : Beside place s (s.afterMain r) :=
      ⟨congrArg _ service, congrArg _ service, rfl, rfl, owned.elsewhere apart,
        fun pc => iff_of_false (never pc) (apart pc)⟩
    have queue : (s.afterMain r).service.workQueue = s.service.workQueue := congrArg _ service
    refine ⟨place, .beside beside queue (Nat.le_add_right ..) fun asking => ?_,
      owned.beside beside rfl queue⟩
    rcases asks asking with still | asked | found
    · exact .inl still
    · exact .inr (.inl (Nat.add_pos_right _ asked))
    · exact .inr (.inr ⟨rfl, found⟩)

/-- **The thread of a device takes a step.** -/
theorem Owned.turn_device [DecidableEq κ] (owned : Owned s place) {sdrDevice : δ}
    (moves : s.step (.device sdrDevice) = some s') :
    ∃ place', Turn s (.device sdrDevice) place s' place' ∧ Owned s' place' := by
  obtain ⟨r, moved, rfl⟩ := Option.map_eq_some_iff.mp moves
  by_cases mine : place.thread = some (.device sdrDevice)
  · cases place with
    | nobody | main pc => cases mine
    | device own pc =>
        obtain rfl : own = sdrDevice := Thread.device.inj (Option.some.inj mine)
        have here : s.threads own = pc := owned.holds.1
        rw [here] at moved
        by_cases starting : ∃ start, pc = .start start
        · obtain ⟨start, rfl⟩ := starting
          cases moved
          exact Owned.turn_start (.device own) owned (.device own)
        · obtain ⟨r', place', stepped, turn, owned'⟩ :=
            owned.turn_closes (not_exists.mp starting) (.device own)
          cases moved.symm.trans stepped
          exact ⟨place', turn, owned'⟩
  · have rests : (s.threads sdrDevice).Rests := owned.others (.device sdrDevice) mine
    cases here : s.threads sdrDevice with
    | unstarted | ended =>
        rw [here] at moved
        cases moved
    | start pc =>
        rw [here] at moved rests
        cases pc with
        | startForeground =>
            cases moved
            have trailing : ∀ own, Thread.device sdrDevice = .device own →
                s.threads own = .start .startForeground := by
              rintro own ⟨⟩
              exact here
            refine ⟨place, .trails (.device sdrDevice) nofun trailing, ?_⟩
            refine owned.trails (.device sdrDevice) mine fun own same => ?_
            rw [trailing own same]
            nofun
        | _ => exact rests.elim
    | _ =>
        rw [here] at rests
        exact rests.elim

/-- **Every step** is one of the owner, or leaves the owner where it is. -/
theorem Owned.turn [DecidableEq κ] (owned : Owned s place) (startsIdle : s.StartsIdle event)
    (moves : s.step event = some s') :
    ∃ place', Turn s event place s' place' ∧ Owned s' place' := by
  cases event with
  | main => exact owned.turn_main moves
  | device sdrDevice => exact owned.turn_device moves
  | onStartCommand =>
      simp only [Handlers.step] at moves
      split at moves
      next idle =>
        cases moves
        obtain rfl := owned.nobody idle startsIdle
        refine ⟨.main .poll, .delivers idle, ⟨rfl, owned.holds⟩, ?_, owned.requests, owned.distinct,
          owned.started⟩
        intro thread other
        cases thread with
        | main => exact absurd rfl other
        | device sdrDevice => exact owned.others (.device sdrDevice) nofun
      · cases moves
  | startWithDevice sdrDevice sdrTcpArguments =>
      simp only [Handlers.step] at moves
      split at moves
      next idle =>
        split at moves
        · cases moves
        next fresh =>
          cases moves
          have beside : Beside place s { s with
              service := s.service.addWork sdrDevice sdrTcpArguments
              main := .isRunning
              requests := s.requests ++ [(sdrDevice, sdrTcpArguments)] } :=
            ⟨rfl, rfl, rfl, rfl, owned.elsewhere (by simp [idle]), by simp [idle]⟩
          exact ⟨place, .requests beside rfl, owned.request beside fresh rfl rfl⟩
      · cases moves
  | registerCallback callback =>
      simp only [Handlers.step] at moves
      split at moves
      next idle =>
        cases moves
        have beside : Beside place s
            { s with service := (LocalBinder.registerCallback s.service callback).1 } :=
          ⟨rfl, rfl, rfl, rfl, owned.elsewhere (by simp [idle]), fun _ => Iff.rfl⟩
        exact ⟨place, .beside beside rfl (Nat.le_refl _) .inl, owned.beside beside rfl rfl⟩
      · cases moves
  | closeService =>
      simp only [Handlers.step] at moves
      split at moves
      next idle =>
        cases moves
        have beside : Beside place s { s with main := .closeIfRunning } :=
          ⟨rfl, rfl, rfl, rfl, owned.elsewhere (by simp [idle]), by simp [idle]⟩
        refine ⟨place, .beside beside rfl (Nat.le_refl _) fun asking => ?_,
          owned.beside beside rfl rfl⟩
        rw [idle] at asking
        exact asking.elim
      · cases moves
  | onOpen sdrDevice =>
      simp only [Handlers.step] at moves
      split at moves
      next opened =>
        cases moves
        obtain rfl := owned.of_opened opened
        have beside : Beside (.device sdrDevice .opened) s
            { s with service := s.service.onOpen.1 } :=
          ⟨rfl, rfl, rfl, rfl, (fun mine => by cases mine), fun _ => Iff.rfl⟩
        exact ⟨_, .beside beside rfl (Nat.le_refl _) .inl, owned.beside beside rfl rfl⟩
      · cases moves

/-- **In every run** one thread owns the fields. -/
theorem owned_of_reach [DecidableEq κ] {ok : Handlers δ α κ → HandlerEvent δ α κ → Prop}
    (startsIdle : ∀ s event, ok s event → s.StartsIdle event)
    (reached : Reach Handlers.step Handlers.Starts ok s) : ∃ place, Owned s place := by
  refine reached.invariant (I := fun s => ∃ place, Owned s place) ?_ ?_
  · rintro s rfl
    refine ⟨.nobody, ⟨rfl, rfl⟩, ?_, rfl, List.nodup_nil, fun sdrDevice alive => absurd rfl alive⟩
    intro thread _
    cases thread <;> exact trivial
  · rintro s event s' ⟨place, owned⟩ allowed moves
    obtain ⟨place', -, owned'⟩ := owned.turn (startsIdle s event allowed) moves
    exact ⟨place', owned'⟩

end MsiSdrDriver.Service
