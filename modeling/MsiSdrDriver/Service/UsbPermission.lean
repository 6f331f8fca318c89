import MsiSdrDriver.Foundations.LabelledRuns

/-!
# Which broadcast decides a request for permission

`UsbPermissionObtainer.obtainFdFor` registers a broadcast receiver for each request and returns a
future that the receiver completes. Broadcasts are queued for the receivers that are registered when
they are sent, and the receivers run in any order. Any application can send one.

A receiver completes its future at the first broadcast that comes, whatever device that is about
(`first_answer_decides`). So of two requests that wait at once the first answer decides both, and
the one for the other device gets `null` although the user may still grant it. That receiver is
never unregistered. No future is completed twice, and the one exception is that of a broadcast
without a device, which ends the application.
-/

set_option autoImplicit false

namespace MsiSdrDriver.Service

open MsiSdrDriver.Foundations

universe u v

variable {δ : Type u} {κ : Type v}

/-! ## One request -/

def ACTION_USB_PERMISSION : String := "com.android.example.USB_PERMISSION"

/-- A broadcast. Both extras may be missing, and `EXTRA_PERMISSION_GRANTED` is then `false`. -/
structure PermissionIntent (δ : Type u) where
  action : String
  device : Option δ
  permissionGranted : Bool
  deriving DecidableEq

/-- What `UsbManager` answers at a moment. `openDevice` may return `null`. -/
structure UsbManager (κ : Type v) where
  hasPermission : Bool
  openDevice : Option κ
  deriving DecidableEq

/-- A request with its receiver. `task` is `none` until `setDone`, and `pending` are the broadcasts
that are queued for the receiver. The last two fields are history: the broadcasts sent while the
receiver was registered, and those taken from the queue. -/
structure PermissionRequest (δ : Type u) (κ : Type v) where
  usbDevice : δ
  task : Option (Option κ)
  registered : Bool
  pending : List (PermissionIntent δ)
  sent : List (PermissionIntent δ)
  taken : List (PermissionIntent δ × UsbManager κ)
  deriving DecidableEq

/-- What a receiver can throw. -/
inductive ReceiverException where
  /-- from `device.equals` -/
  | nullPointerException
  /-- from `isTrue` in `setDone` -/
  | runtimeException
  deriving DecidableEq

namespace PermissionRequest

def setDone (request : PermissionRequest δ κ) (object : Option κ) :
    Except ReceiverException (PermissionRequest δ κ) :=
  if request.task.isSome then .error .runtimeException
  else .ok { request with task := some object }

def unregisterReceiver (request : PermissionRequest δ κ) : PermissionRequest δ κ :=
  { request with registered := false }

variable [DecidableEq δ]

/-- The receiver's `onReceive`. -/
def onReceive (request : PermissionRequest δ κ) (intent : PermissionIntent δ)
    (manager : UsbManager κ) : Except ReceiverException (PermissionRequest δ κ) := do
  if intent.action = ACTION_USB_PERMISSION then
    if request.task.isSome then return request
    match intent.device with
    | none => throw .nullPointerException
    | some device =>
        if device = request.usbDevice then
          let done ←
            if intent.permissionGranted then
              if manager.hasPermission then request.setDone manager.openDevice
              else request.setDone none
            else request.setDone none
          return done.unregisterReceiver
        else request.setDone none
  else request.setDone none

/-- A broadcast is queued if the filter of the receiver lets it through. -/
def send (request : PermissionRequest δ κ) (intent : PermissionIntent δ) : PermissionRequest δ κ :=
  if request.registered ∧ intent.action = ACTION_USB_PERMISSION then
    { request with
      pending := request.pending ++ [intent]
      sent := request.sent ++ [intent] }
  else request

/-- The request after the first of its broadcasts has been taken from the queue. -/
def take (request : PermissionRequest δ κ) (intent : PermissionIntent δ)
    (rest : List (PermissionIntent δ)) (manager : UsbManager κ) : PermissionRequest δ κ :=
  { request with
    pending := rest
    taken := request.taken ++ [(intent, manager)] }

/-- The connection that a broadcast about some device leads to. -/
def decision (usbDevice device : δ) (granted : Bool) (manager : UsbManager κ) : Option κ :=
  if device = usbDevice ∧ granted = true ∧ manager.hasPermission = true then manager.openDevice
  else none

/-- The first broadcast taken from the queue decides. -/
def Decided (request : PermissionRequest δ κ) :
    List (PermissionIntent δ × UsbManager κ) → Prop
  | [] => request.task = none ∧ request.registered = true
  | (first, manager) :: _ =>
      request.task = first.device.map
        (decision request.usbDevice · first.permissionGranted manager) ∧
      request.registered = !decide (first.device = some request.usbDevice)

/-- The invariant of a request. -/
structure Answered (request : PermissionRequest δ κ) : Prop where
  order : request.taken.map Prod.fst ++ request.pending = request.sent
  filtered : ∀ intent ∈ request.sent, intent.action = ACTION_USB_PERMISSION
  decided : request.Decided request.taken

/-- The broadcast that decided had no device. -/
def NoDevice (request : PermissionRequest δ κ) : Prop :=
  ∃ first manager rest, request.taken = (first, manager) :: rest ∧ first.device = none

end PermissionRequest

/-! ## All requests -/

/-- What `obtainFdFor` returns: a `CompletedFuture` or the future of a receiver. -/
inductive PermissionFuture (δ : Type u) (κ : Type v) where
  | completed (result : Option κ)
  | asked (request : PermissionRequest δ κ)
  deriving DecidableEq

def PermissionFuture.send (intent : PermissionIntent δ) :
    PermissionFuture δ κ → PermissionFuture δ κ
  | .completed result => .completed result
  | .asked request => .asked (request.send intent)

/-- The application: the futures so far, and the exception that has ended it, if there is one. -/
structure PermissionApp (δ : Type u) (κ : Type v) where
  futures : List (PermissionFuture δ κ)
  uncaught : Option ReceiverException
  deriving DecidableEq

/-- A call of `obtainFdFor`, a broadcast by any application, and the next broadcast in the queue of
a receiver. -/
inductive PermissionLabel (δ : Type u) (κ : Type v) where
  | obtainFdFor (usbDevice : δ) (manager : UsbManager κ)
  | broadcast (intent : PermissionIntent δ)
  | deliver (i : ℕ) (manager : UsbManager κ)

namespace PermissionApp

variable [DecidableEq δ]

def Starts (s : PermissionApp δ κ) : Prop := s = ⟨[], none⟩

def obtainFdFor (usbDevice : δ) (manager : UsbManager κ) : PermissionFuture δ κ :=
  if manager.hasPermission then .completed manager.openDevice
  else .asked ⟨usbDevice, none, true, [], [], []⟩

/-- A receiver that has been unregistered drops what is still queued for it. -/
def deliver (s : PermissionApp δ κ) (i : ℕ) (request : PermissionRequest δ κ)
    (intent : PermissionIntent δ) (manager : UsbManager κ) : PermissionApp δ κ :=
  if request.registered then
    match request.onReceive intent manager with
    | .ok received => { s with futures := s.futures.set i (.asked received) }
    | .error thrown => ⟨s.futures.set i (.asked request), some thrown⟩
  else { s with futures := s.futures.set i (.asked request) }

def step (s : PermissionApp δ κ) : PermissionLabel δ κ → Option (PermissionApp δ κ)
  | .obtainFdFor usbDevice manager =>
      if s.uncaught.isSome then none
      else some { s with futures := s.futures ++ [obtainFdFor usbDevice manager] }
  | .broadcast intent =>
      if s.uncaught.isSome then none
      else
        some { s with
          futures := s.futures.map (PermissionFuture.send intent) }
  | .deliver i manager =>
      if s.uncaught.isSome then none
      else
        match s.futures[i]? with
        | some (.asked request) =>
            match request.pending with
            | [] => none
            | intent :: rest =>
                some (s.deliver i (request.take intent rest manager) intent manager)
        | _ => none

/-- The invariant: a broadcast without a device has decided a request exactly if its exception has
ended the application. -/
structure AllAnswered (s : PermissionApp δ κ) : Prop where
  answered : ∀ request, .asked request ∈ s.futures → request.Answered
  caught : s.uncaught ≠ some .runtimeException
  ended : s.uncaught = none ↔ ∀ request, .asked request ∈ s.futures → ¬request.NoDevice

end PermissionApp

namespace PermissionRequest

variable {request : PermissionRequest δ κ} {intent : PermissionIntent δ}
  {rest : List (PermissionIntent δ)} {manager : UsbManager κ}

theorem noDevice_send : (request.send intent).NoDevice ↔ request.NoDevice := by
  unfold PermissionRequest.send
  split <;> exact Iff.rfl

variable [DecidableEq δ]

/-- What a receiver does while its future is not done. -/
theorem onReceive_waiting (action : intent.action = ACTION_USB_PERMISSION)
    (waiting : request.task = none) :
    request.onReceive intent manager =
      match intent.device with
      | none => .error .nullPointerException
      | some device => .ok { request with
          task := some (decision request.usbDevice device intent.permissionGranted manager)
          registered := request.registered && !decide (device = request.usbDevice) } := by
  have setDone : ∀ object, request.setDone object = .ok { request with task := some object } := by
    intro object
    rw [PermissionRequest.setDone, waiting]
    rfl
  rw [onReceive, if_pos action, waiting]
  cases intent.device with
  | none => rfl
  | some device =>
      simp only [setDone, decision]
      by_cases own : device = request.usbDevice
      · cases intent.permissionGranted <;> cases manager.hasPermission <;>
          simp [own, unregisterReceiver, bind, Except.bind, pure, Except.pure]
      · simp [own]

/-- A receiver ignores a broadcast when its future is done. -/
theorem onReceive_done (action : intent.action = ACTION_USB_PERMISSION)
    (done : request.task.isSome = true) : request.onReceive intent manager = .ok request := by
  rw [onReceive, if_pos action, if_pos done]
  rfl

theorem Answered.send (answered : request.Answered) : (request.send intent).Answered := by
  unfold PermissionRequest.send
  split
  · next passes =>
      refine ⟨?_, ?_, answered.decided⟩
      · show request.taken.map Prod.fst ++ (request.pending ++ [intent]) = request.sent ++ [intent]
        rw [← List.append_assoc, answered.order]
      · intro other sent
        rcases List.mem_append.mp sent with earlier | last
        · exact answered.filtered other earlier
        · rw [List.mem_singleton.mp last]
          exact passes.2
  · exact answered

/-- The broadcasts keep their order when one is taken from the queue. -/
theorem Answered.order_take (answered : request.Answered)
    (next : request.pending = intent :: rest) (manager : UsbManager κ) :
    (request.take intent rest manager).taken.map Prod.fst ++ rest = request.sent := by
  have order := answered.order
  rw [next] at order
  rw [← order]
  simp [take]

theorem Answered.action_next (answered : request.Answered)
    (next : request.pending = intent :: rest) : intent.action = ACTION_USB_PERMISSION := by
  refine answered.filtered intent ?_
  rw [← answered.order, next]
  exact List.mem_append_right _ (List.mem_cons_self ..)

/-- After the first broadcast nothing changes. -/
theorem Answered.later (answered : request.Answered) (next : request.pending = intent :: rest)
    (decided : request.taken ≠ []) (manager : UsbManager κ) :
    (request.take intent rest manager).Answered ∧
      ((request.take intent rest manager).NoDevice ↔ request.NoDevice) := by
  obtain ⟨⟨first, manager'⟩, earlier, taken⟩ := List.exists_cons_of_ne_nil decided
  have before := answered.decided
  rw [taken] at before
  have after : (request.take intent rest manager).taken =
      (first, manager') :: (earlier ++ [(intent, manager)]) := by
    show request.taken ++ [(intent, manager)] = _
    rw [taken]
    rfl
  refine ⟨⟨answered.order_take next manager, answered.filtered, ?_⟩, ?_⟩
  · rw [after]
    exact before
  · rw [NoDevice, NoDevice, taken, after]
    simp

/-- **The first broadcast.** It completes the future, or throws if it has no device. -/
theorem Answered.first (answered : request.Answered) (next : request.pending = intent :: rest)
    (undecided : request.taken = []) (manager : UsbManager κ) :
    match (request.take intent rest manager).onReceive intent manager with
    | .ok received => received.Answered ∧ ¬received.NoDevice
    | .error thrown => thrown = .nullPointerException ∧
        (request.take intent rest manager).Answered ∧
        (request.take intent rest manager).NoDevice := by
  have order := answered.order_take next manager
  have before := answered.decided
  rw [undecided] at before
  obtain ⟨task, registered⟩ := before
  have taken : (request.take intent rest manager).taken = [(intent, manager)] := by
    show request.taken ++ [(intent, manager)] = _
    rw [undecided]
    rfl
  have waiting : (request.take intent rest manager).task = none := task
  rw [onReceive_waiting (answered.action_next next) waiting]
  cases device : intent.device with
  | none =>
      refine ⟨rfl, ⟨order, answered.filtered, ?_⟩, ⟨intent, manager, [], taken, device⟩⟩
      rw [taken]
      exact ⟨by rw [device]; exact task, by rw [device]; exact registered⟩
  | some device' =>
      refine ⟨⟨order, answered.filtered, ?_⟩, ?_⟩
      · show PermissionRequest.Decided _ (request.take intent rest manager).taken
        rw [taken]
        exact ⟨by rw [device]; rfl, by simp [device, take, registered]⟩
      · rintro ⟨first, other, later, listed, none⟩
        have same : [(intent, manager)] = (first, other) :: later := taken.symm.trans listed
        cases same
        rw [none] at device
        cases device

end PermissionRequest

namespace PermissionApp

variable [DecidableEq δ] {s s' : PermissionApp δ κ} {request : PermissionRequest δ κ}
  {intent : PermissionIntent δ} {rest : List (PermissionIntent δ)} {manager : UsbManager κ}

/-- A request that has been decided has its future done, unless the application has ended. -/
theorem AllAnswered.done (all : s.AllAnswered) (runs : s.uncaught = none)
    (asked : .asked request ∈ s.futures) (decided : request.taken ≠ []) :
    request.task.isSome = true := by
  obtain ⟨⟨first, manager⟩, later, taken⟩ := List.exists_cons_of_ne_nil decided
  have done := (all.answered request asked).decided
  rw [taken] at done
  cases device : first.device with
  | none => exact absurd ⟨first, manager, later, taken, device⟩ (all.ended.mp runs request asked)
  | some device' =>
      rw [done.1, device]
      rfl

/-- One future is replaced and the application goes on. -/
theorem AllAnswered.set (all : s.AllAnswered) (runs : s.uncaught = none) (i : ℕ)
    (answered : request.Answered) (decided : ¬request.NoDevice) :
    AllAnswered { s with futures := s.futures.set i (.asked request) } := by
  refine ⟨fun other asked => ?_, all.caught, iff_of_true runs fun other asked => ?_⟩
  · rcases List.mem_or_eq_of_mem_set asked with before | same
    · exact all.answered other before
    · cases same
      exact answered
  · rcases List.mem_or_eq_of_mem_set asked with before | same
    · exact all.ended.mp runs other before
    · cases same
      exact decided

/-- **A receiver runs.** -/
theorem AllAnswered.deliver {i : ℕ} (all : s.AllAnswered) (runs : s.uncaught = none)
    (found : s.futures[i]? = some (.asked request)) (next : request.pending = intent :: rest) :
    (s.deliver i (request.take intent rest manager) intent manager).AllAnswered := by
  have asked := List.mem_of_getElem? found
  have answered := all.answered request asked
  have action := answered.action_next next
  unfold PermissionApp.deliver
  by_cases undecided : request.taken = []
  · have registered : (request.take intent rest manager).registered = true := by
      have before := answered.decided
      rw [undecided] at before
      exact before.2
    rw [if_pos registered]
    have outcome := answered.first next undecided manager
    split at outcome
    · next received _ =>
        exact all.set runs i outcome.1 outcome.2
    · next thrown _ =>
        obtain ⟨rfl, answered', noDevice⟩ := outcome
        refine ⟨fun other asked' => ?_, (fun same => by cases same), ?_⟩
        · rcases List.mem_or_eq_of_mem_set asked' with before | same
          · exact all.answered other before
          · cases same
            exact answered'
        · refine iff_of_false (fun same => by cases same) fun decided => ?_
          refine decided _ ?_ noDevice
          exact List.mem_of_getElem? (List.getElem?_set_self (List.getElem?_eq_some_iff.mp found).1)
  · obtain ⟨answered', noDevice⟩ := answered.later next undecided manager
    have kept := all.set runs i answered'
      (fun decided => all.ended.mp runs request asked (noDevice.mp decided))
    have before := all.done runs asked undecided
    have done : (request.take intent rest manager).task.isSome = true := before
    split
    · rw [PermissionRequest.onReceive_done action done]
      exact kept
    · exact kept

/-- **One step.** -/
theorem AllAnswered.step {label : PermissionLabel δ κ} (all : s.AllAnswered)
    (moves : s.step label = some s') : s'.AllAnswered := by
  cases label with
  | obtainFdFor usbDevice manager =>
      simp only [PermissionApp.step] at moves
      split at moves <;> cases moves
      next runs =>
        have runs := Option.not_isSome_iff_eq_none.mp runs
        have new : ∀ request : PermissionRequest δ κ,
            .asked request ∈ s.futures ++ [obtainFdFor usbDevice manager] →
            .asked request ∈ s.futures ∨ request = ⟨usbDevice, none, true, [], [], []⟩ := by
          intro request asked
          rw [List.mem_append, List.mem_singleton, PermissionApp.obtainFdFor] at asked
          rcases asked with before | same
          · exact .inl before
          · split at same <;> cases same
            exact .inr rfl
        refine ⟨fun request asked => ?_, all.caught, iff_of_true runs fun request asked => ?_⟩
        · rcases new request asked with before | rfl
          · exact all.answered request before
          · exact ⟨rfl, fun intent sent => absurd sent List.not_mem_nil, rfl, rfl⟩
        · rcases new request asked with before | rfl
          · exact all.ended.mp runs request before
          · rintro ⟨first, manager, later, taken, -⟩
            cases taken
  | broadcast intent =>
      simp only [PermissionApp.step] at moves
      split at moves <;> cases moves
      next runs =>
        have runs := Option.not_isSome_iff_eq_none.mp runs
        have sent : ∀ request : PermissionRequest δ κ,
            .asked request ∈ s.futures.map (PermissionFuture.send intent) →
            ∃ before, .asked before ∈ s.futures ∧ request = before.send intent := by
          intro request asked
          obtain ⟨future, member, same⟩ := List.mem_map.mp asked
          cases future with
          | completed result => cases same
          | asked before =>
              cases same
              exact ⟨before, member, rfl⟩
        refine ⟨fun request asked => ?_, all.caught, iff_of_true runs fun request asked => ?_⟩
        · obtain ⟨before, member, rfl⟩ := sent request asked
          exact (all.answered before member).send
        · obtain ⟨before, member, rfl⟩ := sent request asked
          rw [PermissionRequest.noDevice_send]
          exact all.ended.mp runs before member
  | deliver i manager =>
      simp only [PermissionApp.step] at moves
      split at moves
      · cases moves
      next runs =>
        split at moves
        · next request found =>
            split at moves <;> cases moves
            next intent rest next =>
              exact all.deliver (Option.not_isSome_iff_eq_none.mp runs) found next
        · cases moves

/-! ## Every run -/

/-- **The first broadcast decides.** In every order of requests, broadcasts and receivers, and for
every request that waits for an answer: the broadcasts that its receiver has taken and those that
are queued are all that were sent while it was registered, in order. Its future is done exactly if
one has been taken, unless that had no device. The first one decides what the future holds, and it
takes its receiver off exactly if it is about the same device. No future is completed twice, and the
application has ended exactly if a first broadcast had no device. -/
theorem first_answer_decides (reached : Reach step Starts Always s) :
    (∀ request, .asked request ∈ s.futures →
      request.taken.map Prod.fst ++ request.pending = request.sent ∧
      (∀ intent ∈ request.sent, intent.action = ACTION_USB_PERMISSION) ∧
      (request.taken = [] → request.task = none ∧ request.registered = true) ∧
      ∀ first manager later, request.taken = (first, manager) :: later →
        request.task = first.device.map (PermissionRequest.decision request.usbDevice ·
          first.permissionGranted manager) ∧
        request.registered = !decide (first.device = some request.usbDevice)) ∧
      s.uncaught ≠ some .runtimeException ∧
      (s.uncaught = none ↔ ∀ request, .asked request ∈ s.futures → ¬request.NoDevice) := by
  have all : s.AllAnswered := by
    refine reached.invariant (fun s starts => ?_) (fun _ _ _ all _ moves => all.step moves)
    cases starts
    exact ⟨fun request asked => absurd asked List.not_mem_nil, (fun same => by cases same),
      iff_of_true rfl fun request asked => absurd asked List.not_mem_nil⟩
  refine ⟨fun request asked => ?_, all.caught, all.ended⟩
  have answered := all.answered request asked
  refine ⟨answered.order, answered.filtered, fun none => ?_, fun first manager later taken => ?_⟩
  · have decided := answered.decided
    rw [none] at decided
    exact decided
  · have decided := answered.decided
    rw [taken] at decided
    exact decided

/-- Two requests wait, and the user grants the first one and then the second. -/
def twoRequests : List (PermissionLabel ℕ ℕ) :=
  [.obtainFdFor 0 ⟨false, none⟩, .obtainFdFor 1 ⟨false, none⟩,
    .broadcast ⟨ACTION_USB_PERMISSION, some 0, true⟩, .deliver 0 ⟨true, some 7⟩,
    .deliver 1 ⟨false, none⟩, .broadcast ⟨ACTION_USB_PERMISSION, some 1, true⟩,
    .deliver 1 ⟨true, some 8⟩]

/-- The second request is told `null`, and its receiver stays although its own device is granted. -/
theorem first_answer_decides_twoRequests :
    ∃ s : PermissionApp ℕ ℕ, ∃ request, s.futures[1]? = some (.asked request) ∧
      request.usbDevice = 1 ∧ request.task = some none ∧ request.registered = true := by
  have moved : (replay step ⟨[], none⟩ twoRequests).map (·.futures[1]?) =
      some (some (.asked ⟨1, some none, true, [],
        [⟨ACTION_USB_PERMISSION, some 0, true⟩, ⟨ACTION_USB_PERMISSION, some 1, true⟩],
        [(⟨ACTION_USB_PERMISSION, some 0, true⟩, ⟨false, none⟩),
          (⟨ACTION_USB_PERMISSION, some 1, true⟩, ⟨true, some 8⟩)]⟩)) := by decide
  obtain ⟨s, replayed, found⟩ := Option.map_eq_some_iff.mp moved
  obtain ⟨-, -, -, decided⟩ := (first_answer_decides (.of_replay (.start rfl) _ replayed)).1 _
    (List.mem_of_getElem? found)
  obtain ⟨task, registered⟩ := decided _ _ _ rfl
  exact ⟨s, _, found, rfl, task, registered⟩

end PermissionApp

end MsiSdrDriver.Service
