import MsiSdrDriver.Server.StreamOwnership

/-!
# The threads round `obj->state`

`sdrtcp_open_socket`, `sdrtcp_serve_client_async`, the `tcp_server` thread with
`sdrtcp_wait_for_client` inside it, the `commandListener` thread that it creates, and
`sdrtcp_stop_serving_client`. Each is a step function on the shared object and the thread's
own program counter. A step makes one access to `obj->state`; what runs under `state_locker`
is one step.

No thread here takes `state_locker` for longer than one step, so the field plays no part. What
a system call answers comes with the step. The descriptor that `socket` or `accept` is going
to return comes with the test of the state before the call, since nothing in between looks
at it.
-/

set_option autoImplicit false

namespace MsiSdrDriver.Server

/-! ## `sdrtcp_open_socket` -/

/-- Where the driver thread is inside `sdrtcp_open_socket`. -/
inductive OpenSocketPc where
  /-- the test for `UNINITIALIZED` with which the call begins -/
  | called
  /-- the critical section that sets the pool up -/
  | setUp
  /-- the test before `socket` -/
  | socketTest
  | createSocket (descriptor : ℤ)
  /-- the critical section that stores `SOCKET_OPEN` -/
  | storeSocketOpen
  /-- the test before `bind` and `listen` -/
  | bindTest
  /-- the last test -/
  | successTest (success : Bool)
  /-- before the `sdrtcp_cleanup` of `RETURN_FAILURE` -/
  | failure
  | returned (successful : Bool)
  deriving DecidableEq

/-- What a step of `sdrtcp_open_socket` takes from outside: the arguments of the call, the
descriptor that `socket` returns, and whether `bind` and `listen` succeed. -/
structure OpenSocketInput where
  dongleMagic : Fin 4 → UInt8
  dongleType : UInt32
  gainsCount : UInt32
  socket : ℤ
  listens : Bool

/-- One step of `sdrtcp_open_socket`. -/
def openSocketStep (obj : Sdrtcp) (input : OpenSocketInput) :
    OpenSocketPc → Option (Sdrtcp × OpenSocketPc)
  | .called =>
      if obj.state ≠ .uninitialized then some (obj, .failure) else some (obj, .setUp)
  | .setUp =>
      some ({ obj with
        listenSocket := -1
        workpool := sdrtcpOpenPool obj.workpool
          (dongleInfo input.dongleMagic input.dongleType input.gainsCount)
        state := .initialized }, .socketTest)
  | .socketTest =>
      if obj.state = .initialized then some (obj, .createSocket input.socket)
      else some (obj, .storeSocketOpen)
  | .createSocket descriptor =>
      some ({ obj with listenSocket := descriptor }, .storeSocketOpen)
  | .storeSocketOpen =>
      if obj.listenSocket ≠ -1 then some ({ obj with state := .socketOpen }, .bindTest)
      else some (obj, .bindTest)
  | .bindTest =>
      if obj.state = .socketOpen then some (obj, .successTest input.listens)
      else some (obj, .successTest false)
  | .successTest success =>
      if obj.state = .socketOpen ∧ success then some (obj, .returned true)
      else some (obj, .failure)
  | .failure => some (sdrtcpCleanup obj, .returned false)
  | .returned _ => none

/-! ## `sdrtcp_serve_client_async` -/

/-- Where the driver thread is inside `sdrtcp_serve_client_async`. -/
inductive ServeClientAsyncPc where
  | called
  /-- the wrong state was found, before `closedcb` -/
  | closedcb
  /-- before the `sdrtcp_cleanup` of `RETURN_AND_CLOSE` -/
  | close
  /-- before `CLIENT_OPEN_STARTED_ASYNC` is stored -/
  | start
  /-- before the `tcp_server` thread is created -/
  | createServer
  | returned
  deriving DecidableEq

/-- One step of `sdrtcp_serve_client_async`. -/
def serveClientAsyncStep (obj : Sdrtcp) :
    ServeClientAsyncPc → Option (Sdrtcp × ServeClientAsyncPc)
  | .called => if obj.state ≠ .socketOpen then some (obj, .closedcb) else some (obj, .start)
  | .closedcb => some (obj, .close)
  | .close => some (sdrtcpCleanup obj, .returned)
  | .start => some ({ obj with state := .clientOpenStartedAsync }, .createServer)
  | .createServer => some (obj, .returned)
  | .returned => none

/-! ## `tcp_server` -/

/-- Where a `tcp_server` thread is. -/
inductive TcpServerPc where
  /-- the thread has not been created -/
  | unborn
  /-- the first test of `sdrtcp_wait_for_client` -/
  | waitEntry
  /-- before `client_socket` is reset -/
  | resetClient
  /-- the test of its loop -/
  | waitTest
  /-- the test before `select` -/
  | selectTest
  /-- the test before `accept`, after `select` returned non-zero -/
  | acceptTest
  | accept (descriptor : ℤ)
  /-- before `CLIENT_OPEN` is stored -/
  | storeClientOpen
  /-- `sdrtcp_wait_for_client` has returned, before the test for `CLIENT_OPEN` -/
  | clientTest
  /-- before `commandListener` is created -/
  | createListener
  /-- before `CLIENT_SERVING` is stored -/
  | storeServing
  | serving (pc : ServePc)
  /-- before `commandListener` is joined -/
  | joinListener
  /-- the test for `UNINITIALIZED` at the end -/
  | shutdownTest
  | cleanup
  /-- before `closedcb` -/
  | closedcb
  | finished
  deriving DecidableEq

/-- The environment's answers in a step of `tcp_server`. -/
structure TcpServerAnswer where
  /-- `select` on the listening socket returns a value other than zero -/
  select : Bool
  /-- what `accept` returns -/
  accept : ℤ
  serve : ServeAnswer

/-- One step of `tcp_server`. -/
def tcpServerStep (obj : Sdrtcp) (answer : TcpServerAnswer) :
    TcpServerPc → Option (Sdrtcp × TcpServerPc)
  | .unborn => none
  | .waitEntry =>
      if obj.state ≠ .clientOpenStartedAsync then some (obj, .clientTest)
      else some (obj, .resetClient)
  | .resetClient => some ({ obj with clientSocket := -1 }, .waitTest)
  | .waitTest =>
      if obj.state = .clientOpenStartedAsync then some (obj, .selectTest)
      else some (obj, .clientTest)
  | .selectTest =>
      if obj.state = .clientOpenStartedAsync ∧ answer.select then some (obj, .acceptTest)
      else some (obj, .waitTest)
  | .acceptTest =>
      if obj.state = .clientOpenStartedAsync then some (obj, .accept answer.accept)
      else some (obj, .waitTest)
  | .accept descriptor =>
      some ({ obj with clientSocket := descriptor },
        if descriptor ≠ -1 then .storeClientOpen else .clientTest)
  | .storeClientOpen => some ({ obj with state := .clientOpen }, .waitTest)
  | .clientTest =>
      if obj.state = .clientOpen then some (obj, .createListener) else some (obj, .shutdownTest)
  | .createListener => some (obj, .storeServing)
  | .storeServing => some ({ obj with state := .clientServing }, .serving .loop)
  | .serving .returned => some (obj, .joinListener)
  | .serving pc =>
      (serveClientStep obj answer.serve pc).map fun (obj', pc', _) => (obj', .serving pc')
  | .joinListener => some (obj, .shutdownTest)
  | .shutdownTest =>
      if obj.state ≠ .uninitialized then some (obj, .cleanup) else some (obj, .closedcb)
  | .cleanup => some (sdrtcpCleanup obj, .closedcb)
  | .closedcb => some (obj, .finished)
  | .finished => none

/-! ## `commandListener` -/

/-- Where a `commandListener` thread is; `left` is the number of bytes that the command still
lacks. -/
inductive CommandListenerPc where
  /-- the thread has not been created -/
  | unborn
  /-- the test of the outer loop -/
  | outerTest
  /-- the test of the inner loop -/
  | innerTest (left : ℕ)
  /-- the test before `select` -/
  | selectTest (left : ℕ)
  /-- the test before `recv`, with what `select` said -/
  | recvTest (left : ℕ) (ready : Bool)
  | recv (left : ℕ)
  /-- `recv` failed, before `NEEDS_STOPPING` is stored -/
  | recvFailed (left : ℕ)
  /-- the test before the command is carried out -/
  | commandTest (left : ℕ)
  | commandcb
  | exited
  deriving DecidableEq

/-- `sizeof(sdr_tcp_command_t)`. -/
def sizeofCommand : ℕ := 5

/-- The environment's answers in a step of `commandListener`. -/
structure CommandListenerAnswer where
  /-- `select` on the client socket returns a value other than zero -/
  select : Bool
  /-- how many bytes `recv` returns, or that it fails -/
  recv : Option ℕ
  deriving DecidableEq

/-- One step of `commandListener`. -/
def commandListenerStep (obj : Sdrtcp) (answer : CommandListenerAnswer) :
    CommandListenerPc → Option (Sdrtcp × CommandListenerPc)
  | .unborn => none
  | .outerTest =>
      if obj.state = .clientServing then some (obj, .innerTest sizeofCommand)
      else some (obj, .exited)
  | .innerTest left =>
      if 0 < left ∧ obj.state = .clientServing then some (obj, .selectTest left)
      else some (obj, .commandTest left)
  | .selectTest left =>
      if obj.state = .clientServing then some (obj, .recvTest left answer.select)
      else some (obj, .recvTest left false)
  | .recvTest left ready =>
      if obj.state = .clientServing ∧ ready then some (obj, .recv left)
      else some (obj, .innerTest left)
  | .recv left =>
      match answer.recv with
      | some received => if received ≤ left then some (obj, .innerTest (left - received)) else none
      | none => some (obj, .recvFailed (left + 1))
  | .recvFailed left => some ({ obj with state := .needsStopping }, .commandTest left)
  | .commandTest left =>
      if obj.state = .clientServing ∧ left = 0 then some (obj, .commandcb)
      else some (obj, .outerTest)
  | .commandcb => some (obj, .outerTest)
  | .exited => none

/-! ## `sdrtcp_stop_serving_client` -/

/-- Where a thread is inside `sdrtcp_stop_serving_client`. -/
inductive StopPc where
  /-- the test for `UNINITIALIZED` -/
  | called
  /-- the comparison with `CLIENT_OPEN_STARTED_ASYNC` -/
  | compare
  /-- before `sdrtcp_cleanup` -/
  | cleanup
  /-- before `NEEDS_STOPPING` is stored -/
  | store
  | returned
  deriving DecidableEq

/-- One step of `sdrtcp_stop_serving_client`. -/
def stopServingClientStep (obj : Sdrtcp) : StopPc → Option (Sdrtcp × StopPc)
  | .called => if obj.state = .uninitialized then some (obj, .returned) else some (obj, .compare)
  | .compare =>
      if obj.state.code < Stage.clientOpenStartedAsync.code then some (obj, .cleanup)
      else some (obj, .store)
  | .cleanup => some (sdrtcpCleanup obj, .returned)
  | .store => some ({ obj with state := .needsStopping }, .returned)
  | .returned => none

/-! ## What the steps do to the object -/

@[simp] theorem poolAdd_valid (pool : Workpool) (id : ℕ) (buff : BufId) :
    (poolAdd pool id buff).valid = pool.valid := by
  unfold poolAdd
  split <;> rfl

@[simp] theorem poolGetUnlock_valid (pool : Workpool) (id : ℕ) (buff : BufId) :
    (poolGetUnlock pool id buff).valid = pool.valid := by
  unfold poolGetUnlock
  split
  · split <;> simp
  · rfl

theorem getStep_valid {id : ℕ} {block : Bool} {pool pool' : Workpool} {pc pc' : GetPc}
    (moves : getStep id block pool pc = some (pool', pc')) : pool'.valid = pool.valid := by
  rcases getStep_cases moves with ⟨rfl, -⟩ | ⟨_, _, -, rfl, -⟩ | ⟨-, -, rfl, -⟩ <;> rfl

/-- The object changes by nothing that opens it: the pool stays as valid as it was, the
listening socket stays, and the state stays or becomes `NEEDS_STOPPING`. -/
structure Sdrtcp.Settles (obj obj' : Sdrtcp) : Prop where
  valid : obj'.workpool.valid = obj.workpool.valid
  listenSocket : obj'.listenSocket = obj.listenSocket
  state : obj'.state = obj.state ∨ obj'.state = .needsStopping

theorem Sdrtcp.Settles.refl (obj : Sdrtcp) : obj.Settles obj := ⟨rfl, rfl, .inl rfl⟩

theorem serveClientStep_settles {obj obj' : Sdrtcp} {answer : ServeAnswer} {pc pc' : ServePc}
    {bytes : List UInt8} (moves : serveClientStep obj answer pc = some (obj', pc', bytes)) :
    obj.Settles obj' := by
  cases pc with
  | getting get =>
      cases get with
      | done result => cases result <;> cases moves <;> exact .refl obj
      | first | missed | second | waiting =>
          simp only [serveClientStep, Option.map_eq_some_iff, Prod.exists] at moves
          obtain ⟨pool, get', stepped, same⟩ := moves
          cases same
          exact ⟨getStep_valid stepped, rfl, .inl rfl⟩
  | unlocking buff =>
      cases moves
      exact ⟨poolGetUnlock_valid _ _ _, rfl, .inl rfl⟩
  | selecting sending =>
      simp only [serveClientStep] at moves
      split at moves <;> cases moves <;> exact .refl obj
  | sendCall sending =>
      simp only [serveClientStep] at moves
      split at moves
      · split at moves <;> cases moves
        exact .refl obj
      · cases moves
        exact .refl obj
  | selectFailed sending | sendFailedStore sending =>
      cases moves
      exact ⟨rfl, rfl, .inr rfl⟩
  | loop | enter | sendTest sending | selectTest sending | sendEnter sending
  | sendFailed sending =>
      simp only [serveClientStep] at moves
      split at moves <;> cases moves <;> exact .refl obj
  | returned => cases moves

/-- `commandListener` writes nothing but `NEEDS_STOPPING`. -/
theorem commandListenerStep_settles {obj obj' : Sdrtcp} {answer : CommandListenerAnswer}
    {pc pc' : CommandListenerPc}
    (moves : commandListenerStep obj answer pc = some (obj', pc')) : obj.Settles obj' := by
  cases pc with
  | unborn | exited => cases moves
  | commandcb =>
      cases moves
      exact .refl obj
  | recvFailed left =>
      cases moves
      exact ⟨rfl, rfl, .inr rfl⟩
  | recv left =>
      simp only [commandListenerStep] at moves
      split at moves
      · split at moves <;> cases moves
        exact .refl obj
      · cases moves
        exact .refl obj
  | outerTest | innerTest left | selectTest left | recvTest left ready | commandTest left =>
      simp only [commandListenerStep] at moves
      split at moves <;> cases moves <;> exact .refl obj

/-- A store of `obj->state` is due in `tcp_server` whose test has been made. -/
def TcpServerPc.storeDue : TcpServerPc → Bool
  | .accept descriptor => descriptor ≠ -1
  | .storeClientOpen | .createListener | .storeServing => true
  | _ => false

/-- **What one step of `tcp_server` can do**: make one of its two stores, clean up, or leave
the object as open as it was. A store becomes due only on a test that finds the server
started. -/
theorem tcpServerStep_cases {obj obj' : Sdrtcp} {answer : TcpServerAnswer} {pc pc' : TcpServerPc}
    (moves : tcpServerStep obj answer pc = some (obj', pc')) :
    (pc = .storeClientOpen ∧ obj' = { obj with state := .clientOpen } ∧ pc' = .waitTest) ∨
      (pc = .storeServing ∧ obj' = { obj with state := .clientServing } ∧
        pc' = .serving .loop) ∨
      (pc = .cleanup ∧ obj' = sdrtcpCleanup obj ∧ pc' = .closedcb) ∨
      (obj.Settles obj' ∧ pc ≠ .cleanup ∧
        (pc'.storeDue = true → pc.storeDue = true ∨ obj.state = .clientOpenStartedAsync ∨
          obj.state = .clientOpen)) := by
  have quiet : obj.Settles obj := .refl obj
  cases pc with
  | unborn | finished => cases moves
  | storeClientOpen =>
      cases moves
      exact .inl ⟨rfl, rfl, rfl⟩
  | storeServing =>
      cases moves
      exact .inr (.inl ⟨rfl, rfl, rfl⟩)
  | cleanup =>
      cases moves
      exact .inr (.inr (.inl ⟨rfl, rfl, rfl⟩))
  | resetClient =>
      cases moves
      exact .inr (.inr (.inr ⟨⟨rfl, rfl, .inl rfl⟩, by simp, by simp [TcpServerPc.storeDue]⟩))
  | accept descriptor =>
      cases moves
      refine .inr (.inr (.inr ⟨⟨rfl, rfl, .inl rfl⟩, by simp, ?_⟩))
      split <;> simp_all [TcpServerPc.storeDue]
  | createListener =>
      cases moves
      exact .inr (.inr (.inr ⟨quiet, by simp, fun _ => .inl rfl⟩))
  | joinListener | closedcb =>
      cases moves
      exact .inr (.inr (.inr ⟨quiet, by simp, by simp [TcpServerPc.storeDue]⟩))
  | serving serve =>
      by_cases finished : serve = .returned
      · subst finished
        cases moves
        exact .inr (.inr (.inr ⟨quiet, by simp, by simp [TcpServerPc.storeDue]⟩))
      · simp only [tcpServerStep, Option.map_eq_some_iff, Prod.exists] at moves
        obtain ⟨next, serve', bytes, stepped, same⟩ := moves
        cases same
        exact .inr (.inr (.inr ⟨serveClientStep_settles stepped, by simp,
          by simp [TcpServerPc.storeDue]⟩))
  | waitEntry | waitTest | selectTest | acceptTest | clientTest | shutdownTest =>
      simp only [tcpServerStep] at moves
      split at moves <;> cases moves <;>
        exact .inr (.inr (.inr ⟨quiet, by simp, by simp_all [TcpServerPc.storeDue]⟩))

end MsiSdrDriver.Server
