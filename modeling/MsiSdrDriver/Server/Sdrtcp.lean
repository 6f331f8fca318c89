import MsiSdrDriver.Server.PoolOwnership

/-!
# The TCP server object

`sdrtcp_t`, its seven stages and the two functions that open and tear down a session under
`state_locker`: the first critical section of `sdrtcp_open_socket`, which builds the pool and
queues the dongle header, and `sdrtcp_cleanup`.
-/

set_option autoImplicit false

namespace MsiSdrDriver.Server

/-- The values of `obj->state`, in the numeric order of the `STAGE_` constants. -/
inductive Stage where
  | uninitialized
  | initialized
  | socketOpen
  | clientOpen
  | clientOpenStartedAsync
  | clientServing
  | needsStopping
  deriving DecidableEq, Repr

/-- The numeric value of a stage. -/
def Stage.code : Stage → ℕ
  | .uninitialized => 0
  | .initialized => 1
  | .socketOpen => 2
  | .clientOpen => 3
  | .clientOpenStartedAsync => 4
  | .clientServing => 5
  | .needsStopping => 6

/-- `sdrtcp_t` without its callbacks. A descriptor of `-1` is no descriptor; `stateLocker`
tells whether a thread holds the mutex over several steps. -/
structure Sdrtcp where
  state : Stage
  stateLocker : Bool
  workpool : Workpool
  clientSocket : ℤ
  listenSocket : ℤ

/-- `sdrtcp_init`. -/
def sdrtcpInit : Sdrtcp where
  state := .uninitialized
  stateLocker := false
  workpool := Workpool.blank
  clientSocket := -1
  listenSocket := -1

/-- `sdrtcp_cleanup`, whose body runs under `state_locker`. -/
def sdrtcpCleanup (obj : Sdrtcp) : Sdrtcp :=
  if obj.state = .uninitialized then obj
  else
    { obj with
      state := .uninitialized
      workpool := poolFree obj.workpool
      clientSocket := -1
      listenSocket := -1 }

/-- `POOL_MAX_ELEMENTS`. -/
def poolMaxElements : ℤ := 5

/-- A 32-bit word in network order: the most significant byte comes first in memory. -/
def htonl (word : UInt32) : List UInt8 :=
  [(word >>> 24).toUInt8, (word >>> 16).toUInt8, (word >>> 8).toUInt8, word.toUInt8]

/-- The bytes of `dongle_info_t`: the magic, the dongle type and the number of gains. -/
def dongleInfo (dongleMagic : Fin 4 → UInt8) (dongleType gainsCount : UInt32) : List UInt8 :=
  List.ofFn dongleMagic ++ htonl dongleType ++ htonl gainsCount

theorem dongleInfo_length (dongleMagic : Fin 4 → UInt8) (dongleType gainsCount : UInt32) :
    (dongleInfo dongleMagic dongleType gainsCount).length = 12 := by
  simp [dongleInfo, htonl]

/-- `extbuffer_preparetohandle` and `memcpy` on a buffer that the caller holds. -/
def fillBuffer (pool : Workpool) (buff : BufId) (size : ℤ) (bytes : List UInt8) : Workpool :=
  { pool with
    heap := Function.update pool.heap buff
      ((extbufferPreparetohandle (pool.heap buff) size).write bytes) }

/-- The critical section of `sdrtcp_open_socket`: a fresh pool of two queues with the dongle
header queued for the sender. -/
def sdrtcpOpenPool (pool : Workpool) (header : List UInt8) : Workpool :=
  let pool := poolSetThreads (poolInit pool poolMaxElements) 2
  match poolGetWaitLock 0 true 5 pool .first with
  | (some buff, pool) => poolGetUnlock (fillBuffer pool buff 6 header) 0 buff
  | (none, pool) => pool

/-- The pool that `sdrtcp_open_socket` sets up: one buffer, which waits for the sender with the
dongle header in it. -/
theorem sdrtcpOpenPool_eq (pool : Workpool) (header : List UInt8) :
    sdrtcpOpenPool pool header =
      { pool with
        queues := fun id => if id = 1 then [pool.fresh] else []
        maxElements := poolMaxElements
        maxIds := 2
        elements := 1
        valid := true
        heap := Function.update pool.heap pool.fresh
          ((extbufferPreparetohandle extbufferInit 6).write header)
        fresh := pool.fresh + 1 } := by
  have queues : Function.update (fun _ : ℕ => ([] : List BufId)) 1 [pool.fresh] =
      fun id => if id = 1 then [pool.fresh] else [] := by
    funext id
    by_cases sender : id = 1
    · subst sender
      simp
    · simp [sender]
  simp [sdrtcpOpenPool, poolSetThreads, poolInit, poolFree, poolGetWaitLock, getStep, queuePop,
    GetPc.orElse, poolMalloc, poolGetUnlock, poolAdd, fillBuffer, poolMaxElements, queues]

@[simp] theorem sdrtcpCleanup_state (obj : Sdrtcp) :
    (sdrtcpCleanup obj).state = .uninitialized := by
  unfold sdrtcpCleanup
  split
  · assumption
  · rfl

/-- A clean-up either finds nothing to do or frees the pool. -/
theorem sdrtcpCleanup_cases (obj : Sdrtcp) :
    (obj.state = .uninitialized ∧ sdrtcpCleanup obj = obj) ∨
      (obj.state ≠ .uninitialized ∧
        (sdrtcpCleanup obj).workpool = poolFree obj.workpool) := by
  unfold sdrtcpCleanup
  split
  · next closed => exact .inl ⟨closed, rfl⟩
  · next opened => exact .inr ⟨opened, rfl⟩

theorem sdrtcpCleanup_drains (obj : Sdrtcp) :
    obj.workpool.Drains (sdrtcpCleanup obj).workpool := by
  rcases sdrtcpCleanup_cases obj with ⟨-, same⟩ | ⟨-, freed⟩
  · rw [same]
    exact .refl _
  · rw [freed]
    exact poolFree_drains _

end MsiSdrDriver.Server
