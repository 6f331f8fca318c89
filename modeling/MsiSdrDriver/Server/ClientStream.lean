import MsiSdrDriver.Server.Sdrtcp

/-!
# Feeding and serving a client

The two loops that move samples to the client: `sdrtcp_feed`, which a USB callback calls with
each chunk, and `serveClient`, which the `tcp_server` thread runs. They share the pool and
`obj->state`. Each program counter below is a point between two accesses to shared memory,
and each step takes one of them. The answers of `select` and `send` are labels.

`sdrtcp_feed` holds `state_locker` from its second test of the state to its end, and
`sdrtcp_cleanup` runs under the same mutex. `serveClient` takes no lock.
-/

set_option autoImplicit false

namespace MsiSdrDriver.Server

/-! ## What is fed -/

/-- What `sdrtcp_feed` is called with: `len` 16-bit elements at `buf`. The length is a
`uint32_t` that the function hands on as an `int`, so a chunk has at most `INT_MAX` elements. -/
structure Chunk where
  buf : List UInt8
  len : ℕ
  whole : buf.length = 2 * len
  fits : len < 2 ^ 31

/-- The chunk that `msisdr_callback` feeds from a run of bytes: it halves a `uint32_t` length,
with the bytes of the USB callback in 16-bit mode and the converted ones in 8-bit mode. -/
def Chunk.ofBytes (bytes : List UInt8) (word : bytes.length < 2 ^ 32) : Chunk where
  buf := bytes.take (2 * (bytes.length / 2))
  len := bytes.length / 2
  whole := by
    rw [List.length_take]
    omega
  fits := by omega

/-- The conversion of a `uint32_t` argument to an `int` parameter. -/
def toInt32 (word : ℕ) : ℤ := Int.bmod word (2 ^ 32)

theorem Chunk.toInt32_len (chunk : Chunk) : toInt32 chunk.len = chunk.len := by
  have fits := chunk.fits
  unfold toInt32
  rw [Int.bmod_eq_of_le] <;> omega

/-! ## `serveClient` -/

/-- The locals of the sending loop: the buffer, `index` and `bytesleft`. -/
structure Sending where
  buff : BufId
  index : ℕ
  bytesleft : ℕ
  deriving DecidableEq

/-- Where the server thread is inside `serveClient`. -/
inductive ServePc where
  /-- the test of the outer loop -/
  | loop
  /-- the test before the pool is asked for a buffer -/
  | enter
  | getting (pc : GetPc)
  /-- the test of the inner loop -/
  | sendTest (sending : Sending)
  /-- the test before `select` -/
  | selectTest (sending : Sending)
  | selecting (sending : Sending)
  /-- `select` failed, before the state is set -/
  | selectFailed (sending : Sending)
  /-- the test before `send`, after `select` returned non-zero -/
  | sendEnter (sending : Sending)
  | sendCall (sending : Sending)
  /-- `send` failed, before the state is tested -/
  | sendFailed (sending : Sending)
  /-- before the state is set for a failed `send` -/
  | sendFailedStore (sending : Sending)
  | unlocking (buff : BufId)
  | returned
  deriving DecidableEq

/-- What `select` returns. -/
inductive SelectResult where
  | error
  | timeout
  | ready
  deriving DecidableEq

/-- The environment's answer in a step of `serveClient`; a step that makes no system call
does not look at it. -/
structure ServeAnswer where
  select : SelectResult
  /-- how many bytes `send` takes, or that it fails -/
  send : Option ℕ
  deriving DecidableEq

/-- `size_t` arithmetic modulo `2^64`. -/
def sizeT (value : ℤ) : ℕ := (value % 2 ^ 64).toNat

/-- The locals after `send` returned `bytessent`: a failure counts as `-1` byte. -/
def Sending.after (sending : Sending) (bytessent : ℤ) : Sending where
  buff := sending.buff
  index := sizeT (sending.index + bytessent)
  bytesleft := sizeT (sending.bytesleft - bytessent)

/-- One step of `serveClient`: the object, the program counter and the bytes that the step
handed to the socket. -/
def serveClientStep (obj : Sdrtcp) (answer : ServeAnswer) :
    ServePc → Option (Sdrtcp × ServePc × List UInt8)
  | .loop =>
      if obj.state = .clientServing then some (obj, .enter, []) else some (obj, .returned, [])
  | .enter =>
      if obj.state = .clientServing then some (obj, .getting .first, [])
      else some (obj, .returned, [])
  | .getting (.done none) => some (obj, .loop, [])
  | .getting (.done (some buff)) =>
      some (obj, .sendTest ⟨buff, 0, 2 * (obj.workpool.heap buff).sizeValidElements⟩, [])
  | .getting pc =>
      (getStep 1 true obj.workpool pc).map fun (pool, pc') =>
        ({ obj with workpool := pool }, .getting pc', [])
  | .sendTest sending =>
      if 0 < sending.bytesleft ∧ obj.state = .clientServing then
        some (obj, .selectTest sending, [])
      else some (obj, .unlocking sending.buff, [])
  | .selectTest sending =>
      if obj.state = .clientServing then some (obj, .selecting sending, [])
      else some (obj, .sendTest sending, [])
  | .selecting sending =>
      match answer.select with
      | .error => some (obj, .selectFailed sending, [])
      | .timeout => some (obj, .sendTest sending, [])
      | .ready => some (obj, .sendEnter sending, [])
  | .selectFailed sending =>
      some ({ obj with state := .needsStopping }, .sendEnter sending, [])
  | .sendEnter sending =>
      if obj.state = .clientServing then some (obj, .sendCall sending, [])
      else some (obj, .sendTest sending, [])
  | .sendCall sending =>
      match answer.send with
      | some taken =>
          if 1 ≤ taken ∧ taken ≤ sending.bytesleft then
            some (obj, .sendTest (sending.after taken),
              ((obj.workpool.heap sending.buff).ushortbuffer.drop sending.index).take taken)
          else none
      | none => some (obj, .sendFailed (sending.after (-1)), [])
  | .sendFailed sending =>
      if obj.state = .clientServing then some (obj, .sendFailedStore sending, [])
      else some (obj, .sendTest sending, [])
  | .sendFailedStore sending =>
      some ({ obj with state := .needsStopping }, .sendTest sending, [])
  | .unlocking buff =>
      some ({ obj with workpool := poolGetUnlock obj.workpool 1 buff }, .loop, [])
  | .returned => none

/-! ## `sdrtcp_feed` -/

/-- Where the feeding thread is inside `sdrtcp_feed`. -/
inductive FeedPc where
  /-- not in a call; the value is what the last one returned -/
  | returned (successful : ℕ)
  /-- the first test of the state -/
  | check (chunk : Chunk)
  /-- the tests of the branch that sleeps, outside the lock -/
  | notReady
  /-- before `state_locker` is taken -/
  | locking (chunk : Chunk)
  /-- the second test of the state -/
  | lockedCheck (chunk : Chunk)
  /-- the tests of the branch that sleeps, inside the lock -/
  | lockedNotReady
  | getting (chunk : Chunk) (pc : GetPc)
  /-- before the copy into the buffer -/
  | filling (chunk : Chunk) (buff : BufId)
  /-- before `pool_get_unlock` -/
  | queueing (chunk : Chunk) (buff : BufId)
  /-- before `state_locker` is released -/
  | unlocking (successful : ℕ)

/-- The states in which the server waits for a client. -/
def Stage.waitsForClient : Stage → Bool
  | .socketOpen | .clientOpen | .clientOpenStartedAsync => true
  | _ => false

/-- One step of `sdrtcp_feed`, with the bytes that the step put into the sender's queue. -/
def sdrtcpFeedStep (obj : Sdrtcp) : FeedPc → Option (Sdrtcp × FeedPc × Option (List UInt8))
  | .returned _ => none
  | .check chunk =>
      if obj.state = .clientServing then some (obj, .locking chunk, none)
      else some (obj, .notReady, none)
  | .notReady => some (obj, .returned (if obj.state.waitsForClient then 2 else 0), none)
  | .locking chunk =>
      if obj.stateLocker then none
      else some ({ obj with stateLocker := true }, .lockedCheck chunk, none)
  | .lockedCheck chunk =>
      if obj.state = .clientServing then some (obj, .getting chunk .first, none)
      else some (obj, .lockedNotReady, none)
  | .lockedNotReady => some (obj, .unlocking (if obj.state.waitsForClient then 2 else 0), none)
  | .getting _ (.done none) => some (obj, .unlocking 1, none)
  | .getting chunk (.done (some buff)) => some (obj, .filling chunk buff, none)
  | .getting chunk pc =>
      (getStep 0 true obj.workpool pc).map fun (pool, pc') =>
        ({ obj with workpool := pool }, .getting chunk pc', none)
  | .filling chunk buff =>
      some ({ obj with workpool := fillBuffer obj.workpool buff (toInt32 chunk.len) chunk.buf },
        .queueing chunk buff, none)
  | .queueing _ buff =>
      some ({ obj with workpool := poolGetUnlock obj.workpool 0 buff }, .unlocking 1,
        if obj.workpool.valid then some (obj.workpool.heap buff).content else none)
  | .unlocking successful =>
      some ({ obj with stateLocker := false }, .returned successful, none)

/-! ## A session -/

/-- A session with a client. `wire` is what the socket was handed. `fed` and `queued` are
history: the chunks that `sdrtcp_feed` was called with, and the blocks put into the sender's
queue, the dongle header first. -/
structure ClientStream where
  obj : Sdrtcp
  feeder : FeedPc
  sender : ServePc
  wire : List UInt8
  fed : List (List UInt8)
  queued : List (List UInt8)

/-- What can happen in a session. -/
inductive StreamLabel where
  /-- the USB callback calls `sdrtcp_feed` -/
  | feed (chunk : Chunk)
  | feeder
  | sender (answer : ServeAnswer)
  /-- a stop request, the command listener or a failed command stores `NEEDS_STOPPING` -/
  | stop
  /-- the server thread runs `sdrtcp_cleanup` after `serveClient` returned -/
  | cleanup

/-- One step of a session. -/
def ClientStream.step (s : ClientStream) : StreamLabel → Option ClientStream
  | .feed chunk =>
      match s.feeder with
      | .returned _ => some { s with feeder := .check chunk, fed := s.fed ++ [chunk.buf] }
      | _ => none
  | .feeder =>
      (sdrtcpFeedStep s.obj s.feeder).map fun (obj, pc, block) =>
        { s with obj := obj, feeder := pc, queued := s.queued ++ block.toList }
  | .sender answer =>
      (serveClientStep s.obj answer s.sender).map fun (obj, pc, bytes) =>
        { s with obj := obj, sender := pc, wire := s.wire ++ bytes }
  | .stop => some { s with obj := { s.obj with state := .needsStopping } }
  | .cleanup =>
      match s.sender with
      | .returned => if s.obj.stateLocker then none else some { s with obj := sdrtcpCleanup s.obj }
      | _ => none

/-- The state in which `tcp_server` enters `serveClient`: `sdrtcp_open_socket` has set the pool
up with the dongle header, and `CLIENT_SERVING` has just been stored. -/
def ClientStream.initial (pool : Workpool) (listenSocket clientSocket : ℤ)
    (dongleMagic : Fin 4 → UInt8) (dongleType gainsCount : UInt32) : ClientStream where
  obj :=
    { state := .clientServing
      stateLocker := false
      workpool := sdrtcpOpenPool pool (dongleInfo dongleMagic dongleType gainsCount)
      clientSocket := clientSocket
      listenSocket := listenSocket }
  feeder := .returned 0
  sender := .loop
  wire := []
  fed := []
  queued := [dongleInfo dongleMagic dongleType gainsCount]

end MsiSdrDriver.Server
