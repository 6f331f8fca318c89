import Mathlib.Algebra.Ring.Int.Defs
import Mathlib.Algebra.Ring.Nat
import Mathlib.Data.List.Basic
import Mathlib.Logic.Function.Basic

/-!
# Sample buffers and the pool that recycles them

`extbuffer.c` and `workpool.c`. A pool moves buffers round a ring of queues. A thread with
id `i` takes a buffer from queue `i` and, when it is done, puts it into queue `i + 1`; the
last id puts it back into queue `0`. The thread with id `0` fills buffers, and it may also
allocate one while fewer than `max_elements` exist.

Buffers are named by the order of their allocation and their contents live in `heap`, so
that a queue is a list of names. `pool_get_wait_lock` is not atomic: it pops under a mutex,
tests `elements`, pops again and may wait. `GetPc` names these points and `getStep` takes
one step of the call, so that a thread can be interrupted between any two of them.

Only the `USHORT` flavour of the buffer is embedded. It is the one that `sdrtcp_open_socket`
asks for, and the other four arms repeat it for another element type.
-/

set_option autoImplicit false

namespace MsiSdrDriver.Server

/-! ## Growing buffers -/

/-- `extbuffer_t` with `uint16_t` elements, stored as the bytes of the array. An empty list
is the `NULL` of a buffer that was never allocated. -/
structure Extbuffer where
  ushortbuffer : List UInt8
  bufferMaxSize : ℕ
  sizeValidElements : ℕ
  valid : Bool
  cleartozero : Bool
  allocated : ushortbuffer.length = 2 * bufferMaxSize

/-- `extbuffer_init`. -/
def extbufferInit : Extbuffer where
  ushortbuffer := []
  bufferMaxSize := 0
  sizeValidElements := 0
  valid := false
  cleartozero := true
  allocated := rfl

namespace Extbuffer

/-- Write bytes from the start of the array, as far as the array reaches. -/
def write (container : Extbuffer) (bytes : List UInt8) : Extbuffer where
  ushortbuffer :=
    bytes.take (2 * container.bufferMaxSize) ++ container.ushortbuffer.drop bytes.length
  bufferMaxSize := container.bufferMaxSize
  sizeValidElements := container.sizeValidElements
  valid := container.valid
  cleartozero := container.cleartozero
  allocated := by
    simp only [List.length_append, List.length_take, List.length_drop, container.allocated]
    omega

/-- `malloc` for a buffer that has no array, `realloc` for one whose array is too small. The
bytes that the allocator leaves indeterminate are zero here, and nothing reads them. -/
def grow (container : Extbuffer) (size : ℕ) (small : container.bufferMaxSize < size) :
    Extbuffer where
  ushortbuffer :=
    container.ushortbuffer ++ List.replicate (2 * size - container.ushortbuffer.length) 0
  bufferMaxSize := size
  sizeValidElements := container.sizeValidElements
  valid := container.valid || container.ushortbuffer.isEmpty
  cleartozero := container.cleartozero
  allocated := by
    simp only [List.length_append, List.length_replicate, container.allocated]
    omega

/-- The bytes of the valid elements, which is what a reader of the buffer sees. -/
def content (container : Extbuffer) : List UInt8 :=
  container.ushortbuffer.take (2 * container.sizeValidElements)

/-- The first `size` elements are set to zero, once in the life of a buffer. -/
def clearOnce (container : Extbuffer) : Extbuffer :=
  if container.cleartozero then
    { container.write (List.replicate (2 * container.sizeValidElements) 0) with
      cleartozero := false }
  else container

end Extbuffer

/-- `extbuffer_preparetohandle`. A size of zero or less only empties the buffer. -/
def extbufferPreparetohandle (container : Extbuffer) (size : ℤ) : Extbuffer :=
  if size ≤ 0 then { container with sizeValidElements := 0 }
  else
    let grown :=
      if small : container.bufferMaxSize < size.toNat then container.grow size.toNat small
      else container
    Extbuffer.clearOnce { grown with sizeValidElements := size.toNat }

namespace Extbuffer

@[simp] theorem write_bufferMaxSize (container : Extbuffer) (bytes : List UInt8) :
    (container.write bytes).bufferMaxSize = container.bufferMaxSize := rfl

@[simp] theorem write_sizeValidElements (container : Extbuffer) (bytes : List UInt8) :
    (container.write bytes).sizeValidElements = container.sizeValidElements := rfl

@[simp] theorem clearOnce_bufferMaxSize (container : Extbuffer) :
    container.clearOnce.bufferMaxSize = container.bufferMaxSize := by
  unfold clearOnce
  split <;> rfl

@[simp] theorem clearOnce_sizeValidElements (container : Extbuffer) :
    container.clearOnce.sizeValidElements = container.sizeValidElements := by
  unfold clearOnce
  split <;> rfl

/-- Bytes that fill the valid elements exactly are what the buffer then holds. -/
theorem content_write {container : Extbuffer} {bytes : List UInt8}
    (exact : bytes.length = 2 * container.sizeValidElements)
    (fits : container.sizeValidElements ≤ container.bufferMaxSize) :
    (container.write bytes).content = bytes := by
  have whole : bytes.take (2 * container.bufferMaxSize) = bytes :=
    List.take_of_length_le (by omega)
  simp only [content, write, whole]
  rw [← exact, List.take_left]

end Extbuffer

theorem extbufferPreparetohandle_sizeValidElements (container : Extbuffer) (size : ℤ) :
    (extbufferPreparetohandle container size).sizeValidElements = size.toNat := by
  unfold extbufferPreparetohandle
  split
  · simp only
    omega
  · exact Extbuffer.clearOnce_sizeValidElements _

/-- After the call the array has room for the elements it was asked to hold. -/
theorem extbufferPreparetohandle_fits (container : Extbuffer) (size : ℤ) :
    size.toNat ≤ (extbufferPreparetohandle container size).bufferMaxSize := by
  unfold extbufferPreparetohandle
  split
  · simp only
    omega
  · simp only [Extbuffer.clearOnce_bufferMaxSize]
    split
    · exact Nat.le_refl _
    · omega

/-- **Preparing a buffer for a number of elements and copying that many into it leaves exactly
the copied bytes**, whatever the buffer held before. -/
theorem content_write_preparetohandle (container : Extbuffer) {size : ℤ} {bytes : List UInt8}
    (exact : bytes.length = 2 * size.toNat) :
    ((extbufferPreparetohandle container size).write bytes).content = bytes := by
  apply Extbuffer.content_write
  · rw [extbufferPreparetohandle_sizeValidElements, exact]
  · rw [extbufferPreparetohandle_sizeValidElements]
    exact extbufferPreparetohandle_fits container size

/-- The valid elements lie inside the array and their bytes are counted without overflow. -/
structure Extbuffer.Sized (container : Extbuffer) : Prop where
  fits : container.sizeValidElements ≤ container.bufferMaxSize
  small : container.sizeValidElements < 2 ^ 31

theorem Extbuffer.Sized.content_length {container : Extbuffer} (sized : container.Sized) :
    container.content.length = 2 * container.sizeValidElements := by
  have fits := sized.fits
  rw [Extbuffer.content, List.length_take, container.allocated]
  omega

/-- A buffer that was prepared for an `int` number of elements is sized, also once written. -/
theorem sized_write_preparetohandle (container : Extbuffer) {size : ℤ} (small : size < 2 ^ 31)
    (bytes : List UInt8) : ((extbufferPreparetohandle container size).write bytes).Sized where
  fits := by
    simp only [Extbuffer.write_sizeValidElements, Extbuffer.write_bufferMaxSize,
      extbufferPreparetohandle_sizeValidElements]
    exact extbufferPreparetohandle_fits container size
  small := by
    rw [Extbuffer.write_sizeValidElements, extbufferPreparetohandle_sizeValidElements]
    omega

/-! ## The pool -/

/-- A buffer is named by the order of its allocation. -/
abbrev BufId := ℕ

/-- `workpool_t`. The mutexes and conditions are in the step structure of its operations;
`heap`, `fresh` and `freed` are the allocator's side: contents by name, the next name, and
the names freed so far. -/
structure Workpool where
  queues : ℕ → List BufId
  maxElements : ℤ
  maxIds : ℕ
  elements : ℤ
  valid : Bool
  heap : BufId → Extbuffer
  fresh : BufId
  freed : List BufId

/-- The process heap before any buffer is allocated. -/
def Workpool.blank : Workpool where
  queues := fun _ => []
  maxElements := 0
  maxIds := 0
  elements := 0
  valid := false
  heap := fun _ => extbufferInit
  fresh := 0
  freed := []

/-- `pool_init`. -/
def poolInit (pool : Workpool) (maxElements : ℤ) : Workpool :=
  { pool with
    queues := fun _ => [], maxElements := maxElements, maxIds := 0, elements := 0, valid := false }

/-- The loop of `pool_free` over one queue: pop, free, count down. -/
def poolFreeQueue (id : ℕ) : List BufId → Workpool → Workpool
  | [], pool => pool
  | buff :: rest, pool =>
      poolFreeQueue id rest
        { pool with
          queues := Function.update pool.queues id rest
          freed := pool.freed ++ [buff]
          elements := pool.elements - 1 }

/-- `pool_free`. -/
def poolFree (pool : Workpool) : Workpool :=
  if 0 < pool.maxIds then
    { (List.range pool.maxIds).foldl (fun p i => poolFreeQueue i (p.queues i) p) pool with
      maxIds := 0, elements := 0, valid := false }
  else { pool with valid := false }

/-- `pool_set_threads`. -/
def poolSetThreads (pool : Workpool) (numberOfIds : ℕ) : Workpool :=
  if numberOfIds = 0 then pool
  else
    { poolFree pool with
      maxIds := numberOfIds
      queues := fun i => if i < numberOfIds then [] else (poolFree pool).queues i
      valid := true }

/-- `queue_pop` on a queue of the pool. -/
def queuePop (pool : Workpool) (id : ℕ) : Option BufId × Workpool :=
  match pool.queues id with
  | [] => (none, pool)
  | buff :: rest => (some buff, { pool with queues := Function.update pool.queues id rest })

/-- `add`: `queue_add` and a broadcast, under the mutex of the queue. -/
def poolAdd (pool : Workpool) (id : ℕ) (buff : BufId) : Workpool :=
  if pool.valid then
    { pool with queues := Function.update pool.queues id (pool.queues id ++ [buff]) }
  else pool

/-- The allocation branch of `pool_get_wait_lock`. -/
def poolMalloc (pool : Workpool) : Workpool :=
  { pool with
    heap := Function.update pool.heap pool.fresh extbufferInit
    fresh := pool.fresh + 1
    elements := pool.elements + 1 }

/-- `pool_get_unlock`. The last id empties the buffer before it goes back to queue `0`. -/
def poolGetUnlock (pool : Workpool) (id : ℕ) (buff : BufId) : Workpool :=
  if pool.valid then
    if id + 1 = pool.maxIds then
      poolAdd
        { pool with
          heap := Function.update pool.heap buff (extbufferPreparetohandle (pool.heap buff) 0) }
        0 buff
    else poolAdd pool (id + 1) buff
  else pool

/-- Where a thread is inside `pool_get_wait_lock`. -/
inductive GetPc where
  /-- before the first, non-blocking `pop` -/
  | first
  /-- the first `pop` found the queue empty -/
  | missed
  /-- before the `queue_pop` of the blocking `pop` -/
  | second
  /-- in `pthread_cond_timedwait` -/
  | waiting
  | done (result : Option BufId)
  deriving DecidableEq

/-- The result of a `queue_pop`, or where to go when it returned `NULL`. -/
def GetPc.orElse (next : GetPc) : Option BufId → GetPc
  | some buff => .done (some buff)
  | none => next

/-- One step of `pool_get_wait_lock(pool, id, block)`. A wait ends by a broadcast, by its
timeout or spuriously, and the queue is popped once more in each case. -/
def getStep (id : ℕ) (block : Bool) (pool : Workpool) : GetPc → Option (Workpool × GetPc)
  | .first =>
      if pool.valid then
        some ((queuePop pool id).2, GetPc.orElse .missed (queuePop pool id).1)
      else some (pool, .done none)
  | .missed =>
      if id = 0 ∧ pool.elements < pool.maxElements then
        some (poolMalloc pool, .done (some pool.fresh))
      else if block then some (pool, .second)
      else some (pool, .done none)
  | .second =>
      if pool.valid then
        some ((queuePop pool id).2, GetPc.orElse .waiting (queuePop pool id).1)
      else some (pool, .done none)
  | .waiting => some ((queuePop pool id).2, GetPc.orElse (.done none) (queuePop pool id).1)
  | .done _ => none

/-- `pool_get_wait_lock` run to its end by a thread that is alone. -/
def poolGetWaitLock (id : ℕ) (block : Bool) : ℕ → Workpool → GetPc → Option BufId × Workpool
  | 0, pool, _ => (none, pool)
  | fuel + 1, pool, pc =>
      match pc with
      | .done result => (result, pool)
      | pc =>
          match getStep id block pool pc with
          | some (pool', pc') => poolGetWaitLock id block fuel pool' pc'
          | none => (none, pool)

/-! ## What the steps of the pool do -/

/-- The buffer that a thread inside `pool_get_wait_lock` has already taken. -/
def GetPc.held : GetPc → List BufId
  | .done (some buff) => [buff]
  | _ => []

theorem queuePop_cases (pool : Workpool) (id : ℕ) :
    (pool.queues id = [] ∧ queuePop pool id = (none, pool)) ∨
      ∃ buff rest, pool.queues id = buff :: rest ∧ queuePop pool id =
        (some buff, { pool with queues := Function.update pool.queues id rest }) := by
  unfold queuePop
  cases queue : pool.queues id with
  | nil => exact .inl ⟨rfl, rfl⟩
  | cons buff rest => exact .inr ⟨buff, rest, rfl, rfl⟩

/-- **What one step of `pool_get_wait_lock` can do**: leave the pool alone and hold nothing,
take the head of the queue, or allocate, which only id `0` may do while there is room. -/
theorem getStep_cases {id : ℕ} {block : Bool} {pool pool' : Workpool} {pc pc' : GetPc}
    (moves : getStep id block pool pc = some (pool', pc')) :
    (pool' = pool ∧ pc'.held = []) ∨
      (∃ buff rest, pool.queues id = buff :: rest ∧
        pool' = { pool with queues := Function.update pool.queues id rest } ∧
        pc' = .done (some buff)) ∨
      (id = 0 ∧ pool.elements < pool.maxElements ∧ pool' = poolMalloc pool ∧
        pc' = .done (some pool.fresh)) := by
  have popped : ∀ next : GetPc, next.held = [] →
      (pool', pc') = ((queuePop pool id).2, GetPc.orElse next (queuePop pool id).1) →
      (pool' = pool ∧ pc'.held = []) ∨
        ∃ buff rest, pool.queues id = buff :: rest ∧
          pool' = { pool with queues := Function.update pool.queues id rest } ∧
          pc' = .done (some buff) := by
    intro next empty same
    obtain ⟨rfl, rfl⟩ := Prod.mk.inj same
    rcases queuePop_cases pool id with ⟨_, pop⟩ | ⟨buff, rest, queue, pop⟩
    · rw [pop]
      exact .inl ⟨rfl, empty⟩
    · rw [pop]
      exact .inr ⟨buff, rest, queue, rfl, rfl⟩
  cases pc with
  | first =>
      simp only [getStep] at moves
      split at moves
      · rcases popped .missed rfl (Option.some.inj moves).symm with stays | takes
        · exact .inl stays
        · exact .inr (.inl takes)
      · cases moves
        exact .inl ⟨rfl, rfl⟩
  | missed =>
      simp only [getStep] at moves
      split at moves
      · next room =>
          cases moves
          exact .inr (.inr ⟨room.1, room.2, rfl, rfl⟩)
      · split at moves <;> cases moves <;> exact .inl ⟨rfl, rfl⟩
  | second =>
      simp only [getStep] at moves
      split at moves
      · rcases popped .waiting rfl (Option.some.inj moves).symm with stays | takes
        · exact .inl stays
        · exact .inr (.inl takes)
      · cases moves
        exact .inl ⟨rfl, rfl⟩
  | waiting =>
      rcases popped (.done none) rfl (Option.some.inj moves).symm with stays | takes
      · exact .inl stays
      · exact .inr (.inl takes)
  | done result => cases moves

/-- A get leaves the other queues alone. -/
theorem queues_getStep {id other : ℕ} {block : Bool} {pool pool' : Workpool} {pc pc' : GetPc}
    (moves : getStep id block pool pc = some (pool', pc')) (different : other ≠ id) :
    pool'.queues other = pool.queues other := by
  rcases getStep_cases moves with ⟨rfl, -⟩ | ⟨_, _, -, rfl, -⟩ | ⟨-, -, rfl, -⟩
  · rfl
  · exact Function.update_of_ne different ..
  · rfl

/-- A get changes the content of no buffer that exists. -/
theorem heap_getStep {id : ℕ} {block : Bool} {pool pool' : Workpool} {pc pc' : GetPc}
    (moves : getStep id block pool pc = some (pool', pc')) {buff : BufId}
    (old : buff < pool.fresh) : pool'.heap buff = pool.heap buff := by
  rcases getStep_cases moves with ⟨rfl, -⟩ | ⟨_, _, -, rfl, -⟩ | ⟨-, -, rfl, -⟩
  · rfl
  · rfl
  · exact Function.update_of_ne (Nat.ne_of_lt old) ..

/-- `pool_get_unlock` by an id that is not the last appends the buffer to the next queue. -/
theorem poolGetUnlock_next {pool : Workpool} {id : ℕ} (valid : pool.valid = true)
    (next : id + 1 ≠ pool.maxIds) (buff : BufId) :
    poolGetUnlock pool id buff =
      { pool with
        queues := Function.update pool.queues (id + 1) (pool.queues (id + 1) ++ [buff]) } := by
  simp [poolGetUnlock, poolAdd, valid, next]

/-- `pool_get_unlock` by the last id empties the buffer and appends it to queue `0`. -/
theorem poolGetUnlock_last {pool : Workpool} {id : ℕ} (valid : pool.valid = true)
    (last : id + 1 = pool.maxIds) (buff : BufId) :
    poolGetUnlock pool id buff =
      { pool with
        heap := Function.update pool.heap buff (extbufferPreparetohandle (pool.heap buff) 0)
        queues := Function.update pool.queues 0 (pool.queues 0 ++ [buff]) } := by
  simp [poolGetUnlock, poolAdd, valid, last]

theorem poolGetUnlock_invalid {pool : Workpool} {id : ℕ} (invalid : pool.valid = false)
    (buff : BufId) : poolGetUnlock pool id buff = pool := by
  simp [poolGetUnlock, invalid]

@[simp] theorem poolAdd_heap (pool : Workpool) (id : ℕ) (buff : BufId) :
    (poolAdd pool id buff).heap = pool.heap := by
  unfold poolAdd
  split <;> rfl

/-- `pool_get_unlock` empties the buffer or writes to none. -/
theorem poolGetUnlock_heap (pool : Workpool) (id : ℕ) (buff : BufId) :
    (poolGetUnlock pool id buff).heap = pool.heap ∨
      (poolGetUnlock pool id buff).heap =
        Function.update pool.heap buff (extbufferPreparetohandle (pool.heap buff) 0) := by
  unfold poolGetUnlock
  split
  · split
    · exact .inr (poolAdd_heap ..)
    · exact .inl (poolAdd_heap ..)
  · exact .inl rfl

end MsiSdrDriver.Server
