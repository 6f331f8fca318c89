import MsiSdrDriver.Foundations.Families
import MsiSdrDriver.Foundations.Histories
import MsiSdrDriver.Server.PoolOwnership

/-!
# The pool loses no buffer

`workpool.c` with any number of ids, and one thread for each. A thread takes buffers under its
id with `pool_get_wait_lock`, may hold several, and gives each of them on with `pool_get_unlock`.
The threads interleave at the steps of a get (`getStep`), and a wait ends when it likes.

A buffer is in a queue or in a hand. `Conserved` is the invariant: the places together hold each
allocated buffer once, `elements` counts them, and what left a queue and what is still in it are
what was unlocked into it, in order. From it `pool_conserved`, and that `pool_free` on a pool of
which nobody holds a buffer frees each buffer once.
-/

set_option autoImplicit false

namespace MsiSdrDriver.Server.PoolConservation

open Foundations

/-! ## The threads of a pool -/

/-- A thread: the call of `pool_get_wait_lock` it is in, with the `block` it asked for, and the
buffers that earlier calls returned and it has not unlocked. -/
structure Stage where
  call : Option (Bool × GetPc)
  held : List BufId

/-- A pool and the thread of each id. -/
structure System where
  pool : Workpool
  threads : ℕ → Stage

/-- A step of the thread with an id: it calls `pool_get_wait_lock`, moves on inside the call, or
calls `pool_get_unlock` for a buffer that it holds. -/
inductive Label where
  | call (id : ℕ) (block : Bool)
  | move (id : ℕ)
  | unlock (id : ℕ) (buff : BufId)
  deriving DecidableEq

/-- Where a thread is after a step of its get. A call that ends hands over its result. -/
def Stage.advance (t : Stage) (block : Bool) : GetPc → Stage
  | .done result => { call := none, held := t.held ++ result.toList }
  | pc => { t with call := some (block, pc) }

/-- A step of one of the threads `0` to `k - 1`. -/
def step (k : ℕ) (s : System) : Label → Option System
  | .call id block =>
      if id < k ∧ (s.threads id).call = none then
        some
          { s with
            threads := Function.update s.threads id
              { (s.threads id) with call := some (block, .first) } }
      else none
  | .move id =>
      if id < k then
        (s.threads id).call.bind fun get =>
          (getStep id get.1 s.pool get.2).map fun next =>
            { pool := next.1
              threads := Function.update s.threads id ((s.threads id).advance get.1 next.2) }
      else none
  | .unlock id buff =>
      if id < k ∧ (s.threads id).call = none ∧ buff ∈ (s.threads id).held then
        some
          { pool := poolGetUnlock s.pool id buff
            threads := Function.update s.threads id
              { (s.threads id) with held := (s.threads id).held.erase buff } }
      else none

/-- `pool_init` and `pool_set_threads(k)` on any memory, and no thread holds anything. -/
def start (before : Workpool) (maxElements : ℤ) (k : ℕ) (s : System) : Prop :=
  s.pool = poolSetThreads (poolInit before maxElements) k ∧
    s.threads = fun _ => { call := none, held := [] }

/-! ## Places and histories -/

/-- Where a buffer can be. -/
inductive Place where
  | queue (id : ℕ)
  | hand (id : ℕ)
  deriving DecidableEq

/-- The places of a pool with `k` ids. -/
def places (k : ℕ) : List Place :=
  (List.range k).map .queue ++ (List.range k).map .hand

/-- The buffers in a place. -/
def System.at (s : System) : Place → List BufId
  | .queue id => s.pool.queues id
  | .hand id => (s.threads id).held

/-- The queue that `pool_get_unlock` puts a buffer into. -/
def next (k id : ℕ) : ℕ :=
  if id + 1 = k then 0 else id + 1

/-- What was unlocked under each id, and what left each queue, in order. -/
structure History where
  unlocked : ℕ → List BufId
  left : ℕ → List BufId

/-- Nothing has happened. -/
def History.empty : History where
  unlocked := fun _ => []
  left := fun _ => []

/-- Record a step: an unlock, and the buffers that are no longer at the front of a queue. -/
def record (past : History) (s : System) (label : Label) (s' : System) : History where
  unlocked :=
    match label with
    | .unlock id buff => Function.update past.unlocked id (past.unlocked id ++ [buff])
    | _ => past.unlocked
  left id := past.left id ++
    (s.pool.queues id).take ((s.pool.queues id).length - (s'.pool.queues id).length)

variable {k : ℕ}

theorem nodup_places : (places k).Nodup := by
  unfold places
  refine List.nodup_append.mpr ⟨?_, ?_, ?_⟩
  · exact List.nodup_range.map fun _ _ same => Place.queue.inj same
  · exact List.nodup_range.map fun _ _ same => Place.hand.inj same
  · intro place queue other hand same
    obtain ⟨i, -, rfl⟩ := List.mem_map.mp queue
    obtain ⟨j, -, rfl⟩ := List.mem_map.mp hand
    cases same

@[simp] theorem queue_mem_places {id : ℕ} : Place.queue id ∈ places k ↔ id < k := by
  simp [places]

@[simp] theorem hand_mem_places {id : ℕ} : Place.hand id ∈ places k ↔ id < k := by
  simp [places]

theorem next_lt {id : ℕ} (small : id < k) : next k id < k := by
  unfold next
  split <;> omega

theorem next_injective {i j : ℕ} (same : next k i = next k j) : i = j := by
  unfold next at same
  split at same <;> split at same <;> omega

theorem Stage.advance_held (t : Stage) (block : Bool) (pc : GetPc) :
    (t.advance block pc).held = t.held ++ pc.held := by
  cases pc with
  | done result => cases result <;> rfl
  | first | missed | second | waiting => exact (List.append_nil _).symm

/-! ## What the steps do -/

/-- The pool that the threads start with. -/
theorem poolSetThreads_poolInit (before : Workpool) (maxElements : ℤ) (positive : 1 ≤ k) :
    poolSetThreads (poolInit before maxElements) k =
      { before with
        queues := fun _ => [], maxElements := maxElements, maxIds := k, elements := 0
        valid := true } := by
  have some : k ≠ 0 := by omega
  simp [poolSetThreads, some, poolFree, poolInit]

/-- `pool_get_unlock` appends the buffer to the next queue, and else leaves all as it is but what
it writes to the buffer. -/
theorem poolGetUnlock_moves {pool : Workpool} (valid : pool.valid = true) (ids : pool.maxIds = k)
    (id : ℕ) (buff : BufId) :
    ∃ heap, poolGetUnlock pool id buff =
      { pool with
        heap := heap
        queues := Function.update pool.queues (next k id)
          (pool.queues (next k id) ++ [buff]) } := by
  by_cases last : id + 1 = k
  · rw [poolGetUnlock_last valid (last.trans ids.symm), next, if_pos last]
    exact ⟨_, rfl⟩
  · rw [poolGetUnlock_next valid (fun same => last (same.trans ids)), next, if_neg last]
    exact ⟨pool.heap, rfl⟩

/-- A get takes from the front of a queue only. -/
theorem getStep_drops {id : ℕ} {block : Bool} {pool pool' : Workpool} {pc pc' : GetPc}
    (got : getStep id block pool pc = some (pool', pc')) (i : ℕ) :
    ∃ n, pool'.queues i = (pool.queues i).drop n := by
  by_cases here : i = id
  · subst here
    rcases getStep_cases got with ⟨rfl, -⟩ | ⟨buff, rest, content, rfl, -⟩ | ⟨-, -, rfl, -⟩
    · exact ⟨0, rfl⟩
    · refine ⟨1, ?_⟩
      rw [content]
      exact Function.update_self ..
    · exact ⟨0, rfl⟩
  · exact ⟨0, queues_getStep got here⟩

/-- A step inside a call is a step of a get, and what the get returns joins the hand. -/
theorem move_cases {s s' : System} {id : ℕ} (moves : step k s (.move id) = some s') :
    id < k ∧ ∃ block pc pc', getStep id block s.pool pc = some (s'.pool, pc') ∧
      ∀ i, (s'.threads i).held =
        if i = id then (s.threads id).held ++ pc'.held else (s.threads i).held := by
  simp only [step] at moves
  split at moves
  case isFalse => cases moves
  next small =>
  obtain ⟨⟨block, pc⟩, -, moves⟩ := Option.bind_eq_some_iff.mp moves
  obtain ⟨⟨pool', pc'⟩, got, rfl⟩ := Option.map_eq_some_iff.mp moves
  refine ⟨small, block, pc, pc', got, fun i => ?_⟩
  by_cases here : i = id
  · subst here
    simp [Stage.advance_held]
  · simp [here]

/-- The places of a system are its queues and its hands. -/
theorem at_ext {s : System} {lists : Place → List BufId}
    (queues : ∀ i, s.pool.queues i = lists (.queue i))
    (hands : ∀ i, (s.threads i).held = lists (.hand i)) : s.at = lists := by
  funext place
  cases place with
  | queue i => exact queues i
  | hand i => exact hands i

/-- What left the front of a queue and what is still in it were in it before. -/
theorem record_left_append {past : History} {s s' : System} {label : Label} {id n : ℕ}
    (dropped : s'.pool.queues id = (s.pool.queues id).drop n) :
    (record past s label s').left id ++ s'.pool.queues id =
      past.left id ++ s.pool.queues id := by
  simp only [record, dropped, List.length_drop, List.append_assoc]
  congr 1
  rcases Nat.le_total n (s.pool.queues id).length with inside | beyond
  · rw [Nat.sub_sub_self inside, List.take_append_drop]
  · rw [Nat.sub_eq_zero_of_le beyond, Nat.sub_zero, List.take_length,
      List.drop_of_length_le beyond, List.append_nil]

/-- A queue that grows or stays has lost nothing. -/
theorem record_left_of_le {past : History} {s s' : System} {label : Label} {id : ℕ}
    (grown : (s.pool.queues id).length ≤ (s'.pool.queues id).length) :
    (record past s label s').left id = past.left id := by
  simp only [record, Nat.sub_eq_zero_of_le grown, List.take_zero, List.append_nil]

/-! ## The invariant -/

/-- **The invariant.** The places together hold each allocated buffer once, `elements` counts
them, and a queue passes on what is unlocked into it. -/
structure Conserved (k : ℕ) (before : Workpool) (maxElements : ℤ) (s : System)
    (past : History) : Prop where
  valid : s.pool.valid = true
  ids : s.pool.maxIds = k
  limit : s.pool.maxElements = maxElements
  freed : s.pool.freed = before.freed
  fresh : before.fresh ≤ s.pool.fresh
  elements : s.pool.elements = (s.pool.fresh - before.fresh : ℕ)
  bounded : s.pool.elements ≤ max maxElements 0
  once : (gather (places k) s.at).Perm
    (List.range' before.fresh (s.pool.fresh - before.fresh))
  fifo : ∀ id < k,
    past.unlocked id = past.left (next k id) ++ s.pool.queues (next k id)

variable {before : Workpool} {maxElements : ℤ} {s s' : System} {past : History}

/-- A pool without buffers. -/
theorem conserved_start (positive : 1 ≤ k) (initial : start before maxElements k s) :
    Conserved k before maxElements s History.empty := by
  obtain ⟨pool, threads⟩ := initial
  rw [poolSetThreads_poolInit before maxElements positive] at pool
  refine
    { valid := by rw [pool]
      ids := by rw [pool]
      limit := by rw [pool]
      freed := by rw [pool]
      fresh := by rw [pool]
      elements := by rw [pool]; simp
      bounded := by
        rw [pool]
        exact Int.le_max_right ..
      once := ?_
      fifo := by
        intro id _
        rw [pool]
        rfl }
  have nowhere : s.at = fun _ => [] :=
    at_ext (fun id => by rw [pool]) fun id => by rw [threads]
  rw [nowhere, pool]
  simp [gather]

/-- A step that writes to buffers and moves them keeps all counts. -/
theorem Conserved.transfer (holds : Conserved k before maxElements s past) {past' : History}
    {heap : BufId → Extbuffer} {queues : ℕ → List BufId}
    (pool : s'.pool = { s.pool with heap := heap, queues := queues })
    (once : (gather (places k) s'.at).Perm (gather (places k) s.at))
    (fifo : ∀ id < k,
      past'.unlocked id = past'.left (next k id) ++ s'.pool.queues (next k id)) :
    Conserved k before maxElements s' past' where
  valid := by
    rw [pool]
    exact holds.valid
  ids := by
    rw [pool]
    exact holds.ids
  limit := by
    rw [pool]
    exact holds.limit
  freed := by
    rw [pool]
    exact holds.freed
  fresh := by
    rw [pool]
    exact holds.fresh
  elements := by
    rw [pool]
    exact holds.elements
  bounded := by
    rw [pool]
    exact holds.bounded
  once := by
    rw [pool]
    exact once.trans holds.once
  fifo := fifo

/-- A step that issues a new buffer to a place, while there is room. -/
theorem Conserved.issue (holds : Conserved k before maxElements s past) {past' : History}
    {place : Place} (mem : place ∈ places k) (room : s.pool.elements < s.pool.maxElements)
    (pool : s'.pool = poolMalloc s.pool)
    (issued : s'.at = Function.update s.at place (s.at place ++ [s.pool.fresh]))
    (fifo : ∀ id < k,
      past'.unlocked id = past'.left (next k id) ++ s'.pool.queues (next k id)) :
    Conserved k before maxElements s' past' := by
  have fresh := holds.fresh
  have limit := holds.limit
  have more : s.pool.fresh + 1 - before.fresh = s.pool.fresh - before.fresh + 1 :=
    Nat.succ_sub fresh
  refine
    { valid := by rw [pool]; exact holds.valid
      ids := by rw [pool]; exact holds.ids
      limit := by rw [pool]; exact limit
      freed := by rw [pool]; exact holds.freed
      fresh := ?_
      elements := ?_
      bounded := ?_
      once := ?_
      fifo := fifo }
  · rw [pool]
    exact Nat.le_succ_of_le fresh
  · rw [pool]
    simp only [poolMalloc, more, holds.elements]
    exact (Int.natCast_succ _).symm
  · rw [pool]
    simp only [poolMalloc]
    omega
  · rw [issued, pool]
    refine (gather_issue nodup_places mem _).trans ?_
    have last : List.range' before.fresh (s.pool.fresh + 1 - before.fresh) =
        List.range' before.fresh (s.pool.fresh - before.fresh) ++ [s.pool.fresh] := by
      rw [more, List.range'_1_concat, Nat.add_sub_cancel' fresh]
    exact (holds.once.append_right _).trans (List.Perm.of_eq last.symm)

/-- Queues that are only taken from at the front pass on in order. -/
theorem Conserved.fifo_of_drops (holds : Conserved k before maxElements s past) (label : Label)
    (quiet : (record past s label s').unlocked = past.unlocked)
    (drops : ∀ i, ∃ n, s'.pool.queues i = (s.pool.queues i).drop n) :
    ∀ id < k, (record past s label s').unlocked id =
      (record past s label s').left (next k id) ++ s'.pool.queues (next k id) := by
  intro id small
  obtain ⟨n, dropped⟩ := drops (next k id)
  rw [quiet, record_left_append dropped]
  exact holds.fifo id small

/-- A thread that enters a get has what it had. -/
theorem Conserved.call (holds : Conserved k before maxElements s past) {id : ℕ} {block : Bool}
    (moves : step k s (.call id block) = some s') :
    Conserved k before maxElements s' (record past s (.call id block) s') := by
  simp only [step] at moves
  split at moves
  case isFalse => cases moves
  cases moves
  refine holds.transfer rfl (List.Perm.of_eq (congrArg (gather (places k)) ?_))
    (holds.fifo_of_drops (.call id block) rfl fun i => ⟨0, rfl⟩)
  refine at_ext (fun i => rfl) fun i => ?_
  by_cases here : i = id
  · subst here
    simp [System.at]
  · simp [System.at, here]

/-- **A step of a get** moves the head of its queue to the hand of the thread, or issues a new
buffer to it, which only id `0` does while there is room. -/
theorem Conserved.move (holds : Conserved k before maxElements s past) {id : ℕ}
    (moves : step k s (.move id) = some s') :
    Conserved k before maxElements s' (record past s (.move id) s') := by
  obtain ⟨small, block, pc, pc', got, threads⟩ := move_cases moves
  have hand : Place.hand id ∈ places k := hand_mem_places.mpr small
  have queue : Place.queue id ∈ places k := queue_mem_places.mpr small
  have fifo := holds.fifo_of_drops (.move id) rfl (getStep_drops got)
  rcases getStep_cases got with ⟨pool, nothing⟩ | ⟨buff, rest, content, pool, rfl⟩ |
    ⟨rfl, room, pool, rfl⟩
  · have same : s'.at = s.at := by
      refine at_ext (fun i => by rw [pool]; rfl) fun i => ?_
      rw [threads, nothing, List.append_nil]
      split
      · next here => rw [here]; rfl
      · rfl
    exact holds.transfer pool (List.Perm.of_eq (by rw [same])) fifo
  · have moved : s'.at = Function.update (Function.update s.at (.queue id) rest) (.hand id)
        (s.at (.hand id) ++ [buff]) := by
      refine at_ext (fun i => ?_) fun i => ?_
      · by_cases here : i = id
        · subst here
          simp [pool]
        · simp [System.at, pool, here]
      · by_cases here : i = id
        · subst here
          simp [System.at, threads, GetPc.held]
        · simp [System.at, threads, here]
    refine holds.transfer pool ?_ fifo
    rw [moved]
    exact gather_move nodup_places queue hand (by simp) (List.Perm.of_eq content)
  · refine holds.issue hand room pool (at_ext (fun i => ?_) fun i => ?_) fifo
    · simp [System.at, pool, poolMalloc]
    · by_cases here : i = 0
      · subst here
        simp [System.at, threads, GetPc.held]
      · simp [System.at, threads, here]

/-- **An unlock** moves a buffer from the hand of the thread to the end of the next queue. -/
theorem Conserved.unlock (holds : Conserved k before maxElements s past) {id : ℕ} {buff : BufId}
    (moves : step k s (.unlock id buff) = some s') :
    Conserved k before maxElements s' (record past s (.unlock id buff) s') := by
  simp only [step] at moves
  split at moves
  case isFalse => cases moves
  next enabled =>
  obtain ⟨small, -, own⟩ := enabled
  obtain ⟨heap, pool⟩ := poolGetUnlock_moves holds.valid holds.ids id buff
  have after := (Option.some.inj moves).symm
  have taken : (s.at (.hand id)).Perm (buff :: (s.threads id).held.erase buff) :=
    List.perm_cons_erase own
  have moved : s'.at = Function.update
      (Function.update s.at (.hand id) ((s.threads id).held.erase buff)) (.queue (next k id))
      (s.at (.queue (next k id)) ++ [buff]) := by
    refine at_ext (fun i => ?_) fun i => ?_
    · by_cases here : i = next k id
      · subst here
        simp [System.at, after, pool]
      · simp [System.at, after, pool, here]
    · by_cases here : i = id
      · subst here
        simp [after]
      · simp [System.at, after, here]
  have queues : s'.pool.queues = Function.update s.pool.queues (next k id)
      (s.pool.queues (next k id) ++ [buff]) := by rw [after, pool]
  refine holds.transfer (by rw [after, pool]) ?_ fun i within => ?_
  · rw [moved]
    exact gather_move nodup_places (hand_mem_places.mpr small)
      (queue_mem_places.mpr (next_lt small)) (by simp) taken
  · have kept : (record past s (.unlock id buff) s').left (next k i) = past.left (next k i) := by
      apply record_left_of_le
      rw [queues]
      by_cases same : next k i = next k id
      · rw [same, Function.update_self, List.length_append]
        exact Nat.le_add_right ..
      · rw [Function.update_of_ne same]
    rw [kept, queues]
    by_cases same : i = id
    · subst same
      simp only [record, Function.update_self]
      rw [holds.fifo i within, List.append_assoc]
    · have apart : next k i ≠ next k id := fun equal => same (next_injective equal)
      simp only [record, Function.update_of_ne same, Function.update_of_ne apart]
      exact holds.fifo i within

/-- **Every step keeps the invariant.** -/
theorem Conserved.step (holds : Conserved k before maxElements s past) {label : Label}
    (moves : step k s label = some s') :
    Conserved k before maxElements s' (record past s label s') := by
  cases label with
  | call id block => exact holds.call moves
  | move id => exact holds.move moves
  | unlock id buff => exact holds.unlock moves

/-! ## Freeing -/

/-- The loop of `pool_free` over a queue frees what is in it. -/
theorem poolFreeQueue_eq (id : ℕ) (queue : List BufId) (pool : Workpool)
    (own : pool.queues id = queue) :
    poolFreeQueue id queue pool =
      { pool with
        queues := Function.update pool.queues id []
        freed := pool.freed ++ queue
        elements := pool.elements - queue.length } := by
  induction queue generalizing pool with
  | nil =>
      have same : Function.update pool.queues id [] = pool.queues := by
        rw [← own]
        exact Function.update_eq_self ..
      simp [poolFreeQueue, same]
  | cons buff rest ih =>
      have popped := ih
        { pool with
          queues := Function.update pool.queues id rest
          freed := pool.freed ++ [buff]
          elements := pool.elements - 1 } (Function.update_self ..)
      rw [poolFreeQueue, popped]
      simp only [Function.update_idem, List.append_assoc, List.singleton_append,
        List.length_cons, Workpool.mk.injEq, true_and, and_true]
      omega

/-- The loop of `pool_free` over the queues frees what is in each of them, and counts down. -/
theorem poolFreeQueues_eq (ids : List ℕ) (nodup : ids.Nodup) (pool : Workpool) :
    ids.foldl (fun p i => poolFreeQueue i (p.queues i) p) pool =
      { pool with
        queues := fun i => if i ∈ ids then [] else pool.queues i
        freed := pool.freed ++ gather ids pool.queues
        elements := pool.elements - (gather ids pool.queues).length } := by
  induction ids generalizing pool with
  | nil => simp [gather]
  | cons id rest ih =>
      obtain ⟨outside, once⟩ := List.nodup_cons.mp nodup
      rw [List.foldl_cons, poolFreeQueue_eq id _ pool rfl, ih once]
      simp only [gather_update_of_not_mem outside, gather_cons, List.append_assoc,
        List.length_append, Workpool.mk.injEq, true_and, and_true]
      refine ⟨?_, by omega⟩
      funext i
      by_cases here : i = id
      · subst here
        simp
      · simp [here]

/-- **Freeing a pool of which nobody holds a buffer** frees each buffer once. -/
theorem Conserved.free (holds : Conserved k before maxElements s past) (positive : 1 ≤ k)
    (idle : ∀ id < k, (s.threads id).held = []) :
    (poolFree s.pool).elements = 0 ∧
      ∃ new, (poolFree s.pool).freed = before.freed ++ new ∧
        new.Perm (List.range' before.fresh (s.pool.fresh - before.fresh)) ∧
        s.pool.elements - new.length = 0 := by
  have ids := holds.ids
  have drained := poolFreeQueues_eq (List.range s.pool.maxIds) List.nodup_range s.pool
  have queues : gather (places k) s.at = gather (List.range k) s.pool.queues := by
    have hands : ((List.range k).map Place.hand).flatMap s.at = [] := by
      rw [List.flatMap_eq_nil_iff]
      intro place member
      obtain ⟨id, within, rfl⟩ := List.mem_map.mp member
      exact idle id (List.mem_range.mp within)
    rw [gather, places, List.flatMap_append, hands, List.append_nil, List.flatMap_map]
    rfl
  have all := holds.once
  rw [queues, ← ids] at all
  rw [poolFree, if_pos (by omega), drained]
  refine ⟨rfl, _, congrArg (· ++ _) holds.freed, all, ?_⟩
  rw [all.length_eq, List.length_range', holds.elements]
  omega

/-- **The pool conserves its buffers.** -/
theorem pool_conserved (positive : 1 ≤ k) {r : Recorded System History}
    (reached : Reach (recording (step k) record)
      (unrecorded (start before maxElements k) History.empty) Always r) :
    -- each buffer allocated for the pool is in exactly one place, and no other buffer is
    (∀ buff, before.fresh ≤ buff → buff < r.state.pool.fresh →
      ∃! place, place ∈ places k ∧ buff ∈ r.state.at place) ∧
    (∀ place ∈ places k, (r.state.at place).Nodup ∧
      ∀ buff ∈ r.state.at place, before.fresh ≤ buff ∧ buff < r.state.pool.fresh) ∧
    -- `elements` counts them and stays within the limit
    r.state.pool.elements = (r.state.pool.fresh - before.fresh : ℕ) ∧
    r.state.pool.elements ≤ max maxElements 0 ∧
    -- what was unlocked under an id leaves the next queue in order
    (∀ id < k, r.history.unlocked id =
      r.history.left (next k id) ++ r.state.pool.queues (next k id)) ∧
    -- freeing the pool while nobody holds a buffer frees each of them once
    ((∀ id < k, (r.state.threads id).held = []) →
      (poolFree r.state.pool).elements = 0 ∧
        ∃ new, (poolFree r.state.pool).freed = before.freed ++ new ∧
          new.Perm (List.range' before.fresh (r.state.pool.fresh - before.fresh)) ∧
          r.state.pool.elements - new.length = 0) := by
  have holds : Conserved k before maxElements r.state r.history := by
    refine reached.invariant
      (I := fun r => Conserved k before maxElements r.state r.history) ?_ ?_
    · rintro r ⟨initial, empty⟩
      rw [empty]
      exact conserved_start positive initial
    · intro r label r' holds _ moves
      obtain ⟨moved, recorded⟩ := recording_eq_some_iff.mp moves
      rw [recorded]
      exact holds.step moved
  have nodup : (gather (places k) r.state.at).Nodup :=
    holds.once.nodup_iff.mpr List.nodup_range'
  have member : ∀ buff, buff ∈ gather (places k) r.state.at ↔
      before.fresh ≤ buff ∧ buff < r.state.pool.fresh := by
    intro buff
    rw [holds.once.mem_iff, List.mem_range'_1, Nat.add_sub_cancel' holds.fresh]
  refine ⟨fun buff old new => ?_, fun place inside => ⟨?_, fun buff here => ?_⟩,
    holds.elements, holds.bounded, holds.fifo, holds.free positive⟩
  · exact existsUnique_of_nodup nodup ((member buff).mpr ⟨old, new⟩)
  · exact nodup_of_gather nodup inside
  · exact (member buff).mp (mem_gather.mpr ⟨place, inside, here⟩)

/-- Three ids: a buffer goes through the hands of all threads and back to the first one. -/
theorem pool_conserved_round :
    ∃ r : Recorded System History, (∃! place, place ∈ places 3 ∧ 0 ∈ r.state.at place) ∧
      r.history.unlocked 2 = [0] ∧ r.history.left 0 = [0] ∧ (r.state.threads 0).held = [0] := by
  let first : System :=
    { pool := poolSetThreads (poolInit Workpool.blank 5) 3
      threads := fun _ => { call := none, held := [] } }
  let labels : List Label :=
    [.call 0 true, .move 0, .move 0, .unlock 0 0, .call 1 true, .move 1, .unlock 1 0,
      .call 2 false, .move 2, .unlock 2 0, .call 0 true, .move 0]
  have replayed : (replay (recording (step 3) record) ⟨first, History.empty⟩ labels).map
      (fun r => (r.state.pool.fresh, r.history.unlocked 2, r.history.left 0,
        (r.state.threads 0).held)) = some (1, [0], [0], [0]) := by decide +kernel
  obtain ⟨r, replayed, final⟩ := Option.map_eq_some_iff.mp replayed
  obtain ⟨fresh, unlocked, left, held⟩ :
      r.state.pool.fresh = 1 ∧ r.history.unlocked 2 = [0] ∧ r.history.left 0 = [0] ∧
        (r.state.threads 0).held = [0] := by simpa using final
  have begins : Reach (recording (step 3) record)
      (unrecorded (start Workpool.blank 5 3) History.empty) Always ⟨first, History.empty⟩ :=
    .start ⟨⟨rfl, rfl⟩, rfl⟩
  have conserved := pool_conserved (by decide) (begins.of_replay labels replayed)
  exact ⟨r, conserved.1 0 (Nat.le_refl 0) (by rw [fresh]; decide), unlocked, left, held⟩

end MsiSdrDriver.Server.PoolConservation
