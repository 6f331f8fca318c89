import MsiSdrDriver.Server.WorkPool

/-!
# Who owns a buffer of the pool

In a pool of two ids a buffer is in one of the two queues or in the hands of a thread, and
`Workpool.Owned` says that it is in one place only. `held` lists what the threads hold. A get
moves a buffer from a queue to the hands of its caller or allocates one that is nowhere
(`Owned.get`), and `pool_get_unlock` moves it on (`Owned.unlock`). Freeing the pool only
empties the queues (`poolFree_drains`).
-/

set_option autoImplicit false

namespace MsiSdrDriver.Server

namespace Workpool

/-- In how many places a buffer is. -/
def places (pool : Workpool) (held : List BufId) (buff : BufId) : ℕ :=
  (pool.queues 0).count buff + (pool.queues 1).count buff + held.count buff

/-- Every buffer is in at most one place, and in none before it is allocated. -/
structure Owned (pool : Workpool) (held : List BufId) : Prop where
  single : ∀ buff, pool.places held buff ≤ 1
  allocated : ∀ buff, pool.fresh ≤ buff → pool.places held buff = 0
  twoIds : pool.valid = true → pool.maxIds = 2

namespace Owned

variable {pool pool' : Workpool} {held held' : List BufId}

/-- A step that moves no buffer to a second place keeps the ownership. -/
theorem of_places_le (owned : pool.Owned held) (fresh : pool.fresh ≤ pool'.fresh)
    (le : ∀ buff, pool'.places held' buff ≤ pool.places held buff)
    (ids : pool'.valid = true → pool'.maxIds = 2) : pool'.Owned held' where
  single buff := Nat.le_trans (le buff) (owned.single buff)
  allocated buff unallocated := by
    have before := owned.allocated buff (Nat.le_trans fresh unallocated)
    exact Nat.le_zero.mp (before ▸ le buff)
  twoIds := ids

/-- Threads may hold less. -/
theorem fewer (owned : pool.Owned held) (le : ∀ buff, held'.count buff ≤ held.count buff) :
    pool.Owned held' :=
  owned.of_places_le (Nat.le_refl _) (fun buff => Nat.add_le_add_left (le buff) _) owned.twoIds

theorem perm (owned : pool.Owned held) (same : held.Perm held') : pool.Owned held' :=
  owned.fewer fun buff => Nat.le_of_eq (same.symm.count_eq buff)

/-- Writing to buffers moves none. -/
theorem write (owned : pool.Owned held) (heap : BufId → Extbuffer) :
    Owned { pool with heap := heap } held :=
  ⟨owned.single, owned.allocated, owned.twoIds⟩

/-- A buffer that a thread holds waits in no queue. -/
theorem not_queued (owned : pool.Owned held) {buff : BufId} (own : buff ∈ held) {id : ℕ}
    (two : id < 2) : buff ∉ pool.queues id := by
  intro queued
  have single := owned.single buff
  have hand := List.count_pos_iff.mpr own
  have counted := List.count_pos_iff.mpr queued
  unfold places at single
  have which : id = 0 ∨ id = 1 := by omega
  rcases which with rfl | rfl <;> omega

/-- What is in a queue or in a hand has been allocated. -/
theorem lt_fresh (owned : pool.Owned held) {buff : BufId}
    (somewhere : buff ∈ held ∨ buff ∈ pool.queues 1) : buff < pool.fresh := by
  by_contra unallocated
  have nowhere := owned.allocated buff (Nat.le_of_not_lt unallocated)
  unfold places at nowhere
  rcases somewhere with hand | queued
  · have counted := List.count_pos_iff.mpr hand
    omega
  · have counted := List.count_pos_iff.mpr queued
    omega

/-- Allocation hands out a buffer that was nowhere. -/
theorem malloc (owned : pool.Owned held) : (poolMalloc pool).Owned (pool.fresh :: held) where
  single buff := by
    have single := owned.single buff
    have unallocated := owned.allocated pool.fresh (Nat.le_refl _)
    simp only [places, poolMalloc, List.count_cons, beq_iff_eq] at single unallocated ⊢
    split
    · next same =>
        subst same
        omega
    · omega
  allocated buff above := by
    have higher : pool.fresh + 1 ≤ buff := above
    have nowhere := owned.allocated buff (Nat.le_of_succ_le higher)
    have other : pool.fresh ≠ buff := Nat.ne_of_lt higher
    simp only [places, poolMalloc, List.count_cons, beq_iff_eq, other, if_false]
      at nowhere ⊢
    exact nowhere
  twoIds := owned.twoIds

/-- **A step of `pool_get_wait_lock` moves a buffer to the hands of the caller at most.** -/
theorem get {id : ℕ} {block : Bool} {pc pc' : GetPc} (two : id < 2)
    (moves : getStep id block pool pc = some (pool', pc'))
    (owned : pool.Owned (pc.held ++ held)) : pool'.Owned (pc'.held ++ held) := by
  have rest : pool.Owned held := owned.fewer fun buff => by
    rw [List.count_append]
    exact Nat.le_add_left ..
  rcases getStep_cases moves with ⟨rfl, none⟩ | ⟨buff, others, queue, rfl, rfl⟩ |
    ⟨-, -, rfl, rfl⟩
  · rw [none]
    exact rest
  · refine rest.of_places_le (Nat.le_refl _) (fun b => ?_) rest.twoIds
    have which : id = 0 ∨ id = 1 := by omega
    rcases which with rfl | rfl <;>
    · simp only [places, queue, GetPc.held, Function.update_self, ne_eq, Nat.one_ne_zero,
        Nat.zero_ne_one, not_false_eq_true, Function.update_of_ne, List.count_cons,
        List.count_append, List.count_nil]
      omega
  · exact rest.malloc

/-- **`pool_get_unlock` moves a buffer from the hands of the caller to a queue at most.** -/
theorem unlock {id : ℕ} {buff : BufId} (two : id < 2) (owned : pool.Owned (buff :: held)) :
    (poolGetUnlock pool id buff).Owned held := by
  have moved : ∀ next < 2, ∀ b,
      places { pool with
        queues := Function.update pool.queues next (pool.queues next ++ [buff]) } held b ≤
      pool.places (buff :: held) b := by
    intro next small b
    have which : next = 0 ∨ next = 1 := by omega
    rcases which with rfl | rfl <;>
    · simp only [places, Function.update_self, ne_eq, Nat.one_ne_zero, Nat.zero_ne_one,
        not_false_eq_true, Function.update_of_ne, List.count_cons, List.count_append,
        List.count_nil]
      omega
  cases valid : pool.valid with
  | false =>
      rw [poolGetUnlock_invalid valid]
      exact owned.fewer fun b => by
        rw [List.count_cons]
        exact Nat.le_add_right ..
  | true =>
      have ids := owned.twoIds valid
      have which : id = 0 ∨ id = 1 := by omega
      rcases which with rfl | rfl
      · rw [poolGetUnlock_next valid (by omega)]
        exact owned.of_places_le (Nat.le_refl _) (moved 1 (by omega)) owned.twoIds
      · rw [poolGetUnlock_last valid ids.symm]
        exact owned.of_places_le (Nat.le_refl _) (moved 0 (by omega)) owned.twoIds

end Owned

end Workpool

/-! ## Freeing the pool -/

/-- Freeing the pool leaves no thread anything to take or to put back. -/
@[simp] theorem poolFree_valid (pool : Workpool) : (poolFree pool).valid = false := by
  unfold poolFree
  split <;> rfl

/-- What `pool_free` does to the names: they leave the queues, and no buffer is written. -/
structure Workpool.Drains (pool pool' : Workpool) : Prop where
  heap : pool'.heap = pool.heap
  fresh : pool'.fresh = pool.fresh
  queues : ∀ id, (pool'.queues id).Sublist (pool.queues id)

theorem Workpool.Drains.refl (pool : Workpool) : pool.Drains pool :=
  ⟨rfl, rfl, fun _ => List.Sublist.refl _⟩

theorem Workpool.Drains.trans {first second third : Workpool} (before : first.Drains second)
    (after : second.Drains third) : first.Drains third where
  heap := after.heap.trans before.heap
  fresh := after.fresh.trans before.fresh
  queues id := (after.queues id).trans (before.queues id)

theorem poolFreeQueue_drains (id : ℕ) (queue : List BufId) (pool : Workpool)
    (own : pool.queues id = queue) : pool.Drains (poolFreeQueue id queue pool) := by
  induction queue generalizing pool with
  | nil => exact .refl pool
  | cons buff rest ih =>
      unfold poolFreeQueue
      refine Workpool.Drains.trans ?_ (ih _ (Function.update_self ..))
      refine ⟨rfl, rfl, fun i => ?_⟩
      by_cases same : i = id
      · subst same
        rw [own]
        simp
      · simp [Function.update_of_ne same]

theorem poolFree_drains (pool : Workpool) : pool.Drains (poolFree pool) := by
  have walk : ∀ (ids : List ℕ) (start : Workpool),
      start.Drains (ids.foldl (fun p i => poolFreeQueue i (p.queues i) p) start) := by
    intro ids
    induction ids with
    | nil => exact fun start => .refl start
    | cons id rest ih =>
        exact fun start => (poolFreeQueue_drains id _ start rfl).trans (ih _)
  unfold poolFree
  split
  · have drained := walk (List.range pool.maxIds) pool
    exact ⟨drained.heap, drained.fresh, drained.queues⟩
  · exact ⟨rfl, rfl, fun _ => List.Sublist.refl _⟩

/-- A freed pool has no owner's rule left to break. -/
theorem Workpool.Owned.free {pool : Workpool} {held : List BufId} (owned : pool.Owned held) :
    (poolFree pool).Owned held := by
  have drained := poolFree_drains pool
  refine owned.of_places_le (Nat.le_of_eq drained.fresh.symm) (fun buff => ?_) ?_
  · have first := (drained.queues 0).count_le buff
    have second := (drained.queues 1).count_le buff
    unfold places
    omega
  · intro valid
    rw [poolFree_valid] at valid
    cases valid

end MsiSdrDriver.Server
