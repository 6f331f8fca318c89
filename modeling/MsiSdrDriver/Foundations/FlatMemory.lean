import Mathlib.Data.List.Range

/-!
# Memory as a function of the address

A memory is a function on addresses. `contents` reads a stretch of it as a list, `storeAt` writes a
list, and `moveAt` is a move of a stretch that may overlap its target. What is written can be read
back (`contents_storeAt`, `contents_moveAt`), what lies in front of it is as before
(`contents_storeAt_before`, `contents_moveAt_before`), and two stretches side by side read as one
(`contents_add`).
-/

set_option autoImplicit false

namespace MsiSdrDriver.Foundations

universe u

variable {α : Type u} {mem mem' : ℕ → α} {data : List α} {start count : ℕ}

/-- The stretch of `count` cells from `start` on. -/
def contents (mem : ℕ → α) (start count : ℕ) : List α :=
  (List.range count).map fun i => mem (start + i)

/-- Write a list from `start` on. -/
def storeAt (mem : ℕ → α) (start : ℕ) (data : List α) : ℕ → α := fun i =>
  if start ≤ i then data.getD (i - start) (mem i) else mem i

/-- Move `count` cells from `src` to `dst`. -/
def moveAt (mem : ℕ → α) (dst src count : ℕ) : ℕ → α := fun i =>
  if dst ≤ i ∧ i < dst + count then mem (src + (i - dst)) else mem i

@[simp] theorem length_contents (mem : ℕ → α) (start count : ℕ) :
    (contents mem start count).length = count := by
  rw [contents, List.length_map, List.length_range]

/-- Memories that agree on a stretch have the same contents there. -/
theorem contents_congr (same : ∀ i, start ≤ i → i < start + count → mem i = mem' i) :
    contents mem start count = contents mem' start count := by
  apply List.map_congr_left
  intro i inside
  have bound := List.mem_range.mp inside
  exact same (start + i) (by omega) (by omega)

/-- Two stretches side by side. -/
theorem contents_add (mem : ℕ → α) (start first second : ℕ) :
    contents mem start (first + second) =
      contents mem start first ++ contents mem (start + first) second := by
  rw [contents, List.range_add, List.map_append, List.map_map]
  refine congrArg _ ?_
  apply List.map_congr_left
  intro i _
  exact congrArg mem (Nat.add_assoc start first i).symm

/-- A stretch inside another one. -/
theorem contents_inside (mem : ℕ → α) {start offset count total : ℕ}
    (inside : offset + count ≤ total) :
    ((contents mem start total).drop offset).take count = contents mem (start + offset) count := by
  obtain ⟨rest, rfl⟩ := Nat.exists_eq_add_of_le inside
  rw [Nat.add_assoc, contents_add, contents_add, List.drop_left' (length_contents _ _ _),
    List.take_left' (length_contents _ _ _)]

/-- What is stored can be read back. -/
theorem contents_storeAt (mem : ℕ → α) (start : ℕ) (data : List α) :
    contents (storeAt mem start data) start data.length = data := by
  apply List.ext_getElem (length_contents _ _ _)
  intro i _ inside
  simp [contents, storeAt, List.getElem?_eq_getElem inside]

/-- A store leaves what is in front of it. -/
theorem contents_storeAt_before (mem : ℕ → α) (data : List α) {target : ℕ}
    (before : start + count ≤ target) :
    contents (storeAt mem target data) start count = contents mem start count := by
  apply contents_congr
  intro i _ below
  exact if_neg (by omega)

/-- What is moved can be read at its target. -/
theorem contents_moveAt (mem : ℕ → α) (dst src count : ℕ) :
    contents (moveAt mem dst src count) dst count = contents mem src count := by
  apply List.map_congr_left
  intro i inside
  have bound := List.mem_range.mp inside
  rw [moveAt, if_pos ⟨by omega, by omega⟩, Nat.add_sub_cancel_left]

/-- A move leaves what is in front of its target. -/
theorem contents_moveAt_before (mem : ℕ → α) {dst : ℕ} (src moved : ℕ)
    (before : start + count ≤ dst) :
    contents (moveAt mem dst src moved) start count = contents mem start count := by
  apply contents_congr
  intro i _ below
  exact if_neg (by omega)

end MsiSdrDriver.Foundations
