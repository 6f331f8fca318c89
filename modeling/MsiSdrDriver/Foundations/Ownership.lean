import Mathlib.Data.List.Perm.Subperm
import Mathlib.Data.List.Range
import MsiSdrDriver.Foundations.Heaps

/-!
# Owned cells

A part of a program may be asked to leave the heap as it has found it. `Owns base owned h` says how
far it is from that: the cells that it owns were allocated since the heap was `base`, all others are
as they were, and every allocation since then either belongs to an owned cell or has been freed, and
only once.

There is a rule for each operation. To begin with nothing is owned (`Owns.refl`), an allocation adds
a cell (`Owns.allocate`), a free takes one away (`Owns.free`), a change of an owned cell changes it
(`Owns.put`), and the order does not matter (`Owns.perm`). A part that owns nothing at its end has
put the heap back (`Owns.cells_eq`, `Owns.freed_once`).

An allocator may place a cell wherever no other one is. `firstFit` reuses the addresses of the cells
that have been freed.
-/

set_option autoImplicit false

namespace MsiSdrDriver.Foundations

universe u v

variable {κ : Type u} {ν : Type v}

/-- The heap `h` is the heap `base` and the owned cells. -/
structure Owns (base : Heap κ ν) (owned : List (κ × ν)) (h : Heap κ ν) : Prop where
  once : (owned.map Prod.fst).Nodup
  new : ∀ a ∈ owned.map Prod.fst, base.cells a = none
  live : ∀ entry ∈ owned, h.cells entry.1 = some entry.2
  kept : ∀ a, a ∉ owned.map Prod.fst → h.cells a = base.cells a
  grows : base.allocated ≤ h.allocated
  numbers : (h.freed ++ owned.map fun entry => h.number entry.1).Perm
    (base.freed ++ List.range' base.allocated (h.allocated - base.allocated))

namespace Owns

variable {base h : Heap κ ν} {owned owned' : List (κ × ν)} {a : κ} {cell : ν}

/-- Nothing has happened yet. -/
theorem refl (h : Heap κ ν) : Owns h [] h where
  once := List.nodup_nil
  new := fun _ member => absurd member List.not_mem_nil
  live := fun _ member => absurd member List.not_mem_nil
  kept := fun _ _ => rfl
  grows := Nat.le_refl _
  numbers := by
    rw [Nat.sub_self]
    exact .refl _

theorem perm (owns : Owns base owned h) (same : owned.Perm owned') : Owns base owned' h where
  once := ((same.map Prod.fst).nodup_iff).mp owns.once
  new := fun a member => owns.new a ((same.map Prod.fst).mem_iff.mpr member)
  live := fun entry member => owns.live entry (same.mem_iff.mpr member)
  kept := fun a outside => owns.kept a fun member => outside ((same.map Prod.fst).mem_iff.mp member)
  grows := owns.grows
  numbers := ((same.map _).append_left h.freed).symm.trans owns.numbers

theorem cells_of_mem (owns : Owns base owned h) (member : (a, cell) ∈ owned) :
    h.cells a = some cell :=
  owns.live (a, cell) member

/-- **Whoever owns nothing has put the cells back.** -/
theorem cells_eq (owns : Owns base [] h) : h.cells = base.cells := by
  funext a
  exact owns.kept a List.not_mem_nil

/-- **What was allocated since has been freed once**, if nothing is owned. -/
theorem freed_once (owns : Owns base [] h) :
    h.freed.Perm (base.freed ++ List.range' base.allocated (h.allocated - base.allocated)) := by
  simpa using owns.numbers

/-- No more cells are owned than were allocated. -/
theorem length_le (owns : Owns base owned h) (nothing : base.freed = []) :
    owned.length ≤ h.allocated - base.allocated := by
  have lengths := owns.numbers.length_eq
  rw [nothing, List.nil_append, List.length_append, List.length_map, List.length_range'] at lengths
  omega

variable [DecidableEq κ]

/-- An allocation. -/
theorem allocate (owns : Owns base owned h) (dead : h.cells a = none) :
    Owns base ((a, cell) :: owned) (h.allocate a cell) := by
  have other : ∀ entry ∈ owned, entry.1 ≠ a := fun entry member =>
    h.ne_of_live (owns.live entry member) dead
  have outside : a ∉ owned.map Prod.fst := fun member => by
    obtain ⟨entry, inside, same⟩ := List.mem_map.mp member
    exact other entry inside same
  refine ⟨?_, ?_, ?_, ?_, Nat.le_succ_of_le owns.grows, ?_⟩
  · rw [List.map_cons, List.nodup_cons]
    exact ⟨outside, owns.once⟩
  · intro b member
    rcases List.mem_cons.mp member with rfl | old
    · rw [← owns.kept _ outside]
      exact dead
    · exact owns.new b old
  · intro entry member
    rcases List.mem_cons.mp member with rfl | old
    · exact h.cells_allocate_self ..
    · rw [h.cells_allocate_of_ne _ (other entry old)]
      exact owns.live entry old
  · intro b notOwned
    rw [List.map_cons, List.mem_cons, not_or] at notOwned
    rw [h.cells_allocate_of_ne _ notOwned.1]
    exact owns.kept b notOwned.2
  · have numbers : (owned.map fun entry => (h.allocate a cell).number entry.1) =
        owned.map fun entry => h.number entry.1 :=
      List.map_congr_left fun entry member => Function.update_of_ne (other entry member) ..
    have own : (h.allocate a cell).number a = h.allocated := Function.update_self ..
    have grown : (h.allocate a cell).allocated - base.allocated =
        h.allocated - base.allocated + 1 := Nat.succ_sub owns.grows
    rw [List.map_cons, numbers, own, grown, List.range'_concat, Nat.one_mul,
      Nat.add_sub_cancel' owns.grows, ← List.append_assoc]
    exact List.perm_middle.trans
      ((owns.numbers.cons h.allocated).trans (List.perm_append_singleton ..).symm)

/-- A change of an owned cell. -/
theorem put {new : ν} (owns : Owns base ((a, cell) :: owned) h) :
    Owns base ((a, new) :: owned) (h.put a new) := by
  have others : a ∉ owned.map Prod.fst := (List.nodup_cons.mp owns.once).1
  refine ⟨owns.once, owns.new, ?_, ?_, owns.grows, owns.numbers⟩
  · intro entry member
    rcases List.mem_cons.mp member with rfl | old
    · exact h.cells_put_self ..
    · have other : entry.1 ≠ a := fun same => others (same ▸ List.mem_map_of_mem old)
      rw [h.cells_put_of_ne _ other]
      exact owns.live entry (List.mem_cons_of_mem _ old)
  · intro b outside
    have other : b ≠ a := by
      rintro rfl
      exact outside List.mem_cons_self
    rw [h.cells_put_of_ne _ other]
    exact owns.kept b outside

/-- A free. -/
theorem free (owns : Owns base ((a, cell) :: owned) h) :
    h.free a = some (h.drop a) ∧ Owns base owned (h.drop a) := by
  have others : a ∉ owned.map Prod.fst := (List.nodup_cons.mp owns.once).1
  refine ⟨Heap.free_of_live (owns.cells_of_mem List.mem_cons_self), owns.once.of_cons, ?_, ?_, ?_,
    owns.grows, ?_⟩
  · exact fun b member => owns.new b (List.mem_cons_of_mem _ member)
  · intro entry member
    have other : entry.1 ≠ a := fun same => others (same ▸ List.mem_map_of_mem member)
    rw [h.cells_drop_of_ne other]
    exact owns.live entry (List.mem_cons_of_mem _ member)
  · intro b outside
    by_cases here : b = a
    · subst here
      rw [h.cells_drop_self]
      exact (owns.new b List.mem_cons_self).symm
    · rw [h.cells_drop_of_ne here]
      refine owns.kept b fun member => ?_
      rcases List.mem_cons.mp member with same | old
      · exact here same
      · exact outside old
  · show (h.freed ++ [h.number a] ++ _).Perm _
    rw [List.append_assoc]
    exact owns.numbers

end Owns

/-! ## Allocators -/

/-- A place for a new cell, whatever cells are owned. -/
def Allocates (null : κ) (place : Heap κ ν → κ) (base : Heap κ ν) : Prop :=
  ∀ owned h, Owns base owned h → h.cells (place h) = none ∧ place h ≠ null

/-- The first address that is free, from 1 on. -/
def firstFit (h : Heap ℕ ν) : ℕ :=
  ((List.range' 1 (h.allocated + 1)).find? fun a => (h.cells a).isNone).getD 0

theorem firstFit_allocates : Allocates 0 firstFit (Heap.empty : Heap ℕ ν) := by
  intro owned h owns
  have found : ((List.range' 1 (h.allocated + 1)).find? fun a => (h.cells a).isNone).isSome := by
    rw [List.find?_isSome]
    by_contra full
    have inside : List.range' 1 (h.allocated + 1) ⊆ owned.map Prod.fst := by
      intro a member
      by_contra outside
      have dead := owns.kept a outside
      exact full ⟨a, member, by rw [dead]; rfl⟩
    have few := (List.subperm_of_subset List.nodup_range' inside).length_le
    have fits := owns.length_le rfl
    rw [List.length_range', List.length_map] at few
    have counted : h.allocated - (Heap.empty : Heap ℕ ν).allocated = h.allocated := rfl
    omega
  obtain ⟨a, first⟩ := Option.isSome_iff_exists.mp found
  have place : firstFit h = a := by rw [firstFit, first, Option.getD_some]
  rw [place]
  have dead := List.find?_some first
  have positive := (List.mem_range'_1.mp (List.mem_of_find?_eq_some first)).1
  exact ⟨Option.isNone_iff_eq_none.mp dead, by omega⟩

end MsiSdrDriver.Foundations
