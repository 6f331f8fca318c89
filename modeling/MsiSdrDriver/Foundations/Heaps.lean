import Mathlib.Data.List.Basic
import Mathlib.Logic.Function.Basic

/-!
# Heaps of cells and doubly linked chains

A heap maps addresses to cells. An address without a cell is dead: it was never allocated, or
its cell was freed. Reading, changing or freeing a dead address is a fault, which is `none`, so
that a use after free, a double free and a dereference of the null pointer all show as an
operation that has no result. Allocations are numbered. An allocator may hand out a freed
address again, and the number tells the new cell from the old one.

`Chain` says that following a link from a cursor visits given addresses in order and stops at a
given one, and that the opposite link of each leads back to the one before. It depends on the
links only (`Chain.congr`), it is taken apart at its end by `chain_concat_iff`, and in it the
two links invert each other (`Chain.prev_next`, `Chain.next_prev`).
-/

set_option autoImplicit false

namespace MsiSdrDriver.Foundations

universe u v w

variable {κ : Type u} {ν : Type v}

/-! ## Heaps -/

/-- The cells that are live, the number of the allocation that made each of them, the number of
allocations so far, and the allocations whose cell was freed. -/
structure Heap (κ : Type u) (ν : Type v) where
  cells : κ → Option ν
  number : κ → ℕ
  allocated : ℕ
  freed : List ℕ

namespace Heap

/-- Nothing is allocated. -/
def empty : Heap κ ν where
  cells := fun _ => none
  number := fun _ => 0
  allocated := 0
  freed := []

/-- What the cells at some addresses hold, in order. Dead addresses hold nothing. -/
def contents {π : Type w} (h : Heap κ ν) (read : ν → π) (nodes : List κ) : List π :=
  nodes.filterMap fun a => (h.cells a).map read

/-- Contents depend on what is read only. -/
theorem contents_congr {π : Type w} {h h' : Heap κ ν} {read : ν → π} {nodes : List κ}
    (same : ∀ a ∈ nodes, (h'.cells a).map read = (h.cells a).map read) :
    h'.contents read nodes = h.contents read nodes := by
  unfold contents
  apply List.filterMap_congr
  intro a member
  exact same a member

/-- A live address is not a dead one. -/
theorem ne_of_live {h : Heap κ ν} {a b : κ} {cell : ν} (live : h.cells a = some cell)
    (dead : h.cells b = none) : a ≠ b := by
  rintro rfl
  rw [dead] at live
  cases live

variable [DecidableEq κ]

/-- A new cell at an address. -/
def allocate (h : Heap κ ν) (a : κ) (cell : ν) : Heap κ ν where
  cells := Function.update h.cells a (some cell)
  number := Function.update h.number a h.allocated
  allocated := h.allocated + 1
  freed := h.freed

/-- Another content for a cell. -/
def put (h : Heap κ ν) (a : κ) (cell : ν) : Heap κ ν :=
  { h with cells := Function.update h.cells a (some cell) }

/-- The cell at an address is gone. -/
def drop (h : Heap κ ν) (a : κ) : Heap κ ν :=
  { h with cells := Function.update h.cells a none, freed := h.freed ++ [h.number a] }

/-- Change the cell at a live address. -/
def modify (h : Heap κ ν) (a : κ) (change : ν → ν) : Option (Heap κ ν) :=
  (h.cells a).map fun cell => h.put a (change cell)

/-- Free the cell at a live address. -/
def free (h : Heap κ ν) (a : κ) : Option (Heap κ ν) :=
  (h.cells a).map fun _ => h.drop a

variable (h : Heap κ ν) (a b : κ) (cell : ν)

@[simp] theorem cells_allocate_self : (h.allocate a cell).cells a = some cell :=
  Function.update_self ..

@[simp] theorem cells_put_self : (h.put a cell).cells a = some cell :=
  Function.update_self ..

@[simp] theorem cells_drop_self : (h.drop a).cells a = none :=
  Function.update_self ..

variable {a b}

/-- An allocation leaves every other address as it is. -/
theorem cells_allocate_of_ne (other : b ≠ a) : (h.allocate a cell).cells b = h.cells b :=
  Function.update_of_ne other ..

theorem cells_put_of_ne (other : b ≠ a) : (h.put a cell).cells b = h.cells b :=
  Function.update_of_ne other ..

theorem cells_drop_of_ne (other : b ≠ a) : (h.drop a).cells b = h.cells b :=
  Function.update_of_ne other ..

variable {h cell}

theorem modify_of_live {change : ν → ν} (live : h.cells a = some cell) :
    h.modify a change = some (h.put a (change cell)) := by
  rw [modify, live]
  rfl

theorem free_of_live (live : h.cells a = some cell) : h.free a = some (h.drop a) := by
  rw [free, live]
  rfl

end Heap

/-! ## Chains -/

variable (prev next : ν → κ)

/-- Following `next` from a cursor visits the nodes in order and stops at an address, and `prev`
leads from each node to the one before. -/
def Chain (cells : κ → Option ν) (stop : κ) : κ → κ → List κ → Prop
  | _, cursor, [] => cursor = stop
  | before, cursor, n :: rest =>
      cursor = n ∧
        ∃ cell, cells n = some cell ∧ prev cell = before ∧ Chain cells stop n (next cell) rest

variable {prev next} {cells cells' : κ → Option ν} {stop before cursor : κ} {nodes : List κ}

/-- **A chain depends on the links of its nodes only.** -/
theorem Chain.congr
    (same : ∀ n ∈ nodes, ∀ cell, cells n = some cell →
      ∃ cell', cells' n = some cell' ∧ prev cell' = prev cell ∧ next cell' = next cell)
    (chain : Chain prev next cells stop before cursor nodes) :
    Chain prev next cells' stop before cursor nodes := by
  induction nodes generalizing before cursor with
  | nil => exact chain
  | cons n rest ih =>
      obtain ⟨here, cell, live, back, onward⟩ := chain
      obtain ⟨cell', live', back', onward'⟩ := same n List.mem_cons_self cell live
      refine ⟨here, cell', live', back'.trans back, ?_⟩
      rw [onward']
      exact ih (fun m member => same m (List.mem_cons_of_mem n member)) onward

/-- Every node of a chain is live. -/
theorem Chain.live (chain : Chain prev next cells stop before cursor nodes) {n : κ}
    (member : n ∈ nodes) : ∃ cell, cells n = some cell := by
  induction nodes generalizing before cursor with
  | nil => cases member
  | cons m rest ih =>
      obtain ⟨-, cell, live, -, onward⟩ := chain
      rcases List.mem_cons.mp member with rfl | later
      · exact ⟨cell, live⟩
      · exact ih onward later

/-- **A chain with a last node** is a chain up to it and the links of that node. -/
theorem chain_concat_iff {n : κ} :
    Chain prev next cells stop before cursor (nodes ++ [n]) ↔
      Chain prev next cells n before cursor nodes ∧
        ∃ cell, cells n = some cell ∧ prev cell = nodes.getLastD before ∧ next cell = stop := by
  induction nodes generalizing before cursor with
  | nil => exact Iff.rfl
  | cons m rest ih =>
      simp only [List.cons_append, Chain, ih, List.getLastD_cons]
      constructor
      · rintro ⟨here, cell, live, back, upTo, last⟩
        exact ⟨⟨here, cell, live, back, upTo⟩, last⟩
      · rintro ⟨⟨here, cell, live, back, upTo⟩, last⟩
        exact ⟨here, cell, live, back, upTo, last⟩

/-- **`prev` inverts `next`** at every node whose `next` does not leave the chain. -/
theorem Chain.prev_next (chain : Chain prev next cells stop before cursor nodes) {n : κ} {cell : ν}
    (member : n ∈ nodes) (live : cells n = some cell) :
    next cell = stop ∨
      ∃ following, cells (next cell) = some following ∧ prev following = n := by
  induction nodes generalizing before cursor with
  | nil => cases member
  | cons m rest ih =>
      obtain ⟨-, found, foundLive, -, onward⟩ := chain
      rcases List.mem_cons.mp member with rfl | later
      · obtain rfl : found = cell := Option.some.inj (foundLive.symm.trans live)
        cases rest with
        | nil => exact .inl onward
        | cons k others =>
            obtain ⟨reaches, following, followingLive, back, -⟩ := onward
            rw [reaches]
            exact .inr ⟨following, followingLive, back⟩
      · exact ih onward later

/-- `next` inverts `prev` at every node but the first. -/
theorem Chain.next_prev (chain : Chain prev next cells stop before cursor nodes) {n : κ} {cell : ν}
    (member : n ∈ nodes) (live : cells n = some cell) :
    (n = cursor ∧ prev cell = before) ∨
      ∃ preceding, cells (prev cell) = some preceding ∧ next preceding = n := by
  induction nodes generalizing before cursor with
  | nil => cases member
  | cons m rest ih =>
      obtain ⟨here, found, foundLive, back, onward⟩ := chain
      rcases List.mem_cons.mp member with rfl | later
      · obtain rfl : found = cell := Option.some.inj (foundLive.symm.trans live)
        exact .inl ⟨here.symm, back⟩
      · rcases ih onward later with ⟨rfl, leads⟩ | inside
        · rw [leads]
          exact .inr ⟨found, foundLive, rfl⟩
        · exact .inr inside

end MsiSdrDriver.Foundations
