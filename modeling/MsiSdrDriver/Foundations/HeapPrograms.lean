import MsiSdrDriver.Foundations.Ownership

/-!
# Programs on a heap

A program on a heap has no result if it makes a fault. Each access has a rule that says what is
owned after it, in terms of what is owned before: a cell that is owned can be read (`load_owned`),
written (`store_owned`) and freed (`free_owned`), and a new one is owned from then on
(`malloc_owned`). A sequence runs as its parts do (`run_bind`), so that a program that owns what it
accesses is taken apart step by step, and has a result.
-/

set_option autoImplicit false

namespace MsiSdrDriver.Foundations

/-- A computation on a heap. -/
abbrev HeapProgram (κ ν : Type) (α : Type) := StateT (Heap κ ν) Option α

namespace HeapProgram

variable {κ ν α β : Type}

/-! ## Accesses -/

/-- What is found at an address. It is a fault if the cell is not of the kind that is read. -/
def load (a : κ) (read : ν → Option α) : HeapProgram κ ν α :=
  fun h => ((h.cells a).bind read).map (·, h)

/-- What must hold for the access that follows to stay inside of a cell. -/
def require (inside : Prop) [Decidable inside] : HeapProgram κ ν Unit :=
  if inside then pure () else failure

variable [DecidableEq κ]

def store (a : κ) (cell : ν) : HeapProgram κ ν Unit :=
  fun h => (h.modify a fun _ => cell).map ((), ·)

def free (a : κ) : HeapProgram κ ν Unit := fun h => (h.free a).map ((), ·)

/-- A new cell, where the allocator places it. -/
def malloc (place : Heap κ ν → κ) (cell : ν) : HeapProgram κ ν κ :=
  fun h => some (place h, h.allocate (place h) cell)

/-- `count` new cells with the same content, in order. -/
def mallocEach (place : Heap κ ν → κ) (cell : ν) : ℕ → HeapProgram κ ν (List κ)
  | 0 => return []
  | count + 1 => do
      let a ← malloc place cell
      let later ← mallocEach place cell count
      return a :: later

/-! ## Rules -/

variable {place : Heap κ ν → κ} {null : κ} {base h h' : Heap κ ν} {owned : List (κ × ν)} {a : κ}
  {cell old : ν}

omit [DecidableEq κ] in
theorem run_bind {m : HeapProgram κ ν α} {f : α → HeapProgram κ ν β} {x : α}
    (ran : m h = some (x, h')) : (m >>= f) h = f x h' := by
  show (m h).bind _ = _
  rw [ran]
  rfl

omit [DecidableEq κ] in
theorem run_map {m : HeapProgram κ ν α} {f : α → β} {x : α} (ran : m h = some (x, h')) :
    (f <$> m) h = some (f x, h') := by
  show (m h).bind _ = _
  rw [ran]
  rfl

omit [DecidableEq κ] in
/-- The first of several runs. -/
theorem run_forM_cons (f : β → HeapProgram κ ν Unit) {x : β} {later : List β}
    (ran : f x h = some ((), h')) : (x :: later).forM f h = later.forM f h' :=
  run_bind ran

omit [DecidableEq κ] in
theorem run_require {inside : Prop} [Decidable inside] (holds : inside) :
    require inside h = some ((), h) := by
  rw [require, if_pos holds]
  rfl

omit [DecidableEq κ] in
/-- An owned cell can be read. -/
theorem load_owned (owns : Owns base owned h) (member : (a, cell) ∈ owned)
    {read : ν → Option α} {x : α} (found : read cell = some x) : load a read h = some (x, h) := by
  rw [load, owns.cells_of_mem member, Option.bind_some, found]
  rfl

/-- An owned cell can be written. -/
theorem store_owned (owns : Owns base ((a, old) :: owned) h) (cell : ν) :
    ∃ h', store a cell h = some ((), h') ∧ Owns base ((a, cell) :: owned) h' := by
  refine ⟨h.put a cell, ?_, owns.put⟩
  rw [store, Heap.modify_of_live (owns.cells_of_mem List.mem_cons_self)]
  rfl

/-- So can one that is not the first. -/
theorem store_owned_middle {before after : List (κ × ν)}
    (owns : Owns base (before ++ (a, old) :: after) h) (cell : ν) :
    ∃ h', store a cell h = some ((), h') ∧ Owns base (before ++ (a, cell) :: after) h' := by
  obtain ⟨h', stored, owns⟩ := store_owned (owns.perm List.perm_middle) cell
  exact ⟨h', stored, owns.perm List.perm_middle.symm⟩

/-- An owned cell can be freed. -/
theorem free_owned (owns : Owns base ((a, cell) :: owned) h) :
    ∃ h', free a h = some ((), h') ∧ Owns base owned h' := by
  obtain ⟨freed, owns⟩ := owns.free
  refine ⟨h.drop a, ?_, owns⟩
  rw [free, freed]
  rfl

/-- A new cell is owned. -/
theorem malloc_owned (allocates : Allocates null place base) (owns : Owns base owned h)
    (cell : ν) :
    ∃ a h', malloc place cell h = some (a, h') ∧ a ≠ null ∧ Owns base ((a, cell) :: owned) h' := by
  obtain ⟨dead, notNull⟩ := allocates owned h owns
  exact ⟨place h, _, rfl, notNull, owns.allocate dead⟩

/-- Several new cells are owned. -/
theorem mallocEach_owned (allocates : Allocates null place base) (owns : Owns base owned h)
    (cell : ν) (count : ℕ) :
    ∃ slots h', mallocEach place cell count h = some (slots, h') ∧ slots.length = count ∧
      (∀ slot ∈ slots, slot ≠ null) ∧ Owns base (slots.map (·, cell) ++ owned) h' := by
  induction count generalizing owned h with
  | zero => exact ⟨[], h, rfl, rfl, fun _ member => absurd member List.not_mem_nil, owns⟩
  | succ count ih =>
      obtain ⟨a, h₁, allocated, notNull, owns⟩ := malloc_owned allocates owns cell
      obtain ⟨slots, h₂, others, length, slotsNotNull, owns⟩ := ih owns
      refine ⟨a :: slots, h₂, ?_, by rw [List.length_cons, length], ?_, ?_⟩
      · rw [mallocEach, run_bind allocated, run_bind others]
        rfl
      · intro slot member
        rcases List.mem_cons.mp member with rfl | later
        · exact notNull
        · exact slotsNotNull slot later
      · exact owns.perm List.perm_middle

end HeapProgram

end MsiSdrDriver.Foundations
