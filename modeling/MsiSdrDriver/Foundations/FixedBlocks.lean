import Mathlib.Data.List.Induction

/-!
# Cutting a sequence into blocks of a fixed length

`Blocks len input blocks rest` says that `blocks` and a remainder shorter than a block make up
`input`. There is a way to do this (`Blocks.exists_cut`) and only one (`Blocks.unique`), so whoever
cuts a sequence that way, in however many pieces it arrives (`Blocks.append`), cuts it the same way.
-/

set_option autoImplicit false

namespace MsiSdrDriver.Foundations

universe u

variable {α : Type u}

/-- `input` is cut into `blocks` of length `len`, and `rest` is left. -/
structure Blocks (len : ℕ) (input : List α) (blocks : List (List α)) (rest : List α) : Prop where
  full : ∀ block ∈ blocks, block.length = len
  short : rest.length < len
  whole : blocks.flatten ++ rest = input

namespace Blocks

variable {len : ℕ} {input more rest rest' : List α} {blocks blocks' : List (List α)}

/-- Less than a block is all remainder. -/
theorem of_short (short : input.length < len) : Blocks len input [] input where
  full := by simp
  short := short
  whole := rfl

/-- A block in front of the input is the first block. -/
theorem cons {block : List α} (size : block.length = len)
    (blocking : Blocks len input blocks rest) :
    Blocks len (block ++ input) (block :: blocks) rest where
  full := by
    intro other member
    rcases List.mem_cons.mp member with rfl | member
    · exact size
    · exact blocking.full other member
  short := blocking.short
  whole := by
    rw [List.flatten_cons, List.append_assoc, blocking.whole]

/-- One block and nothing else. -/
theorem single {block : List α} (size : block.length = len) (positive : 0 < len) :
    Blocks len block [block] [] := by
  have nothing : Blocks len ([] : List α) [] [] := of_short positive
  have blocking := cons size nothing
  rwa [List.append_nil] at blocking

/-- What arrives later is cut together with the remainder. -/
theorem append (first : Blocks len input blocks rest)
    (second : Blocks len (rest ++ more) blocks' rest') :
    Blocks len (input ++ more) (blocks ++ blocks') rest' where
  full := by
    intro block member
    rcases List.mem_append.mp member with before | after
    · exact first.full block before
    · exact second.full block after
  short := second.short
  whole := by
    rw [List.flatten_append, List.append_assoc, second.whole, ← List.append_assoc, first.whole]

/-- Every input can be cut. -/
theorem exists_cut (positive : 0 < len) (input : List α) :
    ∃ blocks rest, Blocks len input blocks rest := by
  induction input using List.reverseRecOn with
  | nil => exact ⟨[], [], of_short positive⟩
  | append_singleton input last ih =>
      obtain ⟨blocks, rest, cut⟩ := ih
      have short := cut.short
      by_cases room : (rest ++ [last]).length < len
      · exact ⟨_, _, cut.append (of_short room)⟩
      · have size : (rest ++ [last]).length = len := by
          rw [List.length_append, List.length_singleton] at room ⊢
          omega
        exact ⟨_, _, cut.append (single size positive)⟩

/-- **The cut is determined by the input.** -/
theorem unique (one : Blocks len input blocks rest) (other : Blocks len input blocks' rest') :
    blocks = blocks' ∧ rest = rest' := by
  induction blocks generalizing input blocks' with
  | nil =>
      cases blocks' with
      | nil => exact ⟨rfl, by simpa using one.whole.trans other.whole.symm⟩
      | cons block blocks' =>
          have size := congrArg List.length (one.whole.trans other.whole.symm)
          have full := other.full block (List.mem_cons_self ..)
          have short := one.short
          simp only [List.flatten_nil, List.nil_append, List.flatten_cons, List.length_append]
            at size
          omega
  | cons block blocks ih =>
      have full := one.full block (List.mem_cons_self ..)
      cases blocks' with
      | nil =>
          have size := congrArg List.length (one.whole.trans other.whole.symm)
          have short := other.short
          simp only [List.flatten_nil, List.nil_append, List.flatten_cons, List.length_append]
            at size
          omega
      | cons block' blocks' =>
          have full' := other.full block' (List.mem_cons_self ..)
          have same := one.whole.trans other.whole.symm
          simp only [List.flatten_cons, List.append_assoc] at same
          obtain ⟨rfl, tail⟩ := List.append_inj same (full.trans full'.symm)
          obtain ⟨rfl, rfl⟩ := ih
            ⟨fun b member => one.full b (List.mem_cons_of_mem _ member), one.short, rfl⟩
            ⟨fun b member => other.full b (List.mem_cons_of_mem _ member), other.short,
              tail.symm⟩
          exact ⟨rfl, rfl⟩

end Blocks

end MsiSdrDriver.Foundations
