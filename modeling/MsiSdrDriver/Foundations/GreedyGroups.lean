import Mathlib

/-!
# Cutting a list of sizes greedily

Sizes are cut into consecutive groups, each of which takes as many as its room allows. One function
counts the groups that are needed (`countGroups`), and one fills a given number of them (`groups`).
They agree: the counted number of groups takes every size (`groups_flatten`), and none takes more
than there is room for (`sum_le_of_mem_groups`).
-/

set_option autoImplicit false

namespace MsiSdrDriver.Foundations

variable {cap room used count n m : ℕ} {sizes group : List ℕ}

/-- The sizes that fit, and the rest. -/
def fitting : ℕ → List ℕ → List ℕ × List ℕ
  | _, [] => ([], [])
  | room, size :: rest =>
      if size ≤ room then
        (size :: (fitting (room - size) rest).1, (fitting (room - size) rest).2)
      else ([], size :: rest)

/-- Fill groups. -/
def groups (cap : ℕ) : ℕ → List ℕ → List (List ℕ)
  | 0, _ => []
  | count + 1, sizes => (fitting cap sizes).1 :: groups cap count (fitting cap sizes).2

/-- Count the groups, `count` of which are begun and the last of which has `used` room. A size that
fits in no group is refused. -/
def countGroups (cap : ℕ) : ℕ → ℕ → List ℕ → Option ℕ
  | count, _, [] => some count
  | count, used, size :: rest =>
      if cap - used < size then
        if cap < size then none else countGroups cap (count + 1) size rest
      else countGroups cap count (used + size) rest

theorem fitting_append (room : ℕ) (sizes : List ℕ) :
    (fitting room sizes).1 ++ (fitting room sizes).2 = sizes := by
  induction sizes generalizing room with
  | nil => rfl
  | cons size rest ih =>
      rw [fitting]
      split
      · exact congrArg _ (ih _)
      · rfl

theorem sum_fitting_le (room : ℕ) (sizes : List ℕ) : (fitting room sizes).1.sum ≤ room := by
  induction sizes generalizing room with
  | nil => exact Nat.zero_le _
  | cons size rest ih =>
      rw [fitting]
      split
      · next fits =>
        have more := ih (room - size)
        rw [List.sum_cons]
        omega
      · exact Nat.zero_le _

@[simp] theorem length_groups (cap count : ℕ) (sizes : List ℕ) :
    (groups cap count sizes).length = count := by
  induction count generalizing sizes with
  | zero => rfl
  | succ count ih => rw [groups, List.length_cons, ih]

/-- No group takes more than there is room for. -/
theorem sum_le_of_mem_groups (member : group ∈ groups cap count sizes) : group.sum ≤ cap := by
  induction count generalizing sizes with
  | zero => cases member
  | succ count ih =>
      rcases List.mem_cons.mp member with rfl | later
      · exact sum_fitting_le cap sizes
      · exact ih later

/-- The groups that are counted behind the first one take what it leaves. -/
theorem groups_counted (counted : countGroups cap n used sizes = some m) :
    ∃ more, m = n + more ∧ (groups cap more (fitting (cap - used) sizes).2).flatten =
      (fitting (cap - used) sizes).2 := by
  induction sizes generalizing n used with
  | nil =>
      cases counted
      exact ⟨0, rfl, rfl⟩
  | cons size rest ih =>
      rw [countGroups] at counted
      split at counted
      · next full =>
        split at counted
        · cases counted
        · next fits =>
          obtain ⟨more, total, taken⟩ := ih counted
          refine ⟨more + 1, by omega, ?_⟩
          rw [fitting, if_neg (Nat.not_le.mpr full), groups, fitting, if_pos (Nat.not_lt.mp fits),
            List.flatten_cons, taken, List.cons_append, fitting_append]
      · next room =>
        obtain ⟨more, total, taken⟩ := ih counted
        refine ⟨more, total, ?_⟩
        rw [fitting, if_pos (Nat.not_lt.mp room), Nat.sub_sub]
        exact taken

/-- **Counting and filling agree.** -/
theorem groups_flatten (counted : countGroups cap 1 0 sizes = some n) :
    (groups cap n sizes).flatten = sizes := by
  obtain ⟨more, rfl, taken⟩ := groups_counted counted
  rw [Nat.sub_zero] at taken
  rw [Nat.add_comm, groups, List.flatten_cons, taken, fitting_append]

/-- Sizes that fit in one group need only one. -/
theorem countGroups_of_fits (fits : used + sizes.sum ≤ cap) :
    countGroups cap n used sizes = some n := by
  induction sizes generalizing used with
  | nil => rfl
  | cons size rest ih =>
      rw [List.sum_cons] at fits
      rw [countGroups, if_neg (by omega)]
      exact ih (by omega)

end MsiSdrDriver.Foundations
