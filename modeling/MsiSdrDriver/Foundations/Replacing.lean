import Mathlib.Data.List.Infix

/-!
# Replacing a pattern

The occurrences of a pattern are looked for from the beginning to the end, each behind the one
before, and replaced. A symbol that the pattern does not have in it separates
(`replace_append_separator`): what is on its two sides is searched apart. Nothing changes where the
pattern does not occur (`replace_of_absent`), and with a shorter replacement something does where it
does (`length_replace_lt`).
-/

set_option autoImplicit false

namespace MsiSdrDriver.Foundations

universe u

variable {γ : Type u} {pattern replacement before rest : List γ} {separator c : γ}

/-- An occurrence does not go beyond a separator. -/
theorem prefix_append_separator (free : separator ∉ pattern) (before after : List γ) :
    pattern <+: before ++ separator :: after ↔ pattern <+: before := by
  constructor
  · intro occurs
    by_cases fits : pattern.length ≤ before.length
    · exact List.prefix_of_prefix_length_le occurs (List.prefix_append ..) fits
    · have inside : before ++ [separator] <+: pattern := by
        refine List.prefix_of_prefix_length_le ?_ occurs ?_
        · exact ⟨after, by rw [List.append_assoc]; rfl⟩
        · rw [List.length_append, List.length_singleton]
          omega
      exact absurd (inside.subset (by simp)) free
  · exact fun occurs => occurs.trans (List.prefix_append ..)

variable [DecidableEq γ]

/-- Go on behind an occurrence of which there are `skip` symbols left. -/
def replaceFrom (pattern replacement : List γ) : ℕ → List γ → List γ
  | _, [] => []
  | skip + 1, _ :: rest => replaceFrom pattern replacement skip rest
  | 0, c :: rest =>
      if pattern <+: c :: rest then
        replacement ++ replaceFrom pattern replacement (pattern.length - 1) rest
      else c :: replaceFrom pattern replacement 0 rest

/-- Replace every occurrence. -/
def replace (pattern replacement input : List γ) : List γ :=
  replaceFrom pattern replacement 0 input

theorem replaceFrom_of_occurs (replacement : List γ) (occurs : pattern <+: c :: rest) :
    replaceFrom pattern replacement 0 (c :: rest) =
      replacement ++ replaceFrom pattern replacement (pattern.length - 1) rest :=
  if_pos occurs

theorem replaceFrom_of_absent (replacement : List γ) (other : ¬pattern <+: c :: rest) :
    replaceFrom pattern replacement 0 (c :: rest) =
      c :: replaceFrom pattern replacement 0 rest :=
  if_neg other

theorem replaceFrom_append_separator (some : pattern ≠ []) (free : separator ∉ pattern) {skip : ℕ}
    (inside : skip ≤ before.length) (after : List γ) :
    replaceFrom pattern replacement skip (before ++ separator :: after) =
      replaceFrom pattern replacement skip before ++
        separator :: replace pattern replacement after := by
  induction before generalizing skip with
  | nil =>
      obtain rfl : skip = 0 := Nat.le_zero.mp inside
      have same := prefix_append_separator free [] after
      exact replaceFrom_of_absent _ fun occurs =>
        some (List.prefix_nil.mp (same.mp occurs))
  | cons c rest ih =>
      cases skip with
      | succ skip => exact ih (Nat.le_of_succ_le_succ inside)
      | zero =>
          have same := prefix_append_separator free (c :: rest) after
          by_cases occurs : pattern <+: c :: rest
          · have room : pattern.length - 1 ≤ rest.length := by
              have length := occurs.length_le
              rw [List.length_cons] at length
              omega
            rw [replaceFrom_of_occurs _ occurs, List.append_assoc, ← ih room]
            exact replaceFrom_of_occurs _ (same.mpr occurs)
          · rw [replaceFrom_of_absent _ occurs, List.cons_append, List.cons_append,
              ← ih (Nat.zero_le _)]
            exact replaceFrom_of_absent _ (mt same.mp occurs)

/-- **What is on the two sides of a separator is searched apart.** -/
theorem replace_append_separator (some : pattern ≠ []) (free : separator ∉ pattern)
    (before after : List γ) :
    replace pattern replacement (before ++ separator :: after) =
      replace pattern replacement before ++ separator :: replace pattern replacement after :=
  replaceFrom_append_separator some free (Nat.zero_le _) after

theorem replaceFrom_skip (replacement skipped rest : List γ) :
    replaceFrom pattern replacement skipped.length (skipped ++ rest) =
      replace pattern replacement rest := by
  induction skipped with
  | nil => rfl
  | cons c skipped ih => exact ih

/-- An occurrence at the beginning. -/
theorem replace_append_pattern (some : pattern ≠ []) (rest : List γ) :
    replace pattern replacement (pattern ++ rest) =
      replacement ++ replace pattern replacement rest := by
  match pattern, some with
  | c :: others, _ =>
      rw [← replaceFrom_skip replacement others rest]
      exact replaceFrom_of_occurs _ (List.prefix_append (c :: others) rest)

/-- What is there afterwards was there, or comes with the replacement. -/
theorem mem_of_mem_replaceFrom {skip : ℕ} {input : List γ}
    (member : c ∈ replaceFrom pattern replacement skip input) : c ∈ input ∨ c ∈ replacement := by
  induction input generalizing skip with
  | nil => cases member
  | cons first rest ih =>
      have later : ∀ {skip : ℕ}, c ∈ replaceFrom pattern replacement skip rest →
          c ∈ first :: rest ∨ c ∈ replacement := fun inside =>
        (ih inside).imp_left (List.mem_cons_of_mem first)
      cases skip with
      | succ skip => exact later member
      | zero =>
          by_cases occurs : pattern <+: first :: rest
          · rw [replaceFrom_of_occurs _ occurs] at member
            rcases List.mem_append.mp member with new | old
            · exact .inr new
            · exact later old
          · rw [replaceFrom_of_absent _ occurs] at member
            rcases List.mem_cons.mp member with rfl | old
            · exact .inl List.mem_cons_self
            · exact later old

/-- **Nothing changes where the pattern does not occur.** -/
theorem replace_of_absent {input : List γ} (absent : ¬pattern <:+: input) :
    replace pattern replacement input = input := by
  induction input with
  | nil => rfl
  | cons c rest ih =>
      have here : ¬pattern <+: c :: rest := fun occurs => absent occurs.isInfix
      have later : ¬pattern <:+: rest := fun occurs => absent (List.infix_cons occurs)
      exact (replaceFrom_of_absent _ here).trans (congrArg (c :: ·) (ih later))

/-- With a replacement that is no longer, nothing gets longer. -/
theorem length_replaceFrom_le (short : replacement.length ≤ pattern.length) (skip : ℕ)
    (input : List γ) :
    (replaceFrom pattern replacement skip input).length ≤ input.length - skip := by
  induction input generalizing skip with
  | nil => exact Nat.zero_le _
  | cons c rest ih =>
      cases skip with
      | succ skip =>
          rw [List.length_cons, Nat.add_sub_add_right]
          exact ih skip
      | zero =>
          by_cases occurs : pattern <+: c :: rest
          · have room := occurs.length_le
            have later := ih (pattern.length - 1)
            rw [replaceFrom_of_occurs _ occurs, List.length_append]
            rw [List.length_cons] at room ⊢
            omega
          · rw [replaceFrom_of_absent _ occurs, List.length_cons, List.length_cons]
            exact Nat.succ_le_succ (ih 0)

/-- **A pattern that occurs makes the text shorter** where its replacement is shorter. -/
theorem length_replace_lt (shorter : replacement.length < pattern.length) {input : List γ}
    (occurs : pattern <:+: input) : (replace pattern replacement input).length < input.length := by
  induction input with
  | nil =>
      rw [List.infix_nil.mp occurs] at shorter
      exact absurd shorter (Nat.not_lt_zero _)
  | cons c rest ih =>
      by_cases here : pattern <+: c :: rest
      · have room := here.length_le
        have later := length_replaceFrom_le (Nat.le_of_lt shorter) (pattern.length - 1) rest
        rw [replace, replaceFrom_of_occurs _ here, List.length_append]
        rw [List.length_cons] at room ⊢
        omega
      · have within : pattern <:+: rest := (List.infix_cons_iff.mp occurs).resolve_left here
        rw [replace, replaceFrom_of_absent _ here, List.length_cons, List.length_cons]
        exact Nat.succ_lt_succ (ih within)

end MsiSdrDriver.Foundations
