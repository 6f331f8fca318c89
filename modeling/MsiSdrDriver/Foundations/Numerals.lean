import Mathlib.Data.Nat.Digits.Lemmas

/-!
# Numerals with a sign

Reading and writing integers in a positional system over an alphabet of one's own. A reader may know
several digits for one value; a writer uses one of them. What is written is read back
(`SignedGlyphs.read_write`), and a reader with bounds takes it exactly when it lies between them
(`SignedGlyphs.readBetween_write`).
-/

set_option autoImplicit false

namespace MsiSdrDriver.Foundations

universe u

/-- Digits of a positional system: the value that a character has, if it is a digit, and the digit
that is written for a value. -/
structure Glyphs (γ : Type u) where
  base : ℕ
  positional : 1 < base
  digit : γ → Option ℕ
  glyph : ℕ → γ
  digit_glyph : ∀ d < base, digit (glyph d) = some d

/-- Digits together with two signs. -/
structure SignedGlyphs (γ : Type u) extends Glyphs γ where
  minus : γ
  plus : γ
  digit_minus : digit minus = none
  digit_plus : digit plus = none

variable {γ : Type u}

/-! ## Magnitudes -/

namespace Glyphs

variable (g : Glyphs γ)

/-- Read digits behind those that have the value `acc`. -/
def readFrom (acc : ℕ) : List γ → Option ℕ
  | [] => some acc
  | c :: rest => (g.digit c).bind fun d => readFrom (g.base * acc + d) rest

/-- Read one digit at least. -/
def readMagnitude (input : List γ) : Option ℕ :=
  if input = [] then none else g.readFrom 0 input

/-- The shortest numeral of a number. -/
def writeMagnitude (n : ℕ) : List γ :=
  if n = 0 then [g.glyph 0] else (g.base.digits n).reverse.map g.glyph

/-- A digit more is a place more. -/
theorem readFrom_concat (acc : ℕ) (input : List γ) (c : γ) :
    g.readFrom acc (input ++ [c]) =
      (g.readFrom acc input).bind fun n => (g.digit c).map fun d => g.base * n + d := by
  induction input generalizing acc with
  | nil =>
      rw [List.nil_append, readFrom, readFrom, Option.bind_some]
      cases g.digit c with
      | none => rfl
      | some d => rfl
  | cons first rest ih =>
      rw [List.cons_append, readFrom, readFrom]
      cases g.digit first with
      | none => rfl
      | some d => exact ih (g.base * acc + d)

/-- The digits of a number, the last one first, are read as the number. -/
theorem readFrom_glyphs (digits : List ℕ) (small : ∀ d ∈ digits, d < g.base) :
    g.readFrom 0 (digits.reverse.map g.glyph) = some (Nat.ofDigits g.base digits) := by
  induction digits with
  | nil => rfl
  | cons d rest ih =>
      have before := ih fun e member => small e (List.mem_cons_of_mem d member)
      have last := g.digit_glyph d (small d List.mem_cons_self)
      rw [List.reverse_cons, List.map_append, List.map_singleton, readFrom_concat, before, last,
        Nat.ofDigits_cons, Nat.add_comm]
      rfl

theorem writeMagnitude_ne_nil (n : ℕ) : g.writeMagnitude n ≠ [] := by
  unfold writeMagnitude
  split
  · exact List.cons_ne_nil _ _
  · next positive =>
      rw [ne_eq, List.map_eq_nil_iff, List.reverse_eq_nil_iff]
      exact Nat.digits_ne_nil_iff_ne_zero.mpr positive

/-- Every character of a numeral is a digit. -/
theorem digit_of_mem_writeMagnitude {n : ℕ} {c : γ} (member : c ∈ g.writeMagnitude n) :
    ∃ d < g.base, c = g.glyph d := by
  unfold writeMagnitude at member
  split at member
  · exact ⟨0, Nat.zero_lt_of_lt g.positional, List.mem_singleton.mp member⟩
  · obtain ⟨d, inside, rfl⟩ := List.mem_map.mp member
    exact ⟨d, Nat.digits_lt_base g.positional (List.mem_reverse.mp inside), rfl⟩

/-- **A magnitude is read as it was written.** -/
theorem readMagnitude_write (n : ℕ) : g.readMagnitude (g.writeMagnitude n) = some n := by
  rw [readMagnitude, if_neg (g.writeMagnitude_ne_nil n), writeMagnitude]
  split
  · next zero =>
      rw [zero, readFrom, g.digit_glyph 0 (Nat.zero_lt_of_lt g.positional)]
      rfl
  · rw [readFrom_glyphs g _ fun d member => Nat.digits_lt_base g.positional member,
      Nat.ofDigits_digits]

/-! ## Terminated numerals -/

/-- Two lists are cut alike at their first separator. -/
theorem eq_of_append_separator {separator : γ} {front front' back back' : List γ}
    (absent : separator ∉ front) (absent' : separator ∉ front')
    (same : front ++ separator :: back = front' ++ separator :: back') :
    front = front' ∧ back = back' := by
  induction front generalizing front' with
  | nil =>
      cases front' with
      | nil => exact ⟨rfl, (List.cons.inj same).2⟩
      | cons c tail => exact absurd (List.mem_cons.mpr (.inl (List.cons.inj same).1)) absent'
  | cons c tail ih =>
      cases front' with
      | nil => exact absurd (List.mem_cons.mpr (.inl (List.cons.inj same).1.symm)) absent
      | cons c' tail' =>
          obtain ⟨head, tails⟩ := List.cons.inj same
          obtain ⟨rfl, behind⟩ := ih (fun inside => absent (List.mem_cons_of_mem c inside))
            (fun inside => absent' (List.mem_cons_of_mem c' inside)) tails
          exact ⟨by rw [head], behind⟩

theorem writeMagnitude_injective : Function.Injective g.writeMagnitude := by
  intro n m same
  have read := g.readMagnitude_write n
  rw [same, g.readMagnitude_write] at read
  exact (Option.some.inj read).symm

variable {separator : γ}

theorem separator_notMem (apart : g.digit separator = none) (n : ℕ) :
    separator ∉ g.writeMagnitude n := by
  intro member
  obtain ⟨d, small, rfl⟩ := g.digit_of_mem_writeMagnitude member
  rw [g.digit_glyph d small] at apart
  cases apart

/-- A numeral ends at the first separator. -/
theorem terminated_inj (apart : g.digit separator = none) {n m : ℕ} {rest rest' : List γ}
    (same : g.writeMagnitude n ++ separator :: rest = g.writeMagnitude m ++ separator :: rest') :
    n = m ∧ rest = rest' := by
  obtain ⟨numerals, behind⟩ :=
    eq_of_append_separator (g.separator_notMem apart n) (g.separator_notMem apart m) same
  exact ⟨g.writeMagnitude_injective numerals, behind⟩

/-- Numbers with a separator behind each. -/
def writeEach (separator : γ) (numbers : List ℕ) : List γ :=
  numbers.flatMap fun n => g.writeMagnitude n ++ [separator]

theorem writeEach_cons (n : ℕ) (rest : List ℕ) :
    g.writeEach separator (n :: rest) =
      g.writeMagnitude n ++ separator :: g.writeEach separator rest := by
  simp [writeEach]

theorem writeEach_concat (numbers : List ℕ) (n : ℕ) :
    g.writeEach separator (numbers ++ [n]) =
      g.writeEach separator numbers ++ g.writeMagnitude n ++ [separator] := by
  simp [writeEach]

/-- A numeral has as many digits as the power of the base that bounds the number. -/
theorem length_writeMagnitude_le {n k : ℕ} (below : n < g.base ^ k) (positive : 0 < k) :
    (g.writeMagnitude n).length ≤ k := by
  unfold writeMagnitude
  split
  · exact positive
  · rw [List.length_map, List.length_reverse]
    exact (Nat.digits_length_le_iff g.positional n).mpr below

theorem length_writeEach_le {numbers : List ℕ} {k : ℕ} (positive : 0 < k)
    (below : ∀ n ∈ numbers, n < g.base ^ k) :
    (g.writeEach separator numbers).length ≤ numbers.length * (k + 1) := by
  induction numbers with
  | nil => exact Nat.zero_le _
  | cons n rest ih =>
      have first := g.length_writeMagnitude_le (below n List.mem_cons_self) positive
      have later := ih fun m member => below m (List.mem_cons_of_mem n member)
      rw [writeEach_cons, List.length_append, List.length_cons, List.length_cons, Nat.add_mul]
      omega

/-- **The numbers are determined** by what is written. -/
theorem writeEach_injective (apart : g.digit separator = none) :
    Function.Injective (g.writeEach separator) := by
  intro numbers
  induction numbers with
  | nil =>
      rintro (- | ⟨m, rest⟩) same
      · rfl
      · rw [writeEach_cons] at same
        have member := List.mem_append_right (g.writeMagnitude m) (List.mem_cons_self
          (a := separator) (l := g.writeEach separator rest))
        rw [← same] at member
        cases member
  | cons n rest ih =>
      rintro (- | ⟨m, rest'⟩) same
      · rw [writeEach_cons] at same
        exact absurd same (by simp [writeEach])
      · rw [writeEach_cons, writeEach_cons] at same
        obtain ⟨rfl, behind⟩ := g.terminated_inj apart same
        rw [ih behind]

end Glyphs

/-! ## Signs -/

namespace SignedGlyphs

variable (g : SignedGlyphs γ)

/-- The shortest numeral of a number. -/
def write (n : ℤ) : List γ :=
  if n < 0 then g.minus :: g.writeMagnitude n.natAbs else g.writeMagnitude n.natAbs

theorem write_ne_nil (n : ℤ) : g.write n ≠ [] := by
  unfold write
  split
  · exact List.cons_ne_nil _ _
  · exact g.writeMagnitude_ne_nil _

/-- Every character of a numeral is a digit or the minus sign. -/
theorem mem_write {n : ℤ} {c : γ} (member : c ∈ g.write n) :
    c = g.minus ∨ ∃ d < g.base, c = g.glyph d := by
  unfold write at member
  split at member
  · rcases List.mem_cons.mp member with sign | inside
    · exact .inl sign
    · exact .inr (g.digit_of_mem_writeMagnitude inside)
  · exact .inr (g.digit_of_mem_writeMagnitude member)

variable [DecidableEq γ]

/-- Read a numeral with an optional sign. -/
def read : List γ → Option ℤ
  | [] => none
  | c :: rest =>
      if c = g.minus then (g.readMagnitude rest).map fun n : ℕ => -(n : ℤ)
      else if c = g.plus then (g.readMagnitude rest).map fun n : ℕ => (n : ℤ)
      else (g.readMagnitude (c :: rest)).map fun n : ℕ => (n : ℤ)

/-- Read a numeral of a number between two bounds. -/
def readBetween (least most : ℤ) (input : List γ) : Option ℤ :=
  (g.read input).filter fun n => least ≤ n ∧ n ≤ most

/-- A numeral without a sign. -/
theorem read_unsigned {input : List γ} {n : ℕ} (magnitude : g.readMagnitude input = some n) :
    g.read input = some (n : ℤ) := by
  cases input with
  | nil => cases magnitude
  | cons c rest =>
      have isDigit : g.digit c ≠ none := by
        intro none
        rw [Glyphs.readMagnitude, if_neg (List.cons_ne_nil _ _), Glyphs.readFrom, none] at magnitude
        cases magnitude
      have noMinus : c ≠ g.minus := fun same => isDigit (same ▸ g.digit_minus)
      have noPlus : c ≠ g.plus := fun same => isDigit (same ▸ g.digit_plus)
      rw [read, if_neg noMinus, if_neg noPlus, magnitude]
      rfl

/-- **A number is read as it was written.** -/
theorem read_write (n : ℤ) : g.read (g.write n) = some n := by
  have magnitude := g.readMagnitude_write n.natAbs
  unfold write
  split
  · next negative =>
      rw [read, if_pos rfl, magnitude, Option.map_some, Int.ofNat_natAbs_of_nonpos (by omega),
        Int.neg_neg]
  · next positive =>
      rw [g.read_unsigned magnitude, Int.natAbs_of_nonneg (by omega)]

/-- **With bounds it is read exactly when it lies between them.** -/
theorem readBetween_write (least most n : ℤ) :
    g.readBetween least most (g.write n) = if least ≤ n ∧ n ≤ most then some n else none := by
  rw [readBetween, read_write, Option.filter_some]
  simp only [decide_eq_true_eq]

end SignedGlyphs

end MsiSdrDriver.Foundations
