import Mathlib.Data.Nat.Digits.Defs
import Mathlib.Tactic.Ring

/-!
# Fields of a little-endian bit string

Bytes in memory, the least significant first, are one number (`littleEndian`), and a field of
it is `width` bits from the bit `offset` on (`bitField`). A decoder does not build that
number. It looks at the two or three bytes that the field touches, and `bitField_window` says
that this is enough. `signedField` reads a field as a two's-complement number, and
`bmod_scaled` relates it to the wide integer that a decoder has shifted the field up to.

The last section counts a list by blocks, for decoders that produce one block after another.
-/

set_option autoImplicit false

namespace MsiSdrDriver.Foundations

/-! ## Numbers in memory -/

/-- The number stored in `len` bytes from `start` on, the least significant byte first. -/
def littleEndian (read : ℕ → UInt8) (start len : ℕ) : ℕ :=
  Nat.ofDigits 256 ((List.range' start len).map fun i => (read i).toNat)

/-- The `width` bits from the bit `offset` on. -/
def bitField (value offset width : ℕ) : ℕ := value / 2 ^ offset % 2 ^ width

/-- A field as a two's-complement number. -/
def signedField (value offset width : ℕ) : ℤ := Int.bmod (bitField value offset width) (2 ^ width)

section Memory

variable (read : ℕ → UInt8)

@[simp] theorem littleEndian_zero (start : ℕ) : littleEndian read start 0 = 0 := rfl

theorem littleEndian_succ (start len : ℕ) :
    littleEndian read start (len + 1) =
      (read start).toNat + 256 * littleEndian read (start + 1) len := by
  simp [littleEndian, List.range'_succ, Nat.ofDigits_cons]

theorem littleEndian_two (start : ℕ) :
    littleEndian read start 2 = (read start).toNat + 256 * (read (start + 1)).toNat := by
  rw [littleEndian_succ, littleEndian_succ, littleEndian_zero, Nat.mul_zero, Nat.add_zero]

theorem littleEndian_one (start : ℕ) : littleEndian read start 1 = (read start).toNat := by
  rw [littleEndian_succ, littleEndian_zero, Nat.mul_zero, Nat.add_zero]

theorem littleEndian_four (start : ℕ) :
    littleEndian read start 4 =
      (read start).toNat + 256 * ((read (start + 1)).toNat + 256 * ((read (start + 2)).toNat +
        256 * (read (start + 3)).toNat)) := by
  rw [littleEndian_succ, littleEndian_succ, littleEndian_succ, littleEndian_one]

/-- Dividing by bytes drops them. -/
theorem littleEndian_div (start len drop : ℕ) :
    littleEndian read start len / 256 ^ drop =
      littleEndian read (start + drop) (len - drop) := by
  unfold littleEndian
  rw [Nat.ofDigits_div_pow_eq_ofDigits_drop drop (by omega)]
  · rw [← List.map_drop, List.drop_range', Nat.mul_one]
  · intro digit member
    obtain ⟨i, -, rfl⟩ := List.mem_map.mp member
    exact (read i).toNat_lt

/-- The remainder by bytes keeps them. -/
theorem littleEndian_mod {len keep : ℕ} (start : ℕ) (le : keep ≤ len) :
    littleEndian read start len % 256 ^ keep = littleEndian read start keep := by
  unfold littleEndian
  rw [Nat.ofDigits_mod_pow_eq_ofDigits_take keep (by omega)]
  · rw [← List.map_take, List.take_range'_of_length_ge le]
  · intro digit member
    obtain ⟨i, -, rfl⟩ := List.mem_map.mp member
    exact (read i).toNat_lt

/-- **A field depends only on the bytes it touches.** -/
theorem bitField_window {len skip keep bit width : ℕ} (start : ℕ) (inside : skip + keep ≤ len)
    (fits : bit + width ≤ 8 * keep) :
    bitField (littleEndian read start len) (8 * skip + bit) width =
      bitField (littleEndian read (start + skip) keep) bit width := by
  have bytes : (2 : ℕ) ^ (8 * skip) = 256 ^ skip := by rw [Nat.pow_mul]
  have divides : 2 ^ (bit + width) ∣ 256 ^ keep := by
    rw [show 256 = 2 ^ 8 from rfl, ← Nat.pow_mul]
    exact Nat.pow_dvd_pow 2 fits
  have cut : ∀ value, value / 2 ^ bit % 2 ^ width = value % 2 ^ (bit + width) / 2 ^ bit := by
    intro value
    rw [Nat.pow_add, Nat.mod_mul_right_div_self]
  unfold bitField
  rw [Nat.pow_add, bytes, ← Nat.div_div_eq_div_mul, littleEndian_div, cut, cut,
    ← littleEndian_mod read (start + skip) (by omega : keep ≤ len - skip),
    Nat.mod_mod_of_dvd _ divides]

/-- The number depends only on the bytes it is stored in. -/
theorem littleEndian_congr {read read' : ℕ → UInt8} {start start' len : ℕ}
    (same : ∀ i < len, read (start + i) = read' (start' + i)) :
    littleEndian read start len = littleEndian read' start' len := by
  induction len generalizing start start' with
  | zero => rfl
  | succ len ih =>
      have first := same 0 (by omega)
      have rest : ∀ i < len, read (start + 1 + i) = read' (start' + 1 + i) := by
        intro i inside
        have next := same (i + 1) (by omega)
        rwa [Nat.add_comm i 1, ← Nat.add_assoc, ← Nat.add_assoc] at next
      rw [Nat.add_zero, Nat.add_zero] at first
      rw [littleEndian_succ, littleEndian_succ, first, ih rest]

end Memory

/-! ## Shifted fields -/

/-- **A field that was shifted to the top of a wider integer is its value, scaled.** -/
theorem bmod_scaled (value width shift : ℕ) (some : 0 < width) :
    Int.bmod ((value * 2 ^ shift : ℕ) : ℤ) (2 ^ (width + shift)) =
      2 ^ shift * Int.bmod ((value % 2 ^ width : ℕ) : ℤ) (2 ^ width) := by
  obtain ⟨pred, rfl⟩ := Nat.exists_eq_succ_of_ne_zero some.ne'
  have half : 2 ^ (pred + 1) = 2 * 2 ^ pred := Nat.pow_succ'
  have wide : 2 ^ (pred + 1 + shift) = 2 ^ (pred + 1) * 2 ^ shift := Nat.pow_add ..
  have scale : 0 < 2 ^ shift := Nat.two_pow_pos shift
  have field : (((value * 2 ^ shift : ℕ) : ℤ) % ((2 ^ (pred + 1 + shift) : ℕ) : ℤ)) =
      ((value % 2 ^ (pred + 1) * 2 ^ shift : ℕ) : ℤ) := by
    rw [← Int.natCast_mod, wide, Nat.mul_mod_mul_right]
  have small : (((value % 2 ^ (pred + 1) : ℕ) : ℤ) % ((2 ^ (pred + 1) : ℕ) : ℤ)) =
      ((value % 2 ^ (pred + 1) : ℕ) : ℤ) := by
    rw [← Int.natCast_mod, Nat.mod_mod]
  unfold Int.bmod
  rw [field, small, wide]
  generalize value % 2 ^ (pred + 1) = r
  rw [half]
  rw [show (2 : ℤ) ^ shift = ((2 ^ shift : ℕ) : ℤ) from (Int.natCast_pow 2 shift).symm]
  generalize 2 ^ pred = h
  generalize 2 ^ shift = c at scale
  have product : 2 * h * c = 2 * (h * c) := Nat.mul_assoc ..
  by_cases low : r < h
  · have below : r * c < h * c := Nat.mul_lt_mul_of_pos_right low scale
    rw [if_pos (by omega), if_pos (by omega), Nat.mul_comm, Int.natCast_mul]
  · have above : h * c ≤ r * c := Nat.mul_le_mul_right c (Nat.le_of_not_lt low)
    rw [if_neg (by omega), if_neg (by omega)]
    push_cast
    ring

/-! ## Lists counted by blocks -/

theorem map_range_mul {α : Type} (f : ℕ → α) (blocks size : ℕ) :
    (List.range (blocks * size)).map f =
      (List.range blocks).flatMap fun block =>
        (List.range size).map fun i => f (block * size + i) := by
  induction blocks with
  | zero => simp
  | succ blocks ih =>
      rw [Nat.succ_mul, List.range_add, List.map_append, ih, List.range_succ,
        List.flatMap_append, List.map_map]
      simp [Function.comp_def]

end MsiSdrDriver.Foundations
