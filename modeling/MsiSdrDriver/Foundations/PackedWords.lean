import MsiSdrDriver.Foundations.LittleEndianBits

/-!
# Words packed from fields

A register packs several numbers into one word, each in a field of its own width, the first in
the low bits. `packed` is the word as a sum, and `Packs` says that a word is this sum and that
every field has room for its value. Such a word gives every value back (`Packs.read`), and a
bitwise `or` with one more shifted value keeps it such a word (`Packs.or`). A value that is too
large spills into the fields above it, and then neither holds.
-/

set_option autoImplicit false

namespace MsiSdrDriver.Foundations

/-! ## Fields side by side -/

/-- A field of a word: the value to be stored and the number of bits for it. -/
structure WordField where
  value : ℕ
  width : ℕ

/-- The value has room in the field. -/
def WordField.Fits (field : WordField) : Prop := field.value < 2 ^ field.width

/-- The word that holds the fields, the first in the low bits. -/
def packed : List WordField → ℕ
  | [] => 0
  | field :: rest => field.value + 2 ^ field.width * packed rest

/-- The number of bits that the fields take. -/
def packedWidth : List WordField → ℕ
  | [] => 0
  | field :: rest => field.width + packedWidth rest

variable {fields : List WordField}

theorem packed_append (before after : List WordField) :
    packed (before ++ after) = packed before + 2 ^ packedWidth before * packed after := by
  induction before with
  | nil => simp [packed, packedWidth]
  | cons first rest ih =>
      rw [List.cons_append, packed, ih, packed, packedWidth, Nat.pow_add]
      ring

/-- Fields with room for their values stay within their bits. -/
theorem packed_lt (fit : ∀ field ∈ fields, field.Fits) :
    packed fields < 2 ^ packedWidth fields := by
  induction fields with
  | nil => exact Nat.one_pos
  | cons first rest ih =>
      have head : first.value < 2 ^ first.width := fit first (List.mem_cons_self ..)
      have tail := ih fun field member => fit field (List.mem_cons_of_mem _ member)
      have scaled := Nat.mul_le_mul_left (2 ^ first.width) (Nat.succ_le_of_lt tail)
      rw [packed, packedWidth, Nat.pow_add]
      rw [Nat.mul_succ] at scaled
      omega

/-! ## Words that hold fields -/

/-- The word holds the fields, each with room for its value, and nothing above them. -/
structure Packs {w : ℕ} (word : BitVec w) (fields : List WordField) : Prop where
  fit : ∀ field ∈ fields, field.Fits
  held : word.toNat = packed fields

namespace Packs

variable {w : ℕ} {word piece : BitVec w} {value : ℕ}

theorem nil : Packs (0 : BitVec w) [] where
  fit := by
    intro field member
    cases member
  held := rfl

/-- A value in the low bits. -/
theorem single (width : ℕ) (fits : value < 2 ^ width) (held : word.toNat = value) :
    Packs word [⟨value, width⟩] where
  fit := by
    intro field member
    rw [List.mem_singleton.mp member]
    exact fits
  held := by
    rw [held, packed, packed, Nat.mul_zero, Nat.add_zero]

/-- **A bitwise `or` with a shifted value packs one more field.** -/
theorem or (packs : Packs word fields) (width : ℕ) (fits : value < 2 ^ width)
    (shifted : piece.toNat = value * 2 ^ packedWidth fields) :
    Packs (word ||| piece) (fields ++ [⟨value, width⟩]) where
  fit := by
    intro field member
    rcases List.mem_append.mp member with earlier | last
    · exact packs.fit field earlier
    · rw [List.mem_singleton.mp last]
      exact fits
  held := by
    have low := packed_lt packs.fit
    rw [BitVec.toNat_or, packs.held, shifted, ← Nat.shiftLeft_eq, Nat.or_comm,
      ← Nat.shiftLeft_add_eq_or_of_lt low, packed_append, packed, packed, Nat.mul_zero,
      Nat.add_zero, Nat.shiftLeft_eq]
    ring

/-- **A field is read back as it was packed.** -/
theorem read (packs : Packs word fields) (k : ℕ) {field : WordField}
    (found : fields[k]? = some field) :
    bitField word.toNat (packedWidth (fields.take k)) field.width = field.value := by
  obtain ⟨inside, rfl⟩ := List.getElem?_eq_some_iff.mp found
  have low : packed (fields.take k) < 2 ^ packedWidth (fields.take k) :=
    packed_lt fun other member => packs.fit other (List.mem_of_mem_take member)
  have own : fields[k].value < 2 ^ fields[k].width := packs.fit _ (List.getElem_mem inside)
  have split : fields = fields.take k ++ fields[k] :: fields.drop (k + 1) := by
    rw [← List.drop_eq_getElem_cons inside, List.take_append_drop]
  have whole := packed_append (fields.take k) (fields[k] :: fields.drop (k + 1))
  rw [← split, packed] at whole
  rw [packs.held, bitField, whole, Nat.add_mul_div_left _ _ (Nat.two_pow_pos _),
    Nat.div_eq_of_lt low, Nat.zero_add, Nat.add_mul_mod_self_left, Nat.mod_eq_of_lt own]

/-- There is nothing above the fields. -/
theorem above (packs : Packs word fields) : word.toNat / 2 ^ packedWidth fields = 0 := by
  rw [packs.held]
  exact Nat.div_eq_of_lt (packed_lt packs.fit)

/-- A narrower word that has room for the fields holds them too. -/
theorem setWidth (packs : Packs word fields) (narrow : ℕ) (room : packedWidth fields ≤ narrow) :
    Packs (word.setWidth narrow) fields where
  fit := packs.fit
  held := by
    have small := Nat.lt_of_lt_of_le (packed_lt packs.fit) (Nat.pow_le_pow_right (by omega) room)
    rw [BitVec.toNat_setWidth, packs.held, Nat.mod_eq_of_lt small]

end Packs

/-! ## Shifted values -/

/-- A value that is shifted to its place is one more field. -/
theorem Packs.orBits {w : ℕ} {word : BitVec w} (packs : Packs word fields) (bits : BitVec w)
    (shift width : ℕ) (fits : bits.toNat < 2 ^ width) (place : shift = packedWidth fields)
    (room : width + shift ≤ w) :
    Packs (word ||| bits <<< shift) (fields ++ [⟨bits.toNat, width⟩]) := by
  have scaled := Nat.mul_lt_mul_of_pos_right fits (Nat.two_pow_pos shift)
  rw [← Nat.pow_add] at scaled
  have inside := Nat.lt_of_lt_of_le scaled (Nat.pow_le_pow_right (by omega) room)
  refine packs.or width fits ?_
  rw [BitVec.toNat_shiftLeft, Nat.shiftLeft_eq, Nat.mod_eq_of_lt inside, place]

/-- A masked value, shifted in 64 bits and cut down to the 32 bits of a register. -/
theorem toNat_masked_shiftLeft {mask shift : UInt64} {width : ℕ} (value : UInt64)
    (ones : mask.toNat = 2 ^ width - 1) (room : width + shift.toNat ≤ 32) :
    ((mask &&& value) <<< shift).toUInt32.toBitVec.toNat =
      value.toNat % 2 ^ width * 2 ^ shift.toNat := by
  have small : value.toNat % 2 ^ width < 2 ^ width := Nat.mod_lt _ (Nat.two_pow_pos _)
  have scaled := Nat.mul_lt_mul_of_pos_right small (Nat.two_pow_pos shift.toNat)
  rw [← Nat.pow_add] at scaled
  have inside := Nat.lt_of_lt_of_le scaled (Nat.pow_le_pow_right (by omega) room)
  have amount : shift.toNat % 64 = shift.toNat := Nat.mod_eq_of_lt (by omega)
  show ((mask &&& value) <<< shift).toUInt32.toNat = _
  rw [UInt64.toNat_toUInt32, UInt64.toNat_shiftLeft, UInt64.toNat_and, ones, Nat.and_comm,
    Nat.and_two_pow_sub_one_eq_mod, amount, Nat.shiftLeft_eq]
  generalize value.toNat % 2 ^ width * 2 ^ shift.toNat = piece at inside ⊢
  omega

/-- A masked value in 64 bits is one more field of a register. -/
theorem Packs.orMasked {word : BitVec 32} (packs : Packs word fields) (mask shift value : UInt64)
    (width : ℕ) (ones : mask.toNat = 2 ^ width - 1)
    (place : shift.toNat = packedWidth fields) (room : width + shift.toNat ≤ 32) :
    Packs (word ||| ((mask &&& value) <<< shift).toUInt32.toBitVec)
      (fields ++ [⟨value.toNat % 2 ^ width, width⟩]) := by
  refine packs.or width (Nat.mod_lt _ (Nat.two_pow_pos width)) ?_
  rw [toNat_masked_shiftLeft value ones room, place]

end MsiSdrDriver.Foundations
