import Mathlib.Data.List.Range
import MsiSdrDriver.Usb.BulkTransfer

/-!
# The URBs of a bulk transfer

`submit_bulk_transfer` cuts the buffer into URBs that lie side by side and end with the transfer,
whatever the kernel can do. The kernel takes the URBs in front of the first one that it refuses
(`submit_taken`).
-/

set_option autoImplicit false

namespace MsiSdrDriver.Usb

/-! ## The URBs in the buffer -/

namespace UsbfsCaps

variable (caps : UsbfsCaps) (length : ℕ) {i j : ℕ}

theorem bulkBufferLen_pos : 0 < caps.bulkBufferLen length := by
  unfold bulkBufferLen
  split
  · split <;> omega
  · split
    · decide
    · split
      · split <;> omega
      · decide

theorem numUrbs_pos : 0 < caps.numUrbs length := by
  have step := caps.bulkBufferLen_pos length
  unfold numUrbs
  split
  · decide
  · next some =>
    split
    · exact Nat.succ_pos _
    · next whole =>
      have divides := Nat.div_add_mod length (caps.bulkBufferLen length)
      refine Nat.pos_of_ne_zero fun none => some ?_
      rw [← divides, none]
      omega

/-- A transfer is cut into blocks, or not at all. -/
theorem bulkBufferLen_cases (some : length ≠ 0) :
    caps.bulkBufferLen length = length ∨ caps.bulkBufferLen length = maxBulkBufferLength := by
  unfold bulkBufferLen
  rw [if_pos some]
  split
  · exact .inl rfl
  · split
    · exact .inr rfl
    · split
      · exact .inl rfl
      · exact .inr rfl

/-- A transfer that fits in a block is one URB. -/
theorem numUrbs_of_le (fits : length ≤ maxBulkBufferLength) : caps.numUrbs length = 1 := by
  unfold numUrbs
  split
  · rfl
  · next some =>
    rcases caps.bulkBufferLen_cases length some with whole | block
    · rw [whole, Nat.mod_self, if_neg (Nat.lt_irrefl 0), Nat.div_self (Nat.pos_of_ne_zero some)]
    · rw [block]
      unfold maxBulkBufferLength at fits ⊢
      split <;> omega

theorem bufferLength_le : (caps.bulkUrb length i).bufferLength ≤ caps.bulkBufferLen length := by
  have step := caps.bulkBufferLen_pos length
  unfold bulkUrb
  dsimp only
  split
  · exact (Nat.mod_lt _ step).le
  · split
    · exact Nat.zero_le _
    · exact le_rfl

/-- A URB that is not the last one has room. -/
theorem bufferLength_of_not_last (inside : i < caps.numUrbs length)
    (earlier : i ≠ caps.numUrbs length - 1) :
    (caps.bulkUrb length i).bufferLength = caps.bulkBufferLen length := by
  have some : length ≠ 0 := by
    rintro rfl
    simp only [numUrbs, if_true] at inside earlier
    omega
  unfold bulkUrb
  dsimp only
  rw [if_neg (fun last => earlier last.1), if_neg some]

/-- A URB ends before the next ones begin. -/
theorem end_le_start (before : i < j) :
    (caps.bulkUrb length i).start + (caps.bulkUrb length i).bufferLength ≤
      (caps.bulkUrb length j).start := by
  have room := caps.bufferLength_le length (i := i)
  calc (caps.bulkUrb length i).start + (caps.bulkUrb length i).bufferLength
      ≤ i * caps.bulkBufferLen length + caps.bulkBufferLen length := Nat.add_le_add_left room _
    _ = (i + 1) * caps.bulkBufferLen length := (Nat.succ_mul _ _).symm
    _ ≤ j * caps.bulkBufferLen length := Nat.mul_le_mul_right _ before

/-- A URB ends inside the transfer. -/
theorem end_le_length (inside : i < caps.numUrbs length) :
    (caps.bulkUrb length i).start + (caps.bulkUrb length i).bufferLength ≤ length := by
  have divides := Nat.div_add_mod length (caps.bulkBufferLen length)
  have full : i < length / caps.bulkBufferLen length →
      (i + 1) * caps.bulkBufferLen length ≤ length := by
    intro below
    calc (i + 1) * caps.bulkBufferLen length
        ≤ length / caps.bulkBufferLen length * caps.bulkBufferLen length :=
          Nat.mul_le_mul_right _ below
      _ ≤ length := Nat.div_mul_le_self _ _
  unfold numUrbs at inside
  unfold bulkUrb numUrbs
  dsimp only
  split at inside
  · next none =>
    obtain rfl : i = 0 := by omega
    simp [none]
  · next some =>
    rw [if_neg some, if_neg some]
    split at inside
    · next rest =>
      rw [if_pos rest]
      split
      · next last =>
        have here : i = length / caps.bulkBufferLen length := by omega
        rw [here, Nat.mul_comm]
        omega
      · next earlier =>
        have below : i < length / caps.bulkBufferLen length := by omega
        rw [← Nat.succ_mul]
        exact full below
    · next whole =>
      rw [if_neg (fun last => whole last.2), ← Nat.succ_mul]
      exact full inside

theorem getElem?_bulkUrbs (inside : i < caps.numUrbs length) :
    (caps.bulkUrbs length)[i]? = some (caps.bulkUrb length i) := by
  rw [bulkUrbs, List.getElem?_map, List.getElem?_range inside]
  rfl

end UsbfsCaps

/-! ## What the kernel takes -/

/-- The URBs that the kernel has taken are those in front of the one that it has refused. -/
theorem submitUrbs_taken (answer : ℕ → Option Errno) (urbs : List ℕ) :
    (submitUrbs answer urbs).2 = none ∧ (submitUrbs answer urbs).1 = urbs ∨
      ∃ i errno rest, (submitUrbs answer urbs).2 = some (i, errno) ∧
        urbs = (submitUrbs answer urbs).1 ++ i :: rest := by
  induction urbs with
  | nil => exact .inl ⟨rfl, rfl⟩
  | cons i urbs ih =>
      rw [submitUrbs]
      cases answer i with
      | some errno => exact .inr ⟨i, errno, urbs, rfl, rfl⟩
      | none =>
          rcases ih with ⟨all, same⟩ | ⟨j, errno, rest, refused, split⟩
          · exact .inl ⟨all, congrArg _ same⟩
          · exact .inr ⟨j, errno, rest, refused, congrArg _ split⟩

/-- A beginning of a range is a range, and what follows is the next number. -/
theorem range_split {n i : ℕ} {taken rest : List ℕ} (split : List.range n = taken ++ i :: rest) :
    taken = List.range i ∧ i < n := by
  have count := congrArg List.length split
  rw [List.length_range, List.length_append, List.length_cons] at count
  have next := congrArg (fun l => l[taken.length]?) split
  rw [List.getElem?_range (by omega), List.getElem?_append_right le_rfl, Nat.sub_self,
    List.getElem?_cons_zero] at next
  have here := Option.some.inj next
  have beginning := congrArg (List.take taken.length) split
  rw [List.take_range, List.take_left, Nat.min_eq_left (by omega)] at beginning
  exact ⟨here ▸ beginning.symm, by omega⟩

/-- A transfer that counts as submitted, and the URBs that the kernel has. -/
structure Taken (t : BulkTransfer) (caps : UsbfsCaps) (length : ℕ) (t' : BulkTransfer)
    (pending : List ℕ) : Prop where
  transferred : t'.transferred = t.transferred
  urbs : t'.urbs = some (caps.bulkUrbs length)
  numUrbs : t'.numUrbs = caps.numUrbs length
  pending : ∃ i, 0 < i ∧ i ≤ caps.numUrbs length ∧ pending = List.range i ∧
    t'.numRetired = caps.numUrbs length - i ∧
    (t'.reapAction = .normal → i = caps.numUrbs length)

theorem submit_taken {t t' : BulkTransfer} {caps : UsbfsCaps} {length : ℕ} {callocs : Bool}
    {answer : ℕ → Option Errno} {pending : List ℕ}
    (sent : t.submit caps length callocs answer = (t', pending, none)) :
    Taken t caps length t' pending := by
  have some := caps.numUrbs_pos length
  have taken := submitUrbs_taken answer (List.range (caps.numUrbs length))
  unfold BulkTransfer.submit at sent
  cases callocs with
  | false => cases sent
  | true =>
      dsimp only at sent
      rw [if_pos rfl] at sent
      generalize submitUrbs answer (List.range (caps.numUrbs length)) = submitted at sent taken
      obtain ⟨first, refused⟩ := submitted
      rcases taken with ⟨rfl, all⟩ | ⟨i, errno, rest, rfl, split⟩
      · dsimp only at sent all
        obtain ⟨rfl, rfl, -⟩ := sent
        exact ⟨rfl, rfl, rfl, _, some, le_rfl, all, (Nat.sub_self _).symm, fun _ => rfl⟩
      · dsimp only at sent split
        split at sent
        · cases sent
        · next later =>
          obtain ⟨rfl, rfl, -⟩ := sent
          obtain ⟨beginning, inside⟩ := range_split split
          refine ⟨rfl, rfl, rfl, i, Nat.pos_of_ne_zero later, inside.le, beginning,
            Nat.zero_add _, ?_⟩
          dsimp only
          split <;> nofun

end MsiSdrDriver.Usb
