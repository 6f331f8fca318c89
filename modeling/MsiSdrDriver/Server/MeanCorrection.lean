import Mathlib.Data.Int.Notation
import Mathlib.Data.List.Basic

/-!
# Samples without their mean values

What the correction of the mean values is for, said without the loop that does it. The samples of
the two channels alternate, I before Q. Each channel has a mean value that runs along with it: a
sample counts for 0.002 of it, and what has been before for 0.998. Every sample is handed on less
the mean value that its channel has with it, cut to the range of an `int16_t`.

The mean values are computed in `float`s, whose operations are those of the machine.
-/

set_option autoImplicit false

namespace MsiSdrDriver.Server

/-- The samples of channel `c` of two: I is 0, and Q is 1. -/
def channel (c : ℕ) (samples : List ℤ) : List ℤ :=
  (List.range (samples.length / 2)).map fun k => samples.getD (2 * k + c) 0

/-- The mean value after some samples of a channel. -/
def runningMean (mean : Float32) (values : List ℤ) : Float32 :=
  values.foldl (fun mean value => 0.998 * mean + 0.002 * Float32.ofInt value) mean

/-- A sample without the mean value. -/
def centred (mean : Float32) (sample : ℤ) : ℤ :=
  max (-32768) (min 32767 (Float32.ofInt sample - mean).toInt32.toInt)

/-- Every sample of the channel is handed on without the mean value that the channel has with it. -/
def Centred (c : ℕ) (mean : Float32) (samples corrected : List ℤ) : Prop :=
  ∀ k < samples.length / 2, corrected[2 * k + c]? =
    some (centred (runningMean mean ((channel c samples).take (k + 1)))
      (samples.getD (2 * k + c) 0))

/-- The first pair of samples. -/
theorem channel_cons (c : ℕ) (i q : ℤ) (rest : List ℤ) :
    channel c (i :: q :: rest) = (i :: q :: rest).getD c 0 :: channel c rest := by
  have pairs : (i :: q :: rest).length / 2 = rest.length / 2 + 1 := by
    rw [List.length_cons, List.length_cons]
    omega
  rw [channel, pairs, List.range_succ_eq_map, List.map_cons, List.map_map, Nat.mul_zero,
    Nat.zero_add, channel]
  congr 1
  apply List.map_congr_left
  intro k _
  rw [Function.comp_apply, show 2 * k.succ + c = 2 * k + c + 1 + 1 by omega, List.getD_cons_succ,
    List.getD_cons_succ]

theorem centred_range (mean : Float32) (sample : ℤ) :
    -32768 ≤ centred mean sample ∧ centred mean sample < 32768 := by
  rw [centred]
  omega

theorem Centred.nil (c : ℕ) (mean : Float32) : Centred c mean [] [] := by
  intro k none
  exact absurd none (Nat.not_lt_zero k)

/-- **One pair more.** Its sample is handed on without the mean value that comes with it, and the
rest goes on from that mean value. -/
theorem Centred.cons {c : ℕ} (two : c < 2) {mean next : Float32} {i q : ℤ} {rest : List ℤ}
    {head more : List ℤ} (pair : head.length = 2)
    (advances : next = runningMean mean [(i :: q :: rest).getD c 0])
    (first : head[c]? = some (centred next ((i :: q :: rest).getD c 0)))
    (later : Centred c next rest more) : Centred c mean (i :: q :: rest) (head ++ more) := by
  intro k inside
  rw [List.length_cons, List.length_cons] at inside
  rw [channel_cons, List.take_succ_cons]
  cases k with
  | zero =>
      rw [Nat.mul_zero, Nat.zero_add, List.getElem?_append_left (by omega), first, List.take_zero,
        advances]
  | succ k =>
      have place : 2 * (k + 1) + c = head.length + (2 * k + c) := by omega
      rw [place, List.getElem?_append_right (Nat.le_add_right ..), Nat.add_sub_cancel_left,
        later k (by omega), pair, Nat.add_comm 2, List.getD_cons_succ, List.getD_cons_succ,
        advances]
      rfl

end MsiSdrDriver.Server
