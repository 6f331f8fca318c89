import Mathlib.Data.List.Induction

/-!
# Logs of writes

A device that can be written but not read is known by the writes that were sent to it. Each
write in a log has a value and, possibly, a target; `lastWrite` is the last value written to a
target. A write changes what its own target holds and nothing else (`lastWrite_concat`), and
what is written later counts (`lastWrite_append`).
-/

set_option autoImplicit false

namespace MsiSdrDriver.Foundations

universe u v w

variable {ω : Type u} {κ : Type v} {ν : Type w} [DecidableEq κ]

/-- The last value that the log, the oldest write first, has for a target. -/
def lastWrite (target : ω → Option κ) (value : ω → ν) (log : List ω) (k : κ) : Option ν :=
  log.foldl (fun held write => if target write = some k then some (value write) else held) none

variable {target : ω → Option κ} {value : ω → ν} {log : List ω} {write : ω} {k : κ}

theorem lastWrite_concat : lastWrite target value (log ++ [write]) k =
    if target write = some k then some (value write) else lastWrite target value log k := by
  simp [lastWrite, List.foldl_append]

theorem lastWrite_append (log later : List ω) (k : κ) : lastWrite target value (log ++ later) k =
    (lastWrite target value later k).or (lastWrite target value log k) := by
  induction later using List.reverseRecOn with
  | nil =>
      rw [List.append_nil]
      rfl
  | append_singleton later write ih =>
      rw [← List.append_assoc, lastWrite_concat, lastWrite_concat, ih]
      split
      · rfl
      · rfl

end MsiSdrDriver.Foundations
