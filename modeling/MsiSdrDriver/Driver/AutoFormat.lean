import MsiSdrDriver.Convert.PassThrough
import MsiSdrDriver.Driver.SampleClock

/-!
# The automatic choice of the format

A format packs more samples into a block of 1024 bytes the fewer bits it spends on each. The bus
carries 24.576 MB/s, which is the limit that `hard.c` notes beside every format, and a sample rate
needs `1024 / pairs` bytes for each sample of it.

`msisdr_set_hard` chooses by fixed thresholds of the rate. They are those of a search: the format
with 16-bit samples that spends the most bits and is still carried (`autoFormat_bestFit`). Where the
rate is too high for any of them it chooses the one with the least load, and the bus is overrun.
-/

set_option autoImplicit false

namespace MsiSdrDriver.Driver

open MsiSdrDriver.Convert

/-- The limit of the bus, in bytes for each second. -/
def busLimit : ℕ := 24576000

/-- The bus carries a sample rate in a format. -/
def Carried (rate : UInt32) (format : Format) : Prop :=
  rate.toNat * 1024 ≤ busLimit * (pairs format).toNat

instance (rate : UInt32) (format : Format) : Decidable (Carried rate format) :=
  inferInstanceAs (Decidable (_ ≤ _))

/-- The formats with 16-bit samples, those that spend the most bits on a sample first. -/
def wideFormats : List Format := [.s16x252, .s16x336, .s16x384, .s16x504]

theorem mem_wideFormats {format : Format} : format ∈ wideFormats ↔ layout? format ≠ none := by
  rw [Ne, layout?_eq_none_iff]
  cases format <;> decide

/-- A format spends at least as many bits on a sample as another one. -/
def AsFine (format other : Format) : Prop := (pairs format).toNat ≤ (pairs other).toNat

instance : DecidableRel AsFine := fun _ _ => inferInstanceAs (Decidable (_ ≤ _))

/-- What is carried in a format is carried in the coarser ones. -/
theorem Carried.mono {rate : UInt32} {format other : Format} (carried : Carried rate format)
    (finer : AsFine format other) : Carried rate other :=
  carried.trans (Nat.mul_le_mul_left _ finer)

/-- The highest rate of each format. -/
theorem carried_iff (rate : UInt32) (format : Format) :
    Carried rate format ↔ rate.toNat ≤ 24000 * (pairs format).toNat := by
  rw [Carried, busLimit]
  omega

/-- **The thresholds are a search** through the formats for one that is carried. -/
theorem autoFormat_eq_find (rate : UInt32) :
    autoFormat rate = (wideFormats.find? (Carried rate ·)).getD .s16x504 := by
  have below (bound : UInt32) : rate ≤ bound ↔ rate.toNat ≤ bound.toNat := UInt32.le_iff_toNat_le
  simp only [autoFormat, wideFormats, List.find?_cons, List.find?_nil, below, carried_iff]
  by_cases first : rate.toNat ≤ 6048000
  · simp [pairs, first]
  by_cases second : rate.toNat ≤ 8064000
  · simp [pairs, first, second]
  by_cases third : rate.toNat ≤ 9216000
  · simp [pairs, first, second, third]
  · simp [pairs, first, second, third]
    split <;> rfl

/-- A format with 16-bit samples that spends as many bits on a sample as the bus allows. -/
structure BestFit (rate : UInt32) (format : Format) : Prop where
  wide : layout? format ≠ none
  /-- it is carried unless none is -/
  carried : ∀ other, layout? other ≠ none → Carried rate other → Carried rate format
  /-- no other one that is carried spends more bits -/
  finest : ∀ other, layout? other ≠ none → Carried rate other → AsFine format other
  /-- where none is carried, no other one loads the bus less -/
  lightest : ¬ Carried rate format → ∀ other, AsFine other format

/-- The formats are searched from the finest on. -/
theorem wideFormats_sorted : wideFormats.Pairwise AsFine := by decide

/-- A search through a sorted list finds a least element. -/
theorem find?_least {α : Type} {least : α → α → Prop} (refl : ∀ a, least a a) {p : α → Bool}
    {list : List α} (sorted : list.Pairwise least) {a : α} (found : list.find? p = some a) :
    ∀ b ∈ list, p b = true → least a b := by
  obtain ⟨-, before, after, split, skipped⟩ := List.find?_eq_some_iff_append.mp found
  subst split
  have later := (List.pairwise_cons.mp (List.pairwise_append.mp sorted).2.1).1
  intro b member holds
  rcases List.mem_append.mp member with skips | rest
  · have refused := skipped b skips
    simp [holds] at refused
  · rcases List.mem_cons.mp rest with rfl | listed
    · exact refl b
    · exact later b listed

/-- **The automatic choice** is the best fit. -/
theorem autoFormat_bestFit (rate : UInt32) : BestFit rate (autoFormat rate) := by
  rw [autoFormat_eq_find]
  cases found : wideFormats.find? (Carried rate ·) with
  | some format =>
      have carried : Carried rate format := by
        have holds := List.find?_some found
        exact of_decide_eq_true holds
      refine ⟨mem_wideFormats.mp (List.mem_of_find?_eq_some found), fun _ _ _ => carried, ?_,
        fun refused => absurd carried refused⟩
      intro other wide fits
      exact find?_least (fun format => Nat.le_refl (pairs format).toNat) wideFormats_sorted found
        other (mem_wideFormats.mpr wide) (decide_eq_true fits)
  | none =>
      have refused : ∀ other, layout? other ≠ none → ¬ Carried rate other := by
        intro other wide fits
        exact List.find?_eq_none.mp found other (mem_wideFormats.mpr wide) (decide_eq_true fits)
      refine ⟨by decide, fun other wide fits => absurd fits (refused other wide),
        fun other wide fits => absurd fits (refused other wide), fun _ other => ?_⟩
      show AsFine other .s16x504
      cases other <;> decide

/-- The rate is carried up to 12.096 Msps. -/
theorem BestFit.carried_iff {rate : UInt32} {format : Format} (best : BestFit rate format) :
    Carried rate format ↔ rate.toNat ≤ 12096000 := by
  have last : Carried rate .s16x504 ↔ rate.toNat ≤ 12096000 := Driver.carried_iff rate .s16x504
  rw [← last]
  refine ⟨fun carried => carried.mono ?_, best.carried .s16x504 (by decide)⟩
  cases format <;> decide

end MsiSdrDriver.Driver
