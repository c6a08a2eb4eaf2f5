import Melissa.Base.Comoment
import Melissa.Stats.MomentsRun
import Mathlib.Analysis.SpecialFunctions.Pow.Real

/-! `compute_skewness` and `compute_kurtosis` after any sequence of vectors: which of them are
the standardised moments. -/

namespace Melissa

open Arrays CentralMoments

/-- The power that `compute_skewness` takes, without rounding. -/
class ExactPow (K : Type) [Field K] [LinearOrder K] [Libm K] : Prop where
  pow_pos : ∀ x : K, 0 < x → 0 < Libm.pow x (((3 : ℕ) : K) / ((2 : ℕ) : K))
  pow_sq : ∀ x : K, 0 < x → Libm.pow x (((3 : ℕ) : K) / ((2 : ℕ) : K)) ^ 2 = x ^ 3

noncomputable instance : Libm ℝ where
  pow x y := x ^ y
  sqrt := Real.sqrt

instance : ExactPow ℝ where
  pow_pos x positive := Real.rpow_pos_of_pos positive _
  pow_sq x positive := by
    have exponent : (((3 : ℕ) : ℝ) / ((2 : ℕ) : ℝ)) * ((2 : ℕ) : ℝ) = ((3 : ℕ) : ℝ) := by norm_num
    calc (x ^ (((3 : ℕ) : ℝ) / ((2 : ℕ) : ℝ))) ^ 2
        = x ^ ((((3 : ℕ) : ℝ) / ((2 : ℕ) : ℝ)) * ((2 : ℕ) : ℝ)) :=
          (Real.rpow_mul_natCast positive.le _ 2).symm
      _ = x ^ 3 := by rw [exponent, Real.rpow_natCast]

section Affine

variable {K : Type} [Field K]

/-- Every number in another unit and from another origin. -/
def affineSamples (a b : K) (samples : List (List K)) : List (List K) :=
  samples.map fun vect => vect.map fun x => a * x + b

theorem column_affineSamples {vectSize i : Nat} {samples : List (List K)}
    (sized : ∀ vect ∈ samples, vectSize ≤ vect.length) (inside : i < vectSize) (a b : K) :
    column (affineSamples a b samples) i = (column samples i).map fun x => a * x + b := by
  simp only [column, affineSamples, List.map_map]
  apply List.map_congr_left
  intro vect member
  have long : i < vect.length := Nat.lt_of_lt_of_le inside (sized vect member)
  rw [Function.comp_apply, Function.comp_apply, List.getD_eq_getElem _ _ (by simpa using long),
    List.getElem_map, List.getD_eq_getElem _ _ long]

end Affine

section Normalised

variable {K : Type} [Field K] [LinearOrder K] [IsStrictOrderedRing K]

def allMoments (vectSize : Nat) (samples : List (List K)) : Moments K :=
  incrementAll vectSize (initMoments vectSize 4) samples

def kurtosisAt (vectSize : Nat) (samples : List (List K)) (i : Nat) : Option (Extended K) :=
  (computeKurtosis (allMoments vectSize samples) vectSize)[i]?

def skewnessAt [Libm K] (vectSize : Nat) (samples : List (List K)) (i : Nat) :
    Option (Extended K) :=
  (computeSkewness (allMoments vectSize samples) vectSize)[i]?

variable {vectSize i : Nat} (inside : i < vectSize) (samples : List (List K))
include inside

theorem kurtosisAt_eq : kurtosisAt vectSize samples i =
    some (quotient (centralMoment (column samples i) 4)
      (centralMoment (column samples i) 3 ^ 2)) := by
  rw [kurtosisAt, allMoments, incrementAll_initMoments, computeKurtosis, List.getElem?_map,
    List.getElem?_range inside, Option.map_some, momentsOf]
  rw [getD_momentArray (by decide) inside, getD_momentArray (by decide) inside]

theorem skewnessAt_eq [Libm K] : skewnessAt vectSize samples i =
    some (quotient (centralMoment (column samples i) 3)
      (Libm.pow (centralMoment (column samples i) 2) (((3 : ℕ) : K) / ((2 : ℕ) : K)))) := by
  rw [skewnessAt, allMoments, incrementAll_initMoments, computeSkewness, List.getElem?_map,
    List.getElem?_range inside, Option.map_some, momentsOf]
  rw [getD_momentArray (by decide) inside, getD_momentArray (by decide) inside]

end Normalised

section Laws

variable {K : Type} [Field K] [LinearOrder K] [IsStrictOrderedRing K]

theorem centralMoment_two_pos {xs : List K} (spread : centralMoment xs 2 ≠ 0) :
    0 < centralMoment xs 2 :=
  lt_of_le_of_ne (centralMoment_nonneg xs (by decide)) spread.symm

theorem centralMoment_four_ne_zero {xs : List K} (spread : centralMoment xs 2 ≠ 0) :
    centralMoment xs 4 ≠ 0 := by
  intro zero
  have constant := (centralMoment_eq_zero_iff (by decide) (by decide)).mp zero
  exact spread ((centralMoment_eq_zero_iff (by decide) (by decide)).mpr constant)

/-- The power of the skewness in another unit. -/
theorem pow_scaled [Libm K] [ExactPow K] {a x : K} (unit : 0 < a) (positive : 0 < x) :
    Libm.pow (a ^ 2 * x) (((3 : ℕ) : K) / ((2 : ℕ) : K)) =
      a ^ 3 * Libm.pow x (((3 : ℕ) : K) / ((2 : ℕ) : K)) := by
  have scaled : 0 < a ^ 2 * x := mul_pos (pow_pos unit 2) positive
  have left := ExactPow.pow_pos (a ^ 2 * x) scaled
  have right := mul_pos (pow_pos unit 3) (ExactPow.pow_pos x positive)
  apply (pow_left_inj₀ left.le right.le two_ne_zero).mp
  rw [ExactPow.pow_sq _ scaled, mul_pow, mul_pow, ExactPow.pow_sq _ positive]
  ring

variable {vectSize i : Nat} {samples : List (List K)}

theorem skewnessAt_standardised [Libm K] [ExactPow K] (inside : i < vectSize)
    (spread : centralMoment (column samples i) 2 ≠ 0)
    (skewed : centralMoment (column samples i) 3 ≠ 0) :
    ∃ s, skewnessAt vectSize samples i = some (.finite s) ∧
      s ^ 2 * centralMoment (column samples i) 2 ^ 3 = centralMoment (column samples i) 3 ^ 2 ∧
      0 < s * centralMoment (column samples i) 3 := by
  have positive := centralMoment_two_pos spread
  have power := ExactPow.pow_pos _ positive
  have square := ExactPow.pow_sq _ positive
  have value : skewnessAt vectSize samples i = some (.finite (centralMoment (column samples i) 3 /
      Libm.pow (centralMoment (column samples i) 2) (((3 : ℕ) : K) / ((2 : ℕ) : K)))) := by
    rw [skewnessAt_eq inside, quotient, if_neg power.ne']
  refine ⟨_, value, ?_, ?_⟩
  · rw [div_pow, square, div_mul_cancel₀ _ (pow_ne_zero 3 spread)]
  · rw [div_mul_eq_mul_div, ← sq]
    exact div_pos (sq_pos_of_ne_zero skewed) power

theorem skewnessAt_affine [Libm K] [ExactPow K]
    (sized : ∀ vect ∈ samples, vectSize ≤ vect.length) (inside : i < vectSize)
    (spread : centralMoment (column samples i) 2 ≠ 0) {a : K} (unit : 0 < a) (b : K) :
    skewnessAt vectSize (affineSamples a b samples) i = skewnessAt vectSize samples i := by
  have positive := centralMoment_two_pos spread
  have power := ExactPow.pow_pos _ positive
  have scaled := mul_pos (pow_pos unit 3) power
  rw [skewnessAt_eq inside, skewnessAt_eq inside, column_affineSamples sized inside,
    centralMoment_affine, centralMoment_affine, pow_scaled unit positive, quotient, quotient,
    if_neg power.ne', if_neg scaled.ne', mul_div_mul_left _ _ (pow_pos unit 3).ne']

/-- The code divides by the square of the third moment instead of the second. -/
theorem kurtosisAt_standardised_iff (inside : i < vectSize)
    (spread : centralMoment (column samples i) 2 ≠ 0)
    (skewed : centralMoment (column samples i) 3 ≠ 0) :
    kurtosisAt vectSize samples i = some (.finite
        (centralMoment (column samples i) 4 / centralMoment (column samples i) 2 ^ 2)) ↔
      centralMoment (column samples i) 3 ^ 2 = centralMoment (column samples i) 2 ^ 2 := by
  rw [kurtosisAt_eq inside, quotient, if_neg (pow_ne_zero 2 skewed), Option.some.injEq,
    Extended.finite.injEq, div_eq_div_iff (pow_ne_zero 2 skewed) (pow_ne_zero 2 spread),
    mul_right_inj' (centralMoment_four_ne_zero spread), eq_comm]

theorem kurtosisAt_affine_iff (sized : ∀ vect ∈ samples, vectSize ≤ vect.length)
    (inside : i < vectSize) (spread : centralMoment (column samples i) 2 ≠ 0)
    (skewed : centralMoment (column samples i) 3 ≠ 0) {a : K} (unit : 0 < a) (b : K) :
    kurtosisAt vectSize (affineSamples a b samples) i = kurtosisAt vectSize samples i ↔
      a = 1 := by
  have scaled : (a ^ 3 * centralMoment (column samples i) 3) ^ 2 ≠ 0 :=
    pow_ne_zero 2 (mul_ne_zero (pow_pos unit 3).ne' skewed)
  have fourth := centralMoment_four_ne_zero spread
  rw [kurtosisAt_eq inside, kurtosisAt_eq inside, column_affineSamples sized inside,
    centralMoment_affine, centralMoment_affine, quotient, quotient, if_neg scaled,
    if_neg (pow_ne_zero 2 skewed), Option.some.injEq, Extended.finite.injEq,
    div_eq_div_iff scaled (pow_ne_zero 2 skewed)]
  constructor
  · intro equal
    have common : a ^ 4 * centralMoment (column samples i) 4 *
        centralMoment (column samples i) 3 ^ 2 ≠ 0 :=
      mul_ne_zero (mul_ne_zero (pow_pos unit 4).ne' fourth) (pow_ne_zero 2 skewed)
    have square : a ^ 2 = 1 := by
      apply mul_left_cancel₀ common
      linear_combination -equal
    exact (pow_eq_one_iff_of_nonneg unit.le two_ne_zero).mp square
  · rintro rfl
    ring

/-- The standardised moments of component `i`, and that its unit and origin do not show. -/
structure StandardisedAt [Libm K] (vectSize : Nat) (samples : List (List K)) (a b : K) (i : Nat) :
    Prop where
  kurtosis : kurtosisAt vectSize samples i = some (.finite
    (centralMoment (column samples i) 4 / centralMoment (column samples i) 2 ^ 2))
  skewness : ∃ s, skewnessAt vectSize samples i = some (.finite s) ∧
    s ^ 2 * centralMoment (column samples i) 2 ^ 3 = centralMoment (column samples i) 3 ^ 2 ∧
    0 < s * centralMoment (column samples i) 3
  kurtosisAffine :
    kurtosisAt vectSize (affineSamples a b samples) i = kurtosisAt vectSize samples i
  skewnessAffine :
    skewnessAt vectSize (affineSamples a b samples) i = skewnessAt vectSize samples i

/-- `Standardised` for the components with a second and a third moment. -/
def Standardised [Libm K] (vectSize : Nat) (samples : List (List K)) (a b : K) : Prop :=
  ∀ i < vectSize, centralMoment (column samples i) 2 ≠ 0 →
    centralMoment (column samples i) 3 ≠ 0 → StandardisedAt vectSize samples a b i

/-- The kurtosis is right where the second and third moments agree up to the sign, and keeps its
value when the unit is kept. -/
theorem standardised_iff [Libm K] [ExactPow K] {vectSize : Nat} {samples : List (List K)}
    (sized : ∀ vect ∈ samples, vectSize ≤ vect.length) {a : K} (unit : 0 < a) (b : K) :
    Standardised vectSize samples a b ↔
      ∀ i < vectSize, centralMoment (column samples i) 2 ≠ 0 →
        centralMoment (column samples i) 3 ≠ 0 →
        centralMoment (column samples i) 3 ^ 2 = centralMoment (column samples i) 2 ^ 2 ∧
          a = 1 := by
  apply forall₂_congr
  intro i inside
  apply forall₂_congr
  intro spread skewed
  constructor
  · intro standardised
    constructor
    · exact (kurtosisAt_standardised_iff inside spread skewed).mp standardised.kurtosis
    · exact (kurtosisAt_affine_iff sized inside spread skewed unit b).mp
        standardised.kurtosisAffine
  · intro agree
    constructor
    · exact (kurtosisAt_standardised_iff inside spread skewed).mpr agree.1
    · exact skewnessAt_standardised inside spread skewed
    · exact (kurtosisAt_affine_iff sized inside spread skewed unit b).mpr agree.2
    · exact skewnessAt_affine sized inside spread unit b

end Laws

section Example

private noncomputable def fourSamples : List (List ℝ) := [[0], [0], [0], [4]]

private theorem fourSamples_sized : ∀ vect ∈ fourSamples, 1 ≤ vect.length := by
  simp [fourSamples]

theorem standardised_iff_fourSamples :
    (∀ vect ∈ fourSamples, 1 ≤ vect.length) ∧ (0 : ℝ) < 2 ∧
      (Standardised 1 fourSamples 2 1 ↔
        ∀ i < 1, centralMoment (column fourSamples i) 2 ≠ 0 →
          centralMoment (column fourSamples i) 3 ≠ 0 →
          centralMoment (column fourSamples i) 3 ^ 2 = centralMoment (column fourSamples i) 2 ^ 2 ∧
            (2 : ℝ) = 1) :=
  ⟨fourSamples_sized, two_pos, standardised_iff fourSamples_sized two_pos 1⟩

private theorem fourSamples_moments :
    centralMoment (column fourSamples 0) 2 = 3 ∧ centralMoment (column fourSamples 0) 3 = 6 := by
  norm_num [centralMoment, powerMean, powerSum, column, fourSamples]

/-- The samples 0, 0, 0 and 4: the central moments are 3, 6 and 21, and the code returns 21/36 as
the kurtosis instead of 21/9. -/
theorem not_standardised_fourSamples :
    ¬ ∀ (vectSize : Nat) (samples : List (List ℝ)) (a b : ℝ), 2 ≤ samples.length →
      (∀ vect ∈ samples, vectSize ≤ vect.length) → 0 < a → Standardised vectSize samples a b := by
  intro always
  obtain ⟨second, third⟩ := fourSamples_moments
  have spread : centralMoment (column fourSamples 0) 2 ≠ 0 := by rw [second]; norm_num
  have skewed : centralMoment (column fourSamples 0) 3 ≠ 0 := by rw [third]; norm_num
  have standardised := always 1 fourSamples 1 0 (by simp [fourSamples]) fourSamples_sized one_pos 0
    one_pos spread skewed
  have equal := (kurtosisAt_standardised_iff one_pos spread skewed).mp standardised.kurtosis
  rw [second, third] at equal
  norm_num at equal

end Example

end Melissa
