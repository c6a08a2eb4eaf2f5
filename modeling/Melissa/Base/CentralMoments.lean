import Mathlib.Algebra.BigOperators.Ring.List
import Mathlib.Algebra.Order.BigOperators.Group.List
import Mathlib.Algebra.Order.Field.Basic
import Mathlib.Tactic.LinearCombination
import Mathlib.Tactic.Linarith
import Mathlib.Tactic.Ring

/-! Central moments of a list of numbers in an ordered field, written with the means of its
powers: when they vanish. -/

namespace CentralMoments

section Field

variable {K : Type} [Field K]

def powerSum (xs : List K) (p : Nat) : K := (xs.map fun x => x ^ p).sum

/-- `m` is the mean of the `p`-th powers. -/
def IsMean (xs : List K) (p : Nat) (m : K) : Prop := (xs.length : K) * m = powerSum xs p

theorem powerSum_concat (xs : List K) (x : K) (p : Nat) :
    powerSum (xs ++ [x]) p = powerSum xs p + x ^ p := by
  simp [powerSum]

/-- The running update of a mean. -/
theorem isMean_concat [CharZero K] {xs : List K} {p : Nat} {m : K} (mean : IsMean xs p m) (x : K) :
    IsMean (xs ++ [x]) p (m + (x ^ p - m) / ((xs.length + 1 : ℕ) : K)) := by
  have positive : ((xs.length + 1 : ℕ) : K) ≠ 0 := Nat.cast_ne_zero.mpr (Nat.succ_ne_zero _)
  unfold IsMean at mean ⊢
  rw [powerSum_concat, ← mean, List.length_append, List.length_singleton, mul_add,
    mul_div_cancel₀ _ positive]
  push_cast
  ring

theorem sum_sub_sq (xs : List K) (c : K) :
    (xs.map fun x => (x - c) ^ 2).sum =
      powerSum xs 2 - 2 * c * powerSum xs 1 + (xs.length : K) * c ^ 2 := by
  induction xs with
  | nil => simp [powerSum]
  | cons x xs ih =>
      simp only [powerSum, List.map_cons, List.sum_cons, List.length_cons] at ih ⊢
      rw [ih]
      push_cast
      ring

theorem sum_sub_four (xs : List K) (c : K) :
    (xs.map fun x => (x - c) ^ 4).sum =
      powerSum xs 4 - 4 * c * powerSum xs 3 + 6 * c ^ 2 * powerSum xs 2 -
        4 * c ^ 3 * powerSum xs 1 + (xs.length : K) * c ^ 4 := by
  induction xs with
  | nil => simp [powerSum]
  | cons x xs ih =>
      simp only [powerSum, List.map_cons, List.sum_cons, List.length_cons] at ih ⊢
      rw [ih]
      push_cast
      ring

theorem sum_sub_cube (xs : List K) (c : K) :
    (xs.map fun x => (x - c) ^ 3).sum =
      powerSum xs 3 - 3 * c * powerSum xs 2 + 3 * c ^ 2 * powerSum xs 1 -
        (xs.length : K) * c ^ 3 := by
  induction xs with
  | nil => simp [powerSum]
  | cons x xs ih =>
      simp only [powerSum, List.map_cons, List.sum_cons, List.length_cons] at ih ⊢
      rw [ih]
      push_cast
      ring

theorem powerSum_of_constant {xs : List K} {c : K} (constant : ∀ x ∈ xs, x = c) (p : Nat) :
    powerSum xs p = (xs.length : K) * c ^ p := by
  have copies : xs = List.replicate xs.length c := List.eq_replicate_of_mem constant
  rw [copies, powerSum, List.map_replicate, List.sum_replicate, List.length_replicate,
    nsmul_eq_mul]

end Field

section Moments

variable {K : Type} [Field K]

/-- The mean of the `p`-th powers. -/
def powerMean (xs : List K) (p : Nat) : K := powerSum xs p / (xs.length : K)

/-- The mean of the `p`-th powers of the deviations from the mean. -/
def centralMoment (xs : List K) (p : Nat) : K :=
  (xs.map fun x => (x - powerMean xs 1) ^ p).sum / (xs.length : K)

@[simp] theorem powerMean_nil (p : Nat) : powerMean ([] : List K) p = 0 := by
  simp [powerMean, powerSum]

@[simp] theorem centralMoment_nil (p : Nat) : centralMoment ([] : List K) p = 0 := by
  simp [centralMoment]

variable [CharZero K]

theorem length_ne_zero {xs : List K} (filled : xs ≠ []) : (xs.length : K) ≠ 0 :=
  Nat.cast_ne_zero.mpr (Nat.ne_of_gt (List.length_pos_iff.mpr filled))

theorem isMean_powerMean (xs : List K) (p : Nat) : IsMean xs p (powerMean xs p) := by
  by_cases filled : xs = []
  · subst filled
    simp [IsMean, powerSum]
  · rw [IsMean, powerMean, mul_div_cancel₀ _ (length_ne_zero filled)]

theorem powerMean_eq_iff {xs : List K} (filled : xs ≠ []) {p : Nat} {m : K} :
    powerMean xs p = m ↔ IsMean xs p m := by
  rw [powerMean, div_eq_iff (length_ne_zero filled), mul_comm, IsMean, eq_comm]

theorem powerMean_concat (xs : List K) (x : K) (p : Nat) :
    powerMean (xs ++ [x]) p =
      powerMean xs p + (x ^ p - powerMean xs p) / ((xs.length + 1 : ℕ) : K) := by
  apply (powerMean_eq_iff (by simp)).mpr
  exact isMean_concat (isMean_powerMean xs p) x

/-- Two lists together have the weighted mean of their means. -/
theorem powerMean_append (xs ys : List K) (p : Nat) :
    powerMean (xs ++ ys) p = powerMean xs p +
      (ys.length : K) * (powerMean ys p - powerMean xs p) / ((xs.length + ys.length : ℕ) : K) := by
  by_cases filled : xs ++ ys = []
  · obtain ⟨rfl, rfl⟩ := List.append_eq_nil_iff.mp filled
    simp
  · have total : ((xs.length + ys.length : ℕ) : K) ≠ 0 := by
      rw [← List.length_append]
      exact length_ne_zero filled
    have left := isMean_powerMean xs p
    have right := isMean_powerMean ys p
    unfold IsMean at left right
    rw [powerMean, powerSum, List.map_append, List.sum_append, List.length_append,
      div_eq_iff total, add_mul, div_mul_cancel₀ _ total]
    change powerSum xs p + powerSum ys p = _
    rw [← left, ← right]
    push_cast
    ring

theorem centralMoment_two (xs : List K) :
    centralMoment xs 2 = powerMean xs 2 - powerMean xs 1 ^ 2 := by
  by_cases filled : xs = []
  · subst filled
    simp
  · rw [centralMoment, sum_sub_sq, ← isMean_powerMean xs 1, ← isMean_powerMean xs 2,
      div_eq_iff (length_ne_zero filled)]
    ring

theorem centralMoment_three (xs : List K) :
    centralMoment xs 3 =
      powerMean xs 3 - 3 * powerMean xs 1 * powerMean xs 2 + 2 * powerMean xs 1 ^ 3 := by
  by_cases filled : xs = []
  · subst filled
    simp
  · rw [centralMoment, sum_sub_cube, ← isMean_powerMean xs 1, ← isMean_powerMean xs 2,
      ← isMean_powerMean xs 3, div_eq_iff (length_ne_zero filled)]
    ring

theorem centralMoment_four (xs : List K) :
    centralMoment xs 4 =
      powerMean xs 4 - 4 * powerMean xs 1 * powerMean xs 3 +
        6 * powerMean xs 1 ^ 2 * powerMean xs 2 - 3 * powerMean xs 1 ^ 4 := by
  by_cases filled : xs = []
  · subst filled
    simp
  · rw [centralMoment, sum_sub_four, ← isMean_powerMean xs 1, ← isMean_powerMean xs 2,
      ← isMean_powerMean xs 3, ← isMean_powerMean xs 4, div_eq_iff (length_ne_zero filled)]
    ring

omit [CharZero K] in
theorem centralMoment_singleton (x : K) {p : Nat} (positive : p ≠ 0) :
    centralMoment [x] p = 0 := by
  simp [centralMoment, powerMean, powerSum, positive]

omit [CharZero K] in
theorem powerSum_affine (xs : List K) (a b : K) :
    powerSum (xs.map fun x => a * x + b) 1 = a * powerSum xs 1 + (xs.length : K) * b := by
  induction xs with
  | nil => simp [powerSum]
  | cons x xs ih =>
      simp only [powerSum, List.map_cons, List.sum_cons, List.length_cons] at ih ⊢
      rw [ih]
      push_cast
      ring

/-- A change of unit and of origin scales the central moments. -/
theorem centralMoment_affine (xs : List K) (a b : K) (p : Nat) :
    centralMoment (xs.map fun x => a * x + b) p = a ^ p * centralMoment xs p := by
  by_cases filled : xs = []
  · subst filled
    simp
  · have mean : powerMean (xs.map fun x => a * x + b) 1 = a * powerMean xs 1 + b := by
      apply (powerMean_eq_iff (by simpa using filled)).mpr
      rw [IsMean, powerSum_affine, ← isMean_powerMean xs 1, List.length_map]
      ring
    have deviations : (xs.map fun x => a * x + b).map
        (fun x => (x - powerMean (xs.map fun x => a * x + b) 1) ^ p) =
        xs.map fun x => a ^ p * (x - powerMean xs 1) ^ p := by
      rw [List.map_map, mean]
      apply List.map_congr_left
      intro x _
      rw [Function.comp_apply, ← mul_pow]
      ring
    rw [centralMoment, deviations, List.sum_map_mul_left, List.length_map, centralMoment,
      mul_div_assoc]

end Moments

section Order

variable {K : Type} [Field K] [LinearOrder K] [IsStrictOrderedRing K]

theorem constant_of_sum_eq_zero {xs : List K} {c : K} {p : Nat} (even : Even p) (positive : p ≠ 0)
    (zero : (xs.map fun x => (x - c) ^ p).sum = 0) : ∀ x ∈ xs, x = c := by
  have nonneg (rest : List K) : 0 ≤ (rest.map fun x => (x - c) ^ p).sum := by
    apply List.sum_nonneg
    intro y member
    obtain ⟨x, _, rfl⟩ := List.mem_map.mp member
    exact even.pow_nonneg _
  induction xs with
  | nil => simp
  | cons x xs ih =>
      rw [List.map_cons, List.sum_cons] at zero
      have first := even.pow_nonneg (x - c)
      have rest := nonneg xs
      have here : (x - c) ^ p = 0 := by linarith
      intro y member
      rcases List.mem_cons.mp member with rfl | later
      · exact sub_eq_zero.mp (pow_eq_zero_iff positive |>.mp here)
      · exact ih (by linarith) y later

theorem centralMoment_nonneg (xs : List K) {p : Nat} (even : Even p) : 0 ≤ centralMoment xs p := by
  apply div_nonneg
  · apply List.sum_nonneg
    intro y member
    obtain ⟨x, _, rfl⟩ := List.mem_map.mp member
    exact even.pow_nonneg _
  · exact Nat.cast_nonneg _

theorem centralMoment_of_constant {xs : List K} (constant : ∃ c, ∀ x ∈ xs, x = c) {p : Nat}
    (positive : p ≠ 0) : centralMoment xs p = 0 := by
  by_cases filled : xs = []
  · subst filled
    exact centralMoment_nil p
  · obtain ⟨c, constant⟩ := constant
    have mean : powerMean xs 1 = c := by
      rw [powerMean, powerSum_of_constant constant, pow_one,
        mul_div_cancel_left₀ _ (length_ne_zero filled)]
    have deviations : (xs.map fun x => (x - powerMean xs 1) ^ p).sum = 0 := by
      apply List.sum_eq_zero
      intro y member
      obtain ⟨x, inside, rfl⟩ := List.mem_map.mp member
      rw [mean, constant x inside, sub_self, zero_pow positive]
    rw [centralMoment, deviations, zero_div]

/-- A central moment of even order vanishes exactly when all numbers are equal. -/
theorem centralMoment_eq_zero_iff {xs : List K} {p : Nat} (even : Even p) (positive : p ≠ 0) :
    centralMoment xs p = 0 ↔ ∃ c, ∀ x ∈ xs, x = c := by
  constructor
  · intro zero
    by_cases filled : xs = []
    · subst filled
      exact ⟨0, by simp⟩
    · rw [centralMoment, div_eq_zero_iff, or_iff_left (length_ne_zero filled)] at zero
      exact ⟨_, constant_of_sum_eq_zero even positive zero⟩
  · exact fun constant => centralMoment_of_constant constant positive

variable {xs : List K} {m1 m2 m3 m4 : K}

/-- The variance vanishes exactly when all numbers are equal. -/
theorem variance_eq_zero_iff (filled : xs ≠ []) (mean1 : IsMean xs 1 m1) (mean2 : IsMean xs 2 m2) :
    m2 - m1 ^ 2 = 0 ↔ ∃ c, ∀ x ∈ xs, x = c := by
  rw [← (powerMean_eq_iff filled).mpr mean1, ← (powerMean_eq_iff filled).mpr mean2,
    ← centralMoment_two]
  exact centralMoment_eq_zero_iff even_two two_ne_zero

theorem variance_nonneg (filled : xs ≠ []) (mean1 : IsMean xs 1 m1) (mean2 : IsMean xs 2 m2) :
    0 ≤ m2 - m1 ^ 2 := by
  rw [← (powerMean_eq_iff filled).mpr mean1, ← (powerMean_eq_iff filled).mpr mean2,
    ← centralMoment_two]
  exact centralMoment_nonneg xs even_two

/-- So does the fourth central moment. -/
theorem fourth_eq_zero_iff (filled : xs ≠ []) (mean1 : IsMean xs 1 m1) (mean2 : IsMean xs 2 m2)
    (mean3 : IsMean xs 3 m3) (mean4 : IsMean xs 4 m4) :
    m4 - 4 * m1 * m3 + 6 * m1 ^ 2 * m2 - 3 * m1 ^ 4 = 0 ↔ ∃ c, ∀ x ∈ xs, x = c := by
  rw [← (powerMean_eq_iff filled).mpr mean1, ← (powerMean_eq_iff filled).mpr mean2,
    ← (powerMean_eq_iff filled).mpr mean3, ← (powerMean_eq_iff filled).mpr mean4,
    ← centralMoment_four]
  exact centralMoment_eq_zero_iff (by decide) four_ne_zero

/-- With the variance the third central moment vanishes. -/
theorem third_of_constant (filled : xs ≠ []) (mean1 : IsMean xs 1 m1) (mean2 : IsMean xs 2 m2)
    (mean3 : IsMean xs 3 m3) (constant : ∃ c, ∀ x ∈ xs, x = c) :
    m3 - 3 * m1 * m2 + 2 * m1 ^ 3 = 0 := by
  rw [← (powerMean_eq_iff filled).mpr mean1, ← (powerMean_eq_iff filled).mpr mean2,
    ← (powerMean_eq_iff filled).mpr mean3, ← centralMoment_three]
  exact centralMoment_of_constant constant three_ne_zero

end Order

end CentralMoments
