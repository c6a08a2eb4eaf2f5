import Melissa.Base.CentralMoments
import Mathlib.Algebra.BigOperators.Group.List.Basic
import Mathlib.Algebra.BigOperators.Intervals
import Mathlib.Algebra.CharZero.Defs
import Mathlib.Data.List.GetD
import Mathlib.Tactic.FieldSimp
import Mathlib.Tactic.LinearCombination
import Mathlib.Tactic.Ring

/-! Sample means, variances and covariances of a list of pairs over a field, and how one more
pair changes them. -/

namespace Comoment

section Field

variable {K : Type} [Field K]

def mean (xs : List K) : K := xs.sum / (xs.length : K)

/-- The sum of the products of the deviations from the two means. -/
def comoment (pairs : List (K × K)) : K :=
  (pairs.map fun pair =>
    (pair.1 - mean (pairs.map Prod.fst)) * (pair.2 - mean (pairs.map Prod.snd))).sum

/-- The unbiased sample covariance. -/
def covariance (pairs : List (K × K)) : K := comoment pairs / ((pairs.length : K) - 1)

def variance (xs : List K) : K := covariance (xs.map fun x => (x, x))

/-- What the comoment gains when `pair` follows `pairs`. -/
def jump (pairs : List (K × K)) (pair : K × K) : K :=
  (pair.1 - mean (pairs.map Prod.fst)) * (pair.2 - mean (pairs.map Prod.snd)) *
    ((pairs.length : K) / ((pairs.length : K) + 1))

/-- The jump made by the pair with index `i`. -/
def jumpAt (pairs : List (K × K)) (i : Nat) : K := jump (pairs.take i) (pairs.getD i (0, 0))

theorem jumpAt_concat (pairs : List (K × K)) (pair : K × K) :
    jumpAt (pairs ++ [pair]) pairs.length = jump pairs pair := by
  unfold jumpAt
  rw [List.take_left]
  congr 1
  simp

theorem jumpAt_append {pairs : List (K × K)} {i : Nat} (inside : i < pairs.length)
    (later : List (K × K)) : jumpAt (pairs ++ later) i = jumpAt pairs i := by
  unfold jumpAt
  rw [List.take_append_of_le_length (Nat.le_of_lt inside),
    List.getD_append _ _ _ _ inside]

theorem jump_nil (pair : K × K) : jump [] pair = 0 := by simp [jump]

/-- The first pair makes no jump. -/
theorem jumpAt_zero (pairs : List (K × K)) : jumpAt pairs 0 = 0 := jump_nil _

theorem comoment_singleton (pair : K × K) : comoment [pair] = 0 := by
  simp [comoment, mean]

theorem covariance_of_length_le_one {pairs : List (K × K)} (short : pairs.length ≤ 1) :
    covariance pairs = 0 := by
  match pairs with
  | [] => simp [covariance, comoment]
  | [pair] => simp [covariance, comoment_singleton]

theorem variance_of_length_le_one {xs : List K} (short : xs.length ≤ 1) : variance xs = 0 :=
  covariance_of_length_le_one (by simpa using short)

theorem sum_sub_mul (pairs : List (K × K)) (a b : K) :
    (pairs.map fun pair => (pair.1 - a) * (pair.2 - b)).sum =
      (pairs.map fun pair => pair.1 * pair.2).sum - a * (pairs.map Prod.snd).sum -
        b * (pairs.map Prod.fst).sum + (pairs.length : K) * a * b := by
  induction pairs with
  | nil => simp
  | cons pair pairs ih =>
      simp only [List.map_cons, List.sum_cons, List.length_cons, ih]
      push_cast
      ring

theorem mean_eq_powerMean (xs : List K) : mean xs = CentralMoments.powerMean xs 1 := by
  simp [mean, CentralMoments.powerMean, CentralMoments.powerSum]

/-- The comoment of a list with itself: the sum of the squared deviations. -/
def squares (xs : List K) : K := comoment (xs.map fun x => (x, x))

theorem squares_eq (xs : List K) : squares xs = (xs.map fun x => (x - mean xs) ^ 2).sum := by
  have first : (xs.map fun x => (x, x)).map Prod.fst = xs := by simp [Function.comp_def]
  have second : (xs.map fun x => (x, x)).map Prod.snd = xs := by simp [Function.comp_def]
  rw [squares, comoment, first, second, List.map_map]
  congr 1
  apply List.map_congr_left
  intro x _
  exact (sq _).symm

theorem variance_eq_squares (xs : List K) : variance xs = squares xs / ((xs.length : K) - 1) := by
  rw [variance, covariance, squares, List.length_map]

theorem centralMoment_eq_squares (xs : List K) :
    CentralMoments.centralMoment xs 2 = squares xs / (xs.length : K) := by
  rw [CentralMoments.centralMoment, squares_eq, mean_eq_powerMean]

variable [CharZero K]

theorem length_mul_mean (xs : List K) : (xs.length : K) * mean xs = xs.sum := by
  cases xs with
  | nil => simp
  | cons x xs =>
      have positive : (((x :: xs).length : ℕ) : K) ≠ 0 := Nat.cast_ne_zero.mpr (by simp)
      rw [mean, mul_div_cancel₀ _ positive]

theorem comoment_eq (pairs : List (K × K)) :
    comoment pairs = (pairs.map fun pair => pair.1 * pair.2).sum -
      (pairs.length : K) * mean (pairs.map Prod.fst) * mean (pairs.map Prod.snd) := by
  have first := length_mul_mean (pairs.map Prod.fst)
  have second := length_mul_mean (pairs.map Prod.snd)
  rw [List.length_map] at first second
  rw [comoment, sum_sub_mul, ← first, ← second]
  ring

theorem mean_concat (xs : List K) (x : K) :
    mean (xs ++ [x]) = mean xs + (x - mean xs) / ((xs.length + 1 : ℕ) : K) := by
  have positive : ((xs.length + 1 : ℕ) : K) ≠ 0 := Nat.cast_ne_zero.mpr (Nat.succ_ne_zero _)
  have total : xs.sum + x = mean xs * ((xs.length + 1 : ℕ) : K) + (x - mean xs) := by
    rw [← length_mul_mean xs]
    push_cast
    ring
  calc mean (xs ++ [x])
      = (xs.sum + x) / ((xs.length + 1 : ℕ) : K) := by
        rw [mean, List.sum_append, List.sum_singleton, List.length_append, List.length_singleton]
    _ = mean xs + (x - mean xs) / ((xs.length + 1 : ℕ) : K) := by
        rw [total, add_div, mul_div_cancel_right₀ _ positive]

/-- The deviation from the new mean is a part of the deviation from the old one. -/
theorem sub_mean_concat (xs : List K) (x : K) :
    x - mean (xs ++ [x]) = (x - mean xs) * ((xs.length : K) / ((xs.length : K) + 1)) := by
  have positive : (xs.length : K) + 1 ≠ 0 := Nat.cast_add_one_ne_zero _
  rw [mean_concat, Nat.cast_add, Nat.cast_one]
  field_simp
  ring

theorem comoment_concat (pairs : List (K × K)) (pair : K × K) :
    comoment (pairs ++ [pair]) = comoment pairs + jump pairs pair := by
  have positive : (pairs.length : K) + 1 ≠ 0 := Nat.cast_add_one_ne_zero _
  simp only [comoment_eq, jump, List.map_append, List.map_singleton, List.sum_append,
    List.sum_singleton, List.length_append, List.length_singleton, mean_concat, List.length_map,
    Nat.cast_add, Nat.cast_one]
  field_simp
  ring

/-- The comoment is made of the jumps. -/
theorem comoment_eq_sum (pairs : List (K × K)) :
    comoment pairs = ∑ i ∈ Finset.range pairs.length, jumpAt pairs i := by
  induction pairs using List.reverseRecOn with
  | nil => simp [comoment]
  | append_singleton pairs pair ih =>
      have earlier : ∑ i ∈ Finset.range pairs.length, jumpAt pairs i =
          ∑ i ∈ Finset.range pairs.length, jumpAt (pairs ++ [pair]) i := by
        apply Finset.sum_congr rfl
        intro i member
        rw [jumpAt_append (Finset.mem_range.mp member)]
      calc comoment (pairs ++ [pair])
          = ∑ i ∈ Finset.range pairs.length, jumpAt pairs i + jump pairs pair := by
            rw [comoment_concat, ih]
        _ = ∑ i ∈ Finset.range (pairs.length + 1), jumpAt (pairs ++ [pair]) i := by
            rw [earlier, ← jumpAt_concat pairs pair, Finset.sum_range_succ]
        _ = ∑ i ∈ Finset.range (pairs ++ [pair]).length, jumpAt (pairs ++ [pair]) i := by
            rw [List.length_append, List.length_singleton]

/-- One more pair makes the divisor the number of pairs before it. -/
theorem covariance_concat_jump (pairs : List (K × K)) (pair : K × K) :
    covariance (pairs ++ [pair]) = (comoment pairs + jump pairs pair) / (pairs.length : K) := by
  rw [covariance, comoment_concat, List.length_append, List.length_singleton, Nat.cast_add,
    Nat.cast_one, add_sub_cancel_right]

theorem covariance_mul {pairs : List (K × K)} (filled : pairs ≠ []) :
    covariance pairs * ((pairs.length : K) - 1) = comoment pairs := by
  by_cases single : (pairs.length : K) - 1 = 0
  · have one : pairs.length = 1 := by exact_mod_cast sub_eq_zero.mp single
    obtain ⟨pair, rfl⟩ := List.length_eq_one_iff.mp one
    rw [comoment_singleton, single, mul_zero]
  · rw [covariance, div_mul_cancel₀ _ single]

/-- The jump with one deviation from an updated mean and one from an old mean. -/
theorem jump_eq_mixed (pairs : List (K × K)) (pair : K × K) :
    jump pairs pair = (pair.1 - mean (pairs.map Prod.fst ++ [pair.1])) *
      (pair.2 - mean (pairs.map Prod.snd)) := by
  rw [sub_mean_concat, List.length_map, jump]
  ring

/-- The product of the deviations from two updated means. -/
theorem deviations_eq (pairs : List (K × K)) (pair : K × K) :
    (pair.1 - mean (pairs.map Prod.fst ++ [pair.1])) *
        (pair.2 - mean (pairs.map Prod.snd ++ [pair.2])) =
      jump pairs pair * ((pairs.length : K) / ((pairs.length : K) + 1)) := by
  rw [sub_mean_concat, sub_mean_concat, List.length_map, List.length_map, jump]
  ring

/-- Welford's update of a covariance whose two means are already updated. -/
theorem covariance_concat {pairs : List (K × K)} (filled : pairs ≠ []) (pair : K × K) :
    covariance (pairs ++ [pair]) =
      (covariance pairs * ((pairs.length : K) - 1) +
        (pair.1 - mean (pairs.map Prod.fst ++ [pair.1])) *
          (pair.2 - mean (pairs.map Prod.snd ++ [pair.2])) *
            (((pairs.length : K) + 1) / (pairs.length : K))) / (pairs.length : K) := by
  have number : (pairs.length : K) ≠ 0 :=
    Nat.cast_ne_zero.mpr (Nat.ne_of_gt (List.length_pos_iff.mpr filled))
  have positive : (pairs.length : K) + 1 ≠ 0 := Nat.cast_add_one_ne_zero _
  have whole : jump pairs pair = jump pairs pair *
      ((pairs.length : K) / ((pairs.length : K) + 1)) *
        (((pairs.length : K) + 1) / (pairs.length : K)) := by field_simp
  calc covariance (pairs ++ [pair])
      = (comoment pairs + jump pairs pair) / (pairs.length : K) :=
        covariance_concat_jump pairs pair
    _ = (covariance pairs * ((pairs.length : K) - 1) + jump pairs pair *
          ((pairs.length : K) / ((pairs.length : K) + 1)) *
            (((pairs.length : K) + 1) / (pairs.length : K))) / (pairs.length : K) := by
        rw [covariance_mul filled, ← whole]
    _ = _ := by rw [deviations_eq]

/-- The update with the first mean updated and the second one not. -/
theorem covariance_concat_mixed {pairs : List (K × K)} (filled : pairs ≠ []) (pair : K × K) :
    covariance (pairs ++ [pair]) =
      (covariance pairs * ((pairs.length : K) - 1) +
        (pair.1 - mean (pairs.map Prod.fst ++ [pair.1])) *
          (pair.2 - mean (pairs.map Prod.snd))) / (pairs.length : K) := by
  rw [covariance_mul filled, ← jump_eq_mixed, covariance_concat_jump]

theorem variance_concat {xs : List K} (filled : xs ≠ []) (x : K) :
    variance (xs ++ [x]) =
      (variance xs * ((xs.length : K) - 1) +
        (x - mean (xs ++ [x])) * (x - mean (xs ++ [x])) *
          (((xs.length : K) + 1) / (xs.length : K))) / (xs.length : K) := by
  have pairs : xs.map (fun x => (x, x)) ≠ [] := by simpa using filled
  have step := covariance_concat pairs (x, x)
  simp only [List.map_map, List.length_map] at step
  have same : xs.map (Prod.fst ∘ fun x => (x, x)) = xs := by simp [Function.comp_def]
  have same' : xs.map (Prod.snd ∘ fun x => (x, x)) = xs := by simp [Function.comp_def]
  rw [same, same'] at step
  rw [variance, List.map_append, List.map_singleton, step, variance]

/-- Two lists together have the weighted mean of their means. -/
theorem mean_append (xs ys : List K) :
    mean (xs ++ ys) = mean xs +
      (ys.length : K) * (mean ys - mean xs) / ((xs.length + ys.length : ℕ) : K) := by
  simp only [mean_eq_powerMean, CentralMoments.powerMean_append]

theorem mean_append_swap (xs ys : List K) :
    mean (xs ++ ys) = mean ys +
      (xs.length : K) * (mean xs - mean ys) / ((xs.length + ys.length : ℕ) : K) := by
  have swapped : mean (xs ++ ys) = mean (ys ++ xs) := by
    rw [mean, mean, List.sum_append, List.sum_append, List.length_append, List.length_append,
      add_comm, Nat.add_comm]
  rw [swapped, mean_append, Nat.add_comm]

/-- What two lists of pairs add to their comoments when they are put together. -/
theorem comoment_append (xs ys : List (K × K)) :
    comoment (xs ++ ys) = comoment xs + comoment ys +
      (xs.length : K) * (ys.length : K) / ((xs.length + ys.length : ℕ) : K) *
        ((mean (ys.map Prod.fst) - mean (xs.map Prod.fst)) *
          (mean (ys.map Prod.snd) - mean (xs.map Prod.snd))) := by
  by_cases filled : xs ++ ys = []
  · obtain ⟨rfl, rfl⟩ := List.append_eq_nil_iff.mp filled
    simp [comoment]
  · have total : (xs.length : K) + (ys.length : K) ≠ 0 := by
      rw [← Nat.cast_add, ← List.length_append]
      exact Nat.cast_ne_zero.mpr (Nat.ne_of_gt (List.length_pos_iff.mpr filled))
    simp only [comoment_eq, List.map_append, mean_append, List.sum_append, List.length_append,
      List.length_map, Nat.cast_add]
    field_simp
    ring

theorem squares_eq_mul_centralMoment (xs : List K) :
    squares xs = CentralMoments.centralMoment xs 2 * (xs.length : K) := by
  by_cases filled : xs = []
  · subst filled
    simp [squares, comoment]
  · rw [centralMoment_eq_squares, div_mul_cancel₀ _ (CentralMoments.length_ne_zero filled)]

/-- A change of unit and of origin. -/
theorem squares_affine (xs : List K) (a b : K) :
    squares (xs.map fun x => a * x + b) = a ^ 2 * squares xs := by
  rw [squares_eq_mul_centralMoment, squares_eq_mul_centralMoment,
    CentralMoments.centralMoment_affine, List.length_map, mul_assoc]

theorem variance_shift (xs : List K) (c : K) : variance (xs.map fun x => x + c) = variance xs := by
  have moved := squares_affine xs 1 c
  simp only [one_mul, one_pow] at moved
  rw [variance_eq_squares, variance_eq_squares, moved, List.length_map]

theorem squares_append (xs ys : List K) :
    squares (xs ++ ys) = squares xs + squares ys +
      (xs.length : K) * (ys.length : K) / ((xs.length + ys.length : ℕ) : K) *
        (mean ys - mean xs) ^ 2 := by
  have merged := comoment_append (xs.map fun x => (x, x)) (ys.map fun y => (y, y))
  have first (zs : List K) : (zs.map fun z => (z, z)).map Prod.fst = zs := by
    simp [Function.comp_def]
  have second (zs : List K) : (zs.map fun z => (z, z)).map Prod.snd = zs := by
    simp [Function.comp_def]
  rw [first, first, second, second, List.length_map, List.length_map, ← sq] at merged
  rw [squares, List.map_append]
  exact merged

end Field

section Order

variable {K : Type} [Field K] [LinearOrder K] [IsStrictOrderedRing K]

theorem squares_nonneg (xs : List K) : 0 ≤ squares xs := by
  rw [squares_eq_mul_centralMoment]
  exact mul_nonneg (CentralMoments.centralMoment_nonneg xs even_two) (Nat.cast_nonneg _)

theorem squares_eq_zero_iff {xs : List K} : squares xs = 0 ↔ ∃ c, ∀ x ∈ xs, x = c := by
  rw [squares_eq_mul_centralMoment, mul_eq_zero, Nat.cast_eq_zero, List.length_eq_zero_iff,
    CentralMoments.centralMoment_eq_zero_iff even_two two_ne_zero, or_iff_left_iff_imp]
  rintro rfl
  exact ⟨0, by simp⟩

end Order

section Pooled

variable {K : Type} [Field K]

/-- Variances added up part by part with the squared distances of the means: a merge that takes
a variance for a sum of squares. -/
def pooled (front : List K) (value : K) : List (List K) → K
  | [] => value
  | part :: parts =>
      pooled (front ++ part)
        (value + (variance part + ((front.length * part.length : ℕ) : K) *
          (mean front - mean part) * (mean front - mean part) /
            ((front.length + part.length : ℕ) : K))) parts

variable [LinearOrder K] [IsStrictOrderedRing K]

theorem squares_of_length_le_one {xs : List K} (short : xs.length ≤ 1) : squares xs = 0 := by
  apply squares_eq_zero_iff.mpr
  match xs with
  | [] => exact ⟨0, by simp⟩
  | [x] => exact ⟨x, by simp⟩

theorem squares_eq_mul {xs : List K} (filled : xs ≠ []) :
    squares xs = variance xs * ((xs.length : K) - 1) := by
  have pairs : xs.map (fun x => (x, x)) ≠ [] := by simpa using filled
  have product := covariance_mul pairs
  rw [List.length_map] at product
  exact product.symm

theorem variance_nonneg (xs : List K) : 0 ≤ variance xs := by
  by_cases short : xs.length ≤ 1
  · rw [variance_of_length_le_one short]
  · have more : (1 : K) < (xs.length : K) := by exact_mod_cast Nat.lt_of_not_le short
    rw [variance_eq_squares]
    exact div_nonneg (squares_nonneg xs) (by linarith)

theorem variance_le_squares (xs : List K) : variance xs ≤ squares xs := by
  by_cases short : xs.length ≤ 1
  · rw [variance_of_length_le_one short, squares_of_length_le_one short]
  · have two : (2 : K) ≤ (xs.length : K) := by exact_mod_cast Nat.lt_of_not_le short
    rw [squares_eq_mul (by rintro rfl; simp at short)]
    exact le_mul_of_one_le_right (variance_nonneg xs) (by linarith)

theorem squares_le_mul {xs : List K} {n : Nat} (short : xs.length ≤ n + 1) :
    squares xs ≤ (n : K) * variance xs := by
  by_cases filled : xs = []
  · subst filled
    rw [squares_of_length_le_one (by simp), variance_of_length_le_one (by simp), mul_zero]
  · have bound : (xs.length : K) ≤ (n : K) + 1 := by exact_mod_cast short
    calc squares xs
        = ((xs.length : K) - 1) * variance xs := by rw [squares_eq_mul filled, mul_comm]
      _ ≤ (n : K) * variance xs :=
          mul_le_mul_of_nonneg_right (by linarith) (variance_nonneg xs)

/-- The sum lies between the sum of squares and a part of it. -/
structure Between (n : Nat) (xs : List K) (value : K) : Prop where
  nonneg : 0 ≤ value
  below : value ≤ squares xs
  above : squares xs ≤ (n : K) * value

theorem Between.append {n : Nat} {front part : List K} {value : K}
    (between : Between n front value) (positive : 1 ≤ n) (short : part.length ≤ n + 1) :
    Between n (front ++ part) (value + (variance part +
      ((front.length * part.length : ℕ) : K) * (mean front - mean part) *
        (mean front - mean part) / ((front.length + part.length : ℕ) : K))) := by
  obtain ⟨nonneg, below, above⟩ := between
  have distance : ((front.length * part.length : ℕ) : K) * (mean front - mean part) *
      (mean front - mean part) / ((front.length + part.length : ℕ) : K) =
        (front.length : K) * (part.length : K) / ((front.length + part.length : ℕ) : K) *
          (mean part - mean front) ^ 2 := by
    push_cast
    ring
  have far : 0 ≤ (front.length : K) * (part.length : K) /
      ((front.length + part.length : ℕ) : K) * (mean part - mean front) ^ 2 := by positivity
  have one : (1 : K) ≤ (n : K) := by exact_mod_cast positive
  have once := variance_nonneg part
  have small := variance_le_squares part
  have large := squares_le_mul short
  rw [distance]
  constructor
  · linarith
  · rw [squares_append]
    linarith
  · rw [squares_append]
    have weighted := le_mul_of_one_le_left far one
    linarith

theorem Between.run {n : Nat} (positive : 1 ≤ n) {parts : List (List K)}
    (short : ∀ part ∈ parts, part.length ≤ n + 1) {front : List K} {value : K}
    (between : Between n front value) :
    Between n (front ++ parts.flatten) (pooled front value parts) := by
  induction parts generalizing front value with
  | nil => simpa [pooled] using between
  | cons part parts ih =>
      rw [List.forall_mem_cons] at short
      rw [pooled, List.flatten_cons, ← List.append_assoc]
      exact ih short.2 (between.append positive short.1)

theorem between_variance {n : Nat} {xs : List K} (short : xs.length ≤ n + 1) :
    Between n xs (variance xs) :=
  ⟨variance_nonneg xs, variance_le_squares xs, squares_le_mul short⟩

theorem Between.eq_variance {xs : List K} {value : K} (between : Between 1 xs value)
    (two : xs.length = 2) : value = variance xs := by
  obtain ⟨_, below, above⟩ := between
  rw [Nat.cast_one, one_mul] at above
  rw [variance_eq_squares, two]
  push_cast
  linarith

theorem Between.eq_variance_iff {xs : List K} {value : K}
    (between : Between (xs.length - 2) xs value) (more : 2 < xs.length) :
    value = variance xs ↔ ∃ c, ∀ x ∈ xs, x = c := by
  obtain ⟨nonneg, below, above⟩ := between
  have large : (2 : K) < (xs.length : K) := by exact_mod_cast more
  have number : (xs.length : K) - 1 ≠ 0 := by linarith
  rw [Nat.cast_sub more.le, Nat.cast_two] at above
  rw [← squares_eq_zero_iff, variance_eq_squares, eq_div_iff number]
  constructor
  · intro equal
    have zero : value = 0 := by linarith
    rw [← equal, zero, zero_mul]
  · intro constant
    have zero : value = 0 := by linarith
    rw [constant, zero, zero_mul]

/-- Adding variances up instead of sums of squares gives the variance of the whole only when
there is one part, when there are two numbers, or when all numbers are equal. -/
theorem pooled_eq_variance_iff {first : List K} {parts : List (List K)} (filled : first ≠ [])
    (each : ∀ part ∈ parts, part ≠ []) :
    pooled first (variance first) parts = variance (first ++ parts.flatten) ↔
      parts = [] ∨ (first ++ parts.flatten).length = 2 ∨
        ∃ c, ∀ x ∈ first ++ parts.flatten, x = c := by
  cases parts with
  | nil => simp [pooled]
  | cons part parts =>
      have start := List.length_pos_iff.mpr filled
      have here := List.length_pos_iff.mpr (each part List.mem_cons_self)
      have inside : ∀ p ∈ part :: parts, p.length ≤ (part :: parts).flatten.length := by
        intro p member
        rw [List.length_flatten]
        exact List.single_le_sum (by simp) _ (List.mem_map_of_mem member)
      have first_part := inside part List.mem_cons_self
      have whole : (first ++ (part :: parts).flatten).length =
          first.length + (part :: parts).flatten.length := List.length_append
      have between {n : Nat} (positive : 1 ≤ n) (small : first.length ≤ n + 1)
          (short : (part :: parts).flatten.length ≤ n + 1) :
          Between n (first ++ (part :: parts).flatten)
            (pooled first (variance first) (part :: parts)) :=
        Between.run positive (fun p member => (inside p member).trans short)
          (between_variance small)
      -- each part leaves at least one number to the others
      by_cases two : (first ++ (part :: parts).flatten).length = 2
      · have equal := (between (Nat.le_refl 1) (by omega) (by omega)).eq_variance two
        exact iff_of_true equal (Or.inr (Or.inl two))
      · have more : 2 < (first ++ (part :: parts).flatten).length := by omega
        rw [(between (by omega) (by omega) (by omega)).eq_variance_iff more]
        constructor
        · exact fun constant => Or.inr (Or.inr constant)
        · rintro (none_left | few | constant)
          · cases none_left
          · exact absurd few two
          · exact constant

end Pooled

end Comoment
