import Melissa.Stats.Merge
import Mathlib.Data.Nat.Cast.Field

/-! `update_variance`, `update_global_mean_and_variance` and `update_covariance`. The structures
they put together hold normalised values, divided by one less than the count. -/

namespace Melissa

open Arrays Comoment

section Update

variable {D : Type} [Zero D] [Add D] [Sub D] [Mul D] [Div D] [NatCast D]

/-- The product of the counters is an `int` in the source. It goes to a product of doubles before
anything divides it, so with the doubles exact it is taken as exact too. -/
def updateVariance (variance1 variance2 updatedVariance : Variance D) (vectSize : Nat) :
    Variance D :=
  let mean1 := variance1.meanStructure
  let mean2 := variance2.meanStructure
  let updatedMean := updateMean mean1 mean2 updatedVariance.meanStructure vectSize
  { meanStructure := updatedMean
    variance := overwrite vectSize (fun i =>
      let delta := mean1.mean.getD i 0 - mean2.mean.getD i 0
      variance1.variance.getD i 0 + variance2.variance.getD i 0 +
        ((mean1.increment * mean2.increment : ℕ) : D) * delta * delta /
          (updatedMean.increment : D)) updatedVariance.variance }

/-- One turn of the loop in `update_global_mean_and_variance`, which updates the mean as
`update_global_mean` does. The counters are exact as in `update_variance`. -/
def receiveVariance (vectSize : Nat) (global received : Variance D) : Variance D :=
  let increment := global.meanStructure.increment
  let tempInc := received.meanStructure.increment
  { meanStructure := receiveMean vectSize global.meanStructure received.meanStructure
    variance := overwrite vectSize (fun i =>
      let delta := global.meanStructure.mean.getD i 0 - received.meanStructure.mean.getD i 0
      global.variance.getD i 0 + (received.variance.getD i 0 +
        ((increment * tempInc : ℕ) : D) * delta * delta / ((increment + tempInc : ℕ) : D)))
      global.variance }

/-- The structures of all ranks after `update_global_mean_and_variance`. -/
def updateGlobalMeanAndVariance (vectSize : Nat) : List (Variance D) → List (Variance D)
  | [] => []
  | root :: others => others.foldl (receiveVariance vectSize) root :: others

/-- Here the `int` matter: the product of the counters is divided as one, and a counter or a product
that `int` does not hold leaves nothing defined. -/
def updateCovariance [IntCast D] (covariance1 covariance2 updatedCovariance : Covariance D)
    (vectSize : Nat) : Option (Covariance D) :=
  let increment := covariance1.increment + covariance2.increment
  let product := covariance1.increment * covariance2.increment
  if 2 ^ 31 ≤ increment then none
  -- the loop evaluates the product and the quotient for each component
  else if 0 < vectSize ∧ (2 ^ 31 ≤ product ∨ increment = 0) then none
  else some {
    increment := increment
    covariance := overwrite vectSize (fun i =>
      ((((covariance1.increment : Int) - 1 : Int) : D) * covariance1.covariance.getD i 0 +
        (((covariance2.increment : Int) - 1 : Int) : D) * covariance2.covariance.getD i 0 +
        ((product / increment : ℕ) : D) *
          (covariance2.mean1.mean.getD i 0 - covariance1.mean1.mean.getD i 0) *
          (covariance2.mean2.mean.getD i 0 - covariance1.mean2.mean.getD i 0)) /
        (((increment : Int) - 1 : Int) : D)) updatedCovariance.covariance
    mean1 := updateMean covariance1.mean1 covariance2.mean1 updatedCovariance.mean1 vectSize
    mean2 := updateMean covariance1.mean2 covariance2.mean2 updatedCovariance.mean2 vectSize }

end Update

section Variances

variable {K : Type} [Field K]

def varianceOf (vectSize : Nat) (vectors : List (List K)) : Variance K :=
  { meanStructure := meanOf vectSize vectors
    variance := (List.range vectSize).map fun i => variance (componentOf vectors i) }

/-- What the code leaves for `front` and the vectors of the `parts`: the mean structure of all,
and variances that were added up. -/
def pooledOf (vectSize : Nat) (front : List (List K)) (value : Nat → K)
    (parts : List (List (List K))) : Variance K :=
  { meanStructure := meanOf vectSize (front ++ parts.flatten)
    variance := (List.range vectSize).map fun i =>
      pooled (componentOf front i) (value i) (parts.map fun part => componentOf part i) }

theorem incrementVariance_meanStructure (held : Variance K) (vect : List K) (vectSize : Nat) :
    (incrementVariance held vect vectSize).meanStructure =
      incrementMean held.meanStructure vect vectSize := by
  rw [incrementVariance, incrementMeanAndVariance]
  split
  · rfl
  · rfl

theorem varianceRun_meanStructure (vectSize : Nat) (vectors : List (List K)) :
    (varianceRun vectSize vectors).meanStructure = meanRun vectSize vectors := by
  induction vectors using List.reverseRecOn with
  | nil => rfl
  | append_singleton vectors vect ih =>
      rw [varianceRun, List.foldl_append, meanRun, List.foldl_append]
      exact (incrementVariance_meanStructure _ vect vectSize).trans
        (congrArg (incrementMean · vect vectSize) ih)

theorem varianceRun_length (vectSize : Nat) (vectors : List (List K)) :
    (varianceRun vectSize vectors).variance.length = vectSize := by
  induction vectors using List.reverseRecOn with
  | nil => exact List.length_replicate ..
  | append_singleton vectors vect ih =>
      rw [varianceRun, List.foldl_append, List.foldl_cons, List.foldl_nil, incrementVariance,
        incrementMeanAndVariance]
      split
      · exact overwrite_length ih _
      · exact ih

variable [CharZero K]

theorem varianceRun_eq (vectSize : Nat) (vectors : List (List K)) :
    varianceRun vectSize vectors = varianceOf vectSize vectors := by
  have variances := (varianceRun_tracks vectSize vectors).variance
  have mean := varianceRun_meanStructure vectSize vectors
  rw [varianceOf, ← eq_map_range (varianceRun_length vectSize vectors) 0 variances,
    ← meanRun_eq, ← mean]

theorem updateVariance_varianceOf {vectSize : Nat} {updated : Variance K}
    (allocated : updated.variance.length = vectSize)
    (allocatedMean : updated.meanStructure.mean.length = vectSize) (xs ys : List (List K)) :
    updateVariance (varianceOf vectSize xs) (varianceOf vectSize ys) updated vectSize =
      pooledOf vectSize xs (fun i => variance (componentOf xs i)) [ys] := by
  have merged := updateMean_meanOf allocatedMean xs ys
  simp only [updateVariance, varianceOf, merged, overwrite_full allocated, pooledOf,
    List.flatten_singleton]
  congr 1
  apply List.map_congr_left
  intro i member
  have inside := List.mem_range.mp member
  simp only [meanOf, getD_map_range inside, List.map_singleton, pooled, componentOf_length,
    List.length_append]
  ring

theorem receiveVariance_pooledOf (vectSize : Nat) (front part : List (List K))
    (value : Nat → K) :
    receiveVariance vectSize (pooledOf vectSize front value []) (varianceOf vectSize part) =
      pooledOf vectSize (front ++ part) (fun i => pooled (componentOf front i) (value i)
        [componentOf part i]) [] := by
  have written : ((List.range vectSize).map value).length = vectSize := by simp
  simp only [receiveVariance, pooledOf, varianceOf, List.flatten_nil, List.append_nil, pooled,
    List.map_nil, receiveMean_meanOf, overwrite_full written]
  congr 1
  apply List.map_congr_left
  intro i member
  have inside := List.mem_range.mp member
  simp only [meanOf, getD_map_range inside, componentOf_length]

theorem foldl_receiveVariance (vectSize : Nat) (parts : List (List (List K)))
    (front : List (List K)) (value : Nat → K) :
    (parts.map (varianceOf vectSize)).foldl (receiveVariance vectSize)
        (pooledOf vectSize front value []) =
      pooledOf vectSize front value parts := by
  induction parts generalizing front value with
  | nil => rfl
  | cons part parts ih =>
      rw [List.map_cons, List.foldl_cons, receiveVariance_pooledOf, ih]
      simp only [pooledOf, List.flatten_cons, List.append_assoc, componentOf_append,
        List.map_cons, pooled]

theorem updateGlobalMeanAndVariance_varianceOf (vectSize : Nat) (root : List (List K))
    (others : List (List (List K))) :
    updateGlobalMeanAndVariance vectSize ((root :: others).map (varianceOf vectSize)) =
      pooledOf vectSize root (fun i => variance (componentOf root i)) others ::
        others.map (varianceOf vectSize) := by
  have start : varianceOf vectSize root =
      pooledOf vectSize root (fun i => variance (componentOf root i)) [] := by
    simp [varianceOf, pooledOf, pooled]
  rw [List.map_cons, updateGlobalMeanAndVariance, start, foldl_receiveVariance]

end Variances

section Exact

variable {K : Type} [Field K] [LinearOrder K] [IsStrictOrderedRing K]

/-- The variances that were added up are the variance of the whole. -/
theorem pooledOf_eq_iff {vectSize : Nat} {front : List (List K)} {parts : List (List (List K))}
    (filled : front ≠ []) (each : ∀ part ∈ parts, part ≠ []) :
    pooledOf vectSize front (fun i => variance (componentOf front i)) parts =
        varianceOf vectSize (front ++ parts.flatten) ↔
      parts = [] ∨ (front ++ parts.flatten).length = 2 ∨
        ∀ i < vectSize, Constant (front ++ parts.flatten) i := by
  have component (i : Nat) :
      pooled (componentOf front i) (variance (componentOf front i))
          (parts.map fun part => componentOf part i) =
        variance (componentOf (front ++ parts.flatten) i) ↔
      parts = [] ∨ (front ++ parts.flatten).length = 2 ∨
        Constant (front ++ parts.flatten) i := by
    have whole : componentOf front i ++ (parts.map fun part => componentOf part i).flatten =
        componentOf (front ++ parts.flatten) i := by
      simp only [componentOf, List.map_append, List.map_flatten]
    have start : componentOf front i ≠ [] := by simpa [componentOf] using filled
    have each' : ∀ part ∈ parts.map fun part => componentOf part i, part ≠ [] := by
      intro part member
      obtain ⟨vectors, inside, rfl⟩ := List.mem_map.mp member
      simpa [componentOf] using each vectors inside
    rw [← whole, pooled_eq_variance_iff start each', whole, List.map_eq_nil_iff,
      componentOf_length]
    exact or_congr_right (or_congr_right constant_column)
  simp only [pooledOf, varianceOf, Variance.mk.injEq, and_true, List.map_inj_left, List.mem_range,
    component]
  by_cases none_left : parts = []
  · simp only [none_left, true_or, implies_true]
  · by_cases two : (front ++ parts.flatten).length = 2
    · simp only [two, true_or, or_true, implies_true]
    · simp only [none_left, two, false_or]

/-- Merging two structures, and reducing those of all ranks, gives what one pass over all vectors
gives only if one rank has everything, there are two vectors, or all vectors are the same. -/
theorem mergedVariances_iff {vectSize : Nat} {updated : Variance K} {xs ys root : List (List K)}
    {others : List (List (List K))} (allocated : updated.variance.length = vectSize)
    (allocatedMean : updated.meanStructure.mean.length = vectSize) (left : xs ≠ [])
    (right : ys ≠ []) (filled : root ≠ []) (each : ∀ part ∈ others, part ≠ []) :
    (updateVariance (varianceRun vectSize xs) (varianceRun vectSize ys) updated vectSize =
        varianceRun vectSize (xs ++ ys) ↔
      (xs ++ ys).length = 2 ∨ ∀ i < vectSize, Constant (xs ++ ys) i) ∧
    (updateGlobalMeanAndVariance vectSize ((root :: others).map (varianceRun vectSize)) =
        varianceRun vectSize (root ++ others.flatten) :: others.map (varianceRun vectSize) ↔
      others = [] ∨ (root ++ others.flatten).length = 2 ∨
        ∀ i < vectSize, Constant (root ++ others.flatten) i) := by
  have runs : varianceRun vectSize = varianceOf (K := K) vectSize :=
    funext (varianceRun_eq vectSize)
  simp only [runs]
  constructor
  · have other : ∀ part ∈ [ys], part ≠ [] := by simpa using right
    have merged := @pooledOf_eq_iff K _ _ _ vectSize xs [ys] left other
    rw [List.flatten_singleton] at merged
    rw [updateVariance_varianceOf allocated allocatedMean, merged]
    simp only [List.cons_ne_nil, false_or]
  · rw [updateGlobalMeanAndVariance_varianceOf, List.cons.injEq, and_iff_left rfl]
    exact pooledOf_eq_iff filled each

/-- Two processes with one vector each, and one process alone. -/
theorem mergedVariances_iff_twoSamples :
    updateVariance (varianceRun 1 [[0]]) (varianceRun 1 [[2]]) (initVariance 1) 1 =
        varianceRun 1 [[(0 : ℚ)], [2]] ∧
      updateGlobalMeanAndVariance 1 [varianceRun 1 [[0], [2], [5]]] =
        [varianceRun 1 [[(0 : ℚ)], [2], [5]]] := by
  have both := @mergedVariances_iff ℚ _ _ _ 1 (initVariance 1) [[0]] [[2]] [[0], [2], [5]] []
    rfl rfl (by simp) (by simp) (by simp) (by simp)
  exact ⟨both.1.mpr (Or.inl rfl), both.2.mpr (Or.inl rfl)⟩

/-- The variance of 0, 2 and 0 is 4/3, the variances of 0, 2 and of 0 give 8/3. -/
theorem not_mergedVariances_threeSamples :
    updateVariance (varianceRun 1 [[0], [2]]) (varianceRun 1 [[0]]) (initVariance 1) 1 ≠
        varianceRun 1 [[(0 : ℚ)], [2], [0]] ∧
      updateGlobalMeanAndVariance 1 [varianceRun 1 [[0], [2]], varianceRun 1 [[0]]] ≠
        [varianceRun 1 [[(0 : ℚ)], [2], [0]], varianceRun 1 [[0]]] := by
  decide +kernel

end Exact

section Covariances

variable {K : Type} [Field K]

def covarianceOf (vectSize : Nat) (pairs : List (List K × List K)) : Covariance K :=
  { covariance := (List.range vectSize).map fun i => covariance (componentPairs pairs i)
    mean1 := meanOf vectSize (pairs.map Prod.fst)
    mean2 := meanOf vectSize (pairs.map Prod.snd)
    increment := pairs.length }

theorem componentPairs_append (pairs pairs' : List (List K × List K)) (i : Nat) :
    componentPairs (pairs ++ pairs') i = componentPairs pairs i ++ componentPairs pairs' i :=
  List.map_append

theorem covarianceRun_means (vectSize : Nat) (pairs : List (List K × List K)) :
    (covarianceRun vectSize pairs).mean1 = meanRun vectSize (pairs.map Prod.fst) ∧
      (covarianceRun vectSize pairs).mean2 = meanRun vectSize (pairs.map Prod.snd) := by
  induction pairs using List.reverseRecOn with
  | nil => exact ⟨rfl, rfl⟩
  | append_singleton pairs pair ih =>
      rw [covarianceRun, List.foldl_append, List.map_append, List.map_append, meanRun, meanRun,
        List.foldl_append, List.foldl_append]
      exact ⟨congrArg (incrementMean · pair.1 vectSize) ih.1,
        congrArg (incrementMean · pair.2 vectSize) ih.2⟩

theorem covarianceRun_length (vectSize : Nat) (pairs : List (List K × List K)) :
    (covarianceRun vectSize pairs).covariance.length = vectSize := by
  induction pairs using List.reverseRecOn with
  | nil => exact List.length_replicate ..
  | append_singleton pairs pair ih =>
      rw [covarianceRun, List.foldl_append, List.foldl_cons, List.foldl_nil]
      unfold incrementCovariance
      dsimp only
      split
      · exact overwrite_length ih _
      · exact ih

variable [CharZero K]

theorem covarianceRun_eq (vectSize : Nat) (pairs : List (List K × List K)) :
    covarianceRun vectSize pairs = covarianceOf vectSize pairs := by
  have tracks := covarianceRun_tracks vectSize pairs
  obtain ⟨mean1, mean2⟩ := covarianceRun_means vectSize pairs
  rw [covarianceOf, ← eq_map_range (covarianceRun_length vectSize pairs) 0 tracks.covariance,
    ← meanRun_eq, ← meanRun_eq, ← mean1, ← mean2, ← tracks.increment]

/-- An integer quotient is the quotient only when it is exact. -/
theorem cast_div_eq_iff {n m : Nat} (positive : m ≠ 0) :
    ((n / m : ℕ) : K) = (n : K) / (m : K) ↔ m ∣ n := by
  have number : (m : K) ≠ 0 := Nat.cast_ne_zero.mpr positive
  constructor
  · intro equal
    rw [eq_div_iff number] at equal
    exact ⟨n / m, by rw [Nat.mul_comm]; exact_mod_cast equal.symm⟩
  · intro whole
    exact Nat.cast_div whole number

/-- The covariance of the whole with the integer quotient in place of the weight. -/
theorem truncated_eq_iff {xs ys : List (K × K)} (left : xs ≠ []) (right : ys ≠ []) :
    (((xs.length : K) - 1) * covariance xs + ((ys.length : K) - 1) * covariance ys +
        ((xs.length * ys.length / (xs.length + ys.length) : ℕ) : K) *
          (mean (ys.map Prod.fst) - mean (xs.map Prod.fst)) *
          (mean (ys.map Prod.snd) - mean (xs.map Prod.snd))) /
        ((xs.length : K) + (ys.length : K) - 1) = covariance (xs ++ ys) ↔
      xs.length + ys.length ∣ xs.length * ys.length ∨
        mean (xs.map Prod.fst) = mean (ys.map Prod.fst) ∨
        mean (xs.map Prod.snd) = mean (ys.map Prod.snd) := by
  have positive := List.length_pos_iff.mpr left
  have positive' := List.length_pos_iff.mpr right
  have number : (xs.length : K) + (ys.length : K) - 1 ≠ 0 := by
    have other : xs.length + ys.length ≠ 1 := by omega
    rw [sub_ne_zero]
    exact_mod_cast other
  have total : xs.length + ys.length ≠ 0 := by omega
  have whole : covariance (xs ++ ys) =
      (comoment xs + comoment ys +
        (xs.length : K) * (ys.length : K) / ((xs.length + ys.length : ℕ) : K) *
          ((mean (ys.map Prod.fst) - mean (xs.map Prod.fst)) *
            (mean (ys.map Prod.snd) - mean (xs.map Prod.snd)))) /
        ((xs.length : K) + (ys.length : K) - 1) := by
    rw [covariance, comoment_append, List.length_append, Nat.cast_add]
  have sums : ((xs.length : K) - 1) * covariance xs + ((ys.length : K) - 1) * covariance ys =
      comoment xs + comoment ys := by
    rw [← covariance_mul left, ← covariance_mul right]
    ring
  rw [whole, sums, div_left_inj' number, add_right_inj, mul_assoc, mul_eq_mul_right_iff,
    ← Nat.cast_mul, cast_div_eq_iff total, mul_eq_zero, sub_eq_zero, sub_eq_zero]
  exact or_congr_right (or_congr eq_comm eq_comm)

/-- Where the code meets one pass: the counts are `int`s, and for each component the division of
their product is exact or does not matter, because the two means of one side agree. -/
def MergesExactly (vectSize : Nat) (xs ys : List (List K × List K)) : Prop :=
  xs.length + ys.length < 2 ^ 31 ∧ ∀ i < vectSize, xs.length * ys.length < 2 ^ 31 ∧
    (xs.length + ys.length ∣ xs.length * ys.length ∨
      mean (componentOf (xs.map Prod.fst) i) = mean (componentOf (ys.map Prod.fst) i) ∨
      mean (componentOf (xs.map Prod.snd) i) = mean (componentOf (ys.map Prod.snd) i))

theorem updateCovariance_covarianceOf {vectSize : Nat} {updated : Covariance K}
    {xs ys : List (List K × List K)} (allocated : updated.covariance.length = vectSize)
    (allocated1 : updated.mean1.mean.length = vectSize)
    (allocated2 : updated.mean2.mean.length = vectSize) (left : xs ≠ [])
    (counted : xs.length + ys.length < 2 ^ 31)
    (product : 0 < vectSize → xs.length * ys.length < 2 ^ 31) :
    updateCovariance (covarianceOf vectSize xs) (covarianceOf vectSize ys) updated vectSize =
      some { covarianceOf vectSize (xs ++ ys) with
        covariance := (List.range vectSize).map fun i =>
          (((xs.length : K) - 1) * covariance (componentPairs xs i) +
            ((ys.length : K) - 1) * covariance (componentPairs ys i) +
            ((xs.length * ys.length / (xs.length + ys.length) : ℕ) : K) *
              (mean (componentOf (ys.map Prod.fst) i) - mean (componentOf (xs.map Prod.fst) i)) *
              (mean (componentOf (ys.map Prod.snd) i) -
                mean (componentOf (xs.map Prod.snd) i))) /
            ((xs.length : K) + (ys.length : K) - 1) } := by
  have positive := List.length_pos_iff.mpr left
  have defined : ¬ (0 < vectSize ∧
      (2 ^ 31 ≤ xs.length * ys.length ∨ xs.length + ys.length = 0)) := by
    rintro ⟨some_component, large | empty⟩
    · exact absurd (product some_component) (Nat.not_lt.mpr large)
    · omega
  simp only [updateCovariance, covarianceOf, if_neg (Nat.not_le.mpr counted), if_neg defined,
    overwrite_full allocated, updateMean_meanOf allocated1, updateMean_meanOf allocated2,
    List.map_append, List.length_append]
  congr 2
  apply List.map_congr_left
  intro i member
  have inside := List.mem_range.mp member
  simp only [meanOf, getD_map_range inside]
  push_cast
  rfl

/-- Merging two structures gives what one pass gives only under that condition. -/
theorem mergedCovariance_iff {vectSize : Nat} {updated : Covariance K}
    {xs ys : List (List K × List K)} (allocated : updated.covariance.length = vectSize)
    (allocated1 : updated.mean1.mean.length = vectSize)
    (allocated2 : updated.mean2.mean.length = vectSize) (left : xs ≠ []) (right : ys ≠ []) :
    updateCovariance (covarianceRun vectSize xs) (covarianceRun vectSize ys) updated vectSize =
        some (covarianceRun vectSize (xs ++ ys)) ↔
      MergesExactly vectSize xs ys := by
  rw [covarianceRun_eq, covarianceRun_eq, covarianceRun_eq]
  by_cases fits : xs.length + ys.length < 2 ^ 31 ∧
      (0 < vectSize → xs.length * ys.length < 2 ^ 31)
  · obtain ⟨counted, product⟩ := fits
    have component (i : Nat) := truncated_eq_iff
      (show componentPairs xs i ≠ [] by simpa [componentPairs] using left)
      (show componentPairs ys i ≠ [] by simpa [componentPairs] using right)
    simp only [componentPairs_length, componentPairs_fst, componentPairs_snd,
      ← componentPairs_append] at component
    rw [updateCovariance_covarianceOf allocated allocated1 allocated2 left counted product]
    simp only [covarianceOf, Option.some.injEq, Covariance.mk.injEq, and_true, List.map_inj_left,
      List.mem_range, component, MergesExactly, counted, true_and]
    constructor
    · intro exact i inside
      exact ⟨product (by omega), exact i inside⟩
    · intro exact i inside
      exact (exact i inside).2
  · have undefined : updateCovariance (covarianceOf vectSize xs) (covarianceOf vectSize ys) updated
        vectSize = none := by
      by_cases counted : xs.length + ys.length < 2 ^ 31
      · have large : 0 < vectSize ∧ 2 ^ 31 ≤ xs.length * ys.length := by
          rw [not_and, Classical.not_imp, Nat.not_lt] at fits
          exact fits counted
        simp only [updateCovariance, covarianceOf, if_neg (Nat.not_le.mpr counted), large,
          true_and, true_or, if_true]
      · exact if_pos (Nat.not_lt.mp counted)
    rw [undefined]
    constructor
    · intro merged
      cases merged
    · intro exact
      exact absurd ⟨exact.1, fun some_component => (exact.2 0 some_component).1⟩ fits

/-- One pair and three pairs: 3/4 is cut off to 0, but the second components have equal means. -/
theorem mergedCovariance_iff_equalMeans :
    updateCovariance (covarianceRun 1 [([(0 : ℚ)], [2])])
        (covarianceRun 1 [([1], [1]), ([5], [2]), ([3], [3])]) (initCovariance 1) 1 =
      some (covarianceRun 1 ([([0], [2])] ++ [([1], [1]), ([5], [2]), ([3], [3])])) := by
  have iff := @mergedCovariance_iff ℚ _ _ 1 (initCovariance 1) [([0], [2])]
    [([1], [1]), ([5], [2]), ([3], [3])] rfl rfl rfl (by simp) (by simp)
  apply iff.mpr
  refine ⟨by decide, ?_⟩
  intro i inside
  obtain rfl : i = 0 := by omega
  exact ⟨by decide, Or.inr (Or.inr (by decide +kernel))⟩

/-- One pair on each side: the weight 1/2 is cut off to 0, and so is the covariance 1/2. -/
theorem not_mergedCovariance_twoPairs :
    updateCovariance (covarianceRun 1 [([0], [0])]) (covarianceRun 1 [([1], [1])])
        (initCovariance 1) 1 ≠
      some (covarianceRun 1 [([(0 : ℚ)], [0]), ([1], [1])]) := by
  decide +kernel

end Covariances

end Melissa
