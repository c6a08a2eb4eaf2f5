import Melissa.Base.Comoment
import Melissa.Stats.Sobol
import Mathlib.Algebra.BigOperators.Ring.Finset
import Mathlib.Algebra.Order.Field.Basic

/-! `covariance.c` and what the accumulators of the Martinez estimator hold after a sequence of
groups. The covariances of `sobol.c` are updated with a counter that lags one behind. -/

namespace Melissa

open Arrays Comoment

/-- `covariance_t`. -/
structure Covariance (D : Type) where
  covariance : List D
  mean1 : Mean D
  mean2 : Mean D
  increment : Nat
  deriving DecidableEq, Repr

def initCovariance {D : Type} [Zero D] (vectSize : Nat) : Covariance D :=
  { covariance := List.replicate vectSize 0, mean1 := initMean vectSize,
    mean2 := initMean vectSize, increment := 0 }

section Increment

variable {D : Type} [Zero D] [Add D] [Sub D] [Mul D] [Div D] [NatCast D]

/-- `mean2` is updated after the loop. -/
def incrementCovariance (covariance : Covariance D) (inVect1 inVect2 : List D) (vectSize : Nat) :
    Covariance D :=
  let increment := covariance.increment + 1
  let incr : D := (increment : D)
  let mean1 := incrementMean covariance.mean1 inVect1 vectSize
  { increment := increment
    mean1 := mean1
    covariance :=
      if increment > 1 then
        overwrite vectSize (fun i =>
          (covariance.covariance.getD i 0 * (incr - ((2 : ℕ) : D)) +
            (inVect1.getD i 0 - mean1.mean.getD i 0) *
              (inVect2.getD i 0 - covariance.mean2.mean.getD i 0)) / (incr - ((1 : ℕ) : D)))
          covariance.covariance
      else covariance.covariance
    mean2 := incrementMean covariance.mean2 inVect2 vectSize }

/-- The structure after the given pairs of vectors. -/
def covarianceRun (vectSize : Nat) (pairs : List (List D × List D)) : Covariance D :=
  pairs.foldl (fun covariance pair => incrementCovariance covariance pair.1 pair.2 vectSize)
    (initCovariance vectSize)

def meanRun (vectSize : Nat) (vectors : List (List D)) : Mean D :=
  vectors.foldl (fun mean vect => incrementMean mean vect vectSize) (initMean vectSize)

def varianceRun (vectSize : Nat) (vectors : List (List D)) : Variance D :=
  vectors.foldl (fun variance vect => incrementVariance variance vect vectSize)
    (initVariance vectSize)

variable [LT D] [DecidableLT D] [Libm D]

/-- The structure after the given groups of vectors. -/
def martinezRun (nbParameters vectSize : Nat) (groups : List (List (List D))) : SobolArray D :=
  groups.foldl (fun sobolArray inVectTab => incrementSobolMartinez sobolArray inVectTab vectSize)
    (initSobolMartinez nbParameters vectSize)

end Increment

/-! ### What the counters, means and variances hold -/

section Tracks

variable {K : Type}

/-- The vectors with index `k` in the groups received so far: 0 is A, 1 is B, `k + 2` is C_k. -/
def vectorsOf (groups : List (List (List K))) (k : Nat) : List (List K) :=
  groups.map fun inVectTab => inVectTab.getD k []

/-- Two of the vectors of each group. -/
def vectorPairs (groups : List (List (List K))) (k l : Nat) : List (List K × List K) :=
  groups.map fun inVectTab => (inVectTab.getD k [], inVectTab.getD l [])

theorem vectorPairs_fst (groups : List (List (List K))) (k l : Nat) :
    (vectorPairs groups k l).map Prod.fst = vectorsOf groups k := by
  simp [vectorPairs, vectorsOf, Function.comp_def]

theorem vectorPairs_snd (groups : List (List (List K))) (k l : Nat) :
    (vectorPairs groups k l).map Prod.snd = vectorsOf groups l := by
  simp [vectorPairs, vectorsOf, Function.comp_def]

variable [Field K]

/-- The `i`-th components of vectors. -/
def componentOf (vectors : List (List K)) (i : Nat) : List K :=
  vectors.map fun vect => vect.getD i 0

/-- The pairs of `i`-th components of pairs of vectors. -/
def componentPairs (pairs : List (List K × List K)) (i : Nat) : List (K × K) :=
  pairs.map fun pair => (pair.1.getD i 0, pair.2.getD i 0)

theorem componentPairs_fst (pairs : List (List K × List K)) (i : Nat) :
    (componentPairs pairs i).map Prod.fst = componentOf (pairs.map Prod.fst) i := by
  simp [componentPairs, componentOf, Function.comp_def]

theorem componentPairs_snd (pairs : List (List K × List K)) (i : Nat) :
    (componentPairs pairs i).map Prod.snd = componentOf (pairs.map Prod.snd) i := by
  simp [componentPairs, componentOf, Function.comp_def]

theorem componentPairs_concat (pairs : List (List K × List K)) (pair : List K × List K) (i : Nat) :
    componentPairs (pairs ++ [pair]) i =
      componentPairs pairs i ++ [(pair.1.getD i 0, pair.2.getD i 0)] := by
  simp [componentPairs]

theorem componentPairs_length (pairs : List (List K × List K)) (i : Nat) :
    (componentPairs pairs i).length = pairs.length :=
  List.length_map ..

/-- The mean structure after the given vectors. -/
structure MeanTracks (vectSize : Nat) (vectors : List (List K)) (held : Mean K) : Prop where
  increment : held.increment = vectors.length
  mean : ∀ i < vectSize, held.mean.getD i 0 = mean (componentOf vectors i)

structure VarianceTracks (vectSize : Nat) (vectors : List (List K)) (held : Variance K) :
    Prop where
  meanStructure : MeanTracks vectSize vectors held.meanStructure
  variance : ∀ i < vectSize, held.variance.getD i 0 = variance (componentOf vectors i)

theorem getD_replicate_zero (vectSize i : Nat) :
    (List.replicate vectSize (0 : K)).getD i 0 = 0 := by
  simp only [List.getD_eq_getElem?_getD, List.getElem?_replicate]
  split <;> rfl

theorem initMean_tracks (vectSize : Nat) : MeanTracks vectSize [] (initMean (D := K) vectSize) := by
  constructor
  · rfl
  · intro i _
    rw [initMean, getD_replicate_zero]
    simp [componentOf, mean]

theorem initVariance_tracks [CharZero K] (vectSize : Nat) :
    VarianceTracks vectSize [] (initVariance (D := K) vectSize) := by
  constructor
  · exact initMean_tracks vectSize
  · intro i _
    rw [initVariance, getD_replicate_zero, variance_of_length_le_one (by simp [componentOf])]

theorem componentOf_concat (vectors : List (List K)) (vect : List K) (i : Nat) :
    componentOf (vectors ++ [vect]) i = componentOf vectors i ++ [vect.getD i 0] := by
  simp [componentOf]

variable [CharZero K]

theorem incrementMean_tracks {vectSize : Nat} {vectors : List (List K)} {held : Mean K}
    (tracks : MeanTracks vectSize vectors held) (vect : List K) :
    MeanTracks vectSize (vectors ++ [vect]) (incrementMean held vect vectSize) := by
  obtain ⟨increment, means⟩ := tracks
  constructor
  · rw [List.length_append, List.length_singleton, ← increment]
    rfl
  · intro i inside
    have same : (componentOf vectors i).length = vectors.length := List.length_map ..
    calc (incrementMean held vect vectSize).mean.getD i 0
        = held.mean.getD i 0 + (vect.getD i 0 - held.mean.getD i 0) /
            ((held.increment + 1 : ℕ) : K) := getD_overwrite inside _ _ _
      _ = mean (componentOf vectors i ++ [vect.getD i 0]) := by
          rw [means i inside, increment, mean_concat, same]
      _ = mean (componentOf (vectors ++ [vect]) i) := by rw [componentOf_concat]

theorem incrementVariance_tracks {vectSize : Nat} {vectors : List (List K)}
    {held : Variance K} (tracks : VarianceTracks vectSize vectors held)
    (vect : List K) :
    VarianceTracks vectSize (vectors ++ [vect]) (incrementVariance held vect vectSize) := by
  obtain ⟨means, variances⟩ := tracks
  have means' := incrementMean_tracks means vect
  have increment := means'.increment
  rw [List.length_append, List.length_singleton] at increment
  by_cases first : vectors = []
  · subst first
    have one : ¬ (incrementMean held.meanStructure vect vectSize).increment > 1 := by
      rw [increment]
      simp
    rw [incrementVariance, incrementMeanAndVariance, if_neg one]
    refine ⟨means', ?_⟩
    intro i inside
    rw [variance_of_length_le_one (by simp [componentOf])]
    exact (variances i inside).trans (variance_of_length_le_one (by simp [componentOf]))
  · have number := List.length_pos_iff.mpr first
    have more : (incrementMean held.meanStructure vect vectSize).increment > 1 := by
      omega
    rw [incrementVariance, incrementMeanAndVariance, if_pos more]
    refine ⟨means', ?_⟩
    intro i inside
    have filled : componentOf vectors i ≠ [] := by simpa [componentOf] using first
    have same : (componentOf vectors i).length = vectors.length := List.length_map ..
    rw [getD_overwrite inside, means'.mean i inside, variances i inside, increment,
      componentOf_concat, variance_concat filled, same]
    push_cast
    ring_nf

/-- The structure of `covariance.c` after the given pairs of vectors. -/
structure CovarianceTracks (vectSize : Nat) (pairs : List (List K × List K))
    (held : Covariance K) : Prop where
  increment : held.increment = pairs.length
  mean1 : MeanTracks vectSize (pairs.map Prod.fst) held.mean1
  mean2 : MeanTracks vectSize (pairs.map Prod.snd) held.mean2
  covariance : ∀ i < vectSize, held.covariance.getD i 0 = covariance (componentPairs pairs i)

theorem incrementCovariance_tracks {vectSize : Nat} {pairs : List (List K × List K)}
    {held : Covariance K} (tracks : CovarianceTracks vectSize pairs held)
    (pair : List K × List K) :
    CovarianceTracks vectSize (pairs ++ [pair])
      (incrementCovariance held pair.1 pair.2 vectSize) := by
  obtain ⟨increment, mean1, mean2, covariances⟩ := tracks
  have mean1' := incrementMean_tracks mean1 pair.1
  have mean2' := incrementMean_tracks mean2 pair.2
  constructor
  · rw [List.length_append, List.length_singleton, ← increment]
    rfl
  · rw [List.map_append]
    exact mean1'
  · rw [List.map_append]
    exact mean2'
  intro i inside
  by_cases first : pairs = []
  · subst first
    have one : ¬ held.increment + 1 > 1 := by
      rw [increment]
      simp
    rw [covariance_of_length_le_one (by simp [componentPairs]), incrementCovariance]
    simp only [if_neg one]
    exact (covariances i inside).trans (covariance_of_length_le_one (by simp [componentPairs]))
  · have number := List.length_pos_iff.mpr first
    have more : held.increment + 1 > 1 := by omega
    have filled : componentPairs pairs i ≠ [] := by simpa [componentPairs] using first
    simp only [incrementCovariance, if_pos more]
    rw [getD_overwrite inside, mean1'.mean i inside, mean2.mean i inside, covariances i inside,
      increment, componentOf_concat, componentPairs_concat, covariance_concat_mixed filled,
      componentPairs_fst, componentPairs_snd, componentPairs_length]
    push_cast
    ring_nf

/-- `increment_covariance` holds the sample covariance of the pairs it has received. -/
theorem covarianceRun_tracks (vectSize : Nat) (pairs : List (List K × List K)) :
    CovarianceTracks vectSize pairs (covarianceRun vectSize pairs) := by
  induction pairs using List.reverseRecOn with
  | nil =>
      refine ⟨rfl, initMean_tracks vectSize, initMean_tracks vectSize, ?_⟩
      intro i _
      rw [covarianceRun, List.foldl_nil, initCovariance, getD_replicate_zero,
        covariance_of_length_le_one (by simp [componentPairs])]
  | append_singleton pairs pair ih =>
      rw [covarianceRun, List.foldl_append]
      exact incrementCovariance_tracks ih pair

theorem meanRun_tracks (vectSize : Nat) (vectors : List (List K)) :
    MeanTracks vectSize vectors (meanRun vectSize vectors) := by
  induction vectors using List.reverseRecOn with
  | nil => exact initMean_tracks vectSize
  | append_singleton vectors vect ih =>
      rw [meanRun, List.foldl_append]
      exact incrementMean_tracks ih vect

theorem varianceRun_tracks (vectSize : Nat) (vectors : List (List K)) :
    VarianceTracks vectSize vectors (varianceRun vectSize vectors) := by
  induction vectors using List.reverseRecOn with
  | nil => exact initVariance_tracks vectSize
  | append_singleton vectors vect ih =>
      rw [varianceRun, List.foldl_append]
      exact incrementVariance_tracks ih vect

/-- The two-pass definitions, with the mean of the whole sequence. -/
structure VarianceUnbiased (vectSize : Nat) (vectors : List (List K)) (held : Variance K) :
    Prop where
  increment : held.meanStructure.increment = vectors.length
  mean : ∀ i < vectSize, held.meanStructure.mean.getD i 0 =
    (componentOf vectors i).sum / (vectors.length : K)
  variance : ∀ i < vectSize, held.variance.getD i 0 =
    ((componentOf vectors i).map fun x => (x - Comoment.mean (componentOf vectors i)) ^ 2).sum /
      ((vectors.length : K) - 1)

structure CovarianceUnbiased (vectSize : Nat) (pairs : List (List K × List K))
    (held : Covariance K) : Prop where
  increment : held.increment = pairs.length
  mean1 : ∀ i < vectSize, held.mean1.mean.getD i 0 =
    (componentOf (pairs.map Prod.fst) i).sum / (pairs.length : K)
  mean2 : ∀ i < vectSize, held.mean2.mean.getD i 0 =
    (componentOf (pairs.map Prod.snd) i).sum / (pairs.length : K)
  covariance : ∀ i < vectSize, held.covariance.getD i 0 =
    ((componentPairs pairs i).map fun pair =>
      (pair.1 - mean (componentOf (pairs.map Prod.fst) i)) *
        (pair.2 - mean (componentOf (pairs.map Prod.snd) i))).sum / ((pairs.length : K) - 1)

/-- The recurrences with the divisor `n - 1` compute the two-pass definitions. -/
theorem recurrences_unbiased (vectSize : Nat) (vectors : List (List K))
    (pairs : List (List K × List K)) :
    VarianceUnbiased vectSize vectors (varianceRun vectSize vectors) ∧
      CovarianceUnbiased vectSize pairs (covarianceRun vectSize pairs) := by
  have single := varianceRun_tracks vectSize vectors
  have double := covarianceRun_tracks vectSize pairs
  constructor
  · constructor
    · exact single.meanStructure.increment
    · intro i inside
      rw [single.meanStructure.mean i inside, mean, componentOf, List.length_map]
    · intro i inside
      rw [single.variance i inside, variance_eq_squares, squares_eq, componentOf,
        List.length_map]
  · constructor
    · exact double.increment
    · intro i inside
      rw [double.mean1.mean i inside, mean, componentOf, List.length_map, List.length_map]
    · intro i inside
      rw [double.mean2.mean i inside, mean, componentOf, List.length_map, List.length_map]
    · intro i inside
      rw [double.covariance i inside, covariance, comoment, componentPairs_fst,
        componentPairs_snd, componentPairs_length]

theorem recurrences_unbiased_threeSamples :
    VarianceUnbiased 1 [[1], [2], [(6 : ℚ)]] (varianceRun 1 [[1], [2], [6]]) ∧
      CovarianceUnbiased 1 [([1], [3]), ([2], [5]), ([(6 : ℚ)], [4])]
        (covarianceRun 1 [([1], [3]), ([2], [5]), ([6], [4])]) :=
  recurrences_unbiased 1 [[1], [2], [6]] [([1], [3]), ([2], [5]), ([6], [4])]

end Tracks

/-! ### The lagging counter -/

section Lag

variable {K : Type} [Field K]

/-- The jumps from the third pair on, with the weights of a counter that is one behind. -/
def lagComoment (pairs : List (K × K)) : K :=
  ∑ i ∈ Finset.Ico 2 pairs.length, jumpAt pairs i * ((i : K) ^ 2 / ((i : K) ^ 2 - 1))

def lagCovariance (pairs : List (K × K)) : K := lagComoment pairs / ((pairs.length : K) - 2)

theorem cast_sub_ne_zero [CharZero K] {n m : Nat} (apart : n ≠ m) : (n : K) - (m : K) ≠ 0 :=
  sub_ne_zero.mpr (Nat.cast_injective.ne apart)

theorem lagComoment_short {pairs : List (K × K)} (short : pairs.length ≤ 2) :
    lagComoment pairs = 0 := by
  rw [lagComoment, Finset.Ico_eq_empty_of_le short, Finset.sum_empty]

theorem lagComoment_concat {pairs : List (K × K)} (two : 2 ≤ pairs.length) (pair : K × K) :
    lagComoment (pairs ++ [pair]) = lagComoment pairs +
      jump pairs pair * ((pairs.length : K) ^ 2 / ((pairs.length : K) ^ 2 - 1)) := by
  rw [lagComoment, List.length_append, List.length_singleton, Finset.sum_Ico_succ_top two,
    jumpAt_concat]
  congr 1
  apply Finset.sum_congr rfl
  intro i member
  rw [jumpAt_append (Finset.mem_Ico.mp member).2]

theorem lagCovariance_mul [CharZero K] {pairs : List (K × K)} (two : 2 ≤ pairs.length) :
    lagCovariance pairs * ((pairs.length : K) - 2) = lagComoment pairs := by
  rcases Nat.eq_or_lt_of_le two with exactly | more
  · rw [← exactly, lagComoment_short (by omega)]
    simp
  · have apart : (pairs.length : K) - 2 ≠ 0 :=
      mod_cast cast_sub_ne_zero (K := K) (Nat.ne_of_gt more)
    rw [lagCovariance, div_mul_cancel₀ _ apart]

/-- One update with the counter `pairs.length`, which does not count `pair` yet. -/
theorem lagCovariance_concat [CharZero K] {pairs : List (K × K)} (two : 2 ≤ pairs.length)
    (pair : K × K) :
    lagCovariance (pairs ++ [pair]) =
      (lagCovariance pairs * ((pairs.length : K) - 2) +
        (pair.1 - mean (pairs.map Prod.fst ++ [pair.1])) *
          (pair.2 - mean (pairs.map Prod.snd ++ [pair.2])) *
            ((pairs.length : K) / ((pairs.length : K) - 1))) / ((pairs.length : K) - 1) := by
  have apart : (pairs.length : K) - 1 ≠ 0 :=
    mod_cast cast_sub_ne_zero (K := K) (show pairs.length ≠ 1 by omega)
  have positive : (pairs.length : K) + 1 ≠ 0 := Nat.cast_add_one_ne_zero _
  have square : (pairs.length : K) ^ 2 - 1 =
      ((pairs.length : K) + 1) * ((pairs.length : K) - 1) := by ring
  have divisor : ((pairs.length : K) + 1) - 2 = (pairs.length : K) - 1 := by ring
  have weight : jump pairs pair * ((pairs.length : K) ^ 2 / ((pairs.length : K) ^ 2 - 1)) =
      jump pairs pair * ((pairs.length : K) / ((pairs.length : K) + 1)) *
        ((pairs.length : K) / ((pairs.length : K) - 1)) := by
    rw [square]
    field_simp
  calc lagCovariance (pairs ++ [pair])
      = (lagComoment pairs + jump pairs pair *
          ((pairs.length : K) ^ 2 / ((pairs.length : K) ^ 2 - 1))) / ((pairs.length : K) - 1) := by
        rw [lagCovariance, lagComoment_concat two, List.length_append, List.length_singleton,
          Nat.cast_add, Nat.cast_one, divisor]
    _ = (lagCovariance pairs * ((pairs.length : K) - 2) + jump pairs pair *
          ((pairs.length : K) / ((pairs.length : K) + 1)) *
            ((pairs.length : K) / ((pairs.length : K) - 1))) / ((pairs.length : K) - 1) := by
        rw [lagCovariance_mul two, weight]
    _ = _ := by rw [deviations_eq]

/-- The input on which the lagging counter makes no difference: of two pairs, the second makes
no jump; of more, the later jumps make up for the one that is never counted. -/
def LagCancels (pairs : List (K × K)) : Prop :=
  if pairs.length = 2 then jumpAt pairs 1 = 0
  else
    ∑ i ∈ Finset.Ico 2 pairs.length,
        jumpAt pairs i * (1 + ((pairs.length : K) - 1) / ((i : K) ^ 2 - 1)) =
      ((pairs.length : K) - 2) * jumpAt pairs 1

instance [DecidableEq K] (pairs : List (K × K)) : Decidable (LagCancels pairs) :=
  inferInstanceAs (Decidable (if pairs.length = 2 then _ else _))

theorem comoment_eq_later [CharZero K] {pairs : List (K × K)} (two : 2 ≤ pairs.length) :
    comoment pairs = jumpAt pairs 1 + ∑ i ∈ Finset.Ico 2 pairs.length, jumpAt pairs i := by
  have start : ∑ i ∈ Finset.Ico 0 2, jumpAt pairs i = jumpAt pairs 1 := by
    rw [← Finset.range_eq_Ico, Finset.sum_range_succ, Finset.sum_range_one, jumpAt_zero, zero_add]
  calc comoment pairs
      = ∑ i ∈ Finset.Ico 0 pairs.length, jumpAt pairs i := by
        rw [comoment_eq_sum, Finset.range_eq_Ico]
    _ = ∑ i ∈ Finset.Ico 0 2, jumpAt pairs i + ∑ i ∈ Finset.Ico 2 pairs.length, jumpAt pairs i :=
        (Finset.sum_Ico_consecutive _ (Nat.zero_le 2) two).symm
    _ = jumpAt pairs 1 + ∑ i ∈ Finset.Ico 2 pairs.length, jumpAt pairs i := by rw [start]

theorem lagComoment_eq [CharZero K] (pairs : List (K × K)) :
    lagComoment pairs = ∑ i ∈ Finset.Ico 2 pairs.length, jumpAt pairs i +
      ∑ i ∈ Finset.Ico 2 pairs.length, jumpAt pairs i / ((i : K) ^ 2 - 1) := by
  rw [lagComoment, ← Finset.sum_add_distrib]
  apply Finset.sum_congr rfl
  intro i member
  have two := (Finset.mem_Ico.mp member).1
  have apart : (i : K) ^ 2 - 1 ≠ 0 :=
    mod_cast cast_sub_ne_zero (K := K) (show i ^ 2 ≠ 1 by nlinarith)
  field_simp
  ring

theorem lagCovariance_eq_iff [CharZero K] {pairs : List (K × K)} (two : 2 ≤ pairs.length) :
    lagCovariance pairs = covariance pairs ↔ LagCancels pairs := by
  rcases Nat.eq_or_lt_of_le two with exactly | more
  · have one : ((2 : ℕ) : K) - 1 = 1 := by norm_num
    rw [lagCovariance, lagComoment_short (by omega), zero_div, covariance, comoment_eq_later two,
      LagCancels, if_pos exactly.symm, ← exactly, Finset.Ico_self, Finset.sum_empty, add_zero, one,
      div_one, eq_comm]
  · have large : (pairs.length : K) - 2 ≠ 0 :=
      mod_cast cast_sub_ne_zero (K := K) (Nat.ne_of_gt more)
    have large' : (pairs.length : K) - 1 ≠ 0 :=
      mod_cast cast_sub_ne_zero (K := K) (show pairs.length ≠ 1 by omega)
    have split : ∑ i ∈ Finset.Ico 2 pairs.length,
        jumpAt pairs i * (1 + ((pairs.length : K) - 1) / ((i : K) ^ 2 - 1)) =
          ∑ i ∈ Finset.Ico 2 pairs.length, jumpAt pairs i + ((pairs.length : K) - 1) *
            ∑ i ∈ Finset.Ico 2 pairs.length, jumpAt pairs i / ((i : K) ^ 2 - 1) := by
      rw [Finset.mul_sum, ← Finset.sum_add_distrib]
      apply Finset.sum_congr rfl
      intro i _
      ring
    rw [lagCovariance, covariance, div_eq_div_iff large large', lagComoment_eq,
      comoment_eq_later two, LagCancels, if_neg (by omega), split]
    constructor
    · intro equal
      linear_combination equal
    · intro equal
      linear_combination equal

end Lag

section Martinez

variable {K : Type} [Field K] [LinearOrder K] [IsStrictOrderedRing K]

/-- The accumulators of parameter `k` after the given groups. -/
structure ParameterTracks (vectSize : Nat) (groups : List (List (List K))) (k : Nat)
    (martinez : SobolMartinez K) : Prop where
  varianceK : VarianceTracks vectSize (vectorsOf groups (k + 2)) martinez.varianceK
  firstOrder : ∀ i < vectSize, martinez.firstOrderCovariance.getD i 0 =
    lagCovariance (componentPairs (vectorPairs groups 1 (k + 2)) i)
  totalOrder : ∀ i < vectSize, martinez.totalOrderCovariance.getD i 0 =
    lagCovariance (componentPairs (vectorPairs groups 0 (k + 2)) i)

structure MartinezTracks (nbParameters vectSize : Nat) (groups : List (List (List K)))
    (sobolArray : SobolArray K) : Prop where
  iteration : sobolArray.iteration = groups.length
  varianceA : VarianceTracks vectSize (vectorsOf groups 0) sobolArray.varianceA
  varianceB : VarianceTracks vectSize (vectorsOf groups 1) sobolArray.varianceB
  parameters : sobolArray.sobolMartinez.length = nbParameters
  parameter : ∀ k martinez, sobolArray.sobolMartinez[k]? = some martinez →
    ParameterTracks vectSize groups k martinez

theorem initSobolMartinez_tracks (nbParameters vectSize : Nat) :
    MartinezTracks nbParameters vectSize [] (initSobolMartinez (D := K) nbParameters vectSize) := by
  refine ⟨rfl, initVariance_tracks vectSize, initVariance_tracks vectSize, ?_, ?_⟩
  · exact List.length_replicate ..
  intro k martinez found
  have member := List.mem_of_getElem? found
  rw [initSobolMartinez, List.mem_replicate] at member
  obtain ⟨_, rfl⟩ := member
  refine ⟨initVariance_tracks vectSize, ?_, ?_⟩
  · intro i _
    rw [getD_replicate_zero, lagCovariance, lagComoment_short (by simp [componentPairs,
      vectorPairs]), zero_div]
  · intro i _
    rw [getD_replicate_zero, lagCovariance, lagComoment_short (by simp [componentPairs,
      vectorPairs]), zero_div]

theorem incrementSobolCovariance_tracks {vectSize : Nat} {pairs : List (List K × List K)}
    {covariance mean1 mean2 left right : List K}
    (held : ∀ i < vectSize, covariance.getD i 0 = lagCovariance (componentPairs pairs i))
    (first : ∀ i < vectSize, mean1.getD i 0 = mean (componentOf (pairs.map Prod.fst ++ [left]) i))
    (second : ∀ i < vectSize,
      mean2.getD i 0 = mean (componentOf (pairs.map Prod.snd ++ [right]) i)) :
    ∀ i < vectSize,
      (incrementSobolCovariance covariance left right mean1 mean2 vectSize
        pairs.length).getD i 0 = lagCovariance (componentPairs (pairs ++ [(left, right)]) i) := by
  intro i inside
  by_cases two : pairs.length > 1
  · rw [incrementSobolCovariance, if_pos two, getD_overwrite inside, held i inside,
      first i inside, second i inside, componentOf_concat, componentOf_concat,
      componentPairs_concat, lagCovariance_concat (by rw [componentPairs_length]; omega),
      componentPairs_fst, componentPairs_snd, componentPairs_length]
    push_cast
    ring_nf
  · rw [incrementSobolCovariance, if_neg two, held i inside, lagCovariance, lagCovariance,
      lagComoment_short (by rw [componentPairs_length]; omega),
      lagComoment_short (by rw [componentPairs_length, List.length_append,
        List.length_singleton]; omega), zero_div, zero_div]

variable [Libm K]

theorem incrementMartinezParameter_tracks {vectSize k : Nat} {groups : List (List (List K))}
    {martinez : SobolMartinez K} (tracks : ParameterTracks vectSize groups k martinez)
    {inVectTab : List (List K)} {varianceA varianceB : Variance K}
    (tracksA : VarianceTracks vectSize (vectorsOf (groups ++ [inVectTab]) 0) varianceA)
    (tracksB : VarianceTracks vectSize (vectorsOf (groups ++ [inVectTab]) 1) varianceB) :
    ParameterTracks vectSize (groups ++ [inVectTab]) k
      (incrementMartinezParameter (inVectTab.getD 0 []) (inVectTab.getD 1 [])
        (inVectTab.getD (k + 2) []) varianceA varianceB vectSize groups.length martinez) := by
  obtain ⟨varianceK, firstOrder, totalOrder⟩ := tracks
  have received (l : Nat) : vectorsOf (groups ++ [inVectTab]) l =
      vectorsOf groups l ++ [inVectTab.getD l []] := List.map_append
  have pairs (l : Nat) : vectorPairs (groups ++ [inVectTab]) l (k + 2) =
      vectorPairs groups l (k + 2) ++ [(inVectTab.getD l [], inVectTab.getD (k + 2) [])] :=
    List.map_append
  have counted (l : Nat) : (vectorPairs groups l (k + 2)).length = groups.length :=
    List.length_map ..
  have varianceK' := incrementVariance_tracks varianceK (inVectTab.getD (k + 2) [])
  rw [received] at tracksA tracksB
  constructor
  · rw [received]
    exact varianceK'
  · rw [pairs, ← counted 1]
    apply incrementSobolCovariance_tracks firstOrder
    · rw [vectorPairs_fst]
      exact tracksB.meanStructure.mean
    · rw [vectorPairs_snd]
      exact varianceK'.meanStructure.mean
  · rw [pairs, ← counted 0]
    apply incrementSobolCovariance_tracks totalOrder
    · rw [vectorPairs_fst]
      exact tracksA.meanStructure.mean
    · rw [vectorPairs_snd]
      exact varianceK'.meanStructure.mean

theorem incrementSobolMartinez_tracks {nbParameters vectSize : Nat}
    {groups : List (List (List K))} {sobolArray : SobolArray K}
    (tracks : MartinezTracks nbParameters vectSize groups sobolArray)
    (inVectTab : List (List K)) :
    MartinezTracks nbParameters vectSize (groups ++ [inVectTab])
      (incrementSobolMartinez sobolArray inVectTab vectSize) := by
  obtain ⟨iteration, varianceA, varianceB, parameters, parameter⟩ := tracks
  have received (l : Nat) : vectorsOf (groups ++ [inVectTab]) l =
      vectorsOf groups l ++ [inVectTab.getD l []] := List.map_append
  have varianceA' := incrementVariance_tracks varianceA (inVectTab.getD 0 [])
  have varianceB' := incrementVariance_tracks varianceB (inVectTab.getD 1 [])
  rw [← received] at varianceA' varianceB'
  constructor
  · rw [List.length_append, List.length_singleton, ← iteration]
    rfl
  · exact varianceA'
  · exact varianceB'
  · rw [incrementSobolMartinez, List.length_mapIdx, parameters]
  · intro k martinez found
    rw [incrementSobolMartinez, List.getElem?_mapIdx, Option.map_eq_some_iff] at found
    obtain ⟨before, here, rfl⟩ := found
    rw [iteration]
    exact incrementMartinezParameter_tracks (parameter k before here) varianceA' varianceB'

theorem martinezRun_tracks (nbParameters vectSize : Nat) (groups : List (List (List K))) :
    MartinezTracks nbParameters vectSize groups (martinezRun nbParameters vectSize groups) := by
  induction groups using List.reverseRecOn with
  | nil => exact initSobolMartinez_tracks nbParameters vectSize
  | append_singleton groups inVectTab ih =>
      rw [martinezRun, List.foldl_append]
      exact incrementSobolMartinez_tracks ih inVectTab

/-- The indices of component `i` are quotients of the accumulators, where the variances exceed
`epsylon`. -/
structure Quotients (sobolArray : SobolArray K) (i : Nat) (martinez : SobolMartinez K) : Prop where
  firstOrder : sobolArray.varianceB.variance.getD i 0 > epsylon →
    martinez.varianceK.variance.getD i 0 > epsylon →
      martinez.firstOrderValues.getD i 0 = martinez.firstOrderCovariance.getD i 0 /
        (Libm.sqrt (sobolArray.varianceB.variance.getD i 0) *
          Libm.sqrt (martinez.varianceK.variance.getD i 0))
  totalOrder : sobolArray.varianceA.variance.getD i 0 > epsylon →
    martinez.varianceK.variance.getD i 0 > epsylon →
      martinez.totalOrderValues.getD i 0 = 1 - martinez.totalOrderCovariance.getD i 0 /
        (Libm.sqrt (sobolArray.varianceA.variance.getD i 0) *
          Libm.sqrt (martinez.varianceK.variance.getD i 0))

omit [IsStrictOrderedRing K] in
theorem incrementSobolMartinez_quotients {vectSize i k : Nat} {sobolArray : SobolArray K}
    {inVectTab : List (List K)} {martinez : SobolMartinez K}
    (found : (incrementSobolMartinez sobolArray inVectTab vectSize).sobolMartinez[k]? =
      some martinez) (inside : i < vectSize) :
    Quotients (incrementSobolMartinez sobolArray inVectTab vectSize) i martinez := by
  rw [incrementSobolMartinez, List.getElem?_mapIdx, Option.map_eq_some_iff] at found
  obtain ⟨before, _, rfl⟩ := found
  constructor
  · intro varianceB varianceK
    exact (getD_overwrite inside _ _ _).trans (if_pos ⟨varianceK, varianceB⟩)
  · intro varianceA varianceK
    refine (getD_overwrite inside _ _ _).trans ((if_pos ⟨varianceK, varianceA⟩).trans ?_)
    rw [Nat.cast_one]
    rfl

omit [IsStrictOrderedRing K] in
theorem martinezRun_quotients {nbParameters vectSize i k : Nat} {groups : List (List (List K))}
    (filled : groups ≠ []) {martinez : SobolMartinez K}
    (found : (martinezRun nbParameters vectSize groups).sobolMartinez[k]? = some martinez)
    (inside : i < vectSize) :
    Quotients (martinezRun nbParameters vectSize groups) i martinez := by
  obtain ⟨earlier, last, rfl⟩ := List.eq_nil_or_concat' groups |>.resolve_left filled
  rw [martinezRun, List.foldl_append] at found ⊢
  exact incrementSobolMartinez_quotients found inside

/-- The correlation coefficient, with the square root of the C library. -/
def pearson (pairs : List (K × K)) : K :=
  covariance pairs / (Libm.sqrt (variance (pairs.map Prod.fst)) *
    Libm.sqrt (variance (pairs.map Prod.snd)))

/-- Component `i` of the accumulators and indices of parameter `k` are those of the sample. -/
structure SampleExact (vectSize : Nat) (groups : List (List (List K))) (sobolArray : SobolArray K)
    (k i : Nat) (martinez : SobolMartinez K) : Prop where
  firstOrder : martinez.firstOrderCovariance.getD i 0 =
    covariance (componentPairs (vectorPairs groups 1 (k + 2)) i)
  totalOrder : martinez.totalOrderCovariance.getD i 0 =
    covariance (componentPairs (vectorPairs groups 0 (k + 2)) i)
  firstOrderRun : martinez.firstOrderCovariance.getD i 0 =
    (covarianceRun vectSize (vectorPairs groups 1 (k + 2))).covariance.getD i 0
  totalOrderRun : martinez.totalOrderCovariance.getD i 0 =
    (covarianceRun vectSize (vectorPairs groups 0 (k + 2))).covariance.getD i 0
  varianceA : sobolArray.varianceA.variance.getD i 0 = variance (componentOf (vectorsOf groups 0) i)
  varianceB : sobolArray.varianceB.variance.getD i 0 = variance (componentOf (vectorsOf groups 1) i)
  varianceK : martinez.varianceK.variance.getD i 0 =
    variance (componentOf (vectorsOf groups (k + 2)) i)
  firstOrderIndex : sobolArray.varianceB.variance.getD i 0 > epsylon →
    martinez.varianceK.variance.getD i 0 > epsylon →
      martinez.firstOrderValues.getD i 0 =
        pearson (componentPairs (vectorPairs groups 1 (k + 2)) i)
  totalOrderIndex : sobolArray.varianceA.variance.getD i 0 > epsylon →
    martinez.varianceK.variance.getD i 0 > epsylon →
      martinez.totalOrderValues.getD i 0 =
        1 - pearson (componentPairs (vectorPairs groups 0 (k + 2)) i)

def MartinezExact (nbParameters vectSize : Nat) (groups : List (List (List K))) : Prop :=
  (martinezRun nbParameters vectSize groups).sobolMartinez.length = nbParameters ∧
    ∀ k martinez, (martinezRun nbParameters vectSize groups).sobolMartinez[k]? = some martinez →
      ∀ i < vectSize,
        SampleExact vectSize groups (martinezRun nbParameters vectSize groups) k i martinez

/-- The accumulators of one component, whatever the counter did. -/
theorem sampleExact_iff {nbParameters vectSize i k : Nat} {groups : List (List (List K))}
    (two : 2 ≤ groups.length) {martinez : SobolMartinez K}
    (found : (martinezRun nbParameters vectSize groups).sobolMartinez[k]? = some martinez)
    (inside : i < vectSize) :
    SampleExact vectSize groups (martinezRun nbParameters vectSize groups) k i martinez ↔
      LagCancels (componentPairs (vectorPairs groups 1 (k + 2)) i) ∧
        LagCancels (componentPairs (vectorPairs groups 0 (k + 2)) i) := by
  have tracks := martinezRun_tracks nbParameters vectSize groups
  have parameter := tracks.parameter k martinez found
  have enough (l : Nat) : 2 ≤ (componentPairs (vectorPairs groups l (k + 2)) i).length := by
    simpa [componentPairs, vectorPairs] using two
  rw [← lagCovariance_eq_iff (enough 1), ← lagCovariance_eq_iff (enough 0),
    ← parameter.firstOrder i inside, ← parameter.totalOrder i inside]
  constructor
  · intro exact
    exact ⟨exact.firstOrder, exact.totalOrder⟩
  · intro equal
    obtain ⟨firstOrder, totalOrder⟩ := equal
    have filled : groups ≠ [] := List.ne_nil_of_length_pos (by omega)
    have quotients := martinezRun_quotients filled found inside
    have varianceA := tracks.varianceA.variance i inside
    have varianceB := tracks.varianceB.variance i inside
    have varianceK := parameter.varianceK.variance i inside
    have run (l : Nat) := (covarianceRun_tracks vectSize (vectorPairs groups l (k + 2))).covariance
      i inside
    refine ⟨firstOrder, totalOrder, firstOrder.trans (run 1).symm, totalOrder.trans (run 0).symm,
      varianceA, varianceB, varianceK, ?_, ?_⟩
    · intro largeB largeK
      rw [quotients.firstOrder largeB largeK, firstOrder, varianceB, varianceK, pearson,
        componentPairs_fst, componentPairs_snd, vectorPairs_fst, vectorPairs_snd]
    · intro largeA largeK
      rw [quotients.totalOrder largeA largeK, totalOrder, varianceA, varianceK, pearson,
        componentPairs_fst, componentPairs_snd, vectorPairs_fst, vectorPairs_snd]

/-- The Martinez accumulators are those of the sample exactly when, for every parameter and every
component, the lag of the counter cancels out. -/
theorem martinezExact_iff {nbParameters vectSize : Nat} {groups : List (List (List K))}
    (two : 2 ≤ groups.length) :
    MartinezExact nbParameters vectSize groups ↔
      ∀ k < nbParameters, ∀ i < vectSize,
        LagCancels (componentPairs (vectorPairs groups 1 (k + 2)) i) ∧
          LagCancels (componentPairs (vectorPairs groups 0 (k + 2)) i) := by
  have parameters := (martinezRun_tracks nbParameters vectSize groups).parameters
  constructor
  · intro exact k below i inside
    have found := List.getElem?_eq_getElem (parameters.symm ▸ below)
    exact (sampleExact_iff two found inside).mp (exact.2 k _ found i inside)
  · intro cancels
    refine ⟨parameters, ?_⟩
    intro k martinez found i inside
    have below : k < nbParameters := parameters ▸ (List.getElem?_eq_some_iff.mp found).1
    exact (sampleExact_iff two found inside).mpr (cancels k below i inside)

/-- Three groups whose last pair makes up for the jump of the second one. -/
theorem martinezExact_iff_threeGroups :
    2 ≤ [[[(0 : ℚ)], [0], [0]], [[1], [1], [1]], [[1], [1], [7 / 5]]].length ∧
      MartinezExact 1 1 [[[(0 : ℚ)], [0], [0]], [[1], [1], [1]], [[1], [1], [7 / 5]]] := by
  refine ⟨by decide, (martinezExact_iff (by decide)).mpr ?_⟩
  decide +kernel

/-- Two groups with Y_A = 0, 1, Y_B = 0, 1 and Y_C = 0, 1: the covariances are 1/2, the
accumulators 0. -/
theorem not_martinezExact_twoGroups :
    ¬ MartinezExact 1 1 [[[(0 : ℚ)], [0], [0]], [[1], [1], [1]]] := by
  intro exact
  have run := (exact.2 0 _ rfl 0 (by decide)).firstOrder
  revert run
  decide +kernel

end Martinez

end Melissa
