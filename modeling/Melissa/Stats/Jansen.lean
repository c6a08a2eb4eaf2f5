import Melissa.Stats.MergeVariance

/-! The Jansen estimator of `sobol.c`. It accumulates the squares of sums of two vectors, where
the formula has the squares of their differences. -/

namespace Melissa

open Arrays Comoment

/-- `sobol_jansen_t`. -/
structure SobolJansen (D : Type) where
  summA : List D
  summB : List D
  firstOrderValues : List D
  totalOrderValues : List D
  deriving DecidableEq, Repr

/-- The fields of `sobol_array_t` that the estimator uses. -/
structure JansenArray (D : Type) where
  sobolJansen : List (SobolJansen D)
  varianceA : Variance D
  iteration : Nat
  deriving DecidableEq, Repr

section Increment

variable {D : Type} [Zero D]

def initSobolJansen (nbParameters vectSize : Nat) : JansenArray D :=
  { sobolJansen := List.replicate nbParameters
      { summA := List.replicate vectSize 0
        summB := List.replicate vectSize 0
        firstOrderValues := List.replicate vectSize 0
        totalOrderValues := List.replicate vectSize 0 }
    varianceA := initVariance vectSize
    iteration := 0 }

variable [Add D] [Sub D] [Mul D] [Div D] [NatCast D]

def incrementSumm (summ vect vectK : List D) (vectSize : Nat) : List D :=
  overwrite vectSize (fun j =>
    summ.getD j 0 + (vect.getD j 0 + vectK.getD j 0) * (vect.getD j 0 + vectK.getD j 0)) summ

variable [LT D] [DecidableLT D]

/-- The body of the loop over the parameters, with `variance_a` and `iteration` updated. -/
def incrementJansenParameter (vectA vectB vectK : List D) (varianceA : Variance D)
    (vectSize iteration : Nat) (jansen : SobolJansen D) : SobolJansen D :=
  let summA := incrementSumm jansen.summA vectA vectK vectSize
  let summB := incrementSumm jansen.summB vectB vectK vectSize
  let divisor : D := ((2 * iteration - 1 : ℕ) : D)
  { summA := summA
    summB := summB
    firstOrderValues := overwrite vectSize (fun j =>
      if varianceA.variance.getD j 0 > epsylon then
        ((1 : ℕ) : D) - summB.getD j 0 / divisor / varianceA.variance.getD j 0
      else 0) jansen.firstOrderValues
    totalOrderValues := overwrite vectSize (fun j =>
      if varianceA.variance.getD j 0 > epsylon then
        summA.getD j 0 / divisor / varianceA.variance.getD j 0
      else 0) jansen.totalOrderValues }

def incrementSobolJansen (sobolArray : JansenArray D) (inVectTab : List (List D))
    (vectSize : Nat) : JansenArray D :=
  let vect (i : Nat) := inVectTab.getD i []
  let varianceA := incrementVariance sobolArray.varianceA (vect 0) vectSize
  let iteration := sobolArray.iteration + 1
  { sobolJansen := sobolArray.sobolJansen.mapIdx fun i =>
      incrementJansenParameter (vect 0) (vect 1) (vect (i + 2)) varianceA vectSize iteration
    varianceA := varianceA
    iteration := iteration }

/-- The structure after the given groups of vectors. -/
def jansenRun (nbParameters vectSize : Nat) (groups : List (List (List D))) : JansenArray D :=
  groups.foldl (fun sobolArray inVectTab => incrementSobolJansen sobolArray inVectTab vectSize)
    (initSobolJansen nbParameters vectSize)

def firstOrderIndex (sobolArray : JansenArray D) (k i : Nat) : D :=
  ((sobolArray.sobolJansen[k]?.map SobolJansen.firstOrderValues).getD []).getD i 0

def totalOrderIndex (sobolArray : JansenArray D) (k i : Nat) : D :=
  ((sobolArray.sobolJansen[k]?.map SobolJansen.totalOrderValues).getD []).getD i 0

end Increment

section Sums

variable {K : Type} [Field K]

def squaredSums (pairs : List (K × K)) : K :=
  (pairs.map fun pair => (pair.1 + pair.2) * (pair.1 + pair.2)).sum

theorem squaredSums_concat (pairs : List (K × K)) (pair : K × K) :
    squaredSums (pairs ++ [pair]) =
      squaredSums pairs + (pair.1 + pair.2) * (pair.1 + pair.2) := by
  simp [squaredSums]

theorem squaredSums_shift (pairs : List (K × K)) (c : K) :
    squaredSums (pairs.map fun pair => (pair.1 + c, pair.2 + c)) =
      squaredSums pairs + 4 * c *
        ((pairs.map Prod.fst).sum + (pairs.map Prod.snd).sum + (pairs.length : K) * c) := by
  induction pairs with
  | nil => simp [squaredSums]
  | cons pair pairs ih =>
      simp only [squaredSums, List.map_cons, List.sum_cons, List.length_cons] at ih ⊢
      rw [ih]
      push_cast
      ring

/-- The sum that belongs to the vectors `r` and `k + 2` of the groups. -/
def summOf (groups : List (List (List K))) (r k i : Nat) : K :=
  squaredSums (componentPairs (vectorPairs groups r (k + 2)) i)

theorem incrementSumm_summOf (vectSize : Nat) (groups : List (List (List K)))
    (inVectTab : List (List K)) (r k : Nat) :
    incrementSumm ((List.range vectSize).map (summOf groups r k)) (inVectTab.getD r [])
        (inVectTab.getD (k + 2) []) vectSize =
      (List.range vectSize).map (summOf (groups ++ [inVectTab]) r k) := by
  rw [incrementSumm, overwrite_full (by simp)]
  apply List.map_congr_left
  intro i member
  have received : vectorPairs (groups ++ [inVectTab]) r (k + 2) =
      vectorPairs groups r (k + 2) ++ [(inVectTab.getD r [], inVectTab.getD (k + 2) [])] :=
    List.map_append
  rw [getD_map_range (List.mem_range.mp member), summOf, summOf, received, componentPairs_concat,
    squaredSums_concat]

end Sums

/-! ### What the structure holds -/

section Run

variable {K : Type} [Field K] [LinearOrder K] [IsStrictOrderedRing K]

theorem epsylon_pos : (0 : K) < epsylon := by
  unfold epsylon
  positivity

def firstOrderOf (groups : List (List (List K))) (k i : Nat) : K :=
  if variance (componentOf (vectorsOf groups 0) i) > epsylon then
    ((1 : ℕ) : K) - summOf groups 1 k i / ((2 * groups.length - 1 : ℕ) : K) /
      variance (componentOf (vectorsOf groups 0) i)
  else 0

def totalOrderOf (groups : List (List (List K))) (k i : Nat) : K :=
  if variance (componentOf (vectorsOf groups 0) i) > epsylon then
    summOf groups 0 k i / ((2 * groups.length - 1 : ℕ) : K) /
      variance (componentOf (vectorsOf groups 0) i)
  else 0

def jansenOf (nbParameters vectSize : Nat) (groups : List (List (List K))) : JansenArray K :=
  { sobolJansen := (List.range nbParameters).map fun k =>
      { summA := (List.range vectSize).map (summOf groups 0 k)
        summB := (List.range vectSize).map (summOf groups 1 k)
        firstOrderValues := (List.range vectSize).map (firstOrderOf groups k)
        totalOrderValues := (List.range vectSize).map (totalOrderOf groups k) }
    varianceA := varianceOf vectSize (vectorsOf groups 0)
    iteration := groups.length }

theorem initSobolJansen_eq (nbParameters vectSize : Nat) :
    initSobolJansen nbParameters vectSize = jansenOf (K := K) nbParameters vectSize [] := by
  have level : ¬ variance (componentOf (vectorsOf ([] : List (List (List K))) 0) 0) > epsylon := by
    rw [variance_of_length_le_one (by simp [componentOf, vectorsOf])]
    exact not_lt.mpr epsylon_pos.le
  have zeros (f : Nat → K) (zero : ∀ i, f i = 0) :
      (List.range vectSize).map f = List.replicate vectSize 0 := by
    rw [List.map_congr_left fun i _ => zero i, List.map_const', List.length_range]
  have start : initVariance vectSize = varianceOf (K := K) vectSize (vectorsOf [] 0) :=
    varianceRun_eq vectSize []
  have fresh : (List.range nbParameters).map (fun k =>
      ({ summA := (List.range vectSize).map (summOf [] 0 k)
         summB := (List.range vectSize).map (summOf [] 1 k)
         firstOrderValues := (List.range vectSize).map (firstOrderOf [] k)
         totalOrderValues := (List.range vectSize).map (totalOrderOf [] k) } : SobolJansen K)) =
      List.replicate nbParameters
        { summA := List.replicate vectSize 0
          summB := List.replicate vectSize 0
          firstOrderValues := List.replicate vectSize 0
          totalOrderValues := List.replicate vectSize 0 } := by
    apply List.eq_replicate_iff.mpr
    constructor
    · simp
    · intro jansen member
      obtain ⟨k, _, rfl⟩ := List.mem_map.mp member
      rw [zeros (summOf [] 0 k) fun _ => rfl, zeros (summOf [] 1 k) fun _ => rfl,
        zeros (firstOrderOf [] k) fun _ => if_neg level,
        zeros (totalOrderOf [] k) fun _ => if_neg level]
  rw [initSobolJansen, jansenOf, start, fresh, List.length_nil]

theorem incrementSobolJansen_jansenOf (nbParameters vectSize : Nat)
    (groups : List (List (List K))) (inVectTab : List (List K)) :
    incrementSobolJansen (jansenOf nbParameters vectSize groups) inVectTab vectSize =
      jansenOf nbParameters vectSize (groups ++ [inVectTab]) := by
  have received : vectorsOf (groups ++ [inVectTab]) 0 =
      vectorsOf groups 0 ++ [inVectTab.getD 0 []] := List.map_append
  have varianceA :
      incrementVariance (varianceOf vectSize (vectorsOf groups 0)) (inVectTab.getD 0 []) vectSize =
        varianceOf vectSize (vectorsOf (groups ++ [inVectTab]) 0) := by
    rw [received, ← varianceRun_eq, ← varianceRun_eq, varianceRun, varianceRun, List.foldl_append]
    rfl
  have number : (groups ++ [inVectTab]).length = groups.length + 1 := by simp
  simp only [incrementSobolJansen, jansenOf, varianceA, mapIdx_map_range,
    incrementJansenParameter, incrementSumm_summOf, number]
  congr 1
  apply List.map_congr_left
  intro k _
  congr 1
  · rw [overwrite_full (by simp)]
    apply List.map_congr_left
    intro i member
    have inside := List.mem_range.mp member
    rw [varianceOf, getD_map_range inside, getD_map_range inside, firstOrderOf, number]
  · rw [overwrite_full (by simp)]
    apply List.map_congr_left
    intro i member
    have inside := List.mem_range.mp member
    rw [varianceOf, getD_map_range inside, getD_map_range inside, totalOrderOf, number]

theorem jansenRun_eq (nbParameters vectSize : Nat) (groups : List (List (List K))) :
    jansenRun nbParameters vectSize groups = jansenOf nbParameters vectSize groups := by
  induction groups using List.reverseRecOn with
  | nil => exact initSobolJansen_eq nbParameters vectSize
  | append_singleton groups inVectTab ih =>
      calc jansenRun nbParameters vectSize (groups ++ [inVectTab])
          = incrementSobolJansen (jansenRun nbParameters vectSize groups) inVectTab vectSize :=
            List.foldl_append
        _ = jansenOf nbParameters vectSize (groups ++ [inVectTab]) := by
            rw [ih, incrementSobolJansen_jansenOf]

theorem jansenRun_varianceA {nbParameters vectSize i : Nat} (inside : i < vectSize)
    (groups : List (List (List K))) :
    (jansenRun nbParameters vectSize groups).varianceA.variance.getD i 0 =
      variance (componentOf (vectorsOf groups 0) i) := by
  rw [jansenRun_eq]
  exact getD_map_range inside _ 0

theorem firstOrderIndex_jansenRun {nbParameters vectSize k i : Nat} (known : k < nbParameters)
    (inside : i < vectSize) (groups : List (List (List K))) :
    firstOrderIndex (jansenRun nbParameters vectSize groups) k i = firstOrderOf groups k i := by
  rw [jansenRun_eq, firstOrderIndex, jansenOf, List.getElem?_map, List.getElem?_range known]
  exact getD_map_range inside _ 0

theorem totalOrderIndex_jansenRun {nbParameters vectSize k i : Nat} (known : k < nbParameters)
    (inside : i < vectSize) (groups : List (List (List K))) :
    totalOrderIndex (jansenRun nbParameters vectSize groups) k i = totalOrderOf groups k i := by
  rw [jansenRun_eq, totalOrderIndex, jansenOf, List.getElem?_map, List.getElem?_range known]
  exact getD_map_range inside _ 0

end Run

/-! ### The fixed points of the formula -/

section Laws

variable {K : Type} [Field K]

/-- The same constant added to all vectors of all groups. -/
def shiftGroups (c : K) (groups : List (List (List K))) : List (List (List K)) :=
  groups.map fun inVectTab => inVectTab.map fun vect => vect.map (· + c)

/-- The vectors `r` and `l` of every group are the same. -/
def AlwaysEqual (vectSize : Nat) (groups : List (List (List K))) (r l : Nat) : Prop :=
  ∀ inVectTab ∈ groups, SameVector vectSize (inVectTab.getD r []) (inVectTab.getD l [])

instance [DecidableEq K] (vectSize : Nat) (groups : List (List (List K))) (r l : Nat) :
    Decidable (AlwaysEqual vectSize groups r l) :=
  inferInstanceAs (Decidable (∀ inVectTab ∈ groups, ∀ i < vectSize,
    (inVectTab.getD r []).getD i 0 = (inVectTab.getD l []).getD i 0))

/-- Every group has its vectors, and the vectors have `vect_size` elements. -/
def SizedGroups (nbParameters vectSize : Nat) (groups : List (List (List K))) : Prop :=
  ∀ inVectTab ∈ groups, ∀ r < nbParameters + 2, vectSize ≤ (inVectTab.getD r []).length

instance (nbParameters vectSize : Nat) (groups : List (List (List K))) :
    Decidable (SizedGroups nbParameters vectSize groups) :=
  inferInstanceAs (Decidable (∀ inVectTab ∈ groups, ∀ r < nbParameters + 2,
    vectSize ≤ (inVectTab.getD r []).length))

theorem shiftGroups_length (c : K) (groups : List (List (List K))) :
    (shiftGroups c groups).length = groups.length :=
  List.length_map ..

theorem getD_shift {nbParameters vectSize r i : Nat} {groups : List (List (List K))}
    (sized : SizedGroups nbParameters vectSize groups) {inVectTab : List (List K)}
    (member : inVectTab ∈ groups) (role : r < nbParameters + 2) (inside : i < vectSize) (c : K) :
    ((inVectTab.map fun vect => vect.map (· + c)).getD r []).getD i 0 =
      (inVectTab.getD r []).getD i 0 + c := by
  have long : i < (inVectTab.getD r []).length :=
    Nat.lt_of_lt_of_le inside (sized inVectTab member r role)
  have moved : (inVectTab.map fun vect => vect.map (· + c)).getD r [] =
      (inVectTab.getD r []).map (· + c) :=
    List.getD_map inVectTab [] fun vect => vect.map (· + c)
  rw [moved, List.getD_eq_getElem _ _ (by simpa using long), List.getElem_map,
    List.getD_eq_getElem _ _ long]

theorem componentOf_shiftGroups {nbParameters vectSize r i : Nat}
    {groups : List (List (List K))} (sized : SizedGroups nbParameters vectSize groups)
    (role : r < nbParameters + 2) (inside : i < vectSize) (c : K) :
    componentOf (vectorsOf (shiftGroups c groups) r) i =
      (componentOf (vectorsOf groups r) i).map (· + c) := by
  simp only [componentOf, vectorsOf, shiftGroups, List.map_map]
  apply List.map_congr_left
  intro inVectTab member
  exact getD_shift sized member role inside c

theorem componentPairs_shiftGroups {nbParameters vectSize r l i : Nat}
    {groups : List (List (List K))} (sized : SizedGroups nbParameters vectSize groups)
    (left : r < nbParameters + 2) (right : l < nbParameters + 2) (inside : i < vectSize) (c : K) :
    componentPairs (vectorPairs (shiftGroups c groups) r l) i =
      (componentPairs (vectorPairs groups r l) i).map fun pair => (pair.1 + c, pair.2 + c) := by
  simp only [componentPairs, vectorPairs, shiftGroups, List.map_map]
  apply List.map_congr_left
  intro inVectTab member
  exact congrArg₂ Prod.mk (getD_shift sized member left inside c)
    (getD_shift sized member right inside c)

variable [LinearOrder K] [IsStrictOrderedRing K]

/-- What Jansen's formula gives a parameter without influence and one that explains everything,
and that the origin of the results does not matter. -/
structure JansenLaws (nbParameters vectSize : Nat) (groups : List (List (List K))) (c : K) :
    Prop where
  total : ∀ k < nbParameters, ∀ i < vectSize,
    (jansenRun nbParameters vectSize groups).varianceA.variance.getD i 0 > epsylon →
    AlwaysEqual vectSize groups (k + 2) 0 →
    totalOrderIndex (jansenRun nbParameters vectSize groups) k i = 0
  first : ∀ k < nbParameters, ∀ i < vectSize,
    (jansenRun nbParameters vectSize groups).varianceA.variance.getD i 0 > epsylon →
    AlwaysEqual vectSize groups (k + 2) 1 →
    firstOrderIndex (jansenRun nbParameters vectSize groups) k i = 1
  totalShift : ∀ k < nbParameters, ∀ i < vectSize,
    totalOrderIndex (jansenRun nbParameters vectSize (shiftGroups c groups)) k i =
      totalOrderIndex (jansenRun nbParameters vectSize groups) k i
  firstShift : ∀ k < nbParameters, ∀ i < vectSize,
    firstOrderIndex (jansenRun nbParameters vectSize (shiftGroups c groups)) k i =
      firstOrderIndex (jansenRun nbParameters vectSize groups) k i

/-- The inputs of parameter `k` for which sums do as well as differences in component `i`. -/
structure JansenSafe (vectSize : Nat) (groups : List (List (List K))) (c : K) (k i : Nat) :
    Prop where
  total : ¬ AlwaysEqual vectSize groups (k + 2) 0
  first : AlwaysEqual vectSize groups (k + 2) 1 →
    ∀ inVectTab ∈ groups, (inVectTab.getD 1 []).getD i 0 = 0
  shift : c = 0 ∨
    (mean (componentOf (vectorsOf groups 0) i) +
      mean (componentOf (vectorsOf groups (k + 2)) i) = -c ∧
    mean (componentOf (vectorsOf groups 1) i) +
      mean (componentOf (vectorsOf groups (k + 2)) i) = -c)

/-- What the origin adds to a sum. -/
theorem summOf_shiftGroups {nbParameters vectSize r k i : Nat} {groups : List (List (List K))}
    (sized : SizedGroups nbParameters vectSize groups) (left : r < 2) (known : k < nbParameters)
    (inside : i < vectSize) (c : K) :
    summOf (shiftGroups c groups) r k i = summOf groups r k i +
      4 * c * ((groups.length : K) *
        (mean (componentOf (vectorsOf groups r) i) +
          mean (componentOf (vectorsOf groups (k + 2)) i) + c)) := by
  have number (l : Nat) : (componentOf (vectorsOf groups l) i).length = groups.length := by
    simp [componentOf, vectorsOf]
  have total (l : Nat) := length_mul_mean (componentOf (vectorsOf groups l) i)
  simp only [number] at total
  rw [summOf, componentPairs_shiftGroups sized (by omega) (by omega) inside, squaredSums_shift,
    componentPairs_fst, componentPairs_snd, vectorPairs_fst, vectorPairs_snd, ← total, ← total,
    componentPairs_length, vectorPairs, List.length_map, summOf, vectorPairs]
  ring

theorem summOf_shiftGroups_iff {nbParameters vectSize r k i : Nat}
    {groups : List (List (List K))} (filled : groups ≠ [])
    (sized : SizedGroups nbParameters vectSize groups) (left : r < 2) (known : k < nbParameters)
    (inside : i < vectSize) (c : K) :
    summOf (shiftGroups c groups) r k i = summOf groups r k i ↔
      c = 0 ∨ mean (componentOf (vectorsOf groups r) i) +
        mean (componentOf (vectorsOf groups (k + 2)) i) = -c := by
  have number : (groups.length : K) ≠ 0 :=
    Nat.cast_ne_zero.mpr (Nat.ne_of_gt (List.length_pos_iff.mpr filled))
  have four : (4 : K) ≠ 0 := four_ne_zero
  rw [summOf_shiftGroups sized left known inside, add_eq_left, mul_eq_zero, mul_eq_zero,
    mul_eq_zero, or_iff_right four, or_iff_right number, eq_neg_iff_add_eq_zero]

theorem summOf_eq_zero_iff {groups : List (List (List K))} {r k i : Nat}
    (same : ∀ inVectTab ∈ groups,
      (inVectTab.getD (k + 2) []).getD i 0 = (inVectTab.getD r []).getD i 0) :
    summOf groups r k i = 0 ↔ ∀ inVectTab ∈ groups, (inVectTab.getD r []).getD i 0 = 0 := by
  have doubled : summOf groups r k i =
      4 * ((componentOf (vectorsOf groups r) i).map fun x => (x - 0) ^ 2).sum := by
    rw [← List.sum_map_mul_left, summOf, squaredSums]
    simp only [componentPairs, vectorPairs, componentOf, vectorsOf, List.map_map]
    congr 1
    apply List.map_congr_left
    intro inVectTab member
    simp only [Function.comp_apply, same inVectTab member]
    ring
  have each : (∀ x ∈ componentOf (vectorsOf groups r) i, x = 0) ↔
      ∀ inVectTab ∈ groups, (inVectTab.getD r []).getD i 0 = 0 := by
    simp [componentOf, vectorsOf]
  have four : (4 : K) ≠ 0 := four_ne_zero
  rw [doubled, mul_eq_zero, or_iff_right four, ← each]
  constructor
  · exact CentralMoments.constant_of_sum_eq_zero (by decide) two_ne_zero
  · intro zero
    apply List.sum_eq_zero
    intro y member
    obtain ⟨x, here, rfl⟩ := List.mem_map.mp member
    rw [zero x here, sub_zero, zero_pow two_ne_zero]

section Varying

variable {vectSize k i : Nat} {groups : List (List (List K))}

theorem filled_of_varying (varying : variance (componentOf (vectorsOf groups 0) i) > epsylon) :
    groups ≠ [] := by
  rintro rfl
  rw [variance_of_length_le_one (by simp [componentOf, vectorsOf])] at varying
  exact lt_asymm varying epsylon_pos

/-- The code divides by `2*iteration-1` and by the variance. -/
theorem divisors_ne_zero (varying : variance (componentOf (vectorsOf groups 0) i) > epsylon) :
    ((2 * groups.length - 1 : ℕ) : K) ≠ 0 ∧ variance (componentOf (vectorsOf groups 0) i) ≠ 0 := by
  have number := List.length_pos_iff.mpr (filled_of_varying varying)
  constructor
  · exact Nat.cast_ne_zero.mpr (by omega)
  · exact ne_of_gt (epsylon_pos.trans varying)

/-- A parameter without influence never gets the index 0. -/
theorem totalOrderOf_ne_zero
    (varying : variance (componentOf (vectorsOf groups 0) i) > epsylon) (inside : i < vectSize)
    (equal : AlwaysEqual vectSize groups (k + 2) 0) : totalOrderOf groups k i ≠ 0 := by
  obtain ⟨divisor, spread⟩ := divisors_ne_zero varying
  rw [totalOrderOf, if_pos varying]
  apply div_ne_zero (div_ne_zero _ divisor) spread
  intro zero
  apply spread
  have zeros := (summOf_eq_zero_iff fun inVectTab member => equal inVectTab member i inside).mp zero
  have level : squares (componentOf (vectorsOf groups 0) i) = 0 :=
    squares_eq_zero_iff.mpr ⟨0, by simpa [componentOf, vectorsOf] using zeros⟩
  rw [variance_eq_squares, level, zero_div]

theorem firstOrderOf_eq_one_iff
    (varying : variance (componentOf (vectorsOf groups 0) i) > epsylon) (inside : i < vectSize)
    (equal : AlwaysEqual vectSize groups (k + 2) 1) :
    firstOrderOf groups k i = 1 ↔ ∀ inVectTab ∈ groups, (inVectTab.getD 1 []).getD i 0 = 0 := by
  obtain ⟨divisor, spread⟩ := divisors_ne_zero varying
  rw [← summOf_eq_zero_iff fun inVectTab member => equal inVectTab member i inside, firstOrderOf,
    if_pos varying, Nat.cast_one, sub_eq_self, div_eq_zero_iff, or_iff_left spread,
    div_eq_zero_iff, or_iff_left divisor]

end Varying

section Shift

variable {nbParameters vectSize k i : Nat} {groups : List (List (List K))}

theorem variance_shiftGroups (sized : SizedGroups nbParameters vectSize groups)
    (inside : i < vectSize) (c : K) :
    variance (componentOf (vectorsOf (shiftGroups c groups) 0) i) =
      variance (componentOf (vectorsOf groups 0) i) := by
  rw [componentOf_shiftGroups sized (by omega) inside, variance_shift]

theorem totalOrderOf_shiftGroups_iff
    (varying : variance (componentOf (vectorsOf groups 0) i) > epsylon)
    (sized : SizedGroups nbParameters vectSize groups) (known : k < nbParameters)
    (inside : i < vectSize) (c : K) :
    totalOrderOf (shiftGroups c groups) k i = totalOrderOf groups k i ↔
      c = 0 ∨ mean (componentOf (vectorsOf groups 0) i) +
        mean (componentOf (vectorsOf groups (k + 2)) i) = -c := by
  have filled := filled_of_varying varying
  obtain ⟨divisor, spread⟩ := divisors_ne_zero varying
  rw [← summOf_shiftGroups_iff filled sized (by decide) known inside, totalOrderOf, totalOrderOf,
    variance_shiftGroups sized inside, shiftGroups_length, if_pos varying, if_pos varying,
    div_left_inj' spread, div_left_inj' divisor]

theorem firstOrderOf_shiftGroups_iff
    (varying : variance (componentOf (vectorsOf groups 0) i) > epsylon)
    (sized : SizedGroups nbParameters vectSize groups) (known : k < nbParameters)
    (inside : i < vectSize) (c : K) :
    firstOrderOf (shiftGroups c groups) k i = firstOrderOf groups k i ↔
      c = 0 ∨ mean (componentOf (vectorsOf groups 1) i) +
        mean (componentOf (vectorsOf groups (k + 2)) i) = -c := by
  have filled := filled_of_varying varying
  obtain ⟨divisor, spread⟩ := divisors_ne_zero varying
  rw [← summOf_shiftGroups_iff filled sized (by decide) known inside, firstOrderOf, firstOrderOf,
    variance_shiftGroups sized inside, shiftGroups_length, if_pos varying, if_pos varying,
    sub_right_inj, div_left_inj' spread, div_left_inj' divisor]

/-- A component that hardly varies has the index 0 wherever its origin is. -/
theorem indices_of_level (level : ¬ variance (componentOf (vectorsOf groups 0) i) > epsylon)
    (sized : SizedGroups nbParameters vectSize groups) (inside : i < vectSize) (c : K) :
    totalOrderOf (shiftGroups c groups) k i = totalOrderOf groups k i ∧
      firstOrderOf (shiftGroups c groups) k i = firstOrderOf groups k i := by
  simp only [totalOrderOf, firstOrderOf, variance_shiftGroups sized inside, if_neg level, true_and]

theorem jansenSafe_iff (varying : variance (componentOf (vectorsOf groups 0) i) > epsylon)
    (sized : SizedGroups nbParameters vectSize groups) (known : k < nbParameters)
    (inside : i < vectSize) (c : K) :
    JansenSafe vectSize groups c k i ↔
      ((AlwaysEqual vectSize groups (k + 2) 0 → totalOrderOf groups k i = 0) ∧
        (AlwaysEqual vectSize groups (k + 2) 1 → firstOrderOf groups k i = 1)) ∧
      totalOrderOf (shiftGroups c groups) k i = totalOrderOf groups k i ∧
      firstOrderOf (shiftGroups c groups) k i = firstOrderOf groups k i := by
  rw [totalOrderOf_shiftGroups_iff varying sized known inside,
    firstOrderOf_shiftGroups_iff varying sized known inside, ← or_and_left]
  constructor
  · intro safe
    refine ⟨⟨?_, ?_⟩, safe.shift⟩
    · exact fun equal => absurd equal safe.total
    · exact fun equal => (firstOrderOf_eq_one_iff varying inside equal).mpr (safe.first equal)
  · intro values
    obtain ⟨⟨total, first⟩, shift⟩ := values
    constructor
    · exact fun equal => totalOrderOf_ne_zero varying inside equal (total equal)
    · exact fun equal => (firstOrderOf_eq_one_iff varying inside equal).mp (first equal)
    · exact shift

end Shift

/-- The laws about the values that the structure holds, parameter by parameter and component by
component. -/
theorem jansenLaws_values (nbParameters vectSize : Nat) (groups : List (List (List K))) (c : K) :
    JansenLaws nbParameters vectSize groups c ↔
      ∀ k < nbParameters, ∀ i < vectSize,
        (variance (componentOf (vectorsOf groups 0) i) > epsylon →
          (AlwaysEqual vectSize groups (k + 2) 0 → totalOrderOf groups k i = 0) ∧
          (AlwaysEqual vectSize groups (k + 2) 1 → firstOrderOf groups k i = 1)) ∧
        totalOrderOf (shiftGroups c groups) k i = totalOrderOf groups k i ∧
        firstOrderOf (shiftGroups c groups) k i = firstOrderOf groups k i := by
  constructor
  · intro laws k known i inside
    have total := laws.total k known i inside
    have first := laws.first k known i inside
    have totalShift := laws.totalShift k known i inside
    have firstShift := laws.firstShift k known i inside
    simp only [jansenRun_varianceA inside, totalOrderIndex_jansenRun known inside,
      firstOrderIndex_jansenRun known inside] at total first totalShift firstShift
    exact ⟨fun varying => ⟨total varying, first varying⟩, totalShift, firstShift⟩
  · intro values
    constructor
    · intro k known i inside
      rw [jansenRun_varianceA inside, totalOrderIndex_jansenRun known inside]
      exact fun varying => ((values k known i inside).1 varying).1
    · intro k known i inside
      rw [jansenRun_varianceA inside, firstOrderIndex_jansenRun known inside]
      exact fun varying => ((values k known i inside).1 varying).2
    · intro k known i inside
      rw [totalOrderIndex_jansenRun known inside, totalOrderIndex_jansenRun known inside]
      exact (values k known i inside).2.1
    · intro k known i inside
      rw [firstOrderIndex_jansenRun known inside, firstOrderIndex_jansenRun known inside]
      exact (values k known i inside).2.2

/-- When the laws hold all the same. -/
theorem jansenLaws_iff {nbParameters vectSize : Nat} {groups : List (List (List K))}
    (sized : SizedGroups nbParameters vectSize groups) (c : K) :
    JansenLaws nbParameters vectSize groups c ↔
      ∀ k < nbParameters, ∀ i < vectSize,
        variance (componentOf (vectorsOf groups 0) i) > epsylon →
          JansenSafe vectSize groups c k i := by
  rw [jansenLaws_values]
  apply forall₂_congr
  intro k known
  apply forall₂_congr
  intro i inside
  by_cases varying : variance (componentOf (vectorsOf groups 0) i) > epsylon
  · rw [jansenSafe_iff varying sized known inside, forall_prop_of_true varying,
      forall_prop_of_true varying]
  · exact iff_of_true ⟨fun above => absurd above varying, indices_of_level varying sized inside c⟩
      fun above => absurd above varying

section Example

private def twoParameters : List (List (List ℚ)) :=
  [[[0], [3], [1], [3]], [[2], [1], [1], [1]]]

private theorem twoParameters_sized : SizedGroups 2 1 twoParameters := by decide

theorem jansenLaws_iff_twoParameters :
    SizedGroups 2 1 twoParameters ∧
      (JansenLaws 2 1 twoParameters 5 ↔
        ∀ k < 2, ∀ i < 1, variance (componentOf (vectorsOf twoParameters 0) i) > epsylon →
          JansenSafe 1 twoParameters 5 k i) :=
  ⟨twoParameters_sized, jansenLaws_iff twoParameters_sized 5⟩

/-- A parameter without influence in two groups: its total order index is 8/3. -/
theorem not_jansenLaws_twoGroups :
    ¬ ∀ (nbParameters vectSize : Nat) (groups : List (List (List ℚ))) (c : ℚ), groups ≠ [] →
      SizedGroups nbParameters vectSize groups → JansenLaws nbParameters vectSize groups c := by
  intro laws
  have zero := (laws 1 1 [[[0], [0], [0]], [[2], [1], [2]]] 0 (by decide) (by decide)).total 0
    (by decide) 0 (by decide) (by decide +kernel) (by decide +kernel)
  have index : totalOrderIndex (jansenRun 1 1 [[[0], [0], [0]], [[2], [1], [2]]]) 0 0 =
      (8 / 3 : ℚ) := by
    decide +kernel
  rw [index] at zero
  exact absurd zero (by decide +kernel)

end Example

end Laws

end Melissa
