import Melissa.Stats.Covariance
import Melissa.Stats.MomentsRun

/-! `update_mean`, `update_global_mean` and `update_moments`: what two or more processes have
accumulated, put together. -/

namespace Melissa

open Arrays Comoment CentralMoments

section Update

variable {D : Type} [Zero D] [Add D] [Sub D] [Mul D] [Div D] [NatCast D]

def updateMean (mean1 mean2 updatedMean : Mean D) (vectSize : Nat) : Mean D :=
  let increment := mean2.increment + mean1.increment
  { increment := increment
    mean := overwrite vectSize (fun i =>
      let delta := mean2.mean.getD i 0 - mean1.mean.getD i 0
      mean1.mean.getD i 0 + (mean2.increment : D) * delta / (increment : D)) updatedMean.mean }

/-- One turn of the loop in `update_global_mean`: rank 0 receives the parts of another rank. -/
def receiveMean (vectSize : Nat) (global received : Mean D) : Mean D :=
  let increment := global.increment + received.increment
  { increment := increment
    mean := overwrite vectSize (fun i =>
      let delta := global.mean.getD i 0 - received.mean.getD i 0
      received.mean.getD i 0 + (global.increment : D) * delta / (increment : D)) global.mean }

/-- The structures of all ranks after `update_global_mean`: rank 0 receives from the others in
their order, and these keep what they have sent. -/
def updateGlobalMean (vectSize : Nat) : List (Mean D) → List (Mean D)
  | [] => []
  | root :: others => others.foldl (receiveMean vectSize) root :: others

def updateMomentsMean (m1 m2 m3 : List D) (increment2 increment3 vectSize : Nat) : List D :=
  overwrite vectSize (fun i =>
    let delta := m2.getD i 0 - m1.getD i 0
    m1.getD i 0 + (increment2 : D) * delta / (increment3 : D)) m3

/-- The order is the one of the structure that is written. -/
def updateMoments [Pow D ℕ] (moments1 moments2 updatedMoments : Moments D) (vectSize : Nat) :
    Moments D :=
  let increment := moments1.increment + moments2.increment
  let maxOrder := updatedMoments.maxOrder
  if maxOrder < 1 then { updatedMoments with increment := increment } else
  let mean (order : Nat) (left right old : List D) :=
    if maxOrder ≥ order then
      updateMomentsMean left right old moments2.increment increment vectSize else old
  let m1 := mean 1 moments1.m1 moments2.m1 updatedMoments.m1
  let m2 := mean 2 moments1.m2 moments2.m2 updatedMoments.m2
  let m3 := mean 3 moments1.m3 moments2.m3 updatedMoments.m3
  let m4 := mean 4 moments1.m4 moments2.m4 updatedMoments.m4
  let theta (order : Nat) (old : List D) (value : Nat → D) :=
    if maxOrder ≥ order then overwrite vectSize value old else old
  { m1 := m1, m2 := m2, m3 := m3, m4 := m4
    theta2 := theta 2 updatedMoments.theta2 fun i => thetaTwo (m1.getD i 0) (m2.getD i 0)
    theta3 := theta 3 updatedMoments.theta3 fun i =>
      thetaThree (m1.getD i 0) (m2.getD i 0) (m3.getD i 0)
    theta4 := theta 4 updatedMoments.theta4 fun i =>
      thetaFour (m1.getD i 0) (m2.getD i 0) (m3.getD i 0) (m4.getD i 0)
    increment := increment, maxOrder := maxOrder }

/-- The arrays that `init_moments` allocates for this order, with any content. -/
structure Allocated (vectSize maxOrder : Nat) (moments : Moments D) : Prop where
  order : moments.maxOrder = maxOrder
  m1 : moments.m1.length = if maxOrder ≥ 1 then vectSize else 0
  m2 : moments.m2.length = if maxOrder ≥ 2 then vectSize else 0
  m3 : moments.m3.length = if maxOrder ≥ 3 then vectSize else 0
  m4 : moments.m4.length = if maxOrder ≥ 4 then vectSize else 0
  theta2 : moments.theta2.length = if maxOrder ≥ 2 then vectSize else 0
  theta3 : moments.theta3.length = if maxOrder ≥ 3 then vectSize else 0
  theta4 : moments.theta4.length = if maxOrder ≥ 4 then vectSize else 0

end Update

section Means

variable {K : Type} [Field K]

/-- The mean structure that stands for the given vectors. -/
def meanOf (vectSize : Nat) (vectors : List (List K)) : Mean K :=
  { mean := (List.range vectSize).map fun i => mean (componentOf vectors i)
    increment := vectors.length }

theorem meanRun_length (vectSize : Nat) (vectors : List (List K)) :
    (meanRun vectSize vectors).mean.length = vectSize := by
  induction vectors using List.reverseRecOn with
  | nil => exact List.length_replicate ..
  | append_singleton vectors vect ih =>
      rw [meanRun, List.foldl_append]
      exact overwrite_length ih _

theorem componentOf_append (vectors vectors' : List (List K)) (i : Nat) :
    componentOf (vectors ++ vectors') i = componentOf vectors i ++ componentOf vectors' i :=
  List.map_append

theorem componentOf_length (vectors : List (List K)) (i : Nat) :
    (componentOf vectors i).length = vectors.length :=
  List.length_map ..

variable [CharZero K]

theorem meanRun_eq (vectSize : Nat) (vectors : List (List K)) :
    meanRun vectSize vectors = meanOf vectSize vectors := by
  obtain ⟨increment, means⟩ := meanRun_tracks vectSize vectors
  rw [meanOf, ← eq_map_range (meanRun_length vectSize vectors) 0 means, ← increment]

theorem updateMean_meanOf {vectSize : Nat} {updated : Mean K}
    (allocated : updated.mean.length = vectSize) (xs ys : List (List K)) :
    updateMean (meanOf vectSize xs) (meanOf vectSize ys) updated vectSize =
      meanOf vectSize (xs ++ ys) := by
  simp only [updateMean, meanOf, overwrite_full allocated]
  congr 1
  · apply List.map_congr_left
    intro i member
    have inside := List.mem_range.mp member
    simp only [getD_map_range inside]
    rw [componentOf_append, mean_append, componentOf_length, componentOf_length, Nat.add_comm]
  · rw [List.length_append, Nat.add_comm]

/-- Rank 0 writes the mean of the two with the deviation the other way round. -/
theorem receiveMean_meanOf (vectSize : Nat) (xs ys : List (List K)) :
    receiveMean vectSize (meanOf vectSize xs) (meanOf vectSize ys) =
      meanOf vectSize (xs ++ ys) := by
  have written : ((List.range vectSize).map fun i => mean (componentOf xs i)).length =
      vectSize := by simp
  simp only [receiveMean, meanOf, overwrite_full written]
  congr 1
  · apply List.map_congr_left
    intro i member
    have inside := List.mem_range.mp member
    simp only [getD_map_range inside]
    rw [componentOf_append, mean_append_swap, componentOf_length, componentOf_length]
  · rw [List.length_append]

theorem updateGlobalMean_meanOf (vectSize : Nat) (root : List (List K))
    (others : List (List (List K))) :
    updateGlobalMean vectSize ((root :: others).map (meanOf vectSize)) =
      meanOf vectSize (root ++ others.flatten) :: others.map (meanOf vectSize) := by
  rw [List.map_cons, updateGlobalMean, foldl_map_flatten (receiveMean_meanOf vectSize)]

theorem updateMomentsMean_momentArray {vectSize maxOrder power : Nat} {old : List K}
    (allocated : old.length = if maxOrder ≥ power then vectSize else 0)
    (xs ys : List (List K)) :
    (if maxOrder ≥ power then
      updateMomentsMean (momentArray vectSize maxOrder power fun i => powerMean (column xs i) power)
        (momentArray vectSize maxOrder power fun i => powerMean (column ys i) power) old ys.length
        (xs.length + ys.length) vectSize
      else old) =
      momentArray vectSize maxOrder power fun i => powerMean (column (xs ++ ys) i) power := by
  rw [updateMomentsMean, overwrite_allocated allocated]
  apply momentArray_congr
  intro reached i inside
  rw [getD_momentArray reached inside, getD_momentArray reached inside, column_append,
    powerMean_append, column_length, column_length]

theorem updateMoments_momentsOf {vectSize maxOrder : Nat} {updated : Moments K}
    (allocated : Allocated vectSize maxOrder updated) (xs ys : List (List K)) :
    updateMoments (momentsOf vectSize maxOrder xs) (momentsOf vectSize maxOrder ys) updated
        vectSize =
      momentsOf vectSize maxOrder (xs ++ ys) := by
  obtain ⟨rfl, m1, m2, m3, m4, theta2, theta3, theta4⟩ := allocated
  have number : (xs ++ ys).length = xs.length + ys.length := List.length_append
  unfold momentsOf updateMoments
  by_cases low : updated.maxOrder < 1
  · have absent (order : Nat) (positive : 1 ≤ order) (value : Nat → K) :
        momentArray vectSize updated.maxOrder order value = [] := if_neg (by omega)
    have empty (order : Nat) (positive : 1 ≤ order) (old : List K)
        (size : old.length = if updated.maxOrder ≥ order then vectSize else 0) : old = [] := by
      rw [if_neg (by omega)] at size
      exact List.eq_nil_of_length_eq_zero size
    simp only [low, if_true, absent, Nat.le_refl, Nat.one_le_ofNat, number]
    congr 1
    · exact empty 1 (by decide) _ m1
    · exact empty 2 (by decide) _ m2
    · exact empty 3 (by decide) _ m3
    · exact empty 4 (by decide) _ m4
    · exact empty 2 (by decide) _ theta2
    · exact empty 3 (by decide) _ theta3
    · exact empty 4 (by decide) _ theta4
  · simp only [low, if_false, updateMomentsMean_momentArray m1, updateMomentsMean_momentArray m2,
      updateMomentsMean_momentArray m3, updateMomentsMean_momentArray m4,
      overwrite_allocated theta2, overwrite_allocated theta3, overwrite_allocated theta4, number]
    congr 1
    · apply momentArray_congr
      exact fun reached i inside => thetaTwo_held (xs ++ ys) inside reached
    · apply momentArray_congr
      exact fun reached i inside => thetaThree_held (xs ++ ys) inside reached
    · apply momentArray_congr
      exact fun reached i inside => thetaFour_held (xs ++ ys) inside reached

/-- Merging what two processes hold, and the reduction on rank 0, are one pass over all. -/
theorem partialRuns_onePass {vectSize maxOrder : Nat} {updated : Moments K} {updatedMean : Mean K}
    (allocated : Allocated vectSize maxOrder updated)
    (allocatedMean : updatedMean.mean.length = vectSize) (xs ys root : List (List K))
    (others : List (List (List K))) :
    updateMoments (incrementAll vectSize (initMoments vectSize maxOrder) xs)
        (incrementAll vectSize (initMoments vectSize maxOrder) ys) updated vectSize =
      incrementAll vectSize (initMoments vectSize maxOrder) (xs ++ ys) ∧
    updateMean (meanRun vectSize xs) (meanRun vectSize ys) updatedMean vectSize =
      meanRun vectSize (xs ++ ys) ∧
    updateGlobalMean vectSize ((root :: others).map (meanRun vectSize)) =
      meanRun vectSize (root ++ others.flatten) :: others.map (meanRun vectSize) := by
  have runs : meanRun vectSize = meanOf (K := K) vectSize := funext (meanRun_eq vectSize)
  simp only [incrementAll_initMoments, runs]
  exact ⟨updateMoments_momentsOf allocated xs ys, updateMean_meanOf allocatedMean xs ys,
    updateGlobalMean_meanOf vectSize root others⟩

/-- Unequal counts, an empty side and three processes. -/
theorem partialRuns_onePass_threeRanks :
    Allocated 1 4 (initMoments (D := ℚ) 1 4) ∧ (initMean (D := ℚ) 1).mean.length = 1 ∧
    updateMoments (incrementAll 1 (initMoments 1 4) [[1], [4]])
        (incrementAll 1 (initMoments 1 4) []) (initMoments (D := ℚ) 1 4) 1 =
      incrementAll 1 (initMoments 1 4) ([[1], [4]] ++ []) ∧
    updateMean (meanRun 1 [[1], [4]]) (meanRun 1 []) (initMean (D := ℚ) 1) 1 =
      meanRun 1 ([[1], [4]] ++ []) ∧
    updateGlobalMean 1 (([[1], [4]] :: [[[7]], [[2], [5], [(6 : ℚ)]]]).map (meanRun 1)) =
      meanRun 1 ([[1], [4]] ++ [[[7]], [[2], [5], [6]]].flatten) ::
        [[[7]], [[2], [5], [6]]].map (meanRun 1) := by
  have allocated : Allocated 1 4 (initMoments (D := ℚ) 1 4) :=
    ⟨rfl, rfl, rfl, rfl, rfl, rfl, rfl, rfl⟩
  exact ⟨allocated, rfl, partialRuns_onePass allocated rfl _ _ _ _⟩

end Means

end Melissa
