import Melissa.Base.CentralMoments
import Melissa.Stats.Moments

/-! What `general_moments.c` holds after any sequence of vectors: the moments of the samples of
each component. -/

namespace Melissa

open Arrays CentralMoments

section Run

variable {D : Type} [Zero D] [Add D] [Sub D] [Mul D] [Div D] [NatCast D] [Pow D ℕ]

def incrementAll (vectSize : Nat) (moments : Moments D) (samples : List (List D)) : Moments D :=
  samples.foldl (fun moments vect => incrementMoments moments vect vectSize) moments

end Run

section Arrays

variable {D : Type}

/-- An array that `init_moments` allocates for the orders from `order` on. -/
def momentArray (vectSize maxOrder order : Nat) (value : Nat → D) : List D :=
  if maxOrder ≥ order then (List.range vectSize).map value else []

theorem momentArray_congr {vectSize maxOrder order : Nat} {value value' : Nat → D}
    (same : maxOrder ≥ order → ∀ i < vectSize, value i = value' i) :
    momentArray vectSize maxOrder order value = momentArray vectSize maxOrder order value' := by
  by_cases reached : maxOrder ≥ order
  · rw [momentArray, momentArray, if_pos reached, if_pos reached]
    exact List.map_congr_left fun i member => same reached i (List.mem_range.mp member)
  · rw [momentArray, momentArray, if_neg reached, if_neg reached]

/-- A loop over an allocated array writes all of it. -/
theorem overwrite_momentArray {vectSize maxOrder order : Nat} (reached : maxOrder ≥ order)
    (value value' : Nat → D) :
    overwrite vectSize value' (momentArray vectSize maxOrder order value) =
      momentArray vectSize maxOrder order value' := by
  rw [momentArray, momentArray, if_pos reached, if_pos reached, overwrite_full (by simp)]

theorem overwrite_allocated {vectSize maxOrder order : Nat} {old : List D}
    (allocated : old.length = if maxOrder ≥ order then vectSize else 0) (value : Nat → D) :
    (if maxOrder ≥ order then overwrite vectSize value old else old) =
      momentArray vectSize maxOrder order value := by
  unfold momentArray
  by_cases reached : maxOrder ≥ order
  · rw [if_pos reached] at allocated ⊢
    rw [if_pos reached, overwrite_full allocated]
  · rw [if_neg reached] at allocated ⊢
    rw [if_neg reached, List.eq_nil_of_length_eq_zero allocated]

end Arrays

section Exact

variable {K : Type} [Field K]

def column (samples : List (List K)) (i : Nat) : List K := samples.map fun vect => vect.getD i 0

theorem column_concat (samples : List (List K)) (vect : List K) (i : Nat) :
    column (samples ++ [vect]) i = column samples i ++ [vect.getD i 0] := by
  simp [column]

theorem column_append (samples samples' : List (List K)) (i : Nat) :
    column (samples ++ samples') i = column samples i ++ column samples' i :=
  List.map_append

theorem column_length (samples : List (List K)) (i : Nat) :
    (column samples i).length = samples.length :=
  List.length_map ..

theorem getD_momentArray {vectSize maxOrder order i : Nat} (reached : maxOrder ≥ order)
    (inside : i < vectSize) (value : Nat → K) :
    (momentArray vectSize maxOrder order value).getD i 0 = value i := by
  rw [momentArray, if_pos reached]
  exact getD_map_range inside value 0

/-- All samples agree in component `i`. -/
def Constant (samples : List (List K)) (i : Nat) : Prop :=
  ∃ c, ∀ vect ∈ samples, vect.getD i 0 = c

theorem constant_column {samples : List (List K)} {i : Nat} :
    (∃ c, ∀ x ∈ column samples i, x = c) ↔ Constant samples i := by
  simp [Constant, column]

/-- The moments of the samples: means of powers and central moments, component by component. -/
def momentsOf (vectSize maxOrder : Nat) (samples : List (List K)) : Moments K :=
  let powers (order : Nat) : List K :=
    momentArray vectSize maxOrder order fun i => powerMean (column samples i) order
  let central (order : Nat) : List K :=
    momentArray vectSize maxOrder order fun i => centralMoment (column samples i) order
  { m1 := powers 1, m2 := powers 2, m3 := powers 3, m4 := powers 4
    theta2 := central 2, theta3 := central 3, theta4 := central 4
    increment := samples.length, maxOrder := maxOrder }

theorem momentsOf_nil (vectSize maxOrder : Nat) :
    momentsOf vectSize maxOrder ([] : List (List K)) = initMoments vectSize maxOrder := by
  have zeros (order : Nat) (value : Nat → K) (zero : ∀ i, value i = 0) :
      momentArray vectSize maxOrder (order + 1) value =
        if maxOrder > order then List.replicate vectSize 0 else [] := by
    have copies : (List.range vectSize).map value = List.replicate vectSize 0 := by
      rw [List.map_congr_left fun i _ => zero i, List.map_const', List.length_range]
    simp only [momentArray, copies, ge_iff_le, Nat.succ_le_iff, gt_iff_lt]
  unfold momentsOf initMoments
  simp only [List.length_nil]
  congr 1
  all_goals exact zeros _ _ fun i => by simp [column]

/-- A central moment is written from the second sample on. The single first one leaves the zeros
of `calloc`, which it has as central moments. -/
theorem overwrite_centralMoment {vectSize maxOrder order : Nat} (samples : List (List K))
    (vect : List K) (value : Nat → K) (positive : order ≠ 0)
    (polynomial : maxOrder ≥ order → ∀ i < vectSize,
      value i = centralMoment (column (samples ++ [vect]) i) order) :
    (if samples.length + 1 > 1 ∧ maxOrder ≥ order then
      overwrite vectSize value
        (momentArray vectSize maxOrder order fun i => centralMoment (column samples i) order)
      else momentArray vectSize maxOrder order fun i => centralMoment (column samples i) order) =
      momentArray vectSize maxOrder order
        fun i => centralMoment (column (samples ++ [vect]) i) order := by
  by_cases reached : maxOrder ≥ order
  · by_cases first : samples = []
    · subst first
      rw [if_neg (by simp)]
      apply momentArray_congr
      intro _ i _
      simp [column, centralMoment_singleton _ positive]
    · have more := List.length_pos_iff.mpr first
      rw [if_pos ⟨by omega, reached⟩, overwrite_momentArray reached]
      exact momentArray_congr polynomial
  · rw [if_neg fun both => reached both.2, momentArray, momentArray, if_neg reached,
      if_neg reached]

variable [CharZero K]

theorem incrementMomentsMean_momentArray (vectSize maxOrder power : Nat)
    (samples : List (List K)) (vect : List K) :
    (if maxOrder ≥ power then
      incrementMomentsMean
        (momentArray vectSize maxOrder power fun i => powerMean (column samples i) power) vect
        vectSize (samples.length + 1) power
      else momentArray vectSize maxOrder power fun i => powerMean (column samples i) power) =
      momentArray vectSize maxOrder power
        fun i => powerMean (column (samples ++ [vect]) i) power := by
  by_cases reached : maxOrder ≥ power
  · rw [if_pos reached, incrementMomentsMean, overwrite_momentArray reached]
    apply momentArray_congr
    intro _ i inside
    rw [getD_momentArray reached inside, column_concat, powerMean_concat, column_length]
  · rw [if_neg reached, momentArray, momentArray, if_neg reached, if_neg reached]

/-- The polynomial that the code evaluates for a central moment. -/
theorem thetaTwo_eq (xs : List K) : thetaTwo (powerMean xs 1) (powerMean xs 2) =
    centralMoment xs 2 :=
  (centralMoment_two xs).symm

theorem thetaThree_eq (xs : List K) :
    thetaThree (powerMean xs 1) (powerMean xs 2) (powerMean xs 3) = centralMoment xs 3 := by
  rw [centralMoment_three, thetaThree]
  push_cast
  rfl

theorem thetaFour_eq (xs : List K) :
    thetaFour (powerMean xs 1) (powerMean xs 2) (powerMean xs 3) (powerMean xs 4) =
      centralMoment xs 4 := by
  rw [centralMoment_four, thetaFour]
  push_cast
  rfl

section Held

variable {vectSize maxOrder i : Nat} (samples : List (List K)) (inside : i < vectSize)
include inside

/-- The same polynomial of the arrays that hold the means of the powers. -/
theorem thetaTwo_held (reached : maxOrder ≥ 2) :
    thetaTwo
        ((momentArray vectSize maxOrder 1 fun i => powerMean (column samples i) 1).getD i 0)
        ((momentArray vectSize maxOrder 2 fun i => powerMean (column samples i) 2).getD i 0) =
      centralMoment (column samples i) 2 := by
  rw [getD_momentArray (by omega) inside, getD_momentArray reached inside, thetaTwo_eq]

theorem thetaThree_held (reached : maxOrder ≥ 3) :
    thetaThree
        ((momentArray vectSize maxOrder 1 fun i => powerMean (column samples i) 1).getD i 0)
        ((momentArray vectSize maxOrder 2 fun i => powerMean (column samples i) 2).getD i 0)
        ((momentArray vectSize maxOrder 3 fun i => powerMean (column samples i) 3).getD i 0) =
      centralMoment (column samples i) 3 := by
  rw [getD_momentArray (by omega) inside, getD_momentArray (by omega) inside,
    getD_momentArray reached inside, thetaThree_eq]

theorem thetaFour_held (reached : maxOrder ≥ 4) :
    thetaFour
        ((momentArray vectSize maxOrder 1 fun i => powerMean (column samples i) 1).getD i 0)
        ((momentArray vectSize maxOrder 2 fun i => powerMean (column samples i) 2).getD i 0)
        ((momentArray vectSize maxOrder 3 fun i => powerMean (column samples i) 3).getD i 0)
        ((momentArray vectSize maxOrder 4 fun i => powerMean (column samples i) 4).getD i 0) =
      centralMoment (column samples i) 4 := by
  rw [getD_momentArray (by omega) inside, getD_momentArray (by omega) inside,
    getD_momentArray (by omega) inside, getD_momentArray reached inside, thetaFour_eq]

end Held

/-- One more vector: the arrays that hold the moments of the samples hold those of one sample
more. -/
theorem incrementMoments_momentsOf (vectSize maxOrder : Nat) (samples : List (List K))
    (vect : List K) :
    incrementMoments (momentsOf vectSize maxOrder samples) vect vectSize =
      momentsOf vectSize maxOrder (samples ++ [vect]) := by
  have number : (samples ++ [vect]).length = samples.length + 1 := by simp
  unfold momentsOf incrementMoments
  by_cases low : maxOrder < 1
  · have absent (order : Nat) (positive : 1 ≤ order) (value : Nat → K) :
        momentArray vectSize maxOrder order value = [] := if_neg (by omega)
    simp only [low, if_true, absent, Nat.le_refl, Nat.one_le_ofNat, number]
  · simp only [low, if_false, incrementMomentsMean_momentArray, number]
    congr 1
    · apply overwrite_centralMoment samples vect _ (by decide)
      exact fun reached i inside => thetaTwo_held (samples ++ [vect]) inside reached
    · apply overwrite_centralMoment samples vect _ (by decide)
      exact fun reached i inside => thetaThree_held (samples ++ [vect]) inside reached
    · apply overwrite_centralMoment samples vect _ (by decide)
      exact fun reached i inside => thetaFour_held (samples ++ [vect]) inside reached

/-- The incremental update computes the moments of the whole sequence. -/
theorem incrementAll_initMoments (vectSize maxOrder : Nat) (samples : List (List K)) :
    incrementAll vectSize (initMoments vectSize maxOrder) samples =
      momentsOf vectSize maxOrder samples := by
  induction samples using List.reverseRecOn with
  | nil => exact (momentsOf_nil vectSize maxOrder).symm
  | append_singleton samples vect ih =>
      calc incrementAll vectSize (initMoments vectSize maxOrder) (samples ++ [vect])
          = incrementMoments (incrementAll vectSize (initMoments vectSize maxOrder) samples) vect
              vectSize := List.foldl_append
        _ = momentsOf vectSize maxOrder (samples ++ [vect]) := by
            rw [ih, incrementMoments_momentsOf]

/-- Every array that `max_order` asks for holds what it is named after. -/
structure MomentsExact (vectSize maxOrder : Nat) (samples : List (List K)) (moments : Moments K) :
    Prop where
  increment : moments.increment = samples.length
  m1 : maxOrder ≥ 1 → ∀ i < vectSize, moments.m1.getD i 0 = powerMean (column samples i) 1
  m2 : maxOrder ≥ 2 → ∀ i < vectSize, moments.m2.getD i 0 = powerMean (column samples i) 2
  m3 : maxOrder ≥ 3 → ∀ i < vectSize, moments.m3.getD i 0 = powerMean (column samples i) 3
  m4 : maxOrder ≥ 4 → ∀ i < vectSize, moments.m4.getD i 0 = powerMean (column samples i) 4
  theta2 : maxOrder ≥ 2 → ∀ i < vectSize,
    moments.theta2.getD i 0 = centralMoment (column samples i) 2
  theta3 : maxOrder ≥ 3 → ∀ i < vectSize,
    moments.theta3.getD i 0 = centralMoment (column samples i) 3
  theta4 : maxOrder ≥ 4 → ∀ i < vectSize,
    moments.theta4.getD i 0 = centralMoment (column samples i) 4

theorem incrementMoments_exact (vectSize maxOrder : Nat) (samples : List (List K)) :
    MomentsExact vectSize maxOrder samples
      (incrementAll vectSize (initMoments vectSize maxOrder) samples) := by
  rw [incrementAll_initMoments]
  constructor
  · rfl
  all_goals
    intro reached i inside
    exact getD_momentArray reached inside _

theorem incrementMoments_exact_threeSamples :
    MomentsExact 2 4 [[1, 5], [2, 5], [(6 : ℚ), 2]]
      (incrementAll 2 (initMoments 2 4) [[1, 5], [2, 5], [6, 2]]) :=
  incrementMoments_exact 2 4 [[1, 5], [2, 5], [6, 2]]

end Exact

end Melissa
