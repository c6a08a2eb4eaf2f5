import Melissa.StepStats
import Mathlib.Algebra.Order.Field.Basic
import Mathlib.Algebra.Order.Ring.Cast
import Mathlib.Data.List.Perm.Basic
import Mathlib.Tactic.FieldSimp
import Mathlib.Tactic.Ring

/-! In exact arithmetic the moments, extrema and exceedance counters of a time step do not
depend on the order in which its messages are computed. -/

namespace Melissa

open Arrays

section Folds

variable {σ μ τ : Type}

/-- Folding over rearranged items gives states that look the same, when swapping two items and
starting from a state that looks the same both do. -/
theorem foldl_view_perm {f : σ → μ → σ} {view : σ → τ}
    (respects : ∀ s s' m, view s = view s' → view (f s m) = view (f s' m))
    (swap : ∀ s a b, view (f (f s a) b) = view (f (f s b) a)) {items items' : List μ}
    (perm : items.Perm items') :
    ∀ s s', view s = view s' → view (items.foldl f s) = view (items'.foldl f s') := by
  induction perm with
  | nil => exact fun _ _ same => same
  | cons m _ ih => exact fun s s' same => ih _ _ (respects s s' m same)
  | swap a b rest =>
      intro s s' same
      have start : view (f (f s b) a) = view (f (f s' a) b) := by
        rw [swap s' a b]
        exact respects _ _ a (respects s s' b same)
      simp only [List.foldl_cons]
      generalize f (f s b) a = left at start
      generalize f (f s' a) b = right at start
      induction rest generalizing left right with
      | nil => exact start
      | cons m rest ih => exact ih _ _ (respects _ _ m start)
  | trans _ _ first second => exact fun s s' same => (first s s' same).trans (second s' s' rfl)

end Folds

section Order

variable {K : Type} [LinearOrder K]

/-- The extrema without the simulations they come from. -/
def eraseIds (minMax : MinMax K) : MinMax K := { minMax with minId := [], maxId := [] }

private theorem lower_eq_min (a b : K) : (if a > b then b else a) = min a b := by
  rcases lt_or_ge b a with below | above
  · rw [if_pos below, min_eq_right below.le]
  · rw [if_neg (not_lt.mpr above), min_eq_left above]

private theorem higher_eq_max (a b : K) : (if a < b then b else a) = max a b := by
  rcases lt_or_ge a b with below | above
  · rw [if_pos below, max_eq_right below.le]
  · rw [if_neg (not_lt.mpr above), max_eq_left above]

variable [Zero K]

theorem minAndMax_swap (minMax : MinMax K) (x y : List K) (vectSize s s' t t' : Nat) :
    eraseIds (minAndMax (minAndMax minMax x s vectSize) y s' vectSize) =
      eraseIds (minAndMax (minAndMax minMax y t vectSize) x t' vectSize) := by
  have lower (old : List K) (f g : Nat → K) (same : ∀ i < vectSize, f i = g i) :=
    overwrite_congr same old
  cases started : minMax.isInit with
  | false =>
      simp only [minAndMax, started, if_true, Bool.true_eq_false, if_false, eraseIds,
        overwrite_overwrite, lower_eq_min, higher_eq_max]
      congr 1
      · apply lower
        intro i inside
        simp only [getD_overwrite inside]
        exact min_comm _ _
      · apply lower
        intro i inside
        simp only [getD_overwrite inside]
        exact max_comm _ _
  | true =>
      simp only [minAndMax, started, Bool.true_eq_false, if_false, eraseIds,
        overwrite_overwrite, lower_eq_min, higher_eq_max]
      congr 1
      · apply lower
        intro i inside
        simp only [getD_overwrite inside]
        exact min_right_comm _ _ _
      · apply lower
        intro i inside
        simp only [getD_overwrite inside]
        exact max_right_comm _ _ _

theorem minAndMax_eraseIds (minMax : MinMax K) (x : List K) (s t vectSize : Nat) :
    eraseIds (minAndMax (eraseIds minMax) x s vectSize) =
      eraseIds (minAndMax minMax x t vectSize) := by
  cases started : minMax.isInit with
  | false => simp [minAndMax, eraseIds, started]
  | true => simp [minAndMax, eraseIds, started]

theorem updateThresholdExceedance_swap (threshold : Threshold K) (x y : List K)
    (vectSize : Nat) :
    updateThresholdExceedance (updateThresholdExceedance threshold x vectSize) y vectSize =
      updateThresholdExceedance (updateThresholdExceedance threshold y vectSize) x vectSize := by
  simp only [updateThresholdExceedance, overwrite_overwrite]
  congr 1
  apply overwrite_congr
  intro i inside
  simp only [getD_overwrite inside]
  split <;> split <;> rfl

end Order

section Values

variable {K : Type} [Field K] [LinearOrder K] [Libm K]

/-- The statistics whose values are free of the order: all but the simulations of the extrema,
the quantiles and the Sobol indices. -/
def values (stats : StepStats K) : StepStats K :=
  { moments := stats.moments, minMax := stats.minMax.map eraseIds
    thresholds := stats.thresholds, quantiles := none, sobolIndices := none }

theorem values_updateSobol (vectSize : Nat) (inVectTab : List (List K)) (stats : StepStats K) :
    values (updateSobol vectSize inVectTab stats) = values stats := rfl

theorem values_updateVector (options : Options K) (vectSize s t : Nat) (x : List K)
    (stats : StepStats K) :
    values (updateVector options vectSize s x stats) =
      values (updateVector options vectSize t x (values stats)) := by
  have extrema : (if options.minAndMaxOp then
        stats.minMax.map fun minMax => minAndMax minMax x s vectSize else stats.minMax).map
          eraseIds =
      (if options.minAndMaxOp then
        (stats.minMax.map eraseIds).map fun minMax => minAndMax minMax x t vectSize
        else stats.minMax.map eraseIds).map eraseIds := by
    cases stats.minMax with
    | none => simp
    | some minMax =>
        split
        · simp [minAndMax_eraseIds minMax x t s]
        · simp [eraseIds]
  simp only [values, updateVector, extrema]

theorem values_respects (options : Options K) (vectSize s t : Nat) (x : List K)
    {stats stats' : StepStats K} (same : values stats = values stats') :
    values (updateVector options vectSize s x stats) =
      values (updateVector options vectSize t x stats') := by
  rw [values_updateVector options vectSize s t, same, ← values_updateVector options vectSize t t]

/-- The vectors a message adds to the moments, extrema and counters: A, and B in a Sobol
study, each with the simulation it comes from. -/
def samples (options : Options K) (simuId : Nat) (inVectTab : List (List K)) :
    List (Nat × List K) :=
  if options.sobolOp then [(simuId, inVectTab.getD 0 []), (simuId, inVectTab.getD 1 [])]
  else [(simuId, inVectTab.getD 0 [])]

def addSample (options : Options K) (vectSize : Nat) (stats : StepStats K)
    (sample : Nat × List K) : StepStats K :=
  updateVector options vectSize sample.1 sample.2 stats

theorem values_addSample (options : Options K) (vectSize : Nat) (stats stats' : StepStats K)
    (sample : Nat × List K) (same : values stats = values stats') :
    values (addSample options vectSize stats sample) =
      values (addSample options vectSize stats' sample) :=
  values_respects options vectSize sample.1 sample.1 sample.2 same

theorem values_updateStep (options : Options K) (vectSize simuId : Nat)
    (inVectTab : List (List K)) {stats stats' : StepStats K} (same : values stats = values stats') :
    values (updateStep options vectSize simuId inVectTab stats) =
      values ((samples options simuId inVectTab).foldl (addSample options vectSize) stats') := by
  cases sobol : options.sobolOp with
  | false =>
      simp only [updateStep, samples, sobol, Bool.false_eq_true, if_false, List.foldl_cons,
        List.foldl_nil, addSample]
      exact values_respects options vectSize simuId simuId (inVectTab.getD 0 []) same
  | true =>
      simp only [updateStep, samples, sobol, if_true, List.foldl_cons, List.foldl_nil, addSample]
      have first := values_respects options vectSize simuId simuId (inVectTab.getD 0 []) same
      have stripped := values_updateSobol vectSize inVectTab
        (updateVector options vectSize simuId (inVectTab.getD 0 []) stats)
      exact values_respects options vectSize simuId simuId (inVectTab.getD 1 [])
        (stripped.trans first)

/-- Whole messages in a row feed their samples in a row. -/
theorem values_foldl_updateStep {μ : Type} (options : Options K) (vectSize : Nat)
    (simuId : μ → Nat) (inVectTab : μ → List (List K)) (messages : List μ) :
    ∀ stats stats', values stats = values stats' →
      values (messages.foldl (fun stats m =>
          updateStep options vectSize (simuId m) (inVectTab m) stats) stats) =
        values ((messages.flatMap fun m => samples options (simuId m) (inVectTab m)).foldl
          (addSample options vectSize) stats') := by
  induction messages with
  | nil => exact fun _ _ same => same
  | cons m rest ih =>
      intro stats stats' same
      rw [List.foldl_cons, List.flatMap_cons, List.foldl_append]
      exact ih _ _ (values_updateStep options vectSize (simuId m) (inVectTab m) same)

end Values

section Exact

variable {K : Type} [Field K] [LinearOrder K] [IsStrictOrderedRing K]

private theorem mean_swap (n : ℕ) (m x y : K) :
    m + (x - m) / ((n + 1 : ℕ) : K) + (y - (m + (x - m) / ((n + 1 : ℕ) : K))) / ((n + 2 : ℕ) : K) =
      m + (y - m) / ((n + 1 : ℕ) : K) +
        (x - (m + (y - m) / ((n + 1 : ℕ) : K))) / ((n + 2 : ℕ) : K) := by
  have first : ((n + 1 : ℕ) : K) ≠ 0 := Nat.cast_ne_zero.mpr (by omega)
  have second : ((n + 2 : ℕ) : K) ≠ 0 := Nat.cast_ne_zero.mpr (by omega)
  field_simp
  push_cast
  ring

theorem incrementMomentsMean_swap (mean x y : List K) (vectSize n power : Nat) :
    incrementMomentsMean (incrementMomentsMean mean x vectSize (n + 1) power) y vectSize (n + 2)
        power =
      incrementMomentsMean (incrementMomentsMean mean y vectSize (n + 1) power) x vectSize (n + 2)
        power := by
  unfold incrementMomentsMean
  rw [overwrite_overwrite, overwrite_overwrite]
  apply overwrite_congr
  intro i inside
  simp only [getD_overwrite inside]
  exact mean_swap n _ _ _

/-- Two samples update the moments the same way in either order. -/
theorem incrementMoments_swap (moments : Moments K) (x y : List K) (vectSize : Nat) :
    incrementMoments (incrementMoments moments x vectSize) y vectSize =
      incrementMoments (incrementMoments moments y vectSize) x vectSize := by
  by_cases low : moments.maxOrder < 1
  · simp [incrementMoments, low]
  · have mean (old : List K) (power : Nat) :
        (if moments.maxOrder ≥ power then
          incrementMomentsMean (if moments.maxOrder ≥ power then
              incrementMomentsMean old x vectSize (moments.increment + 1) power else old)
            y vectSize (moments.increment + 1 + 1) power
          else if moments.maxOrder ≥ power then
            incrementMomentsMean old x vectSize (moments.increment + 1) power else old) =
        (if moments.maxOrder ≥ power then
          incrementMomentsMean (if moments.maxOrder ≥ power then
              incrementMomentsMean old y vectSize (moments.increment + 1) power else old)
            x vectSize (moments.increment + 1 + 1) power
          else if moments.maxOrder ≥ power then
            incrementMomentsMean old y vectSize (moments.increment + 1) power else old) := by
      by_cases reached : moments.maxOrder ≥ power
      · simp only [reached, if_true]
        exact incrementMomentsMean_swap old x y vectSize moments.increment power
      · simp only [reached, if_false]
    -- the second sample overwrites every theta the first one has left
    have theta (old : List K) (order : Nat) (inner outer : Nat → K) :
        (if moments.increment + 1 + 1 > 1 ∧ moments.maxOrder ≥ order then
          overwrite vectSize outer (if moments.increment + 1 > 1 ∧ moments.maxOrder ≥ order then
            overwrite vectSize inner old else old)
          else if moments.increment + 1 > 1 ∧ moments.maxOrder ≥ order then
            overwrite vectSize inner old else old) =
        if moments.maxOrder ≥ order then overwrite vectSize outer old else old := by
      by_cases reached : moments.maxOrder ≥ order
      · have twice : moments.increment + 1 + 1 > 1 := by omega
        simp only [reached, twice, and_self, and_true, if_true]
        split
        · rw [overwrite_overwrite]
        · rfl
      · simp only [reached, and_false, if_false]
    simp only [incrementMoments, low, if_false, theta]
    rw [mean moments.m1 1, mean moments.m2 2, mean moments.m3 3, mean moments.m4 4]

variable [Libm K]

theorem values_swap (options : Options K) (vectSize s s' t t' : Nat) (x y : List K)
    (stats : StepStats K) :
    values (updateVector options vectSize s' y (updateVector options vectSize s x stats)) =
      values (updateVector options vectSize t' x (updateVector options vectSize t y stats)) := by
  have moments : (stats.moments.map fun moments => incrementMoments moments x vectSize).map
        (fun moments => incrementMoments moments y vectSize) =
      (stats.moments.map fun moments => incrementMoments moments y vectSize).map
        fun moments => incrementMoments moments x vectSize := by
    cases stats.moments with
    | none => rfl
    | some moments => simp [incrementMoments_swap moments x y]
  have extrema : ((stats.minMax.map fun minMax => minAndMax minMax x s vectSize).map
        fun minMax => minAndMax minMax y s' vectSize).map eraseIds =
      ((stats.minMax.map fun minMax => minAndMax minMax y t vectSize).map
        fun minMax => minAndMax minMax x t' vectSize).map eraseIds := by
    cases stats.minMax with
    | none => rfl
    | some minMax => simp [minAndMax_swap minMax x y vectSize s s' t t']
  have row (thresholds : List (Threshold K)) :
      (thresholds.map fun threshold => updateThresholdExceedance threshold x vectSize).map
        (fun threshold => updateThresholdExceedance threshold y vectSize) =
      (thresholds.map fun threshold => updateThresholdExceedance threshold y vectSize).map
        fun threshold => updateThresholdExceedance threshold x vectSize := by
    simp only [List.map_map]
    apply List.map_congr_left
    intro threshold _
    exact updateThresholdExceedance_swap threshold x y vectSize
  have counters : (stats.thresholds.map fun row =>
          row.map fun threshold => updateThresholdExceedance threshold x vectSize).map
        (fun row => row.map fun threshold => updateThresholdExceedance threshold y vectSize) =
      (stats.thresholds.map fun row =>
          row.map fun threshold => updateThresholdExceedance threshold y vectSize).map
        fun row => row.map fun threshold => updateThresholdExceedance threshold x vectSize := by
    cases stats.thresholds with
    | none => rfl
    | some thresholds => simp only [Option.map_some, row]
  simp only [values, updateVector, moments]
  congr 1
  · split
    · exact extrema
    · rfl
  · split
    · exact counters
    · rfl

/-- Rearranged messages reach the same values. -/
theorem values_foldl_perm {μ : Type} (options : Options K) (vectSize : Nat) (simuId : μ → Nat)
    (inVectTab : μ → List (List K)) {messages messages' : List μ}
    (perm : messages.Perm messages') (stats : StepStats K) :
    values (messages.foldl (fun stats m =>
        updateStep options vectSize (simuId m) (inVectTab m) stats) stats) =
      values (messages'.foldl (fun stats m =>
        updateStep options vectSize (simuId m) (inVectTab m) stats) stats) := by
  have rearranged := perm.flatMap_right fun m => samples options (simuId m) (inVectTab m)
  calc _ = values ((messages.flatMap fun m => samples options (simuId m) (inVectTab m)).foldl
          (addSample options vectSize) stats) :=
        values_foldl_updateStep options vectSize simuId inVectTab messages stats stats rfl
    _ = values ((messages'.flatMap fun m => samples options (simuId m) (inVectTab m)).foldl
          (addSample options vectSize) stats) :=
        foldl_view_perm (values_addSample options vectSize)
          (fun stats a b => values_swap options vectSize a.1 b.1 b.1 a.1 a.2 b.2 stats)
          rearranged stats stats rfl
    _ = _ := (values_foldl_updateStep options vectSize simuId inVectTab messages' stats stats
          rfl).symm

end Exact

end Melissa
