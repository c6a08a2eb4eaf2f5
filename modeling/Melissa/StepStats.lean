import Melissa.Data

/-! The statistics of one time step as a unit: `compute_stats` updates those of its time step
by a function of their own, and leaves the others alone. -/

namespace Melissa

/-- The elements of the statistics arrays that belong to one time step. -/
structure StepStats (D : Type) where
  moments : Option (Moments D)
  minMax : Option (MinMax D)
  thresholds : Option (List (Threshold D))
  quantiles : Option (List (Quantile D))
  sobolIndices : Option (SobolArray D)
  deriving DecidableEq, Repr

def stepStats {D : Type} (data : MelissaData D) (timeStep : Nat) : StepStats D :=
  { moments := data.moments[timeStep]?, minMax := data.minMax[timeStep]?
    thresholds := data.thresholds[timeStep]?, quantiles := data.quantiles[timeStep]?
    sobolIndices := data.sobolIndices[timeStep]? }

section Sobol

private theorem getElem?_modify_map {α : Type} (items : List α) (f : α → α) (i j : Nat) :
    (items.modify i f)[j]? = if j = i then items[j]?.map f else items[j]? := by
  rw [List.getElem?_modify]
  by_cases same : j = i
  · subst same
    simp
  · cases items[j]? with
    | none => simp
    | some item => simp [same, Ne.symm same]

variable {D : Type} [Zero D] [Add D] [Sub D] [Mul D] [Div D] [NatCast D]
  [LT D] [DecidableLT D] [Libm D]

def updateSobol (vectSize : Nat) (inVectTab : List (List D)) (stats : StepStats D) :
    StepStats D :=
  { stats with
    sobolIndices := stats.sobolIndices.map fun sobolArray =>
      incrementSobolMartinez sobolArray inVectTab vectSize }

theorem stepStats_computeSobol (timeStep : Nat) (inVectTab : List (List D))
    (data : MelissaData D) (t : Nat) :
    stepStats (computeSobol timeStep inVectTab data) t =
      if t = timeStep then updateSobol data.vectSize inVectTab (stepStats data t)
      else stepStats data t := by
  by_cases here : t = timeStep
  · simp [stepStats, computeSobol, updateSobol, here]
  · simp [stepStats, computeSobol, getElem?_modify_map, here]

end Sobol

section Update

variable {D : Type} [Zero D] [Add D] [Sub D] [Mul D] [Div D] [NatCast D] [IntCast D]
  [Pow D ℕ] [LT D] [DecidableLT D] [LE D] [DecidableLE D] [Libm D]

def updateVector (options : Options D) (vectSize simuId : Nat) (inVect : List D)
    (stats : StepStats D) : StepStats D :=
  { stats with
    moments := stats.moments.map fun moments => incrementMoments moments inVect vectSize
    minMax := if options.minAndMaxOp then
        stats.minMax.map fun minMax => minAndMax minMax inVect simuId vectSize
      else stats.minMax
    thresholds := if options.thresholdOp then
        stats.thresholds.map fun row =>
          row.map fun threshold => updateThresholdExceedance threshold inVect vectSize
      else stats.thresholds
    quantiles := if options.quantileOp then
        stats.quantiles.map fun row =>
          row.map fun quantile => incrementQuantile quantile options.samplingSize inVect vectSize
      else stats.quantiles }

/-- What `compute_stats` does to the statistics of its time step. -/
def updateStep (options : Options D) (vectSize simuId : Nat) (inVectTab : List (List D))
    (stats : StepStats D) : StepStats D :=
  let stats := updateVector options vectSize simuId (inVectTab.getD 0 []) stats
  if options.sobolOp then
    updateVector options vectSize simuId (inVectTab.getD 1 [])
      (updateSobol vectSize inVectTab stats)
  else stats

theorem stepStats_computeVector (options : Options D) (timeStep simuId : Nat) (inVect : List D)
    (data : MelissaData D) (t : Nat) :
    stepStats (computeVector options timeStep simuId inVect data) t =
      if t = timeStep then updateVector options data.vectSize simuId inVect (stepStats data t)
      else stepStats data t := by
  by_cases here : t = timeStep
  · simp only [stepStats, computeVector, updateVector, getElem?_modify_map, here, if_true]
    congr 1
    · split <;> simp
    · split <;> simp
    · split <;> simp
  · simp only [stepStats, computeVector, getElem?_modify_map, here, if_false]
    congr 1
    · split <;> simp [getElem?_modify_map, here]
    · split <;> simp [getElem?_modify_map, here]
    · split <;> simp [getElem?_modify_map, here]

theorem stepStats_computeStats {options : Options D} {data data' : MelissaData D}
    {timeStep simuId : Nat} {inVectTab : List (List D)}
    (computed : computeStats options data timeStep simuId inVectTab = some data') (t : Nat) :
    stepStats data' t =
      if t = timeStep then updateStep options data.vectSize simuId inVectTab (stepStats data t)
      else stepStats data t := by
  unfold computeStats at computed
  split at computed
  · cases computed
  · split at computed
    · cases computed
    · unfold updateStep
      cases sobol : options.sobolOp with
      | false =>
          simp only [sobol, Bool.false_eq_true, if_false, Option.some.injEq] at computed
          subst computed
          simpa using stepStats_computeVector options timeStep simuId (inVectTab.getD 0 []) data t
      | true =>
          simp only [sobol, if_true] at computed
          split at computed
          · cases computed
          · cases computed
            have size : (computeSobol timeStep inVectTab
                (computeVector options timeStep simuId (inVectTab.getD 0 []) data)).vectSize =
                  data.vectSize := rfl
            have size' : (computeVector options timeStep simuId (inVectTab.getD 0 []) data).vectSize
                = data.vectSize := rfl
            rw [stepStats_computeVector, stepStats_computeSobol, stepStats_computeVector, size,
              size']
            by_cases here : t = timeStep
            · simp only [here, if_true]
            · simp only [here, if_false]

theorem computeStats_succeeds {options : Options D} {data : MelissaData D}
    {inVectTab : List (List D)} (valid : data.isValid = true)
    (long : ∀ vect ∈ inVectTab, data.vectSize ≤ vect.length)
    (number : inVectTab.length = options.nbVect) (timeStep simuId : Nat) :
    ∃ data', computeStats options data timeStep simuId inVectTab = some data' := by
  have readable : ¬ inVectTab.any (fun vect => decide (vect.length < data.vectSize)) = true := by
    intro short
    obtain ⟨vect, member, below⟩ := List.any_eq_true.mp short
    have enough := long vect member
    simp only [decide_eq_true_eq] at below
    omega
  unfold computeStats
  rw [if_neg (by simp [valid]), if_neg readable]
  cases sobol : options.sobolOp with
  | false => exact ⟨_, rfl⟩
  | true =>
      have count : inVectTab.length = options.nbParameters + 2 := by
        simpa [Options.nbVect, sobol] using number
      simp only [if_true, count, ne_eq, not_true_eq_false, if_false]
      exact ⟨_, rfl⟩

end Update

end Melissa
