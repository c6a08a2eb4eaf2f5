import Mathlib.Data.Rat.Defs
import Mathlib.Tactic.Common

/-! `melissa_options_t` and the checks of `melissa_check_options`. -/

namespace Melissa

/-- The options the modelled code reads. `nb_thresholds` and `nb_quantiles` are the lengths of
the two lists; times are in seconds. -/
structure Options (D : Type) where
  nbTimeSteps : Nat
  nbParameters : Nat
  samplingSize : Int
  meanOp : Bool
  varianceOp : Bool
  skewnessOp : Bool
  kurtosisOp : Bool
  minAndMaxOp : Bool
  thresholdOp : Bool
  quantileOp : Bool
  sobolOp : Bool
  threshold : List D
  quantileOrder : List D
  learning : Nat
  restart : Nat
  checkInterval : ℚ
  timeoutSimu : ℚ
  deriving DecidableEq, Repr

variable {D : Type}

namespace Options

/-- No statistic is requested and the server is not in learning mode. -/
def noOperation (options : Options D) : Bool :=
  !options.meanOp && !options.varianceOp && !options.kurtosisOp && !options.skewnessOp &&
    !options.minAndMaxOp && !options.thresholdOp && !options.quantileOp && !options.sobolOp &&
    options.learning == 0

/-- The order `melissa_alloc_data` hands to `init_moments`. -/
def maxOrder (options : Options D) : Nat :=
  if options.kurtosisOp then 4
  else if options.skewnessOp then 3
  else if options.varianceOp then 2
  else if options.meanOp then 1
  else 0

/-- The options of a start without `-r`. -/
def firstStart (options : Options D) : Options D := { options with restart := 0 }

/-- The options of the server that is started again with `-r .`. -/
def restarted (options : Options D) : Options D := { options with restart := 1 }

/-- Number of vectors of one message: A, B and one vector for each parameter in a Sobol study. -/
def nbVect (options : Options D) : Nat :=
  if options.sobolOp then options.nbParameters + 2 else 1

end Options

/-- The exits of `melissa_check_options`. -/
def rejected (options : Options D) : Bool :=
  (options.thresholdOp && options.threshold.isEmpty) ||
    (options.quantileOp && options.quantileOrder.isEmpty) ||
    decide (options.samplingSize < 1) ||
    (if options.sobolOp then decide (options.nbParameters < 2)
      else decide (options.samplingSize < 2) || decide (options.nbParameters < 1)) ||
    decide (options.nbTimeSteps < 1)

/-- Intervals below five seconds are raised to five seconds. -/
def atLeastFive (seconds : ℚ) : ℚ := if seconds < 5 then 5 else seconds

theorem atLeastFive_atLeastFive (seconds : ℚ) :
    atLeastFive (atLeastFive seconds) = atLeastFive seconds := by
  unfold atLeastFive
  split <;> simp_all

def melissaCheckOptions (options : Options D) : Option (Options D) :=
  let options :=
    if options.noOperation then { options with meanOp := true, varianceOp := true } else options
  if rejected options then none
  else some { options with
    checkInterval := atLeastFive options.checkInterval
    timeoutSimu := atLeastFive options.timeoutSimu }

/-- The check looks at nothing that it sets by default. -/
theorem melissaCheckOptions_eq_none {options : Options D} :
    melissaCheckOptions options = none ↔ rejected options = true := by
  have same : rejected (if options.noOperation then
      { options with meanOp := true, varianceOp := true } else options) = rejected options := by
    split
    · rfl
    · rfl
  unfold melissaCheckOptions
  dsimp only
  rw [same]
  split
  · rename_i bad
    exact iff_of_true rfl bad
  · rename_i good
    exact iff_of_false nofun good

private theorem melissaCheckOptions_accepted {options : Options D}
    (operation : options.noOperation = false) (accepted : rejected options = false) :
    melissaCheckOptions options = some { options with
      checkInterval := atLeastFive options.checkInterval
      timeoutSimu := atLeastFive options.timeoutSimu } := by
  simp [melissaCheckOptions, operation, accepted]

theorem samplingSize_pos {options : Options D} (accepted : rejected options = false) :
    0 < options.samplingSize := by
  simp only [rejected, Bool.or_eq_false_iff, decide_eq_false_iff_not] at accepted
  omega

theorem nbTimeSteps_pos {options : Options D} (accepted : rejected options = false) :
    0 < options.nbTimeSteps := by
  simp only [rejected, Bool.or_eq_false_iff, decide_eq_false_iff_not] at accepted
  omega

/-- A larger sample is not rejected for its size. -/
theorem rejected_larger {options : Options D} (accepted : rejected options = false)
    {samplingSize : Int} (larger : options.samplingSize ≤ samplingSize) :
    rejected { options with samplingSize := samplingSize } = false := by
  simp only [rejected, Bool.or_eq_false_iff] at accepted ⊢
  obtain ⟨⟨⟨lists, size⟩, kind⟩, steps⟩ := accepted
  refine ⟨⟨⟨lists, ?_⟩, ?_⟩, steps⟩
  · simp only [decide_eq_false_iff_not] at size ⊢
    omega
  · cases sobol : options.sobolOp with
    | true => simpa [sobol] using kind
    | false =>
        simp only [sobol, Bool.false_eq_true, if_false, Bool.or_eq_false_iff,
          decide_eq_false_iff_not] at kind ⊢
        exact ⟨by omega, kind.2⟩

/-- What passes is an operation and more that is not rejected, with its intervals raised. -/
private theorem passed_cases {given options : Options D}
    (passed : melissaCheckOptions given = some options) :
    ∃ defaulted : Options D, defaulted.noOperation = false ∧ rejected defaulted = false ∧
      options = { defaulted with
        checkInterval := atLeastFive defaulted.checkInterval
        timeoutSimu := atLeastFive defaulted.timeoutSimu } := by
  unfold melissaCheckOptions at passed
  generalize start : (if given.noOperation = true then
    { given with meanOp := true, varianceOp := true } else given) = defaulted at passed
  have operation : defaulted.noOperation = false := by
    subst start
    split
    · simp [Options.noOperation]
    · simp_all
  cases bad : rejected defaulted with
  | true => simp [bad] at passed
  | false =>
      simp only [bad, Bool.false_eq_true, if_false, Option.some.injEq] at passed
      exact ⟨defaulted, operation, bad, passed.symm⟩

theorem accepted_of_passed {given options : Options D}
    (passed : melissaCheckOptions given = some options) : rejected options = false := by
  obtain ⟨defaulted, _, accepted, rfl⟩ := passed_cases passed
  exact accepted

/-- Options that have passed the check once come back unchanged from it, whatever sample they pass
it with later: `melissa_check_data` repeats the check without effect, or ends the process. -/
theorem melissaCheckOptions_again {options checked : Options D}
    (passed : melissaCheckOptions options = some checked) {samplingSize : Int}
    (accepted : rejected { checked with samplingSize := samplingSize } = false) :
    melissaCheckOptions { checked with samplingSize := samplingSize } =
      some { checked with samplingSize := samplingSize } := by
  obtain ⟨defaulted, operation, _, rfl⟩ := passed_cases passed
  let raised : Options D := { defaulted with
    samplingSize := samplingSize
    checkInterval := atLeastFive defaulted.checkInterval
    timeoutSimu := atLeastFive defaulted.timeoutSimu }
  have again : melissaCheckOptions raised = _ :=
    melissaCheckOptions_accepted operation accepted
  simpa only [raised, atLeastFive_atLeastFive] using again

end Melissa
