import Melissa.StepStats

/-! The statistics of a part of a vector are the part of the statistics: every statistic of the
server is computed element by element, in any arithmetic. -/

namespace Melissa

open Arrays

/-- Consecutive elements of a vector with `n` elements. -/
structure Piece (n : Nat) where
  start : Nat
  count : Nat
  inside : start + count ≤ n

namespace Piece

variable {α : Type} {n : Nat} (piece : Piece n)

def take (values : List α) : List α := (values.drop piece.start).take piece.count

def indices : List Nat := List.range' piece.start piece.count

@[simp] theorem take_nil : piece.take ([] : List α) = [] := by simp [take]

theorem getD_take {i : Nat} (known : i < piece.count) (values : List α) (d : α) :
    (piece.take values).getD i d = values.getD (piece.start + i) d := by
  simp [take, List.getD_eq_getElem?_getD, known, List.getElem?_drop]

theorem length_take {values : List α} (length : values.length = n) :
    (piece.take values).length = piece.count := by
  have inside := piece.inside
  rw [take, List.length_take, List.length_drop]
  omega

theorem take_map_range (f : Nat → α) : piece.take ((List.range n).map f) =
    (List.range piece.count).map fun i => f (piece.start + i) := by
  apply eq_map_range (piece.length_take (by simp)) (f 0)
  intro i known
  have inside := piece.inside
  rw [piece.getD_take known, getD_map_range (by omega)]

theorem take_eq_pick {values : List α} (length : values.length = n) :
    piece.take values = pick values piece.indices := by
  rw [indices, pick_range' values (length ▸ piece.inside), take]

/-- A loop over the whole vector, seen from a part of it. -/
theorem take_overwrite (f : Nat → α) (dst : List α) :
    piece.take (overwrite n f dst) =
      overwrite piece.count (fun i => f (piece.start + i)) (piece.take dst) := by
  have short : (piece.take dst).drop piece.count = [] := by
    rw [take, List.drop_take_self]
  have front : piece.take (overwrite n f dst) = piece.take ((List.range n).map f) := by
    have inside := piece.inside
    rw [overwrite, take, take, List.drop_append_of_le_length (by simp; omega),
      List.take_append_of_le_length (by simp; omega)]
  rw [front, piece.take_map_range, overwrite, short, List.append_nil]

theorem take_overwrite_congr {f g : Nat → α}
    (same : ∀ i < piece.count, f (piece.start + i) = g i) (dst : List α) :
    piece.take (overwrite n f dst) = overwrite piece.count g (piece.take dst) := by
  rw [piece.take_overwrite]
  exact overwrite_congr same _

theorem take_replicate (value : α) :
    piece.take (List.replicate n value) = List.replicate piece.count value := by
  have inside := piece.inside
  rw [take, List.drop_replicate, List.take_replicate]
  congr 1
  omega

/-- `part` holds the elements of the piece, and maybe others behind them. -/
def Reads [Zero α] (whole part : List α) : Prop :=
  ∀ i < piece.count, part.getD i 0 = whole.getD (piece.start + i) 0

end Piece

section Parts

variable {D : Type} {n : Nat} (piece : Piece n)

def Moments.part (moments : Moments D) : Moments D :=
  { moments with
    m1 := piece.take moments.m1, m2 := piece.take moments.m2, m3 := piece.take moments.m3
    m4 := piece.take moments.m4, theta2 := piece.take moments.theta2
    theta3 := piece.take moments.theta3, theta4 := piece.take moments.theta4 }

def MinMax.part (minMax : MinMax D) : MinMax D :=
  { minMax with
    min := piece.take minMax.min, max := piece.take minMax.max
    minId := piece.take minMax.minId, maxId := piece.take minMax.maxId }

def Threshold.part (threshold : Threshold D) : Threshold D :=
  { threshold with thresholdExceedance := piece.take threshold.thresholdExceedance }

def Quantile.part (quantile : Quantile D) : Quantile D :=
  { quantile with quantile := piece.take quantile.quantile }

def Mean.part (mean : Mean D) : Mean D := { mean with mean := piece.take mean.mean }

def Variance.part (variance : Variance D) : Variance D :=
  { variance := piece.take variance.variance, meanStructure := variance.meanStructure.part piece }

def SobolMartinez.part (martinez : SobolMartinez D) : SobolMartinez D :=
  { martinez with
    firstOrderCovariance := piece.take martinez.firstOrderCovariance
    totalOrderCovariance := piece.take martinez.totalOrderCovariance
    varianceK := martinez.varianceK.part piece
    firstOrderValues := piece.take martinez.firstOrderValues
    totalOrderValues := piece.take martinez.totalOrderValues }

def SobolArray.part (sobolArray : SobolArray D) : SobolArray D :=
  { sobolArray with
    sobolMartinez := sobolArray.sobolMartinez.map (SobolMartinez.part piece)
    varianceA := sobolArray.varianceA.part piece, varianceB := sobolArray.varianceB.part piece }

/-- The statistics of a time step, restricted to the elements of the piece. -/
def StepStats.part (stats : StepStats D) : StepStats D :=
  { moments := stats.moments.map (Moments.part piece)
    minMax := stats.minMax.map (MinMax.part piece)
    thresholds := stats.thresholds.map fun row => row.map (Threshold.part piece)
    quantiles := stats.quantiles.map fun row => row.map (Quantile.part piece)
    sobolIndices := stats.sobolIndices.map (SobolArray.part piece) }

end Parts

section Init

variable {D : Type} [Zero D] {n : Nat} (piece : Piece n)

theorem part_initMoments (maxOrder : Nat) :
    (initMoments n maxOrder : Moments D).part piece = initMoments piece.count maxOrder := by
  have each (least : Nat) : piece.take (if maxOrder > least then List.replicate n (0 : D) else []) =
      if maxOrder > least then List.replicate piece.count 0 else [] := by
    split
    · exact piece.take_replicate 0
    · exact piece.take_nil
  simp only [Moments.part, initMoments, each]

theorem part_initVariance :
    (initVariance n : Variance D).part piece = initVariance piece.count := by
  simp only [Variance.part, Mean.part, initVariance, initMean, piece.take_replicate]

variable [NatCast D]

theorem part_initSobolMartinez (nbParameters : Nat) :
    (initSobolMartinez nbParameters n : SobolArray D).part piece =
      initSobolMartinez nbParameters piece.count := by
  simp only [SobolArray.part, initSobolMartinez, List.map_replicate, SobolMartinez.part,
    part_initVariance, piece.take_replicate]

/-- New statistics of a part are the part of new statistics. -/
theorem part_melissaInitData (options : Options D) (positive : 0 < piece.count) (t : Nat) :
    (stepStats (melissaInitData options emptyData n) t).part piece =
      stepStats (melissaInitData options emptyData piece.count) t := by
  have inside := piece.inside
  have thresholds : (options.threshold.map (initThreshold n)).map (Threshold.part piece) =
      options.threshold.map (initThreshold piece.count) := by
    simp only [List.map_map, Function.comp_def, Threshold.part, initThreshold,
      piece.take_replicate]
    rfl
  have quantiles : (options.quantileOrder.map (initQuantile n)).map (Quantile.part piece) =
      options.quantileOrder.map (initQuantile piece.count) := by
    simp only [List.map_map, Function.comp_def, Quantile.part, initQuantile,
      piece.take_replicate]
    rfl
  have extrema : (initMinMax n : MinMax D).part piece = initMinMax piece.count := by
    simp only [MinMax.part, initMinMax, piece.take_replicate]
  have perStep {β : Type} (op : Bool) (whole part : β) (f : β → β) (same : f whole = part) :
      ((if op then List.replicate options.nbTimeSteps whole else [])[t]?).map f =
        (if op then List.replicate options.nbTimeSteps part else [])[t]? := by
    cases op with
    | false => rfl
    | true =>
        simp only [if_true, ← List.getElem?_map, List.map_replicate, same]
  simp only [melissaInitData, melissaAllocData, melissaInitSteps, emptyData,
    if_true, positive, show n > 0 by omega, show n ≠ 0 by omega, Nat.ne_of_gt positive, if_false,
    StepStats.part, stepStats, StepStats.mk.injEq]
  refine ⟨?_, ?_, ?_, ?_, ?_⟩
  · rw [← List.getElem?_map, List.map_replicate, part_initMoments]
  · exact perStep options.minAndMaxOp _ _ _ extrema
  · exact perStep options.thresholdOp _ _ _ thresholds
  · exact perStep options.quantileOp _ _ _ quantiles
  · exact perStep options.sobolOp _ _ _ (part_initSobolMartinez piece options.nbParameters)

end Init

section Increment

variable {D : Type} [Zero D] {n : Nat} {piece : Piece n} {whole part : List D}

theorem part_minAndMax [LT D] [DecidableLT D] (reads : piece.Reads whole part)
    (minMax : MinMax D) (simuId : Nat) :
    (minAndMax minMax whole simuId n).part piece =
      minAndMax (minMax.part piece) part simuId piece.count := by
  cases started : minMax.isInit with
  | false =>
      simp only [minAndMax, MinMax.part, started, if_true, MinMax.mk.injEq, and_true]
      constructor
      · exact piece.take_overwrite_congr (fun i known => (reads i known).symm) _
      · exact piece.take_overwrite_congr (fun i known => (reads i known).symm) _
  | true =>
      simp only [minAndMax, MinMax.part, started, Bool.true_eq_false, if_false, MinMax.mk.injEq,
        and_true]
      refine ⟨?_, ?_, ?_, ?_⟩
      all_goals
        apply piece.take_overwrite_congr
        intro i known
        simp only [piece.getD_take known, reads i known]

theorem part_updateThresholdExceedance [LT D] [DecidableLT D] (reads : piece.Reads whole part)
    (threshold : Threshold D) :
    (updateThresholdExceedance threshold whole n).part piece =
      updateThresholdExceedance (threshold.part piece) part piece.count := by
  simp only [updateThresholdExceedance, Threshold.part, Threshold.mk.injEq, and_true]
  apply piece.take_overwrite_congr
  intro i known
  simp only [piece.getD_take known, reads i known]

variable [Add D] [Sub D] [Div D] [NatCast D]

theorem part_incrementMean (reads : piece.Reads whole part) (mean : Mean D) :
    (incrementMean mean whole n).part piece =
      incrementMean (mean.part piece) part piece.count := by
  simp only [incrementMean, Mean.part, Mean.mk.injEq, and_true]
  apply piece.take_overwrite_congr
  intro i known
  simp only [piece.getD_take known, reads i known]

variable [Mul D]

theorem part_incrementVariance (reads : piece.Reads whole part) (variance : Variance D) :
    (incrementVariance variance whole n).part piece =
      incrementVariance (variance.part piece) part piece.count := by
  have mean := part_incrementMean reads variance.meanStructure
  have increment := congrArg Mean.increment mean
  have values (i : Nat) (known : i < piece.count) :
      (incrementMean variance.meanStructure whole n).mean.getD (piece.start + i) 0 =
        (incrementMean (variance.meanStructure.part piece) part piece.count).mean.getD i 0 := by
    rw [← mean, Mean.part, piece.getD_take known]
  simp only [incrementVariance, incrementMeanAndVariance, Variance.part, ← increment]
  have same : ((incrementMean variance.meanStructure whole n).part piece).increment =
      (incrementMean variance.meanStructure whole n).increment := rfl
  rw [same]
  split
  · simp only [Variance.mk.injEq]
    refine ⟨piece.take_overwrite_congr ?_ _, mean⟩
    intro i known
    simp only [piece.getD_take known, reads i known, values i known]
  · simp only [Variance.mk.injEq, true_and]
    exact mean

variable [Pow D ℕ]

theorem part_incrementMoments (reads : piece.Reads whole part) (moments : Moments D) :
    (incrementMoments moments whole n).part piece =
      incrementMoments (moments.part piece) part piece.count := by
  have raw (old : List D) (power : Nat) :
      piece.take (if moments.maxOrder ≥ power then
          incrementMomentsMean old whole n (moments.increment + 1) power else old) =
        if moments.maxOrder ≥ power then
          incrementMomentsMean (piece.take old) part piece.count (moments.increment + 1) power
        else piece.take old := by
    split
    · apply piece.take_overwrite_congr
      intro i known
      simp only [piece.getD_take known, reads i known]
    · rfl
  have cell (old : List D) (power : Nat) {i : Nat} (known : i < piece.count) :
      (if moments.maxOrder ≥ power then
          incrementMomentsMean (piece.take old) part piece.count (moments.increment + 1) power
        else piece.take old).getD i 0 =
      (if moments.maxOrder ≥ power then
          incrementMomentsMean old whole n (moments.increment + 1) power else old).getD
        (piece.start + i) 0 := by
    rw [← raw, piece.getD_take known]
  have theta (old : List D) (order : Nat) (value value' : Nat → D)
      (same : ∀ i < piece.count, value (piece.start + i) = value' i) :
      piece.take (if moments.increment + 1 > 1 ∧ moments.maxOrder ≥ order then
          overwrite n value old else old) =
        if moments.increment + 1 > 1 ∧ moments.maxOrder ≥ order then
          overwrite piece.count value' (piece.take old) else piece.take old := by
    split
    · exact piece.take_overwrite_congr same old
    · rfl
  by_cases none_held : moments.maxOrder < 1
  · simp only [incrementMoments, Moments.part, none_held, if_true]
  · simp only [incrementMoments, none_held, if_false, Moments.part, raw, Moments.mk.injEq,
      and_true]
    refine ⟨rfl, rfl, rfl, rfl, ?_, ?_, ?_⟩
    all_goals
      apply theta
      intro i known
      congr 1
      all_goals exact (cell _ _ known).symm

end Increment

section Quantile

variable {D : Type} [Zero D] [Add D] [Sub D] [Mul D] [Div D] [NatCast D] [IntCast D] [LE D]
  [DecidableLE D] [Libm D] {n : Nat} {piece : Piece n} {whole part : List D}

theorem part_incrementQuantile (reads : piece.Reads whole part) (quantile : Quantile D)
    (nmax : Int) :
    (incrementQuantile quantile nmax whole n).part piece =
      incrementQuantile (quantile.part piece) nmax part piece.count := by
  unfold incrementQuantile
  by_cases later : quantile.increment + 1 > 1
  · simp only [Quantile.part, later, if_true, Quantile.mk.injEq, and_true]
    apply piece.take_overwrite_congr
    intro i known
    simp only [piece.getD_take known, reads i known]
  · simp only [Quantile.part, later, if_false, Quantile.mk.injEq, and_true]
    exact piece.take_overwrite_congr (fun i known => (reads i known).symm) _

end Quantile

section Sobol

variable {D : Type} [Zero D] [Add D] [Sub D] [Mul D] [Div D] [NatCast D] {n : Nat}
  {piece : Piece n}

theorem part_incrementSobolCovariance {whole1 whole2 part1 part2 : List D}
    (reads1 : piece.Reads whole1 part1) (reads2 : piece.Reads whole2 part2)
    (covariance mean1 mean2 : List D) (increment : Nat) :
    piece.take (incrementSobolCovariance covariance whole1 whole2 mean1 mean2 n increment) =
      incrementSobolCovariance (piece.take covariance) part1 part2 (piece.take mean1)
        (piece.take mean2) piece.count increment := by
  simp only [incrementSobolCovariance]
  split
  · apply piece.take_overwrite_congr
    intro i known
    simp only [piece.getD_take known, reads1 i known, reads2 i known]
  · rfl

variable [LT D] [DecidableLT D] [Libm D]

theorem part_incrementMartinezParameter {wholeA wholeB wholeK partA partB partK : List D}
    (readsA : piece.Reads wholeA partA) (readsB : piece.Reads wholeB partB)
    (readsK : piece.Reads wholeK partK) (varianceA varianceB : Variance D) (iteration : Nat)
    (martinez : SobolMartinez D) :
    (incrementMartinezParameter wholeA wholeB wholeK varianceA varianceB n iteration
        martinez).part piece =
      incrementMartinezParameter partA partB partK (varianceA.part piece) (varianceB.part piece)
        piece.count iteration (martinez.part piece) := by
  have varianceK := part_incrementVariance readsK martinez.varianceK
  have meanK : piece.take (incrementVariance martinez.varianceK wholeK n).meanStructure.mean =
      (incrementVariance (martinez.varianceK.part piece) partK piece.count).meanStructure.mean :=
    congrArg (fun variance => variance.meanStructure.mean) varianceK
  have deviationK (i : Nat) (known : i < piece.count) :
      (incrementVariance martinez.varianceK wholeK n).variance.getD (piece.start + i) 0 =
        (incrementVariance (martinez.varianceK.part piece) partK
          piece.count).variance.getD i 0 := by
    rw [← varianceK, Variance.part, piece.getD_take known]
  have first := part_incrementSobolCovariance readsB readsK martinez.firstOrderCovariance
    varianceB.meanStructure.mean
    (incrementVariance martinez.varianceK wholeK n).meanStructure.mean iteration
  have total := part_incrementSobolCovariance readsA readsK martinez.totalOrderCovariance
    varianceA.meanStructure.mean
    (incrementVariance martinez.varianceK wholeK n).meanStructure.mean iteration
  rw [meanK] at first total
  simp only [incrementMartinezParameter, SobolMartinez.part, SobolMartinez.mk.injEq, and_true]
  refine ⟨first, total, varianceK, ?_, ?_⟩
  · apply piece.take_overwrite_congr
    intro i known
    simp only [Variance.part, Mean.part] at first deviationK ⊢
    simp only [← first, piece.getD_take known, deviationK i known]
  · apply piece.take_overwrite_congr
    intro i known
    simp only [Variance.part, Mean.part] at total deviationK ⊢
    simp only [← total, piece.getD_take known, deviationK i known]

theorem part_incrementSobolMartinez {whole part : List (List D)}
    (reads : ∀ k, piece.Reads (whole.getD k []) (part.getD k [])) (sobolArray : SobolArray D) :
    (incrementSobolMartinez sobolArray whole n).part piece =
      incrementSobolMartinez (sobolArray.part piece) part piece.count := by
  have varianceA := part_incrementVariance (reads 0) sobolArray.varianceA
  have varianceB := part_incrementVariance (reads 1) sobolArray.varianceB
  simp only [incrementSobolMartinez, SobolArray.part, SobolArray.mk.injEq, varianceA, varianceB,
    and_true]
  apply List.ext_getElem?
  intro i
  simp only [List.getElem?_map, List.getElem?_mapIdx, Option.map_map]
  congr 1
  funext martinez
  have parameter := part_incrementMartinezParameter (reads 0) (reads 1) (reads (i + 2))
    (incrementVariance sobolArray.varianceA (whole.getD 0 []) n)
    (incrementVariance sobolArray.varianceB (whole.getD 1 []) n) sobolArray.iteration martinez
  rw [varianceA, varianceB] at parameter
  exact parameter

end Sobol

section Update

variable {D : Type} [Zero D] [Add D] [Sub D] [Mul D] [Div D] [NatCast D] [IntCast D]
  [Pow D ℕ] [LT D] [DecidableLT D] [LE D] [DecidableLE D] [Libm D] {n : Nat} {piece : Piece n}

theorem part_updateVector {whole part : List D} (reads : piece.Reads whole part)
    (options : Options D) (simuId : Nat) (stats : StepStats D) :
    (updateVector options n simuId whole stats).part piece =
      updateVector options piece.count simuId part (stats.part piece) := by
  simp only [StepStats.part, updateVector, StepStats.mk.injEq, and_true]
  refine ⟨?_, ?_, ?_, ?_⟩
  · simp only [Option.map_map, Function.comp_def, part_incrementMoments reads]
  · split
    · simp only [Option.map_map, Function.comp_def, part_minAndMax reads]
    · rfl
  · split
    · simp only [Option.map_map, Function.comp_def, List.map_map,
        part_updateThresholdExceedance reads]
    · rfl
  · split
    · simp only [Option.map_map, Function.comp_def, List.map_map, part_incrementQuantile reads]
    · rfl

/-- What a message does to the part of the statistics is what its part does to them. -/
theorem part_updateStep {whole part : List (List D)}
    (reads : ∀ k, piece.Reads (whole.getD k []) (part.getD k [])) (options : Options D)
    (simuId : Nat) (stats : StepStats D) :
    (updateStep options n simuId whole stats).part piece =
      updateStep options piece.count simuId part (stats.part piece) := by
  have sobol (stats : StepStats D) : (updateSobol n whole stats).part piece =
      updateSobol piece.count part (stats.part piece) := by
    simp only [StepStats.part, updateSobol, Option.map_map, Function.comp_def,
      part_incrementSobolMartinez reads]
  unfold updateStep
  split
  · rw [part_updateVector (reads 1), sobol, part_updateVector (reads 0)]
  · exact part_updateVector (reads 0) options simuId stats

/-- Whole runs: the parts of the messages, in the same order, give the part of the statistics. -/
theorem part_foldl_updateStep {μ : Type} {whole part : μ → List (List D)} {messages : List μ}
    (reads : ∀ m ∈ messages, ∀ k, piece.Reads ((whole m).getD k []) ((part m).getD k []))
    (options : Options D) (simuId : μ → Nat) (stats : StepStats D) :
    (messages.foldl (fun stats m => updateStep options n (simuId m) (whole m) stats)
        stats).part piece =
      messages.foldl (fun stats m => updateStep options piece.count (simuId m) (part m) stats)
        (stats.part piece) := by
  induction messages generalizing stats with
  | nil => rfl
  | cons m rest ih =>
      rw [List.forall_mem_cons] at reads
      rw [List.foldl_cons, List.foldl_cons, ih reads.2, part_updateStep reads.1]

end Update

end Melissa
