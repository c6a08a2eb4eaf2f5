import Mathlib.Data.Nat.Log
import Melissa.Output.Gather
import Melissa.Output.Resume

/-! `melissa_write_stats_seq` on one process: the calls of `write_output_d` and `write_output_i`
with the library built for MPI and without it. -/

namespace Melissa

open Arrays

section Statistics

variable {D : Type}

/-- The vector handed to `write_output_d` or to `write_output_i`. -/
inductive OutputVector (D : Type) where
  | doubles (values : List (Extended D))
  | ints (values : List Nat)
  deriving DecidableEq

/-- What is copied from a structure into `d_buffer` or `i_buffer` for a time step; none where the
array is not allocated. -/
inductive StatSource (D : Type) where
  | doubles (copied : Nat → MelissaData D → Option (List (Extended D)))
  | ints (copied : Nat → MelissaData D → Option (List Nat))

/-- A loop over the time steps: what stands in the name of the file, the name of the statistic,
and where its values are. -/
structure OutputStat (D : Type) where
  file : String
  statName : String
  source : StatSource D

/-- `memcpy` of `vect_size` elements; none if the array is shorter. -/
def memcpyFrom {α : Type} (data : MelissaData D) (array : List α) : Option (List α) :=
  if data.vectSize ≤ array.length then some (array.take data.vectSize) else none

def memcpyDoubles (data : MelissaData D) (array : List D) : Option (List (Extended D)) :=
  (memcpyFrom data array).map fun values => values.map .finite

def meanStat : OutputStat D :=
  { file := "mean", statName := "mean"
    source := .doubles fun t data =>
      data.moments[t]?.bind fun moments => memcpyDoubles data moments.m1 }

def varianceStat : OutputStat D :=
  { file := "variance", statName := "variance"
    source := .doubles fun t data =>
      data.moments[t]?.bind fun moments => memcpyDoubles data moments.theta2 }

def minStat : OutputStat D :=
  { file := "min", statName := "min"
    source := .doubles fun t data =>
      data.minMax[t]?.bind fun minMax => memcpyDoubles data minMax.min }

def minIdStat : OutputStat D :=
  { file := "min_id", statName := "min_id"
    source := .ints fun t data =>
      data.minMax[t]?.bind fun minMax => memcpyFrom data minMax.minId }

def maxStat : OutputStat D :=
  { file := "max", statName := "max"
    source := .doubles fun t data =>
      data.minMax[t]?.bind fun minMax => memcpyDoubles data minMax.max }

def maxIdStat : OutputStat D :=
  { file := "max_id", statName := "max_id"
    source := .ints fun t data =>
      data.minMax[t]?.bind fun minMax => memcpyFrom data minMax.maxId }

/-- Only the name of the file says which threshold it is. -/
def thresholdStat (formatG : D → String) (value : Nat) (threshold : D) : OutputStat D :=
  { file := "threshold" ++ formatG threshold, statName := "threshold"
    source := .ints fun t data => data.thresholds[t]?.bind fun row =>
      row[value]?.bind fun threshold => memcpyFrom data threshold.thresholdExceedance }

def quantileStat (formatG : D → String) (value : Nat) (quantileOrder : D) : OutputStat D :=
  { file := "quantile" ++ formatG quantileOrder, statName := "quantile" ++ formatG quantileOrder
    source := .doubles fun t data => data.quantiles[t]?.bind fun row =>
      row[value]?.bind fun quantile => memcpyDoubles data quantile.quantile }

def sobolStat (p : Nat) : OutputStat D :=
  { file := "sobol" ++ toString p, statName := "sobol" ++ toString p
    source := .doubles fun t data => data.sobolIndices[t]?.bind fun sobolArray =>
      sobolArray.sobolMartinez[p]?.bind fun martinez =>
        memcpyDoubles data martinez.firstOrderValues }

def sobolTotStat (p : Nat) : OutputStat D :=
  { file := "sobol_tot" ++ toString p, statName := "sobol_tot" ++ toString p
    source := .doubles fun t data => data.sobolIndices[t]?.bind fun sobolArray =>
      sobolArray.sobolMartinez[p]?.bind fun martinez =>
        memcpyDoubles data martinez.totalOrderValues }

variable [Zero D] [Div D] [NatCast D] [Pow D ℕ] [LT D] [DecidableEq D] [DecidableLT D] [Libm D]

def skewnessStat : OutputStat D :=
  { file := "skewness", statName := "skewness"
    source := .doubles fun t data =>
      data.moments[t]?.map fun moments => computeSkewness moments data.vectSize }

def kurtosisStat : OutputStat D :=
  { file := "kurtosis", statName := "kurtosis"
    source := .doubles fun t data =>
      data.moments[t]?.map fun moments => computeKurtosis moments data.vectSize }

/-- The loops in the order of the function. -/
def outputStats (formatG : D → String) (options : Options D) : List (OutputStat D) :=
  (if options.meanOp then [meanStat] else []) ++
  (if options.varianceOp then [varianceStat] else []) ++
  (if options.skewnessOp then [skewnessStat] else []) ++
  (if options.kurtosisOp then [kurtosisStat] else []) ++
  (if options.minAndMaxOp then [minStat, minIdStat, maxStat, maxIdStat] else []) ++
  (if options.thresholdOp then options.threshold.mapIdx (thresholdStat formatG) else []) ++
  (if options.quantileOp then options.quantileOrder.mapIdx (quantileStat formatG) else []) ++
  (if options.sobolOp then
    (List.range options.nbParameters).map sobolStat ++
      (List.range options.nbParameters).map sobolTotStat else [])

end Statistics

section Write

variable {D : Type}

/-- Whether the library is compiled with `BUILD_WITH_MPI`. -/
inductive Build where
  | mpi
  | noMpi
  deriving DecidableEq

/-- The array of one process: allocated with zeros, and filled by `MPI_Allgather`. -/
def Build.localVectSizes (build : Build) (vectSize : Nat) : List Nat :=
  match build with
  | .mpi => [vectSize]
  | .noMpi => [0]

/-- `dgather_data` and `igather_data` on rank 0 of one process. -/
def Build.gatherData {α : Type} (build : Build) (localVectSizes : List Nat) (buffer : List α) :
    List α :=
  match build with
  | .mpi => (dgatherData localVectSizes [buffer] (localVectSizes.length - 1)).2
  | .noMpi => buffer

/-- The loop over the client ranks; none if it writes behind the end of the buffer. -/
def copyStructures {α : Type} (copied : MelissaData D → Option (List α)) :
    List (MelissaData D) → Nat → List α → Option (List α)
  | [], _, buffer => some buffer
  | data :: rest, tempOffset, buffer =>
      if 0 < data.vectSize then do
        let values ← copied data
        if tempOffset + data.vectSize ≤ buffer.length then
          copyStructures copied rest (tempOffset + data.vectSize)
            (copyAt buffer tempOffset values)
        else none
      else copyStructures copied rest tempOffset buffer

/-- A call of `write_output_d` or `write_output_i`. -/
structure WriteCall (D : Type) where
  fileName : String
  field : String
  statName : String
  timeStep : Nat
  vectSize : Nat
  vect : OutputVector D
  deriving DecidableEq

/-- `%.*d`. -/
def formatPadded (size n : Nat) : String :=
  String.ofList (List.leftpad size '0' (toString n).toList)

/-- What `d_buffer` holds from before, as doubles and as integers, when a file is put together. -/
structure StaleBuffer (D : Type) where
  doubles : String → Nat → Extended D
  ints : String → Nat → Nat

/-- The body of a loop over the time steps. `d_buffer` has room for `global_vect_size` doubles,
which is twice as many integers. -/
def writeStat (build : Build) (stale : StaleBuffer D) (options : Options D) (field : String)
    (array : List (MelissaData D)) (stat : OutputStat D) (t : Nat) : Option (WriteCall D) := do
  let maxSizeTime := Nat.log 10 options.nbTimeSteps + 1
  let vectSize := (array.map MelissaData.vectSize).sum
  let localVectSizes := build.localVectSizes vectSize
  let globalVectSize := localVectSizes.sum
  let fileName :=
    "results." ++ field ++ "_" ++ stat.file ++ "." ++ formatPadded maxSizeTime (t + 1)
  let vect ← match stat.source with
    | .doubles copied => do
        let dBuffer := (List.range globalVectSize).map (stale.doubles fileName)
        let dBuffer ← copyStructures (copied t) array 0 dBuffer
        some (.doubles ((build.gatherData localVectSizes dBuffer).take globalVectSize))
    | .ints copied => do
        let iBuffer := (List.range (2 * globalVectSize)).map (stale.ints fileName)
        let iBuffer ← copyStructures (copied t) array 0 iBuffer
        some (.ints ((build.gatherData localVectSizes iBuffer).take globalVectSize))
  some { fileName := fileName, field := field, statName := stat.statName, timeStep := t
         vectSize := globalVectSize, vect := vect }

variable [Zero D] [Div D] [NatCast D] [Pow D ℕ] [LT D] [DecidableEq D] [DecidableLT D] [Libm D]

/-- `melissa_write_stats_seq` with `comm_size` 1. -/
def melissaWriteStatsSeq (build : Build) (formatG : D → String) (stale : StaleBuffer D)
    (options : Options D) (field : String) (array : List (MelissaData D)) :
    Option (List (WriteCall D)) :=
  ((outputStats formatG options).flatMap fun stat =>
    (List.range options.nbTimeSteps).map fun t => (stat, t)).mapM fun (stat, t) =>
      writeStat build stale options field array stat t

/-- Both builds make the same calls. -/
def SameOutput (formatG : D → String) (stale : StaleBuffer D) (options : Options D)
    (field : String) (array : List (MelissaData D)) : Prop :=
  ∃ calls, melissaWriteStatsSeq .mpi formatG stale options field array = some calls ∧
    melissaWriteStatsSeq .noMpi formatG stale options field array = some calls

/-- No operation asks for a file. -/
def NoFile (options : Options D) : Prop :=
  options.nbTimeSteps = 0 ∨
    (options.meanOp = false ∧ options.varianceOp = false ∧ options.skewnessOp = false ∧
      options.kurtosisOp = false ∧ options.minAndMaxOp = false ∧
      (options.thresholdOp = true → options.threshold = []) ∧
      (options.quantileOp = true → options.quantileOrder = []) ∧
      (options.sobolOp = true → options.nbParameters = 0))

/-- A structure with values has the arrays that `melissa_init_data` allocates. -/
def StatsAllocated (options : Options D) (data : MelissaData D) : Prop :=
  0 < data.vectSize → WellSized (exactCodec D) options data ∧ ∀ moments ∈ data.moments,
    moments.theta2.length = if options.maxOrder > 1 then data.vectSize else 0

end Write

section Copied

variable {D : Type} {data : MelissaData D} {t : Nat}

/-- As many values as the structure has are copied. -/
def StatSource.Copies (source : StatSource D) (t : Nat) (data : MelissaData D) : Prop :=
  match source with
  | .doubles copied => ∃ values, copied t data = some values ∧ values.length = data.vectSize
  | .ints copied => ∃ values, copied t data = some values ∧ values.length = data.vectSize

theorem memcpyFrom_eq {α : Type} {array : List α} (sized : array.length = data.vectSize) :
    ∃ values, memcpyFrom data array = some values ∧ values.length = data.vectSize :=
  ⟨array, by rw [memcpyFrom, if_pos (Nat.le_of_eq sized.symm), ← sized, List.take_length], sized⟩

theorem memcpyDoubles_eq {array : List D} (sized : array.length = data.vectSize) :
    ∃ values, memcpyDoubles data array = some values ∧ values.length = data.vectSize := by
  obtain ⟨values, copied, length⟩ := memcpyFrom_eq sized
  exact ⟨values.map .finite, by rw [memcpyDoubles, copied]; rfl, by rw [List.length_map, length]⟩

/-- An array with an element for each time step is read at a time step. -/
theorem atStep_copied {α β : Type} {items : List α} {copied : α → Option (List β)}
    {vectSize : Nat} (inside : t < items.length)
    (each : ∀ item ∈ items, ∃ values, copied item = some values ∧ values.length = vectSize) :
    ∃ values, items[t]?.bind copied = some values ∧ values.length = vectSize := by
  obtain ⟨values, here, length⟩ := each items[t] (List.getElem_mem inside)
  exact ⟨values, by rw [List.getElem?_eq_getElem inside, Option.bind_some, here], length⟩

theorem mem_of_mem_if {α : Type} {op : Bool} {item : α} {items : List α}
    (member : item ∈ if op then items else []) : op = true ∧ item ∈ items := by
  cases op with
  | true => exact ⟨rfl, member⟩
  | false => cases member

variable [Zero D] {options : Options D} {formatG : D → String} {stat : OutputStat D}

section Sources

variable (sized : WellSized (exactCodec D) options data) (inside : t < options.nbTimeSteps)
include sized inside

theorem meanStat_copies (op : options.meanOp = true) : meanStat.source.Copies t data := by
  have step : t < data.moments.length := sized.moments ▸ inside
  refine atStep_copied step fun moments member => memcpyDoubles_eq ?_
  rw [(sized.momentsSized moments member).m1, if_pos]
  unfold Options.maxOrder
  split_ifs <;> omega

theorem varianceStat_copies (op : options.varianceOp = true)
    (theta2 : ∀ moments ∈ data.moments,
      moments.theta2.length = if options.maxOrder > 1 then data.vectSize else 0) :
    varianceStat.source.Copies t data := by
  have step : t < data.moments.length := sized.moments ▸ inside
  refine atStep_copied step fun moments member => memcpyDoubles_eq ?_
  rw [theta2 moments member, if_pos]
  unfold Options.maxOrder
  split_ifs <;> omega

theorem minMaxStats_copies (op : options.minAndMaxOp = true)
    (requested : stat ∈ [minStat, minIdStat, maxStat, maxIdStat]) :
    stat.source.Copies t data := by
  have step : t < data.minMax.length := by rw [sized.minMax, if_pos op]; exact inside
  simp only [List.mem_cons, List.not_mem_nil, or_false] at requested
  rcases requested with rfl | rfl | rfl | rfl
  · exact atStep_copied step fun minMax member =>
      memcpyDoubles_eq (sized.minMaxSized minMax member).min
  · exact atStep_copied step fun minMax member =>
      memcpyFrom_eq (sized.minMaxSized minMax member).minId
  · exact atStep_copied step fun minMax member =>
      memcpyDoubles_eq (sized.minMaxSized minMax member).max
  · exact atStep_copied step fun minMax member =>
      memcpyFrom_eq (sized.minMaxSized minMax member).maxId

theorem thresholdStat_copies (op : options.thresholdOp = true) {value : Nat}
    (known : value < options.threshold.length) (threshold : D) :
    (thresholdStat formatG value threshold).source.Copies t data := by
  have step : t < data.thresholds.length := by rw [sized.thresholds, if_pos op]; exact inside
  refine atStep_copied step fun row member => ?_
  obtain ⟨length, each⟩ := sized.thresholdsSized row member
  exact atStep_copied (length ▸ known) fun threshold member =>
    memcpyFrom_eq (each threshold member).counters

theorem quantileStat_copies (op : options.quantileOp = true) {value : Nat}
    (known : value < options.quantileOrder.length) (quantileOrder : D) :
    (quantileStat formatG value quantileOrder).source.Copies t data := by
  have step : t < data.quantiles.length := by rw [sized.quantiles, if_pos op]; exact inside
  refine atStep_copied step fun row member => ?_
  obtain ⟨length, each⟩ := sized.quantilesSized row member
  exact atStep_copied (length ▸ known) fun quantile member =>
    memcpyDoubles_eq (each quantile member).values

theorem sobolStats_copies (op : options.sobolOp = true) {p : Nat}
    (known : p < options.nbParameters) :
    (sobolStat p).source.Copies t data ∧ (sobolTotStat p).source.Copies t data := by
  have step : t < data.sobolIndices.length := by rw [sized.sobolIndices, if_pos op]; exact inside
  constructor
  · refine atStep_copied step fun sobolArray member => ?_
    have arrays := sized.sobolSized sobolArray member
    exact atStep_copied (arrays.parameters ▸ known) fun martinez member =>
      memcpyDoubles_eq (arrays.martinez martinez member).firstValues
  · refine atStep_copied step fun sobolArray member => ?_
    have arrays := sized.sobolSized sobolArray member
    exact atStep_copied (arrays.parameters ▸ known) fun martinez member =>
      memcpyDoubles_eq (arrays.martinez martinez member).totalValues

theorem skewnessStat_copies [Div D] [NatCast D] [LT D] [DecidableEq D] [DecidableLT D] [Libm D] :
    skewnessStat.source.Copies t data := by
  have step : t < data.moments.length := sized.moments ▸ inside
  exact ⟨computeSkewness data.moments[t] data.vectSize,
    congrArg (Option.map fun moments => computeSkewness moments data.vectSize)
      (List.getElem?_eq_getElem step), by simp [computeSkewness]⟩

theorem kurtosisStat_copies [Div D] [Pow D ℕ] [LT D] [DecidableEq D] [DecidableLT D] :
    kurtosisStat.source.Copies t data := by
  have step : t < data.moments.length := sized.moments ▸ inside
  exact ⟨computeKurtosis data.moments[t] data.vectSize,
    congrArg (Option.map fun moments => computeKurtosis moments data.vectSize)
      (List.getElem?_eq_getElem step), by simp [computeKurtosis]⟩

end Sources

variable [Div D] [NatCast D] [Pow D ℕ] [LT D] [DecidableEq D] [DecidableLT D] [Libm D]

/-- Every statistic that is written finds its values. -/
theorem copies_of_allocated (allocated : StatsAllocated options data)
    (positive : 0 < data.vectSize) (requested : stat ∈ outputStats formatG options)
    (inside : t < options.nbTimeSteps) : stat.source.Copies t data := by
  obtain ⟨sized, theta2⟩ := allocated positive
  simp only [outputStats, List.mem_append] at requested
  rcases requested with
    ((((((mean | variance) | skewness) | kurtosis) | minMax) | threshold) | quantile) | sobol
  · obtain ⟨op, member⟩ := mem_of_mem_if mean
    cases List.mem_singleton.mp member
    exact meanStat_copies sized inside op
  · obtain ⟨op, member⟩ := mem_of_mem_if variance
    cases List.mem_singleton.mp member
    exact varianceStat_copies sized inside op theta2
  · obtain ⟨op, member⟩ := mem_of_mem_if skewness
    cases List.mem_singleton.mp member
    exact skewnessStat_copies sized inside
  · obtain ⟨op, member⟩ := mem_of_mem_if kurtosis
    cases List.mem_singleton.mp member
    exact kurtosisStat_copies sized inside
  · obtain ⟨op, member⟩ := mem_of_mem_if minMax
    exact minMaxStats_copies sized inside op member
  · obtain ⟨op, member⟩ := mem_of_mem_if threshold
    obtain ⟨value, known, rfl⟩ := List.mem_mapIdx.mp member
    exact thresholdStat_copies sized inside op known _
  · obtain ⟨op, member⟩ := mem_of_mem_if quantile
    obtain ⟨value, known, rfl⟩ := List.mem_mapIdx.mp member
    exact quantileStat_copies sized inside op known _
  · obtain ⟨op, member⟩ := mem_of_mem_if sobol
    rcases List.mem_append.mp member with first | total
    · obtain ⟨p, known, rfl⟩ := List.mem_map.mp first
      exact (sobolStats_copies sized inside op (List.mem_range.mp known)).1
    · obtain ⟨p, known, rfl⟩ := List.mem_map.mp total
      exact (sobolStats_copies sized inside op (List.mem_range.mp known)).2

theorem outputStats_eq_nil_iff : outputStats formatG options = [] ↔
    options.meanOp = false ∧ options.varianceOp = false ∧ options.skewnessOp = false ∧
      options.kurtosisOp = false ∧ options.minAndMaxOp = false ∧
      (options.thresholdOp = true → options.threshold = []) ∧
      (options.quantileOp = true → options.quantileOrder = []) ∧
      (options.sobolOp = true → options.nbParameters = 0) := by
  simp only [outputStats, List.append_eq_nil_iff, ite_eq_right_iff, List.cons_ne_nil, imp_false,
    Bool.not_eq_true, List.mapIdx_eq_nil_iff, List.map_eq_nil_iff, List.range_eq_nil, and_self,
    and_assoc]

end Copied

section Allocated

variable {D : Type} [Zero D] {options : Options D}

theorem statsAllocated_melissaInitData [NatCast D] (options : Options D) (vectSize : Nat) :
    StatsAllocated options (melissaInitData options emptyData vectSize) := by
  intro values
  by_cases positive : 0 < vectSize
  · refine ⟨wellSized_melissaInitData (fun _ => trivial) options positive, ?_⟩
    rw [melissaInitData_eq options positive]
    intro moments member
    rw [List.eq_of_mem_replicate member, initMoments]
    simp only
    split <;> simp
  · rw [melissaInitData, if_neg positive] at values
    exact absurd values positive

variable [Add D] [Sub D] [Mul D] [Div D] [NatCast D] [Pow D ℕ]

/-- The second central moment has room for its values when the order asks for it. -/
def Theta2Sized (maxOrder vectSize : Nat) (moments : Moments D) : Prop :=
  moments.maxOrder = maxOrder ∧ moments.theta2.length = if maxOrder > 1 then vectSize else 0

theorem theta2Sized_incrementMoments {maxOrder vectSize : Nat} {moments : Moments D}
    (sized : Theta2Sized maxOrder vectSize moments) (inVect : List D) :
    Theta2Sized maxOrder vectSize (incrementMoments moments inVect vectSize) := by
  obtain ⟨rfl, length⟩ := sized
  unfold incrementMoments
  split
  · exact ⟨rfl, length⟩
  · refine ⟨rfl, ?_⟩
    simp only
    split
    · rename_i computed
      rw [if_pos (show moments.maxOrder > 1 from computed.2)] at length ⊢
      exact overwrite_length length _
    · exact length

variable [IntCast D] [LT D] [DecidableLT D] [LE D] [DecidableLE D] [Libm D]
  {data data' : MelissaData D}

theorem theta2Sized_computeVector
    (sized : ∀ moments ∈ data.moments, Theta2Sized options.maxOrder data.vectSize moments)
    (timeStep simuId : Nat) (inVect : List D) :
    ∀ moments ∈ (computeVector options timeStep simuId inVect data).moments,
      Theta2Sized options.maxOrder data.vectSize moments :=
  forall_modify sized (fun _ old => theta2Sized_incrementMoments old inVect) timeStep

/-- A message keeps the arrays allocated. -/
theorem statsAllocated_computeStats (allocated : StatsAllocated options data)
    {timeStep simuId : Nat} {inVectTab : List (List D)}
    (computed : computeStats options data timeStep simuId inVectTab = some data') :
    StatsAllocated options data' := by
  have kept : data'.vectSize = data.vectSize ∧
      ((∀ moments ∈ data.moments, Theta2Sized options.maxOrder data.vectSize moments) →
        ∀ moments ∈ data'.moments, Theta2Sized options.maxOrder data.vectSize moments) := by
    unfold computeStats at computed
    by_cases valid : data.isValid = false
    · rw [if_pos valid] at computed
      cases computed
    · rw [if_neg valid] at computed
      by_cases short : (inVectTab.any fun vect => decide (vect.length < data.vectSize)) = true
      · rw [if_pos short] at computed
        cases computed
      · rw [if_neg short] at computed
        by_cases sobol : options.sobolOp = true
        · by_cases count : inVectTab.length ≠ options.nbParameters + 2
          · rw [if_pos sobol, if_pos count] at computed
            cases computed
          · rw [if_pos sobol, if_neg count] at computed
            cases computed
            refine ⟨rfl, fun sized => ?_⟩
            have first : ∀ moments ∈ (computeSobol timeStep inVectTab (computeVector options
                timeStep simuId (inVectTab.getD 0 []) data)).moments,
                Theta2Sized options.maxOrder data.vectSize moments :=
              theta2Sized_computeVector sized timeStep simuId _
            exact theta2Sized_computeVector first timeStep simuId _
        · rw [if_neg sobol] at computed
          cases computed
          exact ⟨rfl, fun sized => theta2Sized_computeVector sized timeStep simuId _⟩
  intro positive
  rw [kept.1] at positive ⊢
  obtain ⟨sized, theta2⟩ := allocated positive
  refine ⟨wellSized_computeStats (fun _ => trivial) sized computed, fun moments member => ?_⟩
  exact (kept.2 (fun moments member => ⟨(sized.momentsSized moments member).order,
    theta2 moments member⟩) moments member).2

end Allocated

section Copy

variable {D : Type} {α : Type} {copied : MelissaData D → Option (List α)}
  {array : List (MelissaData D)} {buffer : List α} {tempOffset : Nat}

theorem copyStructures_some (room : tempOffset + (array.map MelissaData.vectSize).sum ≤
      buffer.length)
    (each : ∀ data ∈ array, 0 < data.vectSize →
      ∃ values, copied data = some values ∧ values.length = data.vectSize) :
    ∃ filled, copyStructures copied array tempOffset buffer = some filled := by
  induction array generalizing tempOffset buffer with
  | nil => exact ⟨buffer, rfl⟩
  | cons data rest ih =>
      have later := fun other member => each other (List.mem_cons_of_mem data member)
      rw [List.map_cons, List.sum_cons] at room
      rw [copyStructures]
      by_cases positive : 0 < data.vectSize
      · obtain ⟨values, here, length⟩ := each data List.mem_cons_self positive
        rw [if_pos positive, here, Option.bind_eq_bind, Option.bind_some, if_pos (by omega)]
        refine ih ?_ later
        rw [copyAt]
        simp only [List.length_append, List.length_take, List.length_drop]
        omega
      · rw [if_neg positive]
        exact ih (by omega) later

/-- Without MPI there is no room for anything. -/
theorem copyStructures_none (values : 0 < (array.map MelissaData.vectSize).sum) :
    copyStructures copied array tempOffset [] = none := by
  induction array with
  | nil => cases values
  | cons data rest ih =>
      rw [copyStructures]
      by_cases positive : 0 < data.vectSize
      · rw [if_pos positive]
        cases copied data with
        | none => rfl
        | some values =>
            rw [Option.bind_eq_bind, Option.bind_some, if_neg]
            rw [List.length_nil]
            omega
      · rw [if_neg positive]
        rw [List.map_cons, List.sum_cons] at values
        exact ih (by omega)

end Copy

section Builds

variable {D : Type} {options : Options D} {stale : StaleBuffer D} {field : String}
  {array : List (MelissaData D)} {stat : OutputStat D} {t : Nat}

theorem writeStat_mpi (stale : StaleBuffer D) (field : String)
    (copies : ∀ data ∈ array, 0 < data.vectSize → stat.source.Copies t data) :
    ∃ call, writeStat .mpi stale options field array stat t = some call := by
  cases known : stat.source with
  | doubles copied =>
      rw [known] at copies
      have room (fresh : Nat → Extended D) : 0 + (array.map MelissaData.vectSize).sum ≤
          ((List.range (array.map MelissaData.vectSize).sum).map fresh).length := by simp
      simp only [writeStat, known, Option.bind_eq_bind, Build.localVectSizes, List.sum_singleton]
      obtain ⟨filled, done⟩ := copyStructures_some (room _) copies
      rw [done]
      exact ⟨_, rfl⟩
  | ints copied =>
      rw [known] at copies
      have room (fresh : Nat → Nat) : 0 + (array.map MelissaData.vectSize).sum ≤
          ((List.range (2 * (array.map MelissaData.vectSize).sum)).map fresh).length := by
        rw [List.length_map, List.length_range]
        omega
      simp only [writeStat, known, Option.bind_eq_bind, Build.localVectSizes, List.sum_singleton]
      obtain ⟨filled, done⟩ := copyStructures_some (room _) copies
      rw [done]
      exact ⟨_, rfl⟩

/-- Where there are values, they have no place in a buffer of no bytes. -/
theorem writeStat_noMpi (values : 0 < (array.map MelissaData.vectSize).sum) :
    writeStat .noMpi stale options field array stat t = none := by
  cases known : stat.source with
  | doubles copied =>
      simp only [writeStat, known, Build.localVectSizes, List.sum_singleton, List.range_zero,
        List.map_nil, copyStructures_none values, Option.bind_eq_bind, Option.bind_none]
  | ints copied =>
      simp only [writeStat, known, Build.localVectSizes, List.sum_singleton, Nat.mul_zero,
        List.range_zero, List.map_nil, copyStructures_none values, Option.bind_eq_bind,
        Option.bind_none]

/-- Where there are none, both builds do the same. -/
theorem writeStat_builds (empty : (array.map MelissaData.vectSize).sum = 0) :
    writeStat .noMpi stale options field array stat t =
      writeStat .mpi stale options field array stat t := by
  simp only [writeStat, Build.localVectSizes, empty]
  rfl

variable [Zero D] [Div D] [NatCast D] [Pow D ℕ] [LT D] [DecidableEq D] [DecidableLT D] [Libm D]

theorem melissaWriteStatsSeq_mpi (formatG : D → String) (stale : StaleBuffer D) (field : String)
    (allocated : ∀ data ∈ array, StatsAllocated options data) :
    ∃ calls, melissaWriteStatsSeq .mpi formatG stale options field array = some calls := by
  have each : ∀ loop ∈ (outputStats formatG options).flatMap (fun stat =>
      (List.range options.nbTimeSteps).map fun t => (stat, t)),
      ∃ call, writeStat .mpi stale options field array loop.1 loop.2 = some call ∧ True := by
    intro loop member
    obtain ⟨stat, requested, inner⟩ := List.mem_flatMap.mp member
    obtain ⟨t, inside, rfl⟩ := List.mem_map.mp inner
    obtain ⟨call, made⟩ := writeStat_mpi stale field fun data known positive =>
      copies_of_allocated (allocated data known) positive requested (List.mem_range.mp inside)
    exact ⟨call, made, trivial⟩
  obtain ⟨calls, made, _⟩ := mapM_total each
  exact ⟨calls, made⟩

/-- The two builds make the same calls exactly when no file is asked for or there is no value. -/
theorem sameOutput_iff (formatG : D → String) (stale : StaleBuffer D) (field : String)
    (allocated : ∀ data ∈ array, StatsAllocated options data) :
    SameOutput formatG stale options field array ↔
      NoFile options ∨ ∀ data ∈ array, data.vectSize = 0 := by
  have total : (∀ data ∈ array, data.vectSize = 0) ↔ (array.map MelissaData.vectSize).sum = 0 := by
    rw [List.sum_eq_zero_iff_forall_eq_nat, List.forall_mem_map]
  have files : NoFile options ↔ (outputStats formatG options).flatMap (fun stat =>
      (List.range options.nbTimeSteps).map fun t => (stat, t)) = [] := by
    have none_asked : outputStats formatG options = [] ↔ _ := outputStats_eq_nil_iff
    rw [List.flatMap_eq_nil_iff, NoFile, ← none_asked]
    constructor
    · rintro (noStep | noStat) stat member
      · rw [noStep]
        rfl
      · rw [noStat] at member
        cases member
    · intro empty
      by_contra other
      rw [not_or] at other
      obtain ⟨stat, member⟩ := List.exists_mem_of_ne_nil _ other.2
      have steps := List.map_eq_nil_iff.mp (empty stat member)
      exact other.1 (List.range_eq_nil.mp steps)
  constructor
  · rintro ⟨calls, _, made⟩
    rw [files, total]
    by_contra other
    rw [not_or] at other
    obtain ⟨loop, member⟩ := List.exists_mem_of_ne_nil _ other.1
    rw [melissaWriteStatsSeq, mapM_eq_none member
      (writeStat_noMpi (Nat.pos_of_ne_zero other.2))] at made
    cases made
  · intro either
    obtain ⟨calls, made⟩ := melissaWriteStatsSeq_mpi formatG stale field allocated
    refine ⟨calls, made, ?_⟩
    rw [← made, melissaWriteStatsSeq, melissaWriteStatsSeq]
    rcases either with nothing | empty
    · rw [files.mp nothing]
      rfl
    · congr 1
      funext loop
      exact writeStat_builds (total.mp empty)

def meanOptions : Options ℚ :=
  { nbTimeSteps := 1, nbParameters := 1, samplingSize := 2, meanOp := true, varianceOp := false
    skewnessOp := false, kurtosisOp := false, minAndMaxOp := false, thresholdOp := false
    quantileOp := false, sobolOp := false, threshold := [], quantileOrder := [], learning := 0
    restart := 0, checkInterval := 300, timeoutSimu := 300 }

def noStale : StaleBuffer ℚ := { doubles := fun _ _ => .nan, ints := fun _ _ => 0 }

theorem sameOutput_iff_twoValues :
    SameOutput (fun _ => "") noStale meanOptions "heat" [melissaInitData meanOptions emptyData 2] ↔
      NoFile meanOptions ∨
        ∀ data ∈ [melissaInitData meanOptions emptyData 2], data.vectSize = 0 :=
  sameOutput_iff (fun _ => "") noStale "heat" fun data member => by
    rw [List.mem_singleton.mp member]
    exact statsAllocated_melissaInitData meanOptions 2

/-- Two values and their mean: without MPI the buffer has no room for them. -/
theorem not_sameOutput_twoValues :
    ¬ SameOutput (fun _ => "") noStale meanOptions "heat"
      [melissaInitData meanOptions emptyData 2] := by
  rintro ⟨calls, _, made⟩
  have undefined : melissaWriteStatsSeq .noMpi (fun _ => "") noStale meanOptions "heat"
      [melissaInitData meanOptions emptyData 2] = none := rfl
  cases undefined.symm.trans made

end Builds

end Melissa
