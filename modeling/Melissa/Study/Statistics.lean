import Melissa.Output.Resume
import Melissa.Stats.Extrema
import Melissa.Study.Campaign

/-! What stands in the files of a finished study, in exact arithmetic: averages, central moments,
extrema and numbers of exceedances over all simulations. -/

namespace Melissa

open Arrays Blocks CentralMoments Runs

section Thresholds

/-- The counters of a threshold after the given vectors. -/
theorem foldl_updateThresholdExceedance {D : Type} [Zero D] [LT D] [DecidableLT D] (vectSize : Nat)
    (value : D) (samples : List (List D)) :
    samples.foldl (fun threshold vect => updateThresholdExceedance threshold vect vectSize)
        (initThreshold vectSize value) =
      { thresholdExceedance := (List.range vectSize).map fun i =>
          (samples.map fun vect => vect.getD i 0).countP (value < ·)
        value := value } := by
  induction samples using List.reverseRecOn with
  | nil =>
      rw [List.foldl_nil, initThreshold]
      simp
  | append_singleton samples vect ih =>
      rw [List.foldl_append, ih, List.foldl_cons, List.foldl_nil, updateThresholdExceedance]
      congr 1
      rw [overwrite_full (by simp)]
      apply List.map_congr_left
      intro i member
      have inside := List.mem_range.mp member
      simp only [getD_map_range inside, List.map_append, List.countP_append, List.map_cons,
        List.map_nil, List.countP_cons, List.countP_nil, decide_eq_true_eq]
      by_cases above : value < vect.getD i 0
      · rw [if_pos above, if_pos above]
      · rw [if_neg above, if_neg above]
        rfl

theorem foldl_map_row {α β : Type} (update : α → β → α) (items : List β) (row : List α) :
    items.foldl (fun row item => row.map fun held => update held item) row =
      row.map fun held => items.foldl update held := by
  induction items generalizing row with
  | nil => simp
  | cons item rest ih =>
      rw [List.foldl_cons, ih, List.map_map]
      rfl

variable {D : Type} [Zero D] [Add D] [Sub D] [Mul D] [Div D] [NatCast D] [IntCast D]
  [Pow D ℕ] [LT D] [DecidableLT D] [LE D] [DecidableLE D] [Libm D]

theorem contributeAll_thresholds {options : Options D} (requested : options.thresholdOp = true)
    (vectSize : Nat) (messages : List (SimuData D)) (stats : StepStats D) :
    (messages.foldl (contribute options vectSize) stats).thresholds =
      stats.thresholds.map fun row => row.map fun threshold =>
        (messages.flatMap (samplesOf options)).foldl
          (fun threshold vect => updateThresholdExceedance threshold vect vectSize) threshold := by
  have each (stats : StepStats D) (m : SimuData D) :
      (contribute options vectSize stats m).thresholds = stats.thresholds.map fun row =>
        (samplesOf options m).foldl (fun row vect => row.map fun threshold =>
          updateThresholdExceedance threshold vect vectSize) row := by
    unfold contribute updateStep samplesOf
    cases options.sobolOp with
    | false =>
        simp only [Bool.false_eq_true, if_false, updateVector, requested, if_true]
        rfl
    | true =>
        simp only [if_true, updateVector, updateSobol, requested, Option.map_map]
        rfl
  rw [foldl_part each messages stats]
  simp only [foldl_map_row]

end Thresholds

section Whole

theorem minMaxRun_extrema {K : Type} [Zero K] [LinearOrder K] {vectSize : Nat}
    {pairs : List (Nat × List K)} (filled : pairs ≠ []) {i : Nat} (inside : i < vectSize) :
    IsLeast {x | x ∈ valuesAt pairs i} ((minMaxRun vectSize pairs).min.getD i 0) ∧
      IsGreatest {x | x ∈ valuesAt pairs i} ((minMaxRun vectSize pairs).max.getD i 0) := by
  obtain ⟨first, rest, rfl⟩ := List.exists_cons_of_ne_nil filled
  exact ⟨minMaxRun_min inside first rest, minMaxRun_max inside first rest⟩

theorem minMaxRun_length {D : Type} [Zero D] [LT D] [DecidableLT D] (vectSize : Nat)
    (pairs : List (Nat × List D)) :
    (minMaxRun vectSize pairs).min.length = vectSize ∧
      (minMaxRun vectSize pairs).max.length = vectSize := by
  induction pairs using List.reverseRecOn with
  | nil => simp [minMaxRun, initMinMax]
  | append_singleton pairs pair ih =>
      obtain ⟨low, high⟩ := ih
      rw [minMaxRun, List.foldl_append, List.foldl_cons, List.foldl_nil, minAndMax]
      rw [minMaxRun] at low high
      split
      · exact ⟨overwrite_length low _, overwrite_length high _⟩
      · exact ⟨overwrite_length low _, overwrite_length high _⟩

theorem flatMap_samples_ne_nil {D : Type} {options : Options D} {messages : List (SimuData D)}
    (some_message : messages ≠ []) :
    (messages.flatMap fun m => samples options m.simuId (inVectTab options m)) ≠ [] := by
  obtain ⟨first, rest, rfl⟩ := List.exists_cons_of_ne_nil some_message
  unfold samples
  split
  · simp
  · simp

/-- The samples of messages, without the simulations they are counted for. -/
theorem valuesAt_flatMap_samples {K : Type} [Field K] {options : Options K}
    (messages : List (SimuData K)) (i : Nat) :
    valuesAt (messages.flatMap fun m => samples options m.simuId (inVectTab options m)) i =
      column (messages.flatMap (samplesOf options)) i := by
  rw [valuesAt, column, List.map_flatMap, List.map_flatMap]
  apply List.flatMap_congr
  intro m _
  unfold samples samplesOf
  cases options.sobolOp with
  | false => rfl
  | true => rfl

variable {D : Type} [Zero D] [Add D] [Sub D] [Mul D] [Div D] [NatCast D] [IntCast D]
  [Pow D ℕ] [LT D] [DecidableLT D] [LE D] [DecidableLE D] [Libm D]

/-- A structure that has computed these messages of a time step, and no others of it. -/
structure HasComputed (options : Options D) (n t : Nat) (messages : List (SimuData D))
    (whole : MelissaData D) : Prop where
  size : whole.vectSize = n
  stats : stepStats whole t = messages.foldl (contribute options n)
    (stepStats (melissaInitData options emptyData n) t)

variable {options : Options D} {n t : Nat} {messages : List (SimuData D)} {whole : MelissaData D}

theorem HasComputed.minMax (computed : HasComputed options n t messages whole) (positive : 0 < n)
    (step : t < options.nbTimeSteps) (requested : options.minAndMaxOp = true) :
    whole.minMax[t]? = some (minMaxRun n
      (messages.flatMap fun m => samples options m.simuId (inVectTab options m))) := by
  have here := congrArg StepStats.minMax computed.stats
  rw [contributeAll_minMax requested, melissaInitData_eq options positive] at here
  simp only [stepStats, if_pos requested, List.getElem?_replicate, if_pos step,
    Option.map_some] at here
  exact here

theorem HasComputed.thresholds (computed : HasComputed options n t messages whole)
    (positive : 0 < n) (step : t < options.nbTimeSteps) (requested : options.thresholdOp = true) :
    whole.thresholds[t]? = some (options.threshold.map fun value =>
      { thresholdExceedance := (List.range n).map fun i =>
          ((messages.flatMap (samplesOf options)).map fun vect =>
            vect.getD i 0).countP (value < ·)
        value := value }) := by
  have here := congrArg StepStats.thresholds computed.stats
  rw [contributeAll_thresholds requested, melissaInitData_eq options positive] at here
  simp only [stepStats, if_pos requested, List.getElem?_replicate, if_pos step, Option.map_some,
    List.map_map, Function.comp_def, foldl_updateThresholdExceedance] at here
  exact here

theorem HasComputed.moments {K : Type} [Field K] [LinearOrder K] [IsStrictOrderedRing K] [Libm K]
    {options : Options K} {n t : Nat} {messages : List (SimuData K)} {whole : MelissaData K}
    (computed : HasComputed options n t messages whole) (positive : 0 < n)
    (step : t < options.nbTimeSteps) : whole.moments[t]? =
      some (momentsOf n options.maxOrder (messages.flatMap (samplesOf options))) := by
  have here := congrArg StepStats.moments computed.stats
  rw [contributeAll_moments, melissaInitData_eq options positive] at here
  simp only [stepStats, List.getElem?_replicate, if_pos step, Option.map_some,
    incrementAll_initMoments] at here
  exact here

end Whole

section Single

variable {D : Type}

/-- The call for one structure hands over what is copied from it. -/
theorem written_doubles {stale : Nat → StaleBuffer D} {options : Options D} {field : String}
    {whole : MelissaData D} {stat : OutputStat D} {t : Nat}
    {copied : Nat → MelissaData D → Option (List (Extended D))} {vector : List (Extended D)}
    (source : stat.source = .doubles copied) (here : copied t whole = some vector)
    (length : vector.length = whole.vectSize) :
    (writeStatRanks stale options field [[whole]] stat t).map WriteCall.vect =
      some (.doubles vector) := by
  rw [writeStatRanks, source]
  simp only [gatheredOutput]
  rw [gatheredVector_single _ here length, Option.map_some, Option.map_some, Option.map_some]

theorem written_ints {stale : Nat → StaleBuffer D} {options : Options D} {field : String}
    {whole : MelissaData D} {stat : OutputStat D} {t : Nat}
    {copied : Nat → MelissaData D → Option (List Nat)} {vector : List Nat}
    (source : stat.source = .ints copied) (here : copied t whole = some vector)
    (length : vector.length = whole.vectSize) :
    (writeStatRanks stale options field [[whole]] stat t).map WriteCall.vect =
      some (.ints vector) := by
  rw [writeStatRanks, source]
  simp only [gatheredOutput]
  rw [gatheredVector_single _ here length, Option.map_some, Option.map_some, Option.map_some]

theorem memcpyFrom_all {α : Type} {data : MelissaData D} {array : List α}
    (length : array.length = data.vectSize) : memcpyFrom data array = some array := by
  rw [memcpyFrom, if_pos (Nat.le_of_eq length.symm), ← length, List.take_length]

theorem maxOrder_pos {options : Options D} (requested : options.meanOp = true) :
    options.maxOrder ≥ 1 := by
  unfold Options.maxOrder
  split_ifs <;> omega

theorem maxOrder_two {options : Options D} (requested : options.varianceOp = true) :
    options.maxOrder ≥ 2 := by
  unfold Options.maxOrder
  split_ifs <;> omega

end Single

section Written

variable {K : Type} [Field K] [LinearOrder K] [Libm K]

/-- The vectors of the files `written`, each if it is requested, are the statistics of the
samples. -/
structure HoldsStatistics (formatG : K → String) (options : Options K) (n : Nat)
    (samples : List (List K)) (written : OutputStat K → Option (OutputVector K)) : Prop where
  mean : options.meanOp = true → written meanStat =
    some (.doubles ((List.range n).map fun i => .finite (powerMean (column samples i) 1)))
  variance : options.varianceOp = true → written varianceStat =
    some (.doubles ((List.range n).map fun i => .finite (centralMoment (column samples i) 2)))
  skewness : options.skewnessOp = true → written skewnessStat =
    some (.doubles (computeSkewness (momentsOf n options.maxOrder samples) n))
  kurtosis : options.kurtosisOp = true → written kurtosisStat =
    some (.doubles (computeKurtosis (momentsOf n options.maxOrder samples) n))
  extrema : options.minAndMaxOp = true → ∃ low high : List K,
    written minStat = some (.doubles (low.map .finite)) ∧
      written maxStat = some (.doubles (high.map .finite)) ∧ low.length = n ∧ high.length = n ∧
      ∀ i < n, IsLeast {x | x ∈ column samples i} (low.getD i 0) ∧
        IsGreatest {x | x ∈ column samples i} (high.getD i 0)
  thresholds : options.thresholdOp = true → ∀ (k : Nat) (value : K),
    options.threshold[k]? = some value → written (thresholdStat formatG k value) =
      some (.ints ((List.range n).map fun i => (column samples i).countP (value < ·)))

theorem HoldsStatistics.congr {formatG : K → String} {options : Options K} {n : Nat}
    {samples : List (List K)} {written written' : OutputStat K → Option (OutputVector K)}
    (holds : HoldsStatistics formatG options n samples written)
    (same : ∀ stat ∈ orderFreeStats formatG options, written' stat = written stat) :
    HoldsStatistics formatG options n samples written' := by
  constructor
  · intro requested
    rw [same _ (by simp [orderFreeStats, requested]), holds.mean requested]
  · intro requested
    rw [same _ (by simp [orderFreeStats, requested]), holds.variance requested]
  · intro requested
    rw [same _ (by simp [orderFreeStats, requested]), holds.skewness requested]
  · intro requested
    rw [same _ (by simp [orderFreeStats, requested]), holds.kurtosis requested]
  · intro requested
    rw [same minStat (by simp [orderFreeStats, requested]),
      same maxStat (by simp [orderFreeStats, requested])]
    exact holds.extrema requested
  · intro requested k value listed
    rw [same, holds.thresholds requested k value listed]
    have member : thresholdStat formatG k value ∈
        options.threshold.mapIdx (thresholdStat formatG) := by
      obtain ⟨inside, rfl⟩ := List.getElem?_eq_some_iff.mp listed
      exact List.mem_mapIdx.mpr ⟨k, inside, rfl⟩
    simp [orderFreeStats, requested, member]

variable [IsStrictOrderedRing K]

/-- What one structure that has computed the messages writes. -/
theorem HasComputed.holdsStatistics (formatG : K → String) {options : Options K} {n t : Nat}
    {messages : List (SimuData K)} {whole : MelissaData K}
    (computed : HasComputed options n t messages whole) (positive : 0 < n)
    (step : t < options.nbTimeSteps) (some_message : messages ≠ [])
    (stale : Nat → StaleBuffer K) (field : String) :
    HoldsStatistics formatG options n (messages.flatMap (samplesOf options)) fun stat =>
      (writeStatRanks stale options field [[whole]] stat t).map WriteCall.vect := by
  have moments := computed.moments positive step
  have size := computed.size
  constructor
  · intro requested
    refine written_doubles rfl ?_ (by simp [size])
    rw [moments, Option.bind_some, memcpyDoubles, momentsOf]
    simp only [momentArray]
    rw [if_pos (maxOrder_pos requested), memcpyFrom_all (by simp [size]), Option.map_some,
      List.map_map]
    rfl
  · intro requested
    refine written_doubles rfl ?_ (by simp [size])
    rw [moments, Option.bind_some, memcpyDoubles, momentsOf]
    simp only [momentArray]
    rw [if_pos (maxOrder_two requested), memcpyFrom_all (by simp [size]), Option.map_some,
      List.map_map]
    rfl
  · intro requested
    refine written_doubles rfl ?_ (by simp [size, computeSkewness])
    rw [moments, Option.map_some, size]
  · intro requested
    refine written_doubles rfl ?_ (by simp [size, computeKurtosis])
    rw [moments, Option.map_some, size]
  · intro requested
    have held := computed.minMax positive step requested
    obtain ⟨low, high⟩ := minMaxRun_length n
      (messages.flatMap fun m => samples options m.simuId (inVectTab options m))
    refine ⟨_, _, written_doubles rfl ?_ ?_, written_doubles rfl ?_ ?_, low, high, ?_⟩
    · rw [held, Option.bind_some, memcpyDoubles, memcpyFrom_all (low.trans size.symm),
        Option.map_some]
    · rw [List.length_map, low, size]
    · rw [held, Option.bind_some, memcpyDoubles, memcpyFrom_all (high.trans size.symm),
        Option.map_some]
    · rw [List.length_map, high, size]
    · intro i inside
      rw [← valuesAt_flatMap_samples]
      exact minMaxRun_extrema (flatMap_samples_ne_nil some_message) inside
  · intro requested k value listed
    have row := computed.thresholds positive step requested
    refine written_ints rfl ?_ (by simp [size])
    rw [row, Option.bind_some, List.getElem?_map, listed, Option.map_some, Option.bind_some]
    exact memcpyFrom_all (by simp [size])

/-- The files of a finished study hold the statistics of what its messages carried. -/
theorem ensemble_statistics (formatG : K → String) {options : Options K} {ensemble : Ensemble K}
    {nbServers : Nat} {servers : Nat → Server K} (vects : ensemble.nbVect = options.nbVect)
    (simulations : 0 < ensemble.nbSimu)
    (writes : WritesWhole (orderFreeStats formatG options) options ensemble
      (fun _ _ => List.range ensemble.nbSimu) nbServers servers)
    {fieldId : Nat} {name : String} (field : ensemble.names[fieldId]? = some name) {t : Nat}
    (step : t < options.nbTimeSteps) (stale : Nat → StaleBuffer K) :
    HoldsStatistics formatG options (ensemble.vectSize name)
      (((List.range ensemble.nbSimu).map fun simuId =>
        ensemble.wholeMessage simuId t name).flatMap (samplesOf options)) fun stat =>
      (writeStatRanks stale options name ((List.range nbServers).map fun s =>
        statsOf (servers s) fieldId) stat t).map WriteCall.vect := by
  have known := List.mem_of_getElem? field
  obtain ⟨whole, computed, calls⟩ := writes fieldId name field
  have listed (t : Nat) : ∀ simuId ∈ (fun _ => List.range ensemble.nbSimu) t,
    simuId < ensemble.nbSimu := fun simuId member => List.mem_range.mp member
  obtain ⟨whole', computed', size, stats⟩ := computeAll_wholeMessages vects known listed
  rw [computed] at computed'
  cases computed'
  have held : HasComputed options (ensemble.vectSize name) t
      ((List.range ensemble.nbSimu).map fun simuId => ensemble.wholeMessage simuId t name)
      whole := by
    refine ⟨size, ?_⟩
    rw [stats t step, List.foldl_map]
    rfl
  refine (held.holdsStatistics formatG (Ensemble.positive known) step ?_ stale name).congr ?_
  · simp [Nat.ne_of_gt simulations]
  · intro stat member
    obtain ⟨call, all, alone⟩ := calls stat member t step stale stale
    rw [all, alone]

end Written

section Exact

theorem samplesOf_wholeMessage {D : Type} {options : Options D} {campaign : Campaign D}
    (classic : options.sobolOp = false) (simuId t : Nat) (name : String) :
    samplesOf options (campaign.ensemble.wholeMessage simuId t name) =
      [campaign.whole simuId t name] := by
  have data : (campaign.ensemble.wholeMessage simuId t name).data =
      campaign.whole simuId t name := List.append_nil _
  simp [samplesOf, classic, inVectTab, ← nbVect_classic classic, data]

variable {K : Type} [Field K] [LinearOrder K] [IsStrictOrderedRing K] [Libm K]

end Exact

end Melissa
