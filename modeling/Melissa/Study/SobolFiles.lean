import Melissa.Stats.Covariance
import Melissa.Study.Groups
import Melissa.Study.Statistics

/-! What stands in the files of a finished study of Sobol groups, in exact arithmetic. The files
of the indices hold what the groups amount to in the order of their arrival. -/

namespace Melissa

open Arrays Comoment Runs

section Indices

variable {K : Type} [Field K] [LinearOrder K] [Libm K]

/-- An index from the pairs of values that the groups have for A or B and for C_k. -/
def martinezIndex (final : K → K) (pairs : List (K × K)) : K :=
  if variance (pairs.map Prod.snd) > epsylon ∧ variance (pairs.map Prod.fst) > epsylon then
    final (lagCovariance pairs / (Libm.sqrt (variance (pairs.map Prod.fst)) *
      Libm.sqrt (variance (pairs.map Prod.snd))))
  else 0

/-- The values of an update are quotients of the accumulators after it, or 0. -/
theorem incrementSobolMartinez_values {vectSize i k : Nat} {sobolArray after : SobolArray K}
    {inVectTab : List (List K)} {martinez : SobolMartinez K}
    (done : after = incrementSobolMartinez sobolArray inVectTab vectSize)
    (found : after.sobolMartinez[k]? = some martinez) (inside : i < vectSize) :
    martinez.firstOrderValues.getD i 0 =
        (if martinez.varianceK.variance.getD i 0 > epsylon ∧
          after.varianceB.variance.getD i 0 > epsylon then
          martinez.firstOrderCovariance.getD i 0 /
            (Libm.sqrt (after.varianceB.variance.getD i 0) *
              Libm.sqrt (martinez.varianceK.variance.getD i 0))
        else 0) ∧
      martinez.totalOrderValues.getD i 0 =
        if martinez.varianceK.variance.getD i 0 > epsylon ∧
          after.varianceA.variance.getD i 0 > epsylon then
          ((1 : ℕ) : K) - martinez.totalOrderCovariance.getD i 0 /
            (Libm.sqrt (after.varianceA.variance.getD i 0) *
              Libm.sqrt (martinez.varianceK.variance.getD i 0))
        else 0 := by
  subst done
  rw [incrementSobolMartinez, List.getElem?_mapIdx, Option.map_eq_some_iff] at found
  obtain ⟨before, _, rfl⟩ := found
  exact ⟨getD_overwrite inside _ _ _, getD_overwrite inside _ _ _⟩

variable [IsStrictOrderedRing K]

theorem martinezRun_values {nbParameters vectSize i k : Nat} {groups : List (List (List K))}
    (filled : groups ≠ []) {martinez : SobolMartinez K}
    (found : (martinezRun nbParameters vectSize groups).sobolMartinez[k]? = some martinez)
    (inside : i < vectSize) :
    martinez.firstOrderValues.getD i 0 =
        martinezIndex id (componentPairs (vectorPairs groups 1 (k + 2)) i) ∧
      martinez.totalOrderValues.getD i 0 =
        martinezIndex (1 - ·) (componentPairs (vectorPairs groups 0 (k + 2)) i) := by
  obtain ⟨_, varianceA, varianceB, _, parameter⟩ :=
    martinezRun_tracks nbParameters vectSize groups
  obtain ⟨varianceK, firstOrder, totalOrder⟩ := parameter k martinez found
  obtain ⟨earlier, last, rfl⟩ := List.eq_nil_or_concat' groups |>.resolve_left filled
  have step : martinezRun nbParameters vectSize (earlier ++ [last]) =
      incrementSobolMartinez (martinezRun nbParameters vectSize earlier) last vectSize :=
    List.foldl_append
  obtain ⟨first, total⟩ := incrementSobolMartinez_values step found inside
  have fst (l : Nat) : (componentPairs (vectorPairs (earlier ++ [last]) l (k + 2)) i).map Prod.fst =
      componentOf (vectorsOf (earlier ++ [last]) l) i := by
    rw [componentPairs_fst, vectorPairs_fst]
  have snd (l : Nat) : (componentPairs (vectorPairs (earlier ++ [last]) l (k + 2)) i).map Prod.snd =
      componentOf (vectorsOf (earlier ++ [last]) (k + 2)) i := by
    rw [componentPairs_snd, vectorPairs_snd]
  constructor
  · rw [first, martinezIndex, fst, snd, firstOrder i inside, varianceB.variance i inside,
      varianceK.variance i inside, id]
  · rw [total, martinezIndex, fst, snd, totalOrder i inside, varianceA.variance i inside,
      varianceK.variance i inside, Nat.cast_one]

end Indices

section Whole

variable {D : Type} [Zero D] [Add D] [Sub D] [Mul D] [Div D] [NatCast D] [IntCast D]
  [Pow D ℕ] [LT D] [DecidableLT D] [LE D] [DecidableLE D] [Libm D] {options : Options D}

theorem contributeAll_sobol (sobol : options.sobolOp = true) (vectSize : Nat)
    (messages : List (SimuData D)) (stats : StepStats D) :
    (messages.foldl (contribute options vectSize) stats).sobolIndices =
      stats.sobolIndices.map fun sobolArray => (messages.map (inVectTab options)).foldl
        (fun sobolArray inVectTab => incrementSobolMartinez sobolArray inVectTab vectSize)
        sobolArray := by
  have each (stats : StepStats D) (m : SimuData D) :
      (contribute options vectSize stats m).sobolIndices = stats.sobolIndices.map fun sobolArray =>
        [inVectTab options m].foldl (fun sobolArray inVectTab =>
          incrementSobolMartinez sobolArray inVectTab vectSize) sobolArray := by
    simp only [contribute, updateStep, updateVector, updateSobol, sobol, if_true, List.foldl_cons,
      List.foldl_nil]
  rw [foldl_part each messages stats, ← List.map_eq_flatMap]

/-- The indices of a structure are those of the messages it has computed. -/
theorem HasComputed.sobol {n t : Nat} {messages : List (SimuData D)} {whole : MelissaData D}
    (computed : HasComputed options n t messages whole) (positive : 0 < n)
    (step : t < options.nbTimeSteps) (sobol : options.sobolOp = true) :
    whole.sobolIndices[t]? =
      some (martinezRun options.nbParameters n (messages.map (inVectTab options))) := by
  have here := congrArg StepStats.sobolIndices computed.stats
  rw [contributeAll_sobol sobol, melissaInitData_eq options positive] at here
  simp only [stepStats, if_pos sobol, List.getElem?_replicate, if_pos step,
    Option.map_some] at here
  exact here

omit [IntCast D] [Pow D ℕ] [LE D] [DecidableLE D] in
theorem sized_martinezRun (nbParameters vectSize : Nat) (groups : List (List (List D))) :
    (martinezRun nbParameters vectSize groups).Sized (exactCodec D) nbParameters vectSize := by
  induction groups using List.reverseRecOn with
  | nil => exact sized_initSobolMartinez (fun _ => trivial) nbParameters vectSize
  | append_singleton groups inVectTab ih =>
      rw [martinezRun, List.foldl_append]
      exact sized_incrementSobol (fun _ => trivial) ih inVectTab

end Whole

section Written

variable {K : Type} [Field K] [LinearOrder K] [IsStrictOrderedRing K] [Libm K]

/-- The vectors of the files of the indices, from the pairs of values of each element. `pairs l k`
are those of vector `l` and of vector `k` of the groups. -/
structure HoldsSobol (nbParameters n : Nat) (pairs : Nat → Nat → Nat → List (K × K))
    (written : OutputStat K → Option (OutputVector K)) : Prop where
  firstOrder : ∀ p < nbParameters, written (sobolStat p) =
    some (.doubles ((List.range n).map fun i => .finite (martinezIndex id (pairs 1 (p + 2) i))))
  totalOrder : ∀ p < nbParameters, written (sobolTotStat p) =
    some (.doubles ((List.range n).map fun i =>
      .finite (martinezIndex (1 - ·) (pairs 0 (p + 2) i))))

omit [LinearOrder K] [IsStrictOrderedRing K] [Libm K] in
theorem eq_map_finite {n : Nat} {values : List K} {f : Nat → K} (length : values.length = n)
    (each : ∀ i < n, values.getD i 0 = f i) :
    values.map Extended.finite = (List.range n).map fun i => .finite (f i) := by
  have same : values = (List.range n).map f := eq_map_range length 0 each
  rw [same, List.map_map]
  rfl

/-- What one structure that has computed the messages of the groups writes. -/
theorem HasComputed.holdsSobol {options : Options K} {n t : Nat} {messages : List (SimuData K)}
    {whole : MelissaData K} (computed : HasComputed options n t messages whole) (positive : 0 < n)
    (step : t < options.nbTimeSteps) (sobol : options.sobolOp = true)
    (some_message : messages ≠ []) (stale : Nat → StaleBuffer K) (field : String) :
    HoldsSobol options.nbParameters n
      (fun l k i => componentPairs (vectorPairs (messages.map (inVectTab options)) l k) i)
      fun stat => (writeStatRanks stale options field [[whole]] stat t).map WriteCall.vect := by
  have held := computed.sobol positive step sobol
  have size := computed.size
  have filled : messages.map (inVectTab options) ≠ [] := by simpa using some_message
  have sized := sized_martinezRun options.nbParameters n (messages.map (inVectTab options))
  have known (p : Nat) (inside : p < options.nbParameters) :
      p < (martinezRun options.nbParameters n
        (messages.map (inVectTab options))).sobolMartinez.length := by
    rw [sized.parameters]
    exact inside
  constructor
  · intro p inside
    have found := List.getElem?_eq_getElem (known p inside)
    have room := sized.martinez _ (List.getElem_mem (known p inside))
    refine written_doubles rfl ?_ (by simp [size])
    rw [held, Option.bind_some, found, Option.bind_some, memcpyDoubles,
      memcpyFrom_all (room.firstValues.trans size.symm), Option.map_some]
    exact congrArg some (eq_map_finite room.firstValues fun i below =>
      (martinezRun_values filled found below).1)
  · intro p inside
    have found := List.getElem?_eq_getElem (known p inside)
    have room := sized.martinez _ (List.getElem_mem (known p inside))
    refine written_doubles rfl ?_ (by simp [size])
    rw [held, Option.bind_some, found, Option.bind_some, memcpyDoubles,
      memcpyFrom_all (room.totalValues.trans size.symm), Option.map_some]
    exact congrArg some (eq_map_finite room.totalValues fun i below =>
      (martinezRun_values filled found below).2)

omit [LinearOrder K] [IsStrictOrderedRing K] [Libm K] in
theorem momentsOf_congr {n maxOrder : Nat} {samples samples' : List (List K)}
    (length : samples.length = samples'.length)
    (columns : ∀ i < n, column samples i = column samples' i) :
    momentsOf n maxOrder samples = momentsOf n maxOrder samples' := by
  have powers (order : Nat) :
      momentArray n maxOrder order (fun i => CentralMoments.powerMean (column samples i) order) =
        momentArray n maxOrder order fun i =>
          CentralMoments.powerMean (column samples' i) order :=
    momentArray_congr fun _ i inside => by rw [columns i inside]
  have central (order : Nat) :
      momentArray n maxOrder order
          (fun i => CentralMoments.centralMoment (column samples i) order) =
        momentArray n maxOrder order fun i =>
          CentralMoments.centralMoment (column samples' i) order :=
    momentArray_congr fun _ i inside => by rw [columns i inside]
  simp only [momentsOf, powers, central, length]

omit [IsStrictOrderedRing K] in
theorem sobolStats_requested (formatG : K → String) {options : Options K}
    (sobol : options.sobolOp = true) {p : Nat} (inside : p < options.nbParameters) :
    sobolStat p ∈ outputStats formatG options ∧ sobolTotStat p ∈ outputStats formatG options := by
  have known := List.mem_range.mpr inside
  have last : ∀ stat, stat ∈ (List.range options.nbParameters).map sobolStat ++
      (List.range options.nbParameters).map sobolTotStat → stat ∈ outputStats formatG options := by
    intro stat member
    refine List.mem_append_right _ ?_
    rw [if_pos sobol]
    exact member
  exact ⟨last _ (List.mem_append_left _ (List.mem_map_of_mem known)),
    last _ (List.mem_append_right _ (List.mem_map_of_mem known))⟩

/-- The files of all server ranks together hold the indices in the order of the groups. -/
theorem ensemble_holdsSobol (formatG : K → String) {options : Options K} {ensemble : Ensemble K}
    {nbServers : Nat} {servers : Nat → Server K} {order : String → Nat → List Nat}
    (vects : ensemble.nbVect = options.nbVect) (sobol : options.sobolOp = true)
    (listed : ∀ name t, ∀ simuId ∈ order name t, simuId < ensemble.nbSimu)
    (some_simu : ∀ name t, order name t ≠ [])
    (writes : WritesWhole (outputStats formatG { options with quantileOp := false }) options
      ensemble order nbServers servers)
    {fieldId : Nat} {name : String} (field : ensemble.names[fieldId]? = some name) {t : Nat}
    (step : t < options.nbTimeSteps) (stale : Nat → StaleBuffer K) :
    HoldsSobol options.nbParameters (ensemble.vectSize name)
      (fun l k i => componentPairs (vectorPairs ((order name t).map fun simuId =>
        inVectTab options (ensemble.wholeMessage simuId t name)) l k) i) fun stat =>
      (writeStatRanks stale options name ((List.range nbServers).map fun s =>
        statsOf (servers s) fieldId) stat t).map WriteCall.vect := by
  have known := List.mem_of_getElem? field
  obtain ⟨whole, computed, calls⟩ := writes fieldId name field
  obtain ⟨whole', computed', size, stats⟩ := computeAll_wholeMessages vects known (listed name)
  rw [computed] at computed'
  cases computed'
  have held : HasComputed options (ensemble.vectSize name) t
      ((order name t).map fun simuId => ensemble.wholeMessage simuId t name) whole := by
    refine ⟨size, ?_⟩
    rw [stats t step, List.foldl_map]
    rfl
  have alone := held.holdsSobol (Ensemble.positive known) step sobol
    (by simpa using some_simu name t) stale name
  rw [List.map_map] at alone
  have same {stat : OutputStat K}
      (member : stat ∈ outputStats formatG { options with quantileOp := false }) :
      (writeStatRanks stale options name ((List.range nbServers).map fun s =>
          statsOf (servers s) fieldId) stat t).map WriteCall.vect =
        (writeStatRanks stale options name [[whole]] stat t).map WriteCall.vect := by
    obtain ⟨call, all, single⟩ := calls stat member t step stale stale
    rw [all, single]
  have requested : ({ options with quantileOp := false } : Options K).sobolOp = true := sobol
  constructor
  · intro p inside
    rw [same (sobolStats_requested formatG requested inside).1]
    exact alone.firstOrder p inside
  · intro p inside
    rw [same (sobolStats_requested formatG requested inside).2]
    exact alone.totalOrder p inside

omit [IsStrictOrderedRing K] in
/-- Only the first `n` elements of the samples count. -/
theorem HoldsStatistics.samples_congr {formatG : K → String} {options : Options K} {n : Nat}
    {samples samples' : List (List K)} {written : OutputStat K → Option (OutputVector K)}
    (holds : HoldsStatistics formatG options n samples written)
    (length : samples.length = samples'.length)
    (columns : ∀ i < n, column samples i = column samples' i) :
    HoldsStatistics formatG options n samples' written := by
  have moments : momentsOf n options.maxOrder samples = momentsOf n options.maxOrder samples' :=
    momentsOf_congr length columns
  have vectors {α : Type} (f : List K → α) : (List.range n).map (fun i => f (column samples i)) =
      (List.range n).map fun i => f (column samples' i) :=
    List.map_congr_left fun i member => by rw [columns i (List.mem_range.mp member)]
  constructor
  · intro requested
    rw [holds.mean requested,
      vectors fun values => Extended.finite (CentralMoments.powerMean values 1)]
  · intro requested
    rw [holds.variance requested,
      vectors fun values => Extended.finite (CentralMoments.centralMoment values 2)]
  · intro requested
    rw [holds.skewness requested, moments]
  · intro requested
    rw [holds.kurtosis requested, moments]
  · intro requested
    obtain ⟨low, high, min, max, lows, highs, bounds⟩ := holds.extrema requested
    refine ⟨low, high, min, max, lows, highs, fun i inside => ?_⟩
    rw [← columns i inside]
    exact bounds i inside
  · intro requested k value listed
    rw [holds.thresholds requested k value listed,
      vectors fun values => values.countP (value < ·)]

end Written

section Study

variable {K : Type} [Field K] [LinearOrder K] [IsStrictOrderedRing K] [Libm K]

namespace GroupCampaign

/-- The vectors A and B of a group, which the statistics are fed with. -/
def samples (groups : GroupCampaign K) (t : Nat) (name : String) : List (List K) :=
  (List.range groups.nbGroups).flatMap fun group =>
    [groups.whole (group * (groups.options.nbParameters + 2)) t name,
      groups.whole (group * (groups.options.nbParameters + 2) + 1) t name]

/-- Element `i` of the vectors `l` and `k` of the groups, in their order. -/
def pairs (groups : GroupCampaign K) (order : List Nat) (t : Nat) (name : String) (l k i : Nat) :
    List (K × K) :=
  order.map fun group =>
    ((groups.whole (group * (groups.options.nbParameters + 2) + l) t name).getD i 0,
      (groups.whole (group * (groups.options.nbParameters + 2) + k) t name).getD i 0)

variable {groups : GroupCampaign K} {name : String}

omit [LinearOrder K] [IsStrictOrderedRing K] [Libm K] in
/-- Vector `k` of the message of a group is the field of its simulation `k`. -/
theorem getD_inVectTab (group t : Nat) {k i : Nat} (known : k < groups.options.nbParameters + 2)
    (inside : i < (groups.localVectSizes name).sum) :
    ((inVectTab groups.options (groups.ensemble.wholeMessage group t name)).getD k []).getD i 0 =
      (groups.whole (group * (groups.options.nbParameters + 2) + k) t name).getD i 0 := by
  have vects : groups.options.nbVect = groups.options.nbParameters + 2 := nbVect_eq.symm
  have vector : (groups.ensemble.vectors group t name).getD k [] =
      groups.whole (group * (groups.options.nbParameters + 2) + k) t name :=
    getD_map_range known _ _
  have listed : k < (groups.ensemble.vectors group t name).length := by
    rw [groups.ensemble.count]
    exact known
  rw [inVectTab, getD_map_range (by omega), ← vector]
  exact Ensemble.getD_slot (groups.ensemble.sized group t name) listed inside

omit [IsStrictOrderedRing K] in
theorem holdsStatistics (formatG : K → String) {t : Nat}
    {written : OutputStat K → Option (OutputVector K)}
    (holds : HoldsStatistics formatG groups.options (groups.localVectSizes name).sum
      (((List.range groups.nbGroups).map fun group =>
        groups.ensemble.wholeMessage group t name).flatMap (samplesOf groups.options)) written) :
    HoldsStatistics formatG groups.options (groups.localVectSizes name).sum
      (groups.samples t name) written := by
  have messages : ((List.range groups.nbGroups).map fun group =>
        groups.ensemble.wholeMessage group t name).flatMap (samplesOf groups.options) =
      (List.range groups.nbGroups).flatMap fun group =>
        [(inVectTab groups.options (groups.ensemble.wholeMessage group t name)).getD 0 [],
          (inVectTab groups.options (groups.ensemble.wholeMessage group t name)).getD 1 []] := by
    rw [List.flatMap_map]
    simp only [samplesOf, groups.sobolOp, if_true]
  rw [messages] at holds
  refine holds.samples_congr ?_ fun i inside => ?_
  · simp [samples, List.length_flatMap]
  · rw [column, column, samples, List.map_flatMap, List.map_flatMap]
    refine List.flatMap_congr fun group _ => ?_
    have vectA := getD_inVectTab group t (k := 0) (by omega) inside
    have vectB := getD_inVectTab group t (k := 1) (by omega) inside
    rw [Nat.add_zero] at vectA
    simp only [List.map_cons, List.map_nil, vectA, vectB]

omit [LinearOrder K] [IsStrictOrderedRing K] [Libm K] in
theorem pairs_eq (order : List Nat) (t : Nat) {l k i : Nat}
    (known : l < groups.options.nbParameters + 2) (known' : k < groups.options.nbParameters + 2)
    (inside : i < (groups.localVectSizes name).sum) :
    componentPairs (vectorPairs (order.map fun group =>
        inVectTab groups.options (groups.ensemble.wholeMessage group t name)) l k) i =
      groups.pairs order t name l k i := by
  rw [componentPairs, vectorPairs, pairs, List.map_map, List.map_map]
  refine List.map_congr_left fun group _ => ?_
  simp only [Function.comp_apply, getD_inVectTab group t known inside,
    getD_inVectTab group t known' inside]

omit [IsStrictOrderedRing K] in
theorem holdsSobol {order : List Nat} {t : Nat}
    {written : OutputStat K → Option (OutputVector K)}
    (holds : HoldsSobol groups.options.nbParameters (groups.localVectSizes name).sum
      (fun l k i => componentPairs (vectorPairs (order.map fun group =>
        inVectTab groups.options (groups.ensemble.wholeMessage group t name)) l k) i) written) :
    HoldsSobol groups.options.nbParameters (groups.localVectSizes name).sum
      (groups.pairs order t name) written := by
  constructor
  · intro p inside
    rw [holds.firstOrder p inside]
    congr 2
    exact List.map_congr_left fun i member => by
      rw [pairs_eq order t (by omega) (by omega) (List.mem_range.mp member)]
  · intro p inside
    rw [holds.totalOrder p inside]
    congr 2
    exact List.map_congr_left fun i member => by
      rw [pairs_eq order t (by omega) (by omega) (List.mem_range.mp member)]

end GroupCampaign

omit [Field K] [LinearOrder K] [IsStrictOrderedRing K] [Libm K] in
theorem statsOf_congr {nbServers : Nat} {servers servers' : Nat → Server K}
    (same : ∀ s < nbServers, servers' s = servers s) (fieldId : Nat) :
    (List.range nbServers).map (fun s => statsOf (servers' s) fieldId) =
      (List.range nbServers).map fun s => statsOf (servers s) fieldId :=
  List.map_congr_left fun s member => by rw [same s (List.mem_range.mp member)]

end Study

/-- The messages of the two groups; then the launcher is silent. -/
def flowRounds (server : Nat) : List (Round ℚ) :=
  thenSilent (flowGroups.ensemble.orderly 2 1 flowReply server)

end Melissa
