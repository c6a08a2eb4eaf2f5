import Melissa.Study.Campaign
import Melissa.Study.TextFiles

/-! From the messages of a study to the text files in the directory of the server. -/

namespace Melissa

open Arrays Files Runs

section Made

variable {D : Type} {options : Options D} {t : Nat}

theorem gatheredVector_made {α : Type} {copied : MelissaData D → Option (List α)}
    {ranks : List (List (MelissaData D))} (fresh : Nat → Nat → α)
    (copies : ∀ array ∈ ranks, ∀ data ∈ array, 0 < data.vectSize →
      ∃ values, copied data = some values ∧ values.length = data.vectSize) :
    ∃ vector, gatheredVector fresh copied ranks = some vector := by
  let stored (data : MelissaData D) : List α :=
    if 0 < data.vectSize then (copied data).getD [] else []
  have read : List.Forall₂ (List.Forall₂ (Copied copied)) ranks
      (ranks.map fun array => array.map stored) := by
    refine List.forall₂_map_right_iff.mpr (List.forall₂_same.mpr fun array known => ?_)
    refine List.forall₂_map_right_iff.mpr (List.forall₂_same.mpr fun data member => ?_)
    rcases Nat.eq_zero_or_pos data.vectSize with silent | positive
    · refine ⟨?_, fun positive => absurd positive (by omega)⟩
      simp only [stored, silent, Nat.lt_irrefl, if_false, List.length_nil]
    · obtain ⟨values, done, length⟩ := copies array known data member positive
      have here : stored data = values := by
        simp only [stored, positive, if_true, done, Option.getD_some]
      exact ⟨by rw [here, length], fun _ => by rw [here, done]⟩
  exact ⟨_, gatheredVector_of_copied fresh read⟩

theorem gatheredOutput_made {ranks : List (List (MelissaData D))} {source : StatSource D}
    (stale : Nat → StaleBuffer D) (fileName : String)
    (copies : ∀ array ∈ ranks, ∀ data ∈ array, 0 < data.vectSize → source.Copies t data) :
    ∃ vect, gatheredOutput stale fileName source t ranks = some vect := by
  cases source with
  | doubles copied =>
      obtain ⟨vector, made⟩ :=
        gatheredVector_made (fun s => (stale s).doubles fileName) copies
      exact ⟨.doubles vector, by rw [gatheredOutput, made, Option.map_some]⟩
  | ints copied =>
      obtain ⟨vector, made⟩ := gatheredVector_made (fun s => (stale s).ints fileName) copies
      exact ⟨.ints vector, by rw [gatheredOutput, made, Option.map_some]⟩

theorem writeStatRanks_made {ranks : List (List (MelissaData D))} (options : Options D)
    (stat : OutputStat D) (stale : Nat → StaleBuffer D) (field : String)
    (copies : ∀ array ∈ ranks, ∀ data ∈ array, 0 < data.vectSize → stat.source.Copies t data) :
    ∃ call, writeStatRanks stale options field ranks stat t = some call := by
  obtain ⟨vect, made⟩ := gatheredOutput_made stale (outputName options field stat.file t) copies
  exact ⟨_, Option.map_eq_some_iff.mpr ⟨vect, made, rfl⟩⟩

variable [Zero D] [Div D] [NatCast D] [Pow D ℕ] [LT D] [DecidableLT D] [DecidableEq D] [Libm D]

/-- All files are written when every structure with values has its arrays. -/
theorem finalizeFieldData_made (formatG : D → String) (stale : Nat → StaleBuffer D)
    {fields : List (String × List (List (MelissaData D)))}
    (allocated : ∀ field ∈ fields, ∀ array ∈ field.2, ∀ data ∈ array,
      StatsAllocated options data) :
    ∃ calls, finalizeFieldData formatG stale options fields = some calls := by
  have each : ∀ loop ∈ fields.flatMap (fun field =>
      (outputStats formatG options).flatMap fun stat =>
        (List.range options.nbTimeSteps).map fun t => (field, stat, t)),
      ∃ call, writeStatRanks stale options loop.1.1 loop.1.2 loop.2.1 loop.2.2 = some call ∧
        True := by
    intro loop member
    obtain ⟨field, known, member⟩ := List.mem_flatMap.mp member
    obtain ⟨stat, requested, member⟩ := List.mem_flatMap.mp member
    obtain ⟨t, inside, rfl⟩ := List.mem_map.mp member
    obtain ⟨call, made⟩ := writeStatRanks_made options stat stale field.1
      fun array listed data inner positive => copies_of_allocated
        (allocated field known array listed data inner) positive requested
        (List.mem_range.mp inside)
    exact ⟨call, made, trivial⟩
  obtain ⟨calls, made, _⟩ := mapM_total each
  exact ⟨calls, made⟩

theorem mem_of_finalizeFieldData {formatG : D → String} {stale : Nat → StaleBuffer D}
    {fields : List (String × List (List (MelissaData D)))} {calls : List (WriteCall D)}
    (made : finalizeFieldData formatG stale options fields = some calls)
    {field : String × List (List (MelissaData D))} (known : field ∈ fields)
    {stat : OutputStat D} (requested : stat ∈ outputStats formatG options)
    (inside : t < options.nbTimeSteps) {call : WriteCall D}
    (written : writeStatRanks stale options field.1 field.2 stat t = some call) :
    call ∈ calls := by
  have loop : (field, stat, t) ∈ fields.flatMap fun field =>
      (outputStats formatG options).flatMap fun stat =>
        (List.range options.nbTimeSteps).map fun t => (field, stat, t) :=
    List.mem_flatMap.mpr ⟨field, known, List.mem_flatMap.mpr ⟨stat, requested,
      List.mem_map.mpr ⟨t, List.mem_range.mpr inside, rfl⟩⟩⟩
  obtain ⟨i, here⟩ := List.mem_iff_getElem?.mp loop
  refine List.mem_of_getElem? (i := i) ?_
  rw [mapM_getElem? made, here]
  exact written

end Made

section Allocated

variable {D : Type}

/-- Only the sizes of the arrays matter, and these have nothing to do with the sample. -/
theorem statsAllocated_options [Zero D] {options given : Options D} {data : MelissaData D}
    (same : given = { options with restart := given.restart, samplingSize := given.samplingSize }) :
    StatsAllocated given data ↔ StatsAllocated options data := by
  rw [same]
  constructor
  · intro allocated positive
    obtain ⟨sized, theta2⟩ := allocated positive
    exact ⟨⟨sized.fits, sized.moments, sized.momentsSized, sized.minMax, sized.minMaxSized,
      sized.thresholds, sized.thresholdsSized, sized.quantiles, sized.quantilesSized,
      sized.sobolIndices, sized.sobolSized, sized.steps, sized.stepsFit⟩, theta2⟩
  · intro allocated positive
    obtain ⟨sized, theta2⟩ := allocated positive
    exact ⟨⟨sized.fits, sized.moments, sized.momentsSized, sized.minMax, sized.minMaxSized,
      sized.thresholds, sized.thresholdsSized, sized.quantiles, sized.quantilesSized,
      sized.sobolIndices, sized.sobolSized, sized.steps, sized.stepsFit⟩, theta2⟩

/-- Every structure of the server is untouched or has its arrays. -/
def AllAllocated [Zero D] (options : Options D) (server : Server D) : Prop :=
  ∀ fieldId rank data, entryOf server.fields fieldId rank = some data →
    data = emptyData ∨ data.statsInit = true ∧ data.stepsInit = true ∧ StatsAllocated options data

theorem allAllocated_stats [Zero D] {options : Options D} {server : Server D}
    (allocated : AllAllocated options.firstStart server) {fieldId rank : Nat}
    {data : MelissaData D} (present : entryOf server.fields fieldId rank = some data) :
    StatsAllocated options data := by
  rcases allocated fieldId rank data present with rfl | ⟨_, _, arrays⟩
  · intro positive
    cases positive
  · have restarted : options.firstStart = { options with
        restart := options.firstStart.restart
        samplingSize := options.firstStart.samplingSize } := rfl
    exact (statsAllocated_options restarted).mp arrays

variable [Zero D] [Add D] [Sub D] [Mul D] [Div D] [NatCast D] [IntCast D]
  [Pow D ℕ] [LT D] [DecidableLT D] [LE D] [DecidableLE D] [Libm D]

/-- A message keeps the arrays, and the rows of bits. -/
theorem statsAllocated_accumulate {options given : Options D} {data updated : MelissaData D}
    {m : SimuData D} (same : given = options) (allocated : StatsAllocated options data)
    (taken : accumulate given data m = some updated) : StatsAllocated options updated := by
  subst same
  intro positive
  obtain ⟨size, _⟩ := accumulate_frame taken
  rw [size] at positive
  refine ⟨wellSized_accumulate (fun _ => trivial) (allocated positive).1 taken, ?_⟩
  obtain ⟨_, cases⟩ := accumulate_cases taken
  rcases cases with ⟨_, rfl⟩ | ⟨_, computed, done, rfl⟩
  · exact (allocated positive).2
  · unfold computeMessage at done
    split at done
    · obtain ⟨_, _, _, size', _⟩ := computeStats_frame done
      exact (statsAllocated_computeStats allocated done (by rw [size']; exact positive)).2
    · cases done
      exact (allocated positive).2

theorem allAllocated_step {options : Options D} {server server' : Server D} {event : Event D}
    (first : options.restart = 0)
    (same : server.options = { options with samplingSize := server.options.samplingSize })
    (positive : ∀ now m reply, event = .data now m reply → 0 < m.vectSize)
    (allocated : AllAllocated options server) (taken : step noRestore server event = some server') :
    AllAllocated options server' := by
  have convert {data : MelissaData D} :
      StatsAllocated server.options data ↔ StatsAllocated options data :=
    statsAllocated_options (same.trans (by rw [same]))
  have restart : server.options.restart = 0 := by rw [same, first]
  intro fieldId rank data present
  rcases step_fields taken with unchanged | ⟨now, m, reply, own, simu, before, loaded, updated,
    status, rfl, admitted, accepted⟩
  · rw [unchanged] at present
    exact allocated fieldId rank data present
  · rw [accepted.fields] at present
    rcases entryOf_setEntry_cases accepted.entry present with ⟨_, _, rfl⟩ | ⟨_, present⟩
    · -- the first message allocates, a later one finds the arrays
      have load := lazyInit_passed accepted.load
      have ready : loaded.statsInit = true ∧ loaded.stepsInit = true ∧
          StatsAllocated server.options loaded := by
        rcases allocated own m.clientRank before accepted.entry with rfl | ⟨stats, steps, arrays⟩
        · have values := positive now m reply rfl
          rw [if_pos ⟨rfl, values⟩, restart, if_neg (Nat.lt_irrefl 0), Option.some.injEq] at load
          subst load
          refine ⟨?_, ?_, statsAllocated_melissaInitData server.options m.vectSize⟩
          · rw [melissaInitData_eq server.options values]
          · rw [melissaInitData_eq server.options values]
        · rw [stats, steps, if_neg (by simp), if_neg (by simp), Option.some.injEq] at load
          subst load
          exact ⟨stats, steps, convert.mpr arrays⟩
      obtain ⟨_, stats, steps⟩ := accumulate_frame accepted.update
      exact Or.inr ⟨stats.trans ready.1, steps.trans ready.2.1,
        convert.mp (statsAllocated_accumulate rfl ready.2.2 accepted.update)⟩
    · exact allocated fieldId rank data present

/-- Over a whole run from the start. -/
theorem allAllocated_rounds (options : Options D) (commData : CommData) (names : List String)
    {rounds : List (Round D)}
    (positive : ∀ now m reply, .data now m reply ∈ eventsOf rounds → 0 < m.vectSize)
    {server : Server D}
    (reached : run (roundStep noRestore) (freshServer options commData names) rounds =
      some server) : AllAllocated options.firstStart server := by
  induction rounds using List.reverseRecOn generalizing server with
  | nil =>
      cases reached
      intro fieldId rank data present
      exact Or.inl (entryOf_emptyFields_cases present).2
  | append_singleton past round ih =>
      obtain ⟨mid, before, taken⟩ := run_concat_eq_some.mp reached
      rw [eventsOf_concat] at positive
      have allocated := ih (fun now m reply member =>
        positive now m reply (List.mem_append_left _ member)) before
      cases round with
      | work event =>
          refine allAllocated_step rfl (rounds_sameStudy before).options ?_ allocated taken
          rintro now m reply rfl
          exact positive now m reply (List.mem_append_right _ (List.mem_singleton_self _))
      | silence =>
          cases taken
          exact allocated
      | checkpoint now =>
          cases taken
          unfold saveTime
          split
          · exact allocated
          · exact allocated

end Allocated

section Directory

variable {D : Type}

/-- The fields of a study with their structures on all server ranks. -/
def studyFields (names : List String) (nbServers : Nat) (servers : Nat → Server D) :
    List (String × List (List (MelissaData D))) :=
  names.mapIdx fun fieldId name =>
    (name, (List.range nbServers).map fun s => statsOf (servers s) fieldId)

theorem studyFields_names (names : List String) (nbServers : Nat) (servers : Nat → Server D) :
    (studyFields names nbServers servers).map Prod.fst = names := by
  apply List.ext_getElem?
  intro fieldId
  rw [studyFields, List.getElem?_map, List.getElem?_mapIdx, Option.map_map]
  cases names[fieldId]? with
  | none => rfl
  | some name => rfl

theorem statsAllocated_studyFields [Zero D] {options : Options D} (names : List String)
    {nbServers : Nat} {servers : Nat → Server D}
    (allocated : ∀ s < nbServers, ∀ fieldId rank data,
      entryOf (servers s).fields fieldId rank = some data → StatsAllocated options data) :
    ∀ field ∈ studyFields names nbServers servers, ∀ array ∈ field.2, ∀ data ∈ array,
      StatsAllocated options data := by
  intro field known array listed data member
  obtain ⟨fieldId, _, rfl⟩ := List.mem_mapIdx.mp known
  obtain ⟨s, inside, rfl⟩ := List.mem_map.mp listed
  obtain ⟨rank, here⟩ := List.mem_iff_getElem?.mp member
  refine allocated s (List.mem_range.mp inside) fieldId rank data ?_
  unfold statsOf at here
  split at here
  · rename_i found
    rw [entryOf, found, Option.bind_some, here]
  · cases here

variable [Zero D] [Add D] [Sub D] [Mul D] [Div D] [NatCast D] [IntCast D]
  [Pow D ℕ] [LT D] [DecidableLT D] [LE D] [DecidableLE D] [Libm D]

/-- Among the files are these, with the text of one structure that has computed the whole
messages. -/
def TextsWhole (formatE : Extended D → String) (stats : List (OutputStat D))
    (stale : Nat → StaleBuffer D) (options : Options D) (ensemble : Ensemble D)
    (order : String → Nat → List Nat) (disk : Disk Char) : Prop :=
  ∀ name ∈ ensemble.names,
    ∃ whole, computeAll options (melissaInitData options emptyData (ensemble.vectSize name))
        (ensemble.wholeMessages (order name) options.nbTimeSteps name) = some whole ∧
      ∀ stat ∈ stats, ∀ t < options.nbTimeSteps,
        ∃ call, writeStatRanks stale options name [[whole]] stat t = some call ∧
          disk call.fileName = some (writeOutputTxt formatE call).2.flatten

/-- Files with different names are those of the whole fields if the gathered vectors are. -/
theorem textsWhole_of_writesWhole [DecidableEq D] {formatG : D → String}
    (formatE : Extended D → String) {stats : List (OutputStat D)} {stale : Nat → StaleBuffer D}
    {options : Options D} {ensemble : Ensemble D} {order : String → Nat → List Nat}
    {nbServers : Nat} {servers : Nat → Server D} {calls : List (WriteCall D)} (disk : Disk Char)
    (requested : ∀ stat ∈ stats, stat ∈ outputStats formatG options)
    (writes : WritesWhole stats options ensemble order nbServers servers)
    (made : finalizeFieldData formatG stale options
      (studyFields ensemble.names nbServers servers) = some calls)
    (distinct : (calls.map WriteCall.fileName).Nodup) :
    TextsWhole formatE stats stale options ensemble order
      (applyOps disk ((calls.map (writeOutputTxt formatE)).flatMap writeFile)) := by
  intro name known
  obtain ⟨fieldId, field⟩ := List.mem_iff_getElem?.mp known
  obtain ⟨whole, computed, gathered⟩ := writes fieldId name field
  refine ⟨whole, computed, fun stat member t inside => ?_⟩
  obtain ⟨call, written, alone⟩ := gathered stat member t inside stale stale
  refine ⟨call, alone, writeOutputTxt_mem formatE disk distinct ?_⟩
  have here : (name, (List.range nbServers).map fun s => statsOf (servers s) fieldId) ∈
      studyFields ensemble.names nbServers servers := by
    refine List.mem_of_getElem? (i := fieldId) ?_
    rw [studyFields, List.getElem?_mapIdx, field, Option.map_some]
  exact mem_of_finalizeFieldData made here (requested stat member) inside written

end Directory

section Exact

variable {K : Type} [Field K] [LinearOrder K] [IsStrictOrderedRing K] [Libm K]

end Exact

/-- `%g` on the two thresholds of `heatThresholds`. -/
def heatFormatG (value : ℚ) : String := if value = 1 / 2 then "0.5" else "2"

/-- The values without rounding. -/
def heatFormatE : Extended ℚ → String
  | .finite value => toString value
  | .infinite negative => if negative then "-inf" else "inf"
  | .nan => "nan"

def heatThresholds : Options ℚ := { twoByTwo with thresholdOp := true, threshold := [1 / 2, 2] }

example : TextsDistinct heatFormatG heatThresholds := by
  constructor
  · intro _
    decide +kernel
  · intro requested
    cases requested

end Melissa
