import Melissa.Io.Checkpoint
import Melissa.Server.Entry

/-! The file of a structure, written by `save_stats` and read by `read_saved_stats`. -/

namespace Melissa

open Files

variable {D B : Type}

theorem saveStats_names (codec : Codec D B) (options : Options D) (rank : Nat)
    (field : MelissaField D) :
    (saveStats codec options rank field).map Prod.fst =
      (List.range field.statsData.length).map (fileName field.name rank) := by
  apply List.ext_getElem
  · simp [saveStats]
  · intro i _ _
    simp [saveStats]

theorem saveStats_nodup (codec : Codec D B) (options : Options D) (rank : Nat)
    (field : MelissaField D) : ((saveStats codec options rank field).map Prod.fst).Nodup := by
  rw [saveStats_names]
  exact List.Nodup.map (fun i j same => (fileName_injective same).2) List.nodup_range

theorem mem_saveStats {codec : Codec D B} {options : Options D} {rank clientRank : Nat}
    {field : MelissaField D} {data : MelissaData D}
    (entry : field.statsData[clientRank]? = some data) :
    (fileName field.name rank clientRank, saveData codec options data) ∈
      saveStats codec options rank field := by
  rw [saveStats, List.mem_mapIdx]
  obtain ⟨inside, here⟩ := List.getElem?_eq_some_iff.mp entry
  exact ⟨clientRank, inside, by rw [here]⟩

/-- The fields of `moments_t` that are saved. -/
def keptMoments (moments : Moments D) : Nat × List D × List D × List D × List D × Nat :=
  (moments.maxOrder, moments.m1, moments.m2, moments.m3, moments.m4, moments.increment)

/-- What the reader gives back. -/
structure SameSaved (options : Options D) (data back : MelissaData D) : Prop where
  vectSize : back.vectSize = data.vectSize
  moments : back.moments.map keptMoments = data.moments.map keptMoments
  minMax : back.minMax = data.minMax
  thresholds : back.thresholds = data.thresholds
  quantiles : back.quantiles = data.quantiles
  sobolIndices : back.sobolIndices = data.sobolIndices
  grown : back.stepSimu.length = max options.samplingSize.toNat data.stepSimu.length
  bitmaps : ∀ s < data.stepSimu.length, back.stepSimu[s]? = data.stepSimu[s]?
  beyond : ∀ s t, data.stepSimu.length ≤ s → bitOf back s t = false

/-- No bit changes: the rows beyond the saved ones are zero. -/
theorem bitOf_restored [Zero D] (options : Options D) (data : MelissaData D) (s t : Nat) :
    bitOf (restored options data) s t = bitOf data s t := by
  by_cases inside : s < data.stepSimu.length
  · simp only [bitOf, restored, List.getD_append _ _ _ _ inside]
  · have past : data.stepSimu.length ≤ s := Nat.le_of_not_lt inside
    have unset : bitOf data s t = false := by
      rw [bitOf, List.getD_eq_default _ _ past, testBit_nil]
    rw [unset]
    simp only [bitOf, restored, List.getD_append_right _ _ _ _ past]
    by_cases allocated : s - data.stepSimu.length <
        options.samplingSize.toNat - data.stepSimu.length
    · rw [List.getD_replicate _ allocated]
      simp [noSteps]
    · rw [List.getD_eq_default _ _ (by simpa using allocated), testBit_nil]

theorem sameSaved_restored [Zero D] (options : Options D) (data : MelissaData D) :
    SameSaved options data (restored options data) := by
  refine ⟨rfl, ?_, rfl, rfl, rfl, rfl, ?_, ?_, ?_⟩
  · simp only [restored, List.map_map]
    rfl
  · simp only [restored, List.length_append, List.length_replicate]
    omega
  · intro s inside
    exact List.getElem?_append_left inside
  · intro s t past
    rw [bitOf_restored, bitOf, List.getD_eq_default _ _ past, testBit_nil]

/-- The file of a structure is read to its end, and gives back everything that was saved. -/
theorem checkpointFile_roundTrip [Zero D] [NatCast D] (codec : Codec D B) (options : Options D)
    (rank clientRank tempSize : Nat) (disk : Disk B) (field : MelissaField D)
    (data : MelissaData D) (entry : field.statsData[clientRank]? = some data)
    (positive : 0 < data.vectSize) (sized : WellSized codec options data)
    (restart : options.restart = 1) :
    ∃ file back,
      applyOps disk ((saveStats codec options rank field).flatMap writeFile)
        (fileName field.name rank clientRank) = some file ∧
      readData codec tempSize options (melissaInitData options emptyData data.vectSize) file =
        some (back, []) ∧
      readSavedStats codec tempSize options rank
        (applyOps disk ((saveStats codec options rank field).flatMap writeFile)) field.name
        clientRank (melissaInitData options emptyData data.vectSize) = some back ∧
      SameSaved options data back := by
  have written : applyOps disk ((saveStats codec options rank field).flatMap writeFile)
      (fileName field.name rank clientRank) = some (saveData codec options data).flatten :=
    applyOps_files_mem (saveStats_nodup codec options rank field) (mem_saveStats entry)
  have read := readsAll_saveData sized positive restart tempSize
  refine ⟨_, restored options data, written, read, ?_, sameSaved_restored options data⟩
  rw [readSavedStats, written]
  exact congrArg (Option.map Prod.fst) read

section Example

/-- Every operation, one time step, one threshold, one quantile and two parameters. -/
def everyOperation : Options (BitVec 64) :=
  { nbTimeSteps := 1, nbParameters := 2, samplingSize := 2, meanOp := true, varianceOp := true
    skewnessOp := true, kurtosisOp := true, minAndMaxOp := true, thresholdOp := true
    quantileOp := true, sobolOp := true, threshold := [5], quantileOrder := [1], learning := 0
    restart := 1, checkInterval := 5, timeoutSimu := 5 }

private def savedStructure : MelissaData (BitVec 64) :=
  { melissaInitData everyOperation emptyData 1 with
    moments := [⟨[3], [9], [27], [81], [], [], [], 1, 4⟩]
    minMax := [⟨[3], [3], [0], [0], true⟩]
    thresholds := [[⟨[1], 5⟩]]
    quantiles := [[⟨[3], 1, 1⟩]]
    stepSimu := [[1#32], [0#32], [1#32]] }

private theorem savedStructure_sized :
    WellSized machineCodec everyOperation savedStructure where
  fits := by decide
  moments := rfl
  momentsSized := by
    intro moments member
    rw [List.mem_singleton.mp member]
    exact ⟨rfl, rfl, rfl, rfl, rfl, by decide, by decide⟩
  minMax := rfl
  minMaxSized := by
    intro minMax member
    rw [List.mem_singleton.mp member]
    exact ⟨rfl, rfl, rfl, rfl, by decide, by decide, by decide⟩
  thresholds := rfl
  thresholdsSized := by
    intro row member
    rw [List.mem_singleton.mp member]
    refine ⟨rfl, ?_⟩
    intro threshold member'
    rw [List.mem_singleton.mp member']
    exact ⟨rfl, by decide⟩
  quantiles := rfl
  quantilesSized := by
    intro row member
    rw [List.mem_singleton.mp member]
    refine ⟨rfl, ?_⟩
    intro quantile member'
    rw [List.mem_singleton.mp member']
    exact ⟨rfl, by decide⟩
  sobolIndices := rfl
  sobolSized := by
    intro sobolArray member
    rw [List.eq_of_mem_replicate member]
    have variance : (initVariance (D := BitVec 64) 1).Sized machineCodec 1 :=
      ⟨rfl, rfl, by decide⟩
    refine ⟨rfl, ?_, variance, variance, by decide⟩
    intro martinez member'
    rw [List.eq_of_mem_replicate member']
    exact ⟨rfl, rfl, variance, rfl, rfl⟩
  steps := by decide
  stepsFit := by decide

theorem checkpointFile_roundTrip_machine :
    ∃ file back,
      applyOps (fun _ => none)
        ((saveStats machineCodec everyOperation 0 ⟨"heat", [savedStructure]⟩).flatMap writeFile)
        (fileName "heat" 0 0) = some file ∧
      readData machineCodec 0 everyOperation (melissaInitData everyOperation emptyData 1) file =
        some (back, []) ∧
      readSavedStats machineCodec 0 everyOperation 0
        (applyOps (fun _ => none)
          ((saveStats machineCodec everyOperation 0 ⟨"heat", [savedStructure]⟩).flatMap writeFile))
        "heat" 0 (melissaInitData everyOperation emptyData 1) = some back ∧
      SameSaved everyOperation savedStructure back :=
  checkpointFile_roundTrip machineCodec everyOperation 0 0 0 (fun _ => none)
    ⟨"heat", [savedStructure]⟩ savedStructure rfl (by decide) savedStructure_sized rfl

end Example

end Melissa
