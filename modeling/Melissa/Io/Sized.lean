import Melissa.Io.Checkpoint
import Melissa.Server.Entry

/-! The sizes a checkpoint relies on are those `melissa_init_data` allocates, and no message
changes them. -/

namespace Melissa

open Arrays

variable {D B : Type} {codec : Codec D B}

section Statistics

variable [Zero D] {vectSize : Nat}

theorem sized_initMoments (unbounded : ∀ n, codec.Fits n) (vectSize maxOrder : Nat) :
    (initMoments (D := D) vectSize maxOrder).Sized codec vectSize maxOrder := by
  refine ⟨rfl, ?_, ?_, ?_, ?_, unbounded _, unbounded _⟩
  · simp only [initMoments]
    split <;> simp
  · simp only [initMoments]
    split <;> simp
  · simp only [initMoments]
    split <;> simp
  · simp only [initMoments]
    split <;> simp

theorem sized_initMinMax (unbounded : ∀ n, codec.Fits n) (vectSize : Nat) :
    (initMinMax (D := D) vectSize).Sized codec vectSize :=
  ⟨by simp [initMinMax], by simp [initMinMax], by simp [initMinMax], by simp [initMinMax],
    fun _ _ => unbounded _, fun _ _ => unbounded _, unbounded _⟩

theorem sized_initVariance (unbounded : ∀ n, codec.Fits n) (vectSize : Nat) :
    (initVariance (D := D) vectSize).Sized codec vectSize :=
  ⟨by simp [initVariance], by simp [initVariance, initMean], unbounded _⟩

theorem sized_initSobolMartinez [NatCast D] (unbounded : ∀ n, codec.Fits n)
    (nbParameters vectSize : Nat) :
    (initSobolMartinez (D := D) nbParameters vectSize).Sized codec nbParameters vectSize := by
  refine ⟨by simp [initSobolMartinez], ?_, sized_initVariance unbounded _,
    sized_initVariance unbounded _, unbounded _⟩
  intro martinez member
  rw [List.eq_of_mem_replicate member]
  exact ⟨by simp, by simp, sized_initVariance unbounded _, by simp, by simp⟩

theorem sized_minAndMax [LT D] [DecidableLT D] {minMax : MinMax D}
    (unbounded : ∀ n, codec.Fits n) (sized : minMax.Sized codec vectSize) (inVect : List D)
    (simuId : Nat) : (minAndMax minMax inVect simuId vectSize).Sized codec vectSize := by
  obtain ⟨min, max, minId, maxId, _, _, _⟩ := sized
  unfold minAndMax
  split
  · exact ⟨overwrite_length min _, overwrite_length max _, minId, maxId, fun _ _ => unbounded _,
      fun _ _ => unbounded _, unbounded _⟩
  · exact ⟨overwrite_length min _, overwrite_length max _, overwrite_length minId _,
      overwrite_length maxId _, fun _ _ => unbounded _, fun _ _ => unbounded _, unbounded _⟩

theorem sized_updateThreshold [LT D] [DecidableLT D] {threshold : Threshold D}
    (unbounded : ∀ n, codec.Fits n) (sized : threshold.Sized codec vectSize) (inVect : List D) :
    (updateThresholdExceedance threshold inVect vectSize).Sized codec vectSize :=
  ⟨overwrite_length sized.counters _, fun _ _ => unbounded _⟩

variable [Add D] [Sub D] [Div D] [NatCast D]

theorem length_incrementMoments [Pow D ℕ] {maxOrder power increment : Nat} {old inVect : List D}
    (size : old.length = if maxOrder > power then vectSize else 0) :
    (if maxOrder ≥ power + 1
      then incrementMomentsMean old inVect vectSize increment (power + 1) else old).length =
      if maxOrder > power then vectSize else 0 := by
  by_cases enough : maxOrder ≥ power + 1
  · have more : maxOrder > power := enough
    rw [if_pos more] at size ⊢
    rw [if_pos enough]
    exact overwrite_length size _
  · rw [if_neg enough]
    exact size

variable [Mul D]

theorem sized_incrementMoments [Pow D ℕ] {maxOrder : Nat} {moments : Moments D}
    (unbounded : ∀ n, codec.Fits n) (sized : moments.Sized codec vectSize maxOrder)
    (inVect : List D) :
    (incrementMoments moments inVect vectSize).Sized codec vectSize maxOrder := by
  obtain ⟨rfl, m1, m2, m3, m4, fitsOrder, _⟩ := sized
  unfold incrementMoments
  by_cases none_kept : moments.maxOrder < 1
  · simp only [if_pos none_kept]
    exact ⟨rfl, m1, m2, m3, m4, fitsOrder, unbounded _⟩
  · simp only [if_neg none_kept]
    exact ⟨rfl, length_incrementMoments m1, length_incrementMoments m2, length_incrementMoments m3,
      length_incrementMoments m4, fitsOrder, unbounded _⟩

theorem sized_incrementQuantile [IntCast D] [LE D] [DecidableLE D] [Libm D] {quantile : Quantile D}
    (unbounded : ∀ n, codec.Fits n) (sized : quantile.Sized codec vectSize) (nmax : Int)
    (inVect : List D) :
    (incrementQuantile quantile nmax inVect vectSize).Sized codec vectSize := by
  unfold incrementQuantile
  simp only
  split
  · exact ⟨overwrite_length sized.values _, unbounded _⟩
  · exact ⟨overwrite_length sized.values _, unbounded _⟩

theorem sized_incrementVariance {variance : Variance D} (unbounded : ∀ n, codec.Fits n)
    (sized : variance.Sized codec vectSize) (inVect : List D) :
    (incrementVariance variance inVect vectSize).Sized codec vectSize := by
  unfold incrementVariance incrementMeanAndVariance
  simp only
  split
  · exact ⟨overwrite_length sized.values _, overwrite_length sized.mean _, unbounded _⟩
  · exact ⟨sized.values, overwrite_length sized.mean _, unbounded _⟩

theorem length_incrementSobolCovariance {covariance : List D}
    (size : covariance.length = vectSize) (inVect1 inVect2 mean1 mean2 : List D)
    (increment : Nat) :
    (incrementSobolCovariance covariance inVect1 inVect2 mean1 mean2 vectSize increment).length =
      vectSize := by
  unfold incrementSobolCovariance
  simp only
  split
  · exact overwrite_length size _
  · exact size

variable [LT D] [DecidableLT D] [Libm D]

theorem sized_incrementMartinez {martinez : SobolMartinez D} (unbounded : ∀ n, codec.Fits n)
    (sized : martinez.Sized codec vectSize) (vectA vectB vectK : List D)
    (varianceA varianceB : Variance D) (iteration : Nat) :
    (incrementMartinezParameter vectA vectB vectK varianceA varianceB vectSize iteration
      martinez).Sized codec vectSize :=
  ⟨length_incrementSobolCovariance sized.firstCovariance _ _ _ _ _,
    length_incrementSobolCovariance sized.totalCovariance _ _ _ _ _,
    sized_incrementVariance unbounded sized.varianceK _,
    overwrite_length sized.firstValues _, overwrite_length sized.totalValues _⟩

theorem sized_incrementSobol {nbParameters : Nat} {sobolArray : SobolArray D}
    (unbounded : ∀ n, codec.Fits n) (sized : sobolArray.Sized codec nbParameters vectSize)
    (inVectTab : List (List D)) :
    (incrementSobolMartinez sobolArray inVectTab vectSize).Sized codec nbParameters vectSize := by
  refine ⟨by simp [incrementSobolMartinez, sized.parameters], ?_,
    sized_incrementVariance unbounded sized.varianceA _,
    sized_incrementVariance unbounded sized.varianceB _, unbounded _⟩
  intro martinez member
  obtain ⟨i, inside, rfl⟩ := List.mem_mapIdx.mp member
  exact sized_incrementMartinez unbounded (sized.martinez _ (List.getElem_mem inside)) _ _ _ _ _ _

end Statistics

section Data

theorem eq_of_mem_perStep {α : Type} {op : Bool} {n : Nat} {init item : α}
    (member : item ∈ if op then List.replicate n init else []) : item = init := by
  cases op with
  | true => exact List.eq_of_mem_replicate member
  | false => cases member

/-- A structure keeps its sizes when its arrays keep them one by one. -/
theorem wellSized_melissaInitData [Zero D] [NatCast D] (unbounded : ∀ n, codec.Fits n)
    (options : Options D) {vectSize : Nat} (positive : 0 < vectSize) :
    WellSized codec options (melissaInitData options emptyData vectSize) := by
  have number {α : Type} (op : Bool) (init : α) :
      (if op then List.replicate options.nbTimeSteps init else []).length =
        if op then options.nbTimeSteps else 0 := by
    cases op <;> simp
  rw [melissaInitData_eq options positive]
  refine ⟨unbounded _, by simp, ?_, number _ _, ?_, number _ _, ?_, number _ _, ?_, number _ _,
    ?_, ?_, unbounded _⟩
  · intro moments member
    rw [List.eq_of_mem_replicate member]
    exact sized_initMoments unbounded _ _
  · intro minMax member
    rw [eq_of_mem_perStep member]
    exact sized_initMinMax unbounded _
  · intro row member
    rw [eq_of_mem_perStep member]
    refine ⟨by simp, ?_⟩
    intro threshold member'
    obtain ⟨value, _, rfl⟩ := List.mem_map.mp member'
    exact ⟨by simp [initThreshold], fun _ _ => unbounded _⟩
  · intro row member
    rw [eq_of_mem_perStep member]
    refine ⟨by simp, ?_⟩
    intro quantile member'
    obtain ⟨alpha, _, rfl⟩ := List.mem_map.mp member'
    exact ⟨by simp [initQuantile], unbounded _⟩
  · intro sobolArray member
    rw [eq_of_mem_perStep member]
    exact sized_initSobolMartinez unbounded _ _
  · intro bits member
    rw [List.eq_of_mem_replicate member]
    simp [noSteps]

/-- Nor does a restart. -/
theorem wellSized_restored [Zero D] {options : Options D} {data : MelissaData D}
    (unbounded : ∀ n, codec.Fits n) (sized : WellSized codec options data) :
    WellSized codec options (restored options data) := by
  refine ⟨sized.fits, by rw [restored, List.length_map, sized.moments], ?_, sized.minMax,
    sized.minMaxSized, sized.thresholds, sized.thresholdsSized, sized.quantiles,
    sized.quantilesSized, sized.sobolIndices, sized.sobolSized, ?_, unbounded _⟩
  · intro moments member
    obtain ⟨before, member', rfl⟩ := List.mem_map.mp member
    obtain ⟨order, m1, m2, m3, m4, fitsOrder, fits⟩ := sized.momentsSized before member'
    exact ⟨order, m1, m2, m3, m4, fitsOrder, fits⟩
  · intro bits member
    rcases List.mem_append.mp member with kept | added
    · exact sized.steps bits kept
    · rw [List.eq_of_mem_replicate added]
      simp [noSteps]

variable [Zero D] [Add D] [Sub D] [Mul D] [Div D] [NatCast D] [IntCast D]
  [Pow D ℕ] [LT D] [DecidableLT D] [LE D] [DecidableLE D] [Libm D]
  {options : Options D} {data : MelissaData D}

theorem wellSized_computeVector (unbounded : ∀ n, codec.Fits n)
    (sized : WellSized codec options data) (timeStep simuId : Nat) (inVect : List D) :
    WellSized codec options (computeVector options timeStep simuId inVect data) := by
  refine ⟨sized.fits, by simp [computeVector, sized.moments], ?_, ?_, ?_, ?_, ?_, ?_, ?_,
    sized.sobolIndices, sized.sobolSized, sized.steps, sized.stepsFit⟩
  · exact forall_modify sized.momentsSized
      (fun moments old => sized_incrementMoments unbounded old inVect) timeStep
  · simp only [computeVector]
    rw [← sized.minMax]
    split <;> simp
  · simp only [computeVector]
    split
    · exact forall_modify sized.minMaxSized
        (fun minMax old => sized_minAndMax unbounded old inVect simuId) timeStep
    · exact sized.minMaxSized
  · simp only [computeVector]
    rw [← sized.thresholds]
    split <;> simp
  · simp only [computeVector]
    split
    · refine forall_modify sized.thresholdsSized ?_ timeStep
      intro row old
      refine ⟨by rw [List.length_map, old.1], ?_⟩
      intro threshold member
      obtain ⟨before, member', rfl⟩ := List.mem_map.mp member
      exact sized_updateThreshold unbounded (old.2 before member') inVect
    · exact sized.thresholdsSized
  · simp only [computeVector]
    rw [← sized.quantiles]
    split <;> simp
  · simp only [computeVector]
    split
    · refine forall_modify sized.quantilesSized ?_ timeStep
      intro row old
      refine ⟨by rw [List.length_map, old.1], ?_⟩
      intro quantile member
      obtain ⟨before, member', rfl⟩ := List.mem_map.mp member
      exact sized_incrementQuantile unbounded (old.2 before member') _ inVect
    · exact sized.quantilesSized

theorem wellSized_computeStats {data' : MelissaData D} (unbounded : ∀ n, codec.Fits n)
    (sized : WellSized codec options data) {timeStep simuId : Nat} {inVectTab : List (List D)}
    (computed : computeStats options data timeStep simuId inVectTab = some data') :
    WellSized codec options data' := by
  have vector := wellSized_computeVector unbounded sized timeStep simuId (inVectTab.getD 0 [])
  unfold computeStats at computed
  split at computed
  · cases computed
  · split at computed
    · cases computed
    · cases sobol : options.sobolOp with
      | false =>
          simp only [sobol, Bool.false_eq_true, if_false, Option.some.injEq] at computed
          rw [← computed]
          exact vector
      | true =>
          simp only [sobol, if_true] at computed
          split at computed
          · cases computed
          · cases computed
            apply wellSized_computeVector unbounded
            refine ⟨vector.fits, vector.moments, vector.momentsSized, vector.minMax,
              vector.minMaxSized, vector.thresholds, vector.thresholdsSized, vector.quantiles,
              vector.quantilesSized, ?_, ?_, vector.steps, vector.stepsFit⟩
            · rw [← vector.sobolIndices]
              simp [computeSobol]
            · exact forall_modify vector.sobolSized
                (fun sobolArray old => sized_incrementSobol unbounded old inVectTab) timeStep

theorem wellSized_accumulate {data' : MelissaData D} {m : SimuData D}
    (unbounded : ∀ n, codec.Fits n) (sized : WellSized codec options data)
    (taken : accumulate options data m = some data') : WellSized codec options data' := by
  obtain ⟨_, cases⟩ := accumulate_cases taken
  rcases cases with ⟨_, rfl⟩ | ⟨_, computed, done, rfl⟩
  · exact sized
  · have computedSized : WellSized codec options computed := by
      unfold computeMessage at done
      split at done
      · exact wellSized_computeStats unbounded sized done
      · cases done
        exact sized
    obtain ⟨fits, moments, momentsSized, minMax, minMaxSized, thresholds, thresholdsSized,
      quantiles, quantilesSized, sobolIndices, sobolSized, steps, _⟩ := computedSized
    refine ⟨fits, moments, momentsSized, minMax, minMaxSized, thresholds, thresholdsSized,
      quantiles, quantilesSized, sobolIndices, sobolSized, ?_, unbounded _⟩
    have marked (bits : List Word) (old : bits.length = nbWords options.nbTimeSteps) :
        (setBit bits m.timeStamp.toNat).length = nbWords options.nbTimeSteps := by
      rw [setBit_length, old]
    exact forall_modify steps marked m.simuId

end Data

end Melissa
