import Melissa.Io.Sized
import Melissa.Server.EntryHistory

/-! One structure of the server over several lives: what a restart forgets of its statistics, and
the structure as the record of the messages computed in this life and saved by earlier ones. -/

namespace Melissa

open Arrays Files

section View

variable {D : Type} [Zero D]

/-- The statistics of a time step without what a restart forgets. -/
def keptStats (vectSize : Nat) (stats : StepStats D) : StepStats D :=
  { stats with moments := stats.moments.map (Moments.saved vectSize) }

/-- With a row for every simulation nothing is added. -/
theorem stepSimu_restored {options : Options D} {nbSimu : Nat}
    (sample : options.samplingSize.toNat = nbSimu)
    {data : MelissaData D}
    (rows : StepsSized nbSimu options.nbTimeSteps data) :
    (restored options data).stepSimu = data.stepSimu := by
  simp [restored, sample, rows.1]

variable [Add D] [Sub D] [Mul D] [Div D] [NatCast D]

/-- The update does not read the central moments. -/
theorem saved_incrementMoments [Pow D ℕ] (vectSize : Nat) (moments : Moments D) (inVect : List D) :
    (incrementMoments (moments.saved vectSize) inVect vectSize).saved vectSize =
      (incrementMoments moments inVect vectSize).saved vectSize := by
  unfold incrementMoments
  by_cases none_kept : moments.maxOrder < 1
  · have none_kept' : (moments.saved vectSize).maxOrder < 1 := none_kept
    rw [if_pos none_kept, if_pos none_kept']
    rfl
  · have kept' : ¬ (moments.saved vectSize).maxOrder < 1 := none_kept
    rw [if_neg none_kept, if_neg kept']
    rfl

variable [IntCast D] [Pow D ℕ] [LT D] [DecidableLT D] [LE D] [DecidableLE D] [Libm D]

theorem keptStats_updateVector (options : Options D) (vectSize simuId : Nat) (inVect : List D)
    (stats : StepStats D) :
    keptStats vectSize (updateVector options vectSize simuId inVect (keptStats vectSize stats)) =
      keptStats vectSize (updateVector options vectSize simuId inVect stats) := by
  have moments : ((stats.moments.map (Moments.saved vectSize)).map fun moments =>
        incrementMoments moments inVect vectSize).map (Moments.saved vectSize) =
      (stats.moments.map fun moments =>
        incrementMoments moments inVect vectSize).map (Moments.saved vectSize) := by
    cases stats.moments with
    | none => rfl
    | some moments => exact congrArg some (saved_incrementMoments vectSize moments inVect)
  simp only [keptStats, updateVector, moments]

/-- What is kept after a message depends on what was kept before it. -/
theorem keptStats_contribute (options : Options D) (vectSize : Nat) (m : SimuData D)
    {stats stats' : StepStats D} (same : keptStats vectSize stats = keptStats vectSize stats') :
    keptStats vectSize (contribute options vectSize stats m) =
      keptStats vectSize (contribute options vectSize stats' m) := by
  have through (simuId : Nat) (inVect : List D) {stats stats' : StepStats D}
      (same : keptStats vectSize stats = keptStats vectSize stats') :
      keptStats vectSize (updateVector options vectSize simuId inVect stats) =
        keptStats vectSize (updateVector options vectSize simuId inVect stats') := by
    rw [← keptStats_updateVector, same, keptStats_updateVector]
  have sobol (inVectTab : List (List D)) {stats stats' : StepStats D}
      (same : keptStats vectSize stats = keptStats vectSize stats') :
      keptStats vectSize (updateSobol vectSize inVectTab stats) =
        keptStats vectSize (updateSobol vectSize inVectTab stats') := by
    have forgets (stats : StepStats D) :
        keptStats vectSize (updateSobol vectSize inVectTab stats) =
          updateSobol vectSize inVectTab (keptStats vectSize stats) := rfl
    rw [forgets, forgets, same]
  unfold contribute updateStep
  dsimp only
  split
  · exact through _ _ (sobol _ (through _ _ same))
  · exact through _ _ same

end View

section Accumulate

variable {D : Type} [Zero D] [Add D] [Sub D] [Mul D] [Div D] [NatCast D] [IntCast D]
  [Pow D ℕ] [LT D] [DecidableLT D] [LE D] [DecidableLE D] [Libm D]

/-- A message with values changes the statistics of its time step if its bit was not set. -/
theorem stepStats_accumulate {options : Options D} {data updated : MelissaData D} {m : SimuData D}
    (positive : 0 < m.vectSize) (taken : accumulate options data m = some updated) (t : Nat) :
    stepStats updated t =
      if bitOf data m.simuId m.timeStamp.toNat = false ∧ t = m.timeStamp.toNat
        then contribute options data.vectSize (stepStats data t) m else stepStats data t := by
  obtain ⟨_, cases⟩ := accumulate_cases taken
  rcases cases with ⟨seen, rfl⟩ | ⟨unseen, computed, done, rfl⟩
  · rw [if_neg (by simp [seen])]
  · rw [computeMessage, if_pos positive] at done
    have marked : stepStats (markStep computed m) t = stepStats computed t := rfl
    rw [marked, stepStats_computeStats done]
    simp only [unseen, true_and]
    rfl

/-- A structure with statistics, as the record of the messages `past`. -/
structure Replay {B : Type} (codec : Codec D B) (options : Options D) (nbSimu vectSize : Nat)
    (past : List (SimuData D)) (data : MelissaData D) : Prop where
  stepsInit : data.stepsInit = true
  statsInit : data.statsInit = true
  size : data.vectSize = vectSize
  rows : StepsSized nbSimu options.nbTimeSteps data
  sized : WellSized codec options data
  bits : ∀ s t, t < options.nbTimeSteps →
    (bitOf data s t = true ↔ ∃ m ∈ past, m.simuId = s ∧ m.timeStamp = (t : Int))
  stats : ∀ t < options.nbTimeSteps, keptStats vectSize (stepStats data t) =
    keptStats vectSize ((firstMessages past t).foldl (contribute options vectSize)
      (stepStats (melissaInitData options emptyData vectSize) t))

variable {B : Type} {codec : Codec D B} {options : Options D} {nbSimu vectSize : Nat}

theorem replay_melissaInitData (unbounded : ∀ n, codec.Fits n) (options : Options D)
    (sample : options.samplingSize.toNat = nbSimu) (positive : 0 < vectSize) :
    Replay codec options nbSimu vectSize [] (melissaInitData options emptyData vectSize) := by
  have records := records_melissaInitData options sample positive
  exact ⟨records.stepsInit, records.statsInit, records.size, records.sized,
    wellSized_melissaInitData unbounded options positive, records.bits,
    fun t below => congrArg (keptStats vectSize) (records.stats t below)⟩

/-- A restart loses nothing of the record. -/
theorem replay_restored (unbounded : ∀ n, codec.Fits n)
    (sample : options.samplingSize.toNat = nbSimu) {past : List (SimuData D)}
    {data : MelissaData D} (replay : Replay codec options nbSimu vectSize past data) :
    Replay codec options nbSimu vectSize past (restored options data) := by
  have full := stepSimu_restored sample replay.rows
  refine ⟨rfl, rfl, replay.size, ?_, wellSized_restored unbounded replay.sized, ?_, ?_⟩
  · rw [StepsSized, full]
    exact replay.rows
  · intro s t below
    rw [bitOf, full]
    exact replay.bits s t below
  · intro t below
    rw [← replay.stats t below]
    simp only [keptStats, stepStats, restored, replay.size, List.getElem?_map, Option.map_map]
    rfl

theorem replay_accumulate (unbounded : ∀ n, codec.Fits n) {past : List (SimuData D)}
    {data updated : MelissaData D} {m : SimuData D}
    (replay : Replay codec options nbSimu vectSize past data) (positive : 0 < m.vectSize)
    (valid : 0 ≤ m.timeStamp) (below : m.timeStamp.toNat < options.nbTimeSteps)
    (taken : accumulate options data m = some updated) :
    Replay codec options nbSimu vectSize (past ++ [m]) updated := by
  obtain ⟨stepsInit, statsInit, size, _, rows, bits⟩ := accumulate_bits replay.rows below taken
  refine ⟨stepsInit.trans replay.stepsInit, statsInit.trans replay.statsInit,
    size.trans replay.size, rows, wellSized_accumulate unbounded replay.sized taken, ?_, ?_⟩
  · intro s t inside
    rw [bits, bits_concat valid, ← replay.bits s t inside]
    simp only [Bool.or_eq_true, decide_eq_true_eq]
  · intro t inside
    rw [stepStats_accumulate positive taken]
    by_cases here : m.timeStamp = (t : Int)
    · have same : t = m.timeStamp.toNat := by omega
      subst same
      have own := replay.bits m.simuId m.timeStamp.toNat inside
      cases seen : bitOf data m.simuId m.timeStamp.toNat with
      | true =>
          rw [if_neg (by simp), firstMessages_old here (own.mp seen)]
          exact replay.stats _ inside
      | false =>
          have fresh : ¬ ∃ m' ∈ past, m'.simuId = m.simuId ∧
              m'.timeStamp = (m.timeStamp.toNat : Int) := by
            rw [← own, seen]
            decide
          rw [if_pos ⟨rfl, rfl⟩, firstMessages_new here fresh, List.foldl_append, replay.size]
          exact keptStats_contribute options vectSize m (replay.stats _ inside)
    · have other : t ≠ m.timeStamp.toNat := by omega
      rw [if_neg fun both => other both.2, firstMessages_other here]
      exact replay.stats t inside

end Accumulate

end Melissa
