import Melissa.Base.FirstSeen
import Melissa.Server.Entry
import Melissa.StepStats

/-! One structure of the server as the record of the messages it has received: every first
message of a simulation and time step is computed once, repetitions are not. -/

namespace Melissa

open FirstSeen

section Messages

variable {D : Type}

def atStep (timeStep : Nat) (m : SimuData D) : Bool := m.timeStamp == (timeStep : Int)

/-- The first message of each simulation for a time step. -/
def firstMessages (past : List (SimuData D)) (timeStep : Nat) : List (SimuData D) :=
  firsts SimuData.simuId (past.filter (atStep timeStep))

/-- A message as `melissa_send` produces it for a structure with `vectSize` elements. -/
structure Sendable (options : Options D) (nbSimu vectSize : Nat) (m : SimuData D) : Prop where
  valid : 0 ≤ m.timeStamp
  below : m.timeStamp.toNat < options.nbTimeSteps
  inside : m.simuId < nbSimu
  size : m.vectSize = vectSize
  positive : 0 < m.vectSize
  values : m.data.length = options.nbVect * m.vectSize

theorem inVectTab_length (options : Options D) (m : SimuData D) :
    (inVectTab options m).length = options.nbVect := by
  simp [inVectTab]

theorem inVectTab_long {options : Options D} {nbSimu vectSize : Nat} {m : SimuData D}
    (sendable : Sendable options nbSimu vectSize m) :
    ∀ vect ∈ inVectTab options m, vectSize ≤ vect.length := by
  intro vect member
  obtain ⟨i, inside, rfl⟩ := List.mem_map.mp member
  rw [List.mem_range] at inside
  rw [List.length_drop, sendable.values, sendable.size, ← Nat.sub_mul]
  have one : 1 ≤ options.nbVect - i := by omega
  exact Nat.le_mul_of_pos_left vectSize one

theorem firstMessages_other {past : List (SimuData D)} {m : SimuData D} {t : Nat}
    (other : m.timeStamp ≠ (t : Int)) : firstMessages (past ++ [m]) t = firstMessages past t := by
  simp [firstMessages, List.filter_append, atStep, other]

theorem firstMessages_old {past : List (SimuData D)} {m : SimuData D} {t : Nat}
    (here : m.timeStamp = (t : Int))
    (seen : ∃ m' ∈ past, m'.simuId = m.simuId ∧ m'.timeStamp = (t : Int)) :
    firstMessages (past ++ [m]) t = firstMessages past t := by
  have last : [m].filter (atStep t) = [m] := by simp [atStep, here]
  obtain ⟨m', member, simu, stamp⟩ := seen
  rw [firstMessages, List.filter_append, last]
  apply firsts_concat_old
  refine List.mem_map.mpr ⟨m', ?_, simu⟩
  exact List.mem_filter.mpr ⟨member, by simp [atStep, stamp]⟩

theorem firstMessages_new {past : List (SimuData D)} {m : SimuData D} {t : Nat}
    (here : m.timeStamp = (t : Int))
    (fresh : ¬ ∃ m' ∈ past, m'.simuId = m.simuId ∧ m'.timeStamp = (t : Int)) :
    firstMessages (past ++ [m]) t = firstMessages past t ++ [m] := by
  have last : [m].filter (atStep t) = [m] := by simp [atStep, here]
  rw [firstMessages, List.filter_append, last]
  apply firsts_concat_new
  intro member
  obtain ⟨m', kept, simu⟩ := List.mem_map.mp member
  obtain ⟨member', stamp⟩ := List.mem_filter.mp kept
  exact fresh ⟨m', member', simu, by simpa [atStep] using stamp⟩

theorem bits_concat {past : List (SimuData D)} {m : SimuData D} {s t : Nat}
    (valid : 0 ≤ m.timeStamp) :
    (∃ m' ∈ past ++ [m], m'.simuId = s ∧ m'.timeStamp = (t : Int)) ↔
      (s = m.simuId ∧ t = m.timeStamp.toNat) ∨
        ∃ m' ∈ past, m'.simuId = s ∧ m'.timeStamp = (t : Int) := by
  simp only [List.mem_append, List.mem_singleton, or_and_right, exists_or, exists_eq_left]
  rw [or_comm]
  refine or_congr_left ?_
  constructor
  · intro own
    exact ⟨own.1.symm, by omega⟩
  · intro own
    exact ⟨own.1.symm, by omega⟩

end Messages

section Records

variable {D : Type} [Zero D] [Add D] [Sub D] [Mul D] [Div D] [NatCast D] [IntCast D]
  [Pow D ℕ] [LT D] [DecidableLT D] [LE D] [DecidableLE D] [Libm D]

/-- The contribution of a message to the statistics of its time step. -/
def contribute (options : Options D) (vectSize : Nat) (stats : StepStats D) (m : SimuData D) :
    StepStats D :=
  updateStep options vectSize m.simuId (inVectTab options m) stats

/-- The structure after the messages `past`. -/
structure Records (options : Options D) (nbSimu vectSize : Nat) (past : List (SimuData D))
    (data : MelissaData D) : Prop where
  stepsInit : data.stepsInit = true
  statsInit : data.statsInit = true
  isValid : data.isValid = true
  size : data.vectSize = vectSize
  sized : StepsSized nbSimu options.nbTimeSteps data
  bits : ∀ s t, t < options.nbTimeSteps →
    (bitOf data s t = true ↔ ∃ m ∈ past, m.simuId = s ∧ m.timeStamp = (t : Int))
  stats : ∀ t < options.nbTimeSteps, stepStats data t =
    (firstMessages past t).foldl (contribute options vectSize)
      (stepStats (melissaInitData options emptyData vectSize) t)

theorem records_melissaInitData (options : Options D) {nbSimu vectSize : Nat}
    (sample : options.samplingSize.toNat = nbSimu) (positive : 0 < vectSize) :
    Records options nbSimu vectSize [] (melissaInitData options emptyData vectSize) := by
  obtain ⟨stepsInit, sized, bits⟩ := melissaInitData_ready
    (stepsReady_emptyData nbSimu options.nbTimeSteps) sample vectSize
  refine ⟨stepsInit, ?_, ?_, ?_, sized, ?_, ?_⟩
  · simp [melissaInitData, melissaAllocData, melissaInitSteps, emptyData, positive,
      Nat.ne_of_gt positive]
  · simp [melissaInitData, melissaAllocData, melissaInitSteps, emptyData, positive,
      Nat.ne_of_gt positive]
  · simp [melissaInitData, melissaAllocData, melissaInitSteps, emptyData, positive,
      Nat.ne_of_gt positive]
  · intro s t _
    simp [bits, bitOf_emptyData]
  · intro t _
    simp [firstMessages]

/-- A message is computed exactly when it is the first of its simulation and time step. -/
theorem accumulate_records {options : Options D} {nbSimu vectSize : Nat}
    {past : List (SimuData D)} {data : MelissaData D} {m : SimuData D}
    (records : Records options nbSimu vectSize past data)
    (sendable : Sendable options nbSimu vectSize m) :
    ∃ updated, accumulate options data m = some updated ∧
      Records options nbSimu vectSize (past ++ [m]) updated := by
  have inside : m.simuId < data.stepSimu.length := by
    rw [records.sized.1]
    exact sendable.inside
  have stamp : m.timeStamp = (m.timeStamp.toNat : Int) := by
    have := sendable.valid
    omega
  have own := records.bits m.simuId m.timeStamp.toNat sendable.below
  cases old : bitOf data m.simuId m.timeStamp.toNat with
  | true =>
      have taken : accumulate options data m = some data := accumulate_old inside old
      obtain ⟨_, _, _, _, sized, bits⟩ := accumulate_bits records.sized sendable.below taken
      refine ⟨data, taken, records.stepsInit, records.statsInit, records.isValid, records.size,
        sized, ?_, ?_⟩
      · intro s t below
        rw [bits, bits_concat sendable.valid, ← records.bits s t below]
        simp only [Bool.or_eq_true, decide_eq_true_eq]
      · intro t below
        rw [records.stats t below]
        by_cases here : m.timeStamp = (t : Int)
        · have same : m.timeStamp.toNat = t := by omega
          rw [firstMessages_old here (by rw [← same, ← own]; exact old)]
        · rw [firstMessages_other here]
  | false =>
      have fresh : ¬ ∃ m' ∈ past, m'.simuId = m.simuId ∧
          m'.timeStamp = (m.timeStamp.toNat : Int) := by
        rw [← own, old]
        decide
      obtain ⟨computed, done⟩ := computeStats_succeeds records.isValid
        (by rw [records.size]; exact inVectTab_long sendable) (inVectTab_length options m)
        m.timeStamp.toNat m.simuId
      have done' : computeMessage options data m = some computed := by
        rw [computeMessage, if_pos sendable.positive, done]
      have taken := accumulate_new inside old done'
      obtain ⟨stepsInit, statsInit, size, isValid, sized, bits⟩ :=
        accumulate_bits records.sized sendable.below taken
      refine ⟨markStep computed m, taken, stepsInit.trans records.stepsInit,
        statsInit.trans records.statsInit, isValid.trans records.isValid, size.trans records.size,
        sized, ?_, ?_⟩
      · intro s t below
        rw [bits, bits_concat sendable.valid, ← records.bits s t below]
        simp only [Bool.or_eq_true, decide_eq_true_eq]
      · intro t below
        have marked : stepStats (markStep computed m) t = stepStats computed t := rfl
        rw [marked, stepStats_computeStats done, records.stats t below, records.size]
        by_cases here : t = m.timeStamp.toNat
        · subst here
          rw [if_pos rfl, firstMessages_new stamp fresh, List.foldl_append]
          rfl
        · rw [if_neg here, firstMessages_other (by omega)]

/-- The first message of a structure starts from the initialised structure, the others from the
structure itself. -/
theorem receive_records {options : Options D} {nbSimu vectSize : Nat}
    {past : List (SimuData D)} {data : MelissaData D} {m : SimuData D}
    (restore : MelissaData D → Option (MelissaData D)) (first : options.restart = 0)
    (accepted : rejected options = false) (sample : options.samplingSize.toNat = nbSimu)
    (history : if past = [] then data = emptyData else Records options nbSimu vectSize past data)
    (sendable : Sendable options nbSimu vectSize m) :
    ∃ loaded updated, lazyInit restore options data m.vectSize = some loaded ∧
      accumulate options loaded m = some updated ∧
      Records options nbSimu vectSize (past ++ [m]) updated := by
  have load : ∃ loaded, lazyInit restore options data m.vectSize = some loaded ∧
      Records options nbSimu vectSize past loaded := by
    by_cases start : past = []
    · rw [if_pos start] at history
      subst start
      refine ⟨melissaInitData options emptyData vectSize, ?_,
        records_melissaInitData options sample (by rw [← sendable.size]; exact sendable.positive)⟩
      rw [lazyInit_accepted accepted, history, sendable.size,
        if_pos ⟨rfl, by rw [← sendable.size]; exact sendable.positive⟩, if_neg (by omega)]
    · rw [if_neg start] at history
      refine ⟨data, ?_, history⟩
      simp [lazyInit, history.statsInit, history.stepsInit]
  obtain ⟨loaded, load, records⟩ := load
  obtain ⟨updated, update, records'⟩ := accumulate_records records sendable
  exact ⟨loaded, updated, load, update, records'⟩

/-- `compute_stats` applied once to each message of a list, in order. -/
def computeAll (options : Options D) (data : MelissaData D) (messages : List (SimuData D)) :
    Option (MelissaData D) :=
  messages.foldlM (fun data m =>
    computeStats options data m.timeStamp.toNat m.simuId (inVectTab options m)) data

/-- On a valid structure that succeeds, and the statistics of every time step are those of its
messages alone. -/
theorem computeAll_eachStep {options : Options D} {nbSimu vectSize : Nat}
    {messages : List (SimuData D)} (sendable : ∀ m ∈ messages, Sendable options nbSimu vectSize m)
    (data : MelissaData D) (valid : data.isValid = true) (size : data.vectSize = vectSize) :
    ∃ data', computeAll options data messages = some data' ∧ data'.vectSize = vectSize ∧
      ∀ t, stepStats data' t =
        (messages.filter (atStep t)).foldl (contribute options vectSize) (stepStats data t) := by
  induction messages generalizing data with
  | nil => exact ⟨data, rfl, size, fun _ => rfl⟩
  | cons m rest ih =>
      have sent := sendable m List.mem_cons_self
      obtain ⟨next, done⟩ := computeStats_succeeds valid
        (by rw [size]; exact inVectTab_long sent) (inVectTab_length options m)
        m.timeStamp.toNat m.simuId
      obtain ⟨_, _, _, size', valid'⟩ := computeStats_frame done
      obtain ⟨data', onward, size'', stats⟩ := ih
        (fun m' member => sendable m' (List.mem_cons_of_mem _ member)) next (valid'.trans valid)
        (size'.trans size)
      refine ⟨data', ?_, size'', ?_⟩
      · rw [computeAll, List.foldlM_cons, done]
        exact onward
      · intro t
        have stamp := sent.valid
        rw [stats, stepStats_computeStats done]
        by_cases here : t = m.timeStamp.toNat
        · have own : atStep t m = true := by
            rw [atStep, beq_iff_eq]
            omega
          rw [if_pos here, List.filter_cons_of_pos own, List.foldl_cons, size]
          rfl
        · have other : ¬ atStep t m = true := by
            rw [atStep, beq_iff_eq]
            omega
          rw [if_neg here, List.filter_cons_of_neg other]

theorem computeAll_stepStats {options : Options D} {nbSimu vectSize : Nat} {t : Nat}
    {messages : List (SimuData D)}
    (sendable : ∀ m ∈ messages, Sendable options nbSimu vectSize m ∧ m.timeStamp = (t : Int))
    (data : MelissaData D) (valid : data.isValid = true) (size : data.vectSize = vectSize) :
    ∃ data', computeAll options data messages = some data' ∧
      stepStats data' t = messages.foldl (contribute options vectSize) (stepStats data t) := by
  obtain ⟨data', computed, _, stats⟩ :=
    computeAll_eachStep (fun m member => (sendable m member).1) data valid size
  have all : messages.filter (atStep t) = messages := by
    apply List.filter_eq_self.mpr
    intro m member
    rw [atStep, beq_iff_eq]
    exact (sendable m member).2
  refine ⟨data', computed, ?_⟩
  rw [stats, all]

end Records

end Melissa
