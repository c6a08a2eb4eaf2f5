import Melissa.Server.Spec

/-! One structure of the server under its messages: the flags, the bits of the time steps and
what stays as it is. -/

namespace Melissa

section Bits

variable {D : Type}

/-- Bit `timeStep` of `step_simu[simuId]`. -/
def bitOf (data : MelissaData D) (simuId timeStep : Nat) : Bool :=
  testBit (data.stepSimu.getD simuId []) timeStep

/-- One array of bits per simulation, each with room for every time step. -/
def StepsSized (nbSimu nbTimeSteps : Nat) (data : MelissaData D) : Prop :=
  data.stepSimu.length = nbSimu ∧ ∀ bits ∈ data.stepSimu, bits.length = nbWords nbTimeSteps

/-- The state of `step_simu` between messages. -/
def StepsReady (nbSimu nbTimeSteps : Nat) (data : MelissaData D) : Prop :=
  if data.stepsInit then StepsSized nbSimu nbTimeSteps data else data.stepSimu = []

theorem stepsReady_emptyData (nbSimu nbTimeSteps : Nat) :
    StepsReady nbSimu nbTimeSteps (emptyData : MelissaData D) := rfl

theorem bitOf_emptyData (simuId timeStep : Nat) :
    bitOf (emptyData : MelissaData D) simuId timeStep = false := by
  simp [bitOf, emptyData]

theorem stepsSized_of_ready {nbSimu nbTimeSteps : Nat} {data : MelissaData D}
    (ready : StepsReady nbSimu nbTimeSteps data) (initialised : data.stepsInit = true) :
    StepsSized nbSimu nbTimeSteps data := by
  simpa [StepsReady, initialised] using ready

theorem stepsReady_of_sized {nbSimu nbTimeSteps : Nat} {data : MelissaData D}
    (sized : StepsSized nbSimu nbTimeSteps data) (initialised : data.stepsInit = true) :
    StepsReady nbSimu nbTimeSteps data := by
  simpa [StepsReady, initialised] using sized

theorem getD_stepSimu_length {nbSimu nbTimeSteps simuId : Nat} {data : MelissaData D}
    (sized : StepsSized nbSimu nbTimeSteps data) (inside : simuId < nbSimu) :
    (data.stepSimu.getD simuId []).length = nbWords nbTimeSteps := by
  obtain ⟨length, rows⟩ := sized
  have bound : simuId < data.stepSimu.length := by omega
  rw [List.getD_eq_getElem _ _ bound]
  exact rows _ (List.getElem_mem bound)

/-- `bitOf` after the `set_bit` of `melissa_server_run`. -/
theorem testBit_modify_setBit {nbSimu nbTimeSteps simuId timeStep : Nat} {data : MelissaData D}
    (sized : StepsSized nbSimu nbTimeSteps data) (inside : simuId < nbSimu)
    (valid : timeStep < nbTimeSteps) (s t : Nat) :
    testBit ((data.stepSimu.modify simuId fun bits => setBit bits timeStep).getD s []) t =
      (decide (s = simuId ∧ t = timeStep) || bitOf data s t) := by
  have bound : simuId < data.stepSimu.length := by
    have := sized.1
    omega
  have allocated : timeStep / 32 < (data.stepSimu.getD simuId []).length := by
    rw [getD_stepSimu_length sized inside]
    exact word_inside valid
  by_cases here : s = simuId
  · subst here
    have row : (data.stepSimu.modify s fun bits => setBit bits timeStep).getD s [] =
        setBit (data.stepSimu.getD s []) timeStep := by
      simp [List.getD_eq_getElem?_getD, bound]
    rw [row, testBit_setBit allocated]
    simp [bitOf]
  · have row : (data.stepSimu.modify simuId fun bits => setBit bits timeStep).getD s [] =
        data.stepSimu.getD s [] := by
      simp [List.getD_eq_getElem?_getD, Ne.symm here]
    rw [row]
    simp [bitOf, here]

theorem stepsSized_modify_setBit {nbSimu nbTimeSteps : Nat} {data : MelissaData D}
    (sized : StepsSized nbSimu nbTimeSteps data) (simuId timeStep : Nat) :
    StepsSized nbSimu nbTimeSteps { data with
      stepSimu := data.stepSimu.modify simuId fun bits => setBit bits timeStep } := by
  obtain ⟨length, rows⟩ := sized
  refine ⟨by simp [length], ?_⟩
  intro bits member
  obtain ⟨i, inside, rfl⟩ := List.mem_iff_getElem.mp member
  have bound : i < data.stepSimu.length := by simpa using inside
  rw [List.getElem_modify]
  split
  · rw [setBit_length]
    exact rows _ (List.getElem_mem bound)
  · exact rows _ (List.getElem_mem bound)

theorem entryComplete_iff {nbSimu nbTimeSteps groupId : Nat} {data : MelissaData D}
    (ready : StepsReady nbSimu nbTimeSteps data) (inside : groupId < nbSimu) :
    entryComplete nbTimeSteps groupId data ↔
      (data.stepsInit = true → ∀ t < nbTimeSteps, bitOf data groupId t = true) := by
  refine forall_congr' fun initialised => ?_
  obtain ⟨length, _⟩ := stepsSized_of_ready ready initialised
  have bound : groupId < data.stepSimu.length := by omega
  simp [allSteps, bitOf, bound]

end Bits

section Init

variable {D : Type}

theorem melissaInitSteps_ready {nbSimu : Nat} {options : Options D} {data : MelissaData D}
    (ready : StepsReady nbSimu options.nbTimeSteps data)
    (sample : options.samplingSize.toNat = nbSimu) :
    (melissaInitSteps options data).stepsInit = true ∧
      StepsSized nbSimu options.nbTimeSteps (melissaInitSteps options data) ∧
      ∀ s t, bitOf (melissaInitSteps options data) s t = bitOf data s t := by
  cases initialised : data.stepsInit with
  | true =>
      have same : melissaInitSteps options data = data := by simp [melissaInitSteps, initialised]
      rw [same]
      exact ⟨initialised, stepsSized_of_ready ready initialised, fun _ _ => rfl⟩
  | false =>
      have fresh : data.stepSimu = [] := by simpa [StepsReady, initialised] using ready
      simp only [melissaInitSteps, initialised, if_true]
      refine ⟨trivial, ⟨by simp [sample], ?_⟩, ?_⟩
      · intro bits member
        rw [List.eq_of_mem_replicate member]
        simp [noSteps]
      · intro s t
        simp only [bitOf, fresh, List.getD_nil, testBit_nil]
        by_cases inside : s < options.samplingSize.toNat
        · simp [List.getD_eq_getElem?_getD, inside, noSteps]
        · have beyond :
              (List.replicate options.samplingSize.toNat (noSteps options)).length ≤ s := by
            simpa using inside
          simp [List.getD_eq_getElem?_getD, List.getElem?_eq_none beyond]

theorem melissaCheckData_accepted {options : Options D} (accepted : rejected options = false)
    (data : MelissaData D) : ∃ checked, melissaCheckData options data = some checked := by
  unfold melissaCheckData
  split
  · exact ⟨data, rfl⟩
  · cases check : melissaCheckOptions options with
    | none =>
        rw [melissaCheckOptions_eq_none.mp check] at accepted
        cases accepted
    | some checked => exact ⟨_, rfl⟩

variable [Zero D] [NatCast D]

/-- `melissa_init_data` touches `step_simu` as `melissa_init_steps` does. -/
theorem melissaInitData_steps (options : Options D) (data : MelissaData D) (vectSize : Nat) :
    (melissaInitData options data vectSize).stepsInit =
        (melissaInitSteps options data).stepsInit ∧
      (melissaInitData options data vectSize).stepSimu =
        (melissaInitSteps options data).stepSimu := by
  simp only [melissaInitData, melissaAllocData, melissaInitSteps]
  cases initialised : data.stepsInit with
  | true => split <;> simp [apply_ite, initialised]
  | false => split <;> simp [apply_ite]

theorem melissaInitData_zero (options : Options D) (data : MelissaData D) :
    (melissaInitData options data 0).vectSize = 0 ∧
      (melissaInitData options data 0).statsInit = data.statsInit := by
  unfold melissaInitData melissaInitSteps
  rw [if_neg (Nat.lt_irrefl 0)]
  split
  · exact ⟨rfl, rfl⟩
  · exact ⟨rfl, rfl⟩

theorem melissaCheckData_passed {options : Options D} {data checked : MelissaData D}
    (passed : melissaCheckData options data = some checked) (vectSize : Nat) :
    melissaInitData options checked vectSize = melissaInitData options data vectSize := by
  unfold melissaCheckData at passed
  split at passed
  · cases passed
    rfl
  · obtain ⟨_, _, rfl⟩ := Option.map_eq_some_iff.mp passed
    rfl

/-- What a message initialises when the check has not ended the process. -/
theorem lazyInit_passed {restore : MelissaData D → Option (MelissaData D)} {options : Options D}
    {data loaded : MelissaData D} {vectSize : Nat}
    (load : lazyInit restore options data vectSize = some loaded) :
    (if data.statsInit = false ∧ vectSize > 0 then
        if options.restart > 0 then restore (melissaInitData options data vectSize)
        else some (melissaInitData options data vectSize)
      else if data.stepsInit = false then some (melissaInitData options data vectSize)
      else some data) = some loaded := by
  unfold lazyInit at load
  split at load
  · rename_i first
    obtain ⟨checked, passed, read⟩ := Option.bind_eq_some_iff.mp load
    rw [if_pos first, ← melissaCheckData_passed passed vectSize]
    exact read
  · rename_i later
    rw [if_neg later]
    split at load
    · rename_i first
      obtain ⟨checked, passed, rfl⟩ := Option.map_eq_some_iff.mp load
      rw [if_pos first, melissaCheckData_passed passed vectSize]
    · rename_i initialised
      rw [if_neg initialised]
      exact load

/-- Options that are not rejected do not end the process. -/
theorem lazyInit_accepted {options : Options D} (accepted : rejected options = false)
    (restore : MelissaData D → Option (MelissaData D)) (data : MelissaData D) (vectSize : Nat) :
    lazyInit restore options data vectSize =
      if data.statsInit = false ∧ vectSize > 0 then
        if options.restart > 0 then restore (melissaInitData options data vectSize)
        else some (melissaInitData options data vectSize)
      else if data.stepsInit = false then some (melissaInitData options data vectSize)
      else some data := by
  obtain ⟨checked, passed⟩ := melissaCheckData_accepted accepted data
  have same := melissaCheckData_passed passed vectSize
  unfold lazyInit
  rw [passed, Option.map_some, same]
  split
  · rw [← same]
    rfl
  · rfl

/-- An empty message makes room for bits only. -/
theorem lazyInit_silent {restore : MelissaData D → Option (MelissaData D)}
    {options : Options D} {data loaded : MelissaData D} (initialised : data.statsInit = false)
    (noneYet : data.vectSize = 0) (load : lazyInit restore options data 0 = some loaded) :
    loaded.vectSize = 0 ∧ loaded.statsInit = false := by
  replace load := lazyInit_passed load
  rw [if_neg (by simp)] at load
  split at load
  · cases load
    rw [← initialised]
    exact melissaInitData_zero _ data
  · cases load
    exact ⟨noneYet, initialised⟩

theorem melissaInitData_ready {nbSimu : Nat} {options : Options D} {data : MelissaData D}
    (ready : StepsReady nbSimu options.nbTimeSteps data)
    (sample : options.samplingSize.toNat = nbSimu) (vectSize : Nat) :
    (melissaInitData options data vectSize).stepsInit = true ∧
      StepsSized nbSimu options.nbTimeSteps (melissaInitData options data vectSize) ∧
      ∀ s t, bitOf (melissaInitData options data vectSize) s t = bitOf data s t := by
  obtain ⟨initialised, sized, bits⟩ := melissaInitSteps_ready ready sample
  obtain ⟨sameInit, sameSteps⟩ := melissaInitData_steps options data vectSize
  refine ⟨by rw [sameInit, initialised], ?_, ?_⟩
  · unfold StepsSized
    rw [sameSteps]
    exact sized
  · intro s t
    rw [← bits, bitOf, sameSteps, bitOf]

/-- Without a restart, initialisation makes room for the bits and keeps them. -/
theorem lazyInit_ready {nbSimu : Nat} {options : Options D} {data loaded : MelissaData D}
    {restore : MelissaData D → Option (MelissaData D)} {vectSize : Nat}
    (ready : StepsReady nbSimu options.nbTimeSteps data)
    (sample : options.samplingSize.toNat = nbSimu) (first : options.restart = 0)
    (load : lazyInit restore options data vectSize = some loaded) :
    loaded.stepsInit = true ∧ StepsSized nbSimu options.nbTimeSteps loaded ∧
      ∀ s t, bitOf loaded s t = bitOf data s t := by
  have start := melissaInitData_ready ready sample vectSize
  replace load := lazyInit_passed load
  split at load
  · simp only [first, gt_iff_lt, Nat.lt_irrefl, if_false, Option.some.injEq] at load
    subst load
    exact start
  · split at load
    · cases load
      exact start
    · rename_i initialised
      cases load
      have initialised : data.stepsInit = true := by simpa using initialised
      exact ⟨initialised, stepsSized_of_ready ready initialised, fun _ _ => rfl⟩

end Init

section Compute

variable {D : Type} [Zero D] [Add D] [Sub D] [Mul D] [Div D] [NatCast D] [IntCast D]
  [Pow D ℕ] [LT D] [DecidableLT D] [LE D] [DecidableLE D] [Libm D]

/-- `compute_stats` changes the statistics arrays only. -/
theorem computeStats_frame {options : Options D} {data data' : MelissaData D}
    {timeStep simuId : Nat} {vects : List (List D)}
    (computed : computeStats options data timeStep simuId vects = some data') :
    data'.stepSimu = data.stepSimu ∧ data'.stepsInit = data.stepsInit ∧
      data'.statsInit = data.statsInit ∧ data'.vectSize = data.vectSize ∧
      data'.isValid = data.isValid := by
  unfold computeStats at computed
  split at computed
  · cases computed
  · split at computed
    · cases computed
    · cases sobol : options.sobolOp with
      | false =>
          simp only [sobol, Bool.false_eq_true, if_false, Option.some.injEq] at computed
          subst computed
          simp [computeVector]
      | true =>
          simp only [sobol, if_true] at computed
          split at computed
          · cases computed
          · cases computed
            simp [computeVector, computeSobol]

theorem computeMessage_frame {options : Options D} {data data' : MelissaData D} {m : SimuData D}
    (computed : computeMessage options data m = some data') :
    data'.stepSimu = data.stepSimu ∧ data'.stepsInit = data.stepsInit ∧
      data'.statsInit = data.statsInit ∧ data'.vectSize = data.vectSize ∧
      data'.isValid = data.isValid := by
  unfold computeMessage at computed
  split at computed
  · exact computeStats_frame computed
  · cases computed
    simp

/-- A message either finds its bit set and changes nothing, or is computed and sets it. -/
theorem accumulate_cases {options : Options D} {data data' : MelissaData D} {m : SimuData D}
    (taken : accumulate options data m = some data') :
    m.simuId < data.stepSimu.length ∧
      ((bitOf data m.simuId m.timeStamp.toNat = true ∧ data' = data) ∨
        (bitOf data m.simuId m.timeStamp.toNat = false ∧
          ∃ computed, computeMessage options data m = some computed ∧
            data' = markStep computed m)) := by
  cases present : (growStepSimu options data m.simuId).stepSimu[m.simuId]? with
  | none => simp [accumulate, present] at taken
  | some bits =>
      obtain ⟨inside, here⟩ := growVector_inside present
      have same : growStepSimu options data m.simuId = data := by
        rw [growStepSimu, growVector_eq_self inside]
      have row : data.stepSimu.getD m.simuId [] = bits := by
        simp [List.getD_eq_getElem?_getD, here]
      simp only [accumulate, same, here] at taken
      refine ⟨inside, ?_⟩
      rw [bitOf, row]
      cases old : testBit bits m.timeStamp.toNat with
      | true =>
          simp only [old, if_true, Option.some.injEq] at taken
          exact Or.inl ⟨rfl, taken.symm⟩
      | false =>
          simp only [old, Bool.false_eq_true, if_false] at taken
          obtain ⟨computed, done, set⟩ := Option.map_eq_some_iff.mp taken
          exact Or.inr ⟨rfl, computed, done, set.symm⟩

theorem accumulate_frame {data updated : MelissaData D} {m : SimuData D}
    (taken : accumulate options data m = some updated) :
    updated.vectSize = data.vectSize ∧ updated.statsInit = data.statsInit ∧
      updated.stepsInit = data.stepsInit := by
  obtain ⟨_, cases⟩ := accumulate_cases taken
  rcases cases with ⟨_, rfl⟩ | ⟨_, computed, done, rfl⟩
  · exact ⟨rfl, rfl, rfl⟩
  · obtain ⟨_, stepsInit, statsInit, size, _⟩ := computeMessage_frame done
    exact ⟨size, statsInit, stepsInit⟩

theorem accumulate_old {options : Options D} {data : MelissaData D} {m : SimuData D}
    (inside : m.simuId < data.stepSimu.length)
    (seen : bitOf data m.simuId m.timeStamp.toNat = true) :
    accumulate options data m = some data := by
  have same : growStepSimu options data m.simuId = data := by
    rw [growStepSimu, growVector_eq_self inside]
  rw [bitOf, List.getD_eq_getElem _ _ inside] at seen
  simp [accumulate, same, inside, seen]

theorem accumulate_new {options : Options D} {data computed : MelissaData D} {m : SimuData D}
    (inside : m.simuId < data.stepSimu.length)
    (unseen : bitOf data m.simuId m.timeStamp.toNat = false)
    (done : computeMessage options data m = some computed) :
    accumulate options data m = some (markStep computed m) := by
  have same : growStepSimu options data m.simuId = data := by
    rw [growStepSimu, growVector_eq_self inside]
  rw [bitOf, List.getD_eq_getElem _ _ inside] at unseen
  simp [accumulate, same, inside, unseen, done]

/-- After a message its bit is set, and no other bit has changed. -/
theorem accumulate_bits {options : Options D} {data data' : MelissaData D} {m : SimuData D}
    {nbSimu : Nat} (sized : StepsSized nbSimu options.nbTimeSteps data)
    (valid : m.timeStamp.toNat < options.nbTimeSteps)
    (taken : accumulate options data m = some data') :
    data'.stepsInit = data.stepsInit ∧ data'.statsInit = data.statsInit ∧
      data'.vectSize = data.vectSize ∧ data'.isValid = data.isValid ∧
      StepsSized nbSimu options.nbTimeSteps data' ∧
      ∀ s t, bitOf data' s t =
        (decide (s = m.simuId ∧ t = m.timeStamp.toNat) || bitOf data s t) := by
  obtain ⟨inside, cases⟩ := accumulate_cases taken
  rcases cases with ⟨seen, rfl⟩ | ⟨unseen, computed, done, rfl⟩
  · refine ⟨rfl, rfl, rfl, rfl, sized, ?_⟩
    intro s t
    by_cases here : s = m.simuId ∧ t = m.timeStamp.toNat
    · rw [here.1, here.2, seen]
      simp
    · simp [here]
  · obtain ⟨steps, stepsInit, statsInit, vectSize, isValid⟩ := computeMessage_frame done
    have computedSized : StepsSized nbSimu options.nbTimeSteps computed := by
      unfold StepsSized
      rw [steps]
      exact sized
    refine ⟨stepsInit, statsInit, vectSize, isValid,
      stepsSized_modify_setBit computedSized m.simuId m.timeStamp.toNat, ?_⟩
    intro s t
    have bits := testBit_modify_setBit computedSized (by rw [← sized.1]; exact inside) valid s t
    rw [bitOf, markStep, bits, bitOf, steps, bitOf]

end Compute

end Melissa
