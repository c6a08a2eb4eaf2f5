import Melissa.Server.Entry

/-! Runs of a server rank that was started without `-r`: what every state they reach has in
common, and the bits one message changes. -/

namespace Melissa

open Runs

section Ready

variable {D : Type}

/-- The sizes that all accesses of the main loop rely on. -/
structure Ready (nbSimu : Nat) (server : Server D) : Prop where
  simulations : server.simulations.length = nbSimu
  sample : server.options.samplingSize.toNat = nbSimu
  first : server.options.restart = 0
  entries : ∀ fieldId clientRank data, entryOf server.fields fieldId clientRank = some data →
    StepsReady nbSimu server.options.nbTimeSteps data

/-- What no step changes: the options but for the sample, the ranks, the names of the fields
and the places of the structures. -/
structure SameStudy (server server' : Server D) : Prop where
  options : server'.options =
    { server.options with samplingSize := server'.options.samplingSize }
  commData : server'.commData = server.commData
  names : server'.fields.map MelissaField.name = server.fields.map MelissaField.name
  entries : ∀ fieldId clientRank, (entryOf server'.fields fieldId clientRank).isSome =
    (entryOf server.fields fieldId clientRank).isSome

theorem sameStudy_refl (server : Server D) : SameStudy server server :=
  ⟨rfl, rfl, rfl, fun _ _ => rfl⟩

theorem sameStudy_trans {first second third : Server D} (left : SameStudy first second)
    (right : SameStudy second third) : SameStudy first third := by
  refine ⟨?_, right.commData.trans left.commData, right.names.trans left.names, ?_⟩
  · rw [right.options, left.options]
  · intro fieldId clientRank
    rw [right.entries, left.entries]

theorem nbTimeSteps_eq {server server' : Server D} (same : SameStudy server server') :
    server'.options.nbTimeSteps = server.options.nbTimeSteps := by
  rw [same.options]

theorem entryOf_emptyFields (clientCommSize : Nat) (names : List String)
    (fieldId clientRank : Nat) :
    entryOf (names.map (emptyField (D := D) clientCommSize)) fieldId clientRank =
      if fieldId < names.length ∧ clientRank < clientCommSize then some emptyData else none := by
  unfold entryOf
  by_cases known : fieldId < names.length
  · by_cases inside : clientRank < clientCommSize
    · simp [known, inside, emptyField]
    · simp [known, inside, emptyField]
  · simp [known]

theorem entryOf_emptyFields_cases {clientCommSize fieldId rank : Nat} {names : List String}
    {data : MelissaData D}
    (present : entryOf (names.map (emptyField clientCommSize)) fieldId rank = some data) :
    rank < clientCommSize ∧ data = emptyData := by
  rw [entryOf_emptyFields] at present
  split at present
  · rename_i inside
    cases present
    exact ⟨inside.2, rfl⟩
  · cases present

theorem entryOf_freshServer (options : Options D) (commData : CommData) (names : List String)
    (fieldId clientRank : Nat) :
    entryOf (freshServer options commData names).fields fieldId clientRank =
      if fieldId < names.length ∧ clientRank < commData.clientCommSize
        then some emptyData else none :=
  entryOf_emptyFields commData.clientCommSize names fieldId clientRank

theorem ready_freshServer (options : Options D) (commData : CommData) (names : List String) :
    Ready options.samplingSize.toNat (freshServer options commData names) := by
  refine ⟨by simp [freshServer, startServer], rfl, rfl, ?_⟩
  intro fieldId clientRank data present
  rw [entryOf_freshServer] at present
  split at present
  · cases present
    exact stepsReady_emptyData _ _
  · cases present

theorem getFieldId_sameStudy {server server' : Server D} (same : SameStudy server server')
    (fieldName : String) :
    getFieldId server'.fields fieldName = getFieldId server.fields fieldName :=
  getFieldId_eq_of_names same.names fieldName

theorem admitted_sameStudy {server server' : Server D} {m : SimuData D} {fieldId : Nat}
    (study : SameStudy server server') :
    Admitted server' m fieldId ↔ Admitted server m fieldId := by
  unfold Admitted
  rw [nbTimeSteps_eq study, getFieldId_sameStudy study]

/-- The progress check of a message finds every bit array it looks at. -/
theorem checkSimuState_isSome {nbSimu fieldId clientRank simuId : Nat} {server : Server D}
    {data updated : MelissaData D} (ready : Ready nbSimu server)
    (entry : entryOf server.fields fieldId clientRank = some data)
    (sized : StepsSized nbSimu server.options.nbTimeSteps updated) (inside : simuId < nbSimu) :
    ∃ status, checkSimuState (setEntry server.fields fieldId clientRank updated)
      server.options.nbTimeSteps simuId = some status := by
  apply checkEntries_isSome
  intro data' member initialised
  obtain ⟨fieldId', clientRank', present⟩ := mem_entries.mp member
  rcases entryOf_setEntry_cases entry present with ⟨rfl, rfl, rfl⟩ | ⟨_, present⟩
  · rw [sized.1]
    exact inside
  · rw [(stepsSized_of_ready (ready.entries _ _ _ present) initialised).1]
    exact inside

end Ready

section Steps

variable {D : Type} [Zero D] [Add D] [Sub D] [Mul D] [Div D] [NatCast D] [IntCast D]
  [Pow D ℕ] [LT D] [DecidableLT D] [LE D] [DecidableLE D] [Libm D]

theorem accepted_sameStudy {restore : Restore D} {server server' : Server D} {m : SimuData D}
    {reply : Job D} {fieldId status : Nat} {simu : Simulation D}
    {data loaded updated : MelissaData D}
    (accepted : Accepted restore server m reply fieldId server' simu data loaded updated status) :
    SameStudy server server' := by
  refine ⟨by rw [accepted.options], accepted.commData, ?_, ?_⟩
  · rw [accepted.fields, map_name_setEntry]
  · intro fieldId' clientRank'
    rw [accepted.fields]
    by_cases here : fieldId' = fieldId ∧ clientRank' = m.clientRank
    · obtain ⟨rfl, rfl⟩ := here
      rw [entryOf_setEntry_same accepted.entry, accepted.entry]
      rfl
    · rw [entryOf_setEntry_other here]

theorem admitted_accepted {restore : Restore D} {server server' : Server D} {now : ℚ}
    {m : SimuData D} {reply : Job D} {fieldId : Nat} (admitted : Admitted server m fieldId)
    (taken : step restore server (.data now m reply) = some server') :
    ∃ simu data loaded updated status,
      Accepted restore server m reply fieldId server' simu data loaded updated status := by
  rw [step, dataMessage_admitted admitted] at taken
  exact acceptMessage_cases taken

/-- No step changes the study. -/
theorem step_sameStudy {restore : Restore D} {server server' : Server D} {event : Event D}
    (taken : step restore server event = some server') : SameStudy server server' := by
  cases event with
  | data now m reply =>
      rcases dataMessage_cases taken with ⟨rfl, _⟩ | ⟨fieldId, _, simu, data, loaded, updated,
        status, accepted⟩
      · exact sameStudy_refl _
      · exact accepted_sameStudy accepted
  | launcher msg =>
      obtain ⟨fields, commData, length, options⟩ := textMessage_parts taken
      refine ⟨by rw [options], commData, by rw [fields], ?_⟩
      intro fieldId clientRank
      rw [fields]
  | timeouts now =>
      cases taken
      obtain ⟨fields, options, commData, _⟩ := timeoutRound_parts server now
      refine ⟨by rw [options], commData, by rw [fields], ?_⟩
      intro fieldId clientRank
      rw [fields]

/-- No step changes the number of simulations; a launcher message makes it the sample. -/
theorem step_sizes {restore : Restore D} {server server' : Server D} {event : Event D}
    (taken : step restore server event = some server') :
    server'.simulations.length = server.simulations.length ∧
      (server'.options.samplingSize = server.options.samplingSize ∨
        server'.options.samplingSize = (server.simulations.length : Int)) := by
  cases event with
  | data now m reply =>
      rcases dataMessage_cases taken with ⟨rfl, _⟩ | ⟨fieldId, _, simu, data, loaded, updated,
        status, accepted⟩
      · exact ⟨rfl, Or.inl rfl⟩
      · have length := congrArg List.length accepted.statuses
        exact ⟨by simpa [statuses] using length, Or.inl (by rw [accepted.options])⟩
  | launcher msg =>
      obtain ⟨_, _, length, options⟩ := textMessage_parts taken
      exact ⟨length, Or.inr (by rw [options])⟩
  | timeouts now =>
      cases taken
      obtain ⟨_, options, _, _, parameters, _⟩ := timeoutRound_parts server now
      have length := congrArg List.length parameters
      exact ⟨by simpa [parametersOf] using length, Or.inl (by rw [options])⟩

/-- Only an accepted message changes a structure, its own one. -/
theorem step_fields {restore : Restore D} {server server' : Server D} {event : Event D}
    (taken : step restore server event = some server') :
    server'.fields = server.fields ∨
      ∃ now m reply fieldId simu data loaded updated status, event = .data now m reply ∧
        Admitted server m fieldId ∧
        Accepted restore server m reply fieldId server' simu data loaded updated status := by
  cases event with
  | data now m reply =>
      rcases dataMessage_cases taken with ⟨rfl, _⟩ | ⟨fieldId, admitted, simu, data, loaded,
        updated, status, accepted⟩
      · exact Or.inl rfl
      · exact Or.inr ⟨now, m, reply, fieldId, simu, data, loaded, updated, status, rfl, admitted,
          accepted⟩
  | launcher msg => exact Or.inl (textMessage_parts taken).1
  | timeouts now =>
      cases taken
      exact Or.inl (timeoutRound_parts server now).1

theorem run_sameStudy {restore : Restore D} {server server' : Server D} {events : List (Event D)}
    (reached : run (step restore) server events = some server') : SameStudy server server' := by
  have preserved (mid : Server D) (event : Event D) (next : Server D)
      (same : SameStudy server mid) (taken : step restore mid event = some next) :
      SameStudy server next := sameStudy_trans same (step_sameStudy taken)
  exact run_invariant preserved (sameStudy_refl server) reached

/-- The structure of an accepted message has room for all bits, and of these only the bit of
the message is new. -/
theorem accepted_bits {restore : Restore D} {nbSimu : Nat} {server server' : Server D}
    {m : SimuData D} {reply : Job D} {fieldId status : Nat} {simu : Simulation D}
    {data loaded updated : MelissaData D} (ready : Ready nbSimu server)
    (admitted : Admitted server m fieldId)
    (accepted : Accepted restore server m reply fieldId server' simu data loaded updated status) :
    updated.stepsInit = true ∧ StepsSized nbSimu server.options.nbTimeSteps updated ∧
      ∀ s t, bitOf updated s t =
        (decide (s = m.simuId ∧ t = m.timeStamp.toNat) || bitOf data s t) := by
  obtain ⟨initialised, sized, kept⟩ := lazyInit_ready
    (ready.entries fieldId m.clientRank data accepted.entry) ready.sample ready.first accepted.load
  obtain ⟨stepsInit, _, _, _, sized', bits⟩ :=
    accumulate_bits sized admitted.2.1 accepted.update
  refine ⟨by rw [stepsInit, initialised], sized', ?_⟩
  intro s t
  rw [bits, kept]

theorem ready_step {restore : Restore D} {nbSimu : Nat} {server server' : Server D}
    {event : Event D} (ready : Ready nbSimu server)
    (taken : step restore server event = some server') : Ready nbSimu server' := by
  cases event with
  | data now m reply =>
      rcases dataMessage_cases taken with ⟨rfl, _⟩ | ⟨fieldId, admitted, simu, data, loaded,
        updated, status, accepted⟩
      · exact ready
      · obtain ⟨stepsInit, sized, _⟩ := accepted_bits ready admitted accepted
        refine ⟨?_, ?_, ?_, ?_⟩
        · have length := congrArg List.length accepted.statuses
          simpa [statuses, ready.simulations] using length
        · rw [accepted.options]
          exact ready.sample
        · rw [accepted.options]
          exact ready.first
        · intro fieldId' clientRank' data' present
          rw [accepted.options]
          rw [accepted.fields] at present
          rcases entryOf_setEntry_cases accepted.entry present with
            ⟨rfl, rfl, rfl⟩ | ⟨_, present⟩
          · exact stepsReady_of_sized sized stepsInit
          · exact ready.entries fieldId' clientRank' data' present
  | launcher msg =>
      obtain ⟨fields, commData, length, options⟩ := textMessage_parts taken
      refine ⟨length.trans ready.simulations, ?_, ?_, ?_⟩
      · rw [options]
        simpa using ready.simulations
      · rw [options]
        exact ready.first
      · rw [fields, options]
        exact ready.entries
  | timeouts now =>
      cases taken
      obtain ⟨fields, options, _, _, parameters, _⟩ := timeoutRound_parts server now
      refine ⟨?_, ?_, ?_, ?_⟩
      · have length := congrArg List.length parameters
        simpa [parametersOf, ready.simulations] using length
      · rw [options]
        exact ready.sample
      · rw [options]
        exact ready.first
      · rw [fields, options]
        exact ready.entries

theorem ready_run {restore : Restore D} {nbSimu : Nat} {server server' : Server D}
    {events : List (Event D)} (ready : Ready nbSimu server)
    (reached : run (step restore) server events = some server') : Ready nbSimu server' :=
  run_invariant (fun _ _ _ inv taken => ready_step inv taken) ready reached

/-- With this message, nothing of its simulation is missing from any structure that has received
something, its own structure included. -/
def completeWith (server : Server D) (m : SimuData D) (fieldId : Nat) : Prop :=
  ∀ fieldId' clientRank' data, entryOf server.fields fieldId' clientRank' = some data →
    data.stepsInit = true ∨ (fieldId' = fieldId ∧ clientRank' = m.clientRank) →
    ∀ t < server.options.nbTimeSteps, bitOf data m.simuId t = true ∨
      (fieldId' = fieldId ∧ clientRank' = m.clientRank ∧ t = m.timeStamp.toNat)

/-- `check_simu_state` after a message, in terms of the state before it. -/
theorem accepted_complete_iff {restore : Restore D} {nbSimu : Nat} {server server' : Server D}
    {m : SimuData D} {reply : Job D} {fieldId status : Nat} {simu : Simulation D}
    {data loaded updated : MelissaData D} (ready : Ready nbSimu server)
    (admitted : Admitted server m fieldId)
    (accepted : Accepted restore server m reply fieldId server' simu data loaded updated status) :
    (status = 2 ↔ completeWith server m fieldId) ∧ (status = 1 ∨ status = 2) := by
  refine ⟨?_, checkEntries_cases accepted.progress⟩
  have inside : m.simuId < nbSimu := by
    obtain ⟨inside, _⟩ := List.getElem?_eq_some_iff.mp accepted.simulation
    rw [← ready.simulations]
    exact inside
  obtain ⟨stepsInit, sized, bits⟩ := accepted_bits ready admitted accepted
  have checked : status = 2 ↔
      checkSimuState server'.fields server.options.nbTimeSteps m.simuId = some 2 := by
    rw [accepted.progress, Option.some.injEq]
  rw [checked, checkSimuState_eq_two, accepted.fields]
  constructor
  · intro complete fieldId' clientRank' data' present spoken t valid
    by_cases here : fieldId' = fieldId ∧ clientRank' = m.clientRank
    · obtain ⟨rfl, rfl⟩ := here
      rw [accepted.entry] at present
      cases present
      have all := complete _ _ _ (entryOf_setEntry_same accepted.entry updated)
      have set := (entryComplete_iff (stepsReady_of_sized sized stepsInit) inside).mp all
        stepsInit t valid
      rw [bits] at set
      simp only [true_and, Bool.or_eq_true, decide_eq_true_eq] at set ⊢
      exact Or.symm set
    · have initialised : data'.stepsInit = true := by
        rcases spoken with spoken | spoken
        · exact spoken
        · exact absurd spoken here
      have all := complete _ _ _ ((entryOf_setEntry_other here _ _).trans present)
      exact Or.inl ((entryComplete_iff (ready.entries _ _ _ present) inside).mp all
        initialised t valid)
  · intro complete fieldId' clientRank' data' present
    rcases entryOf_setEntry_cases accepted.entry present with
      ⟨rfl, rfl, rfl⟩ | ⟨here, present⟩
    · rw [entryComplete_iff (stepsReady_of_sized sized stepsInit) inside]
      intro _ t valid
      have set := complete _ _ data accepted.entry (Or.inr ⟨rfl, rfl⟩) t valid
      rw [bits]
      simp only [true_and, Bool.or_eq_true, decide_eq_true_eq] at set ⊢
      exact Or.symm set
    · rw [entryComplete_iff (ready.entries _ _ _ present) inside]
      intro initialised t valid
      rcases complete _ _ _ present (Or.inl initialised) t valid with set | own
      · exact set
      · exact absurd ⟨own.1, own.2.1⟩ here

end Steps

end Melissa
