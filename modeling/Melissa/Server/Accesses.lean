import Melissa.Server.Rounds

/-! The tables a data message indexes by its simulation: the vector of the simulations, the
`step_simu` of the receiving structure, and those `check_simu_state` looks at. -/

namespace Melissa

open Runs

section Accesses

/-- `items[index]` of a vector of a given size. -/
structure Access where
  index : Nat
  size : Nat
  deriving DecidableEq, Repr

variable {D : Type}

/-- The accesses of `check_simu_state` to the structures of all fields, up to its return. -/
def scannedAccesses (nbTimeSteps groupId : Nat) : List (MelissaData D) → List Access
  | [] => []
  | data :: rest =>
      if data.stepsInit then
        ⟨groupId, data.stepSimu.length⟩ ::
          match data.stepSimu[groupId]? with
          | none => []
          | some bits =>
              if allSteps nbTimeSteps bits then scannedAccesses nbTimeSteps groupId rest else []
      else scannedAccesses nbTimeSteps groupId rest

variable [Zero D] [NatCast D]

/-- The structure of a message when its initialisation is over, in a server whose vectors have
grown. -/
def loadedEntry (restore : Restore D) (grown : Server D) (m : SimuData D) (fieldId : Nat) :
    Option (MelissaData D) :=
  (entryOf grown.fields fieldId m.clientRank).bind fun data =>
    lazyInit (restore m.fieldName m.clientRank) grown.options data m.vectSize

variable [Add D] [Sub D] [Mul D] [Div D] [IntCast D]
  [Pow D ℕ] [LT D] [DecidableLT D] [LE D] [DecidableLE D] [Libm D]

/-- The data branch up to the progress check. -/
def beforeProgress (restore : Restore D) (server : Server D) (now : ℚ) (m : SimuData D)
    (reply : LauncherMessage D) (fieldId : Nat) : Option (Server D) := do
  let server := growSimulations (countFirstSend server fieldId m.clientRank) m.simuId
  let data ← entryOf server.fields fieldId m.clientRank
  let loaded ← lazyInit (restore m.fieldName m.clientRank) server.options data m.vectSize
  let simu ← server.simulations[m.simuId]?
  let updated ← accumulate server.options loaded m
  let stored := storeEntry server now m fieldId simu (needsInit data m.vectSize) updated
  awaitReply stored (waitsForJob simu m.vectSize) reply

/-- The accesses of the data branch in their order, as far as it gets. They come after the
initialisation of the structure, which may end the process. -/
def dataAccesses (restore : Restore D) (server : Server D) (now : ℚ) (m : SimuData D)
    (reply : LauncherMessage D) (fieldId : Nat) : List Access :=
  let grown := growSimulations (countFirstSend server fieldId m.clientRank) m.simuId
  match loadedEntry restore grown m fieldId with
  | none => []
  | some loaded =>
      let received := (growStepSimu grown.options loaded m.simuId).stepSimu.length
      let scanned := match beforeProgress restore server now m reply fieldId with
        | none => []
        | some asked => scannedAccesses asked.options.nbTimeSteps m.simuId
            (asked.fields.flatMap MelissaField.statsData)
      ⟨m.simuId, grown.simulations.length⟩ :: ⟨m.simuId, received⟩ :: scanned

/-- The data branch is `beforeProgress` and then the progress check. -/
theorem acceptMessage_eq (restore : Restore D) (server : Server D) (now : ℚ) (m : SimuData D)
    (reply : LauncherMessage D) (fieldId : Nat) :
    acceptMessage restore server now m reply fieldId =
      (beforeProgress restore server now m reply fieldId).bind fun asked =>
        updateProgress asked m.simuId := by
  simp only [acceptMessage, beforeProgress, Option.bind_eq_bind, Option.bind_assoc]

end Accesses

section TablesCounted

variable {D : Type}

/-- All tables of a server rank have an element for each simulation. -/
structure TablesCounted (nbSimu : Nat) (server : Server D) : Prop where
  simulations : server.simulations.length = nbSimu
  entries : ∀ fieldId clientRank data, entryOf server.fields fieldId clientRank = some data →
    data.stepsInit = true → data.stepSimu.length = nbSimu

/-- What a restart reads back has an array of bits for each simulation. -/
def RestoresCounted (nbSimu : Nat) (restore : Restore D) : Prop :=
  ∀ fieldName clientRank data loaded, restore fieldName clientRank data = some loaded →
    data.stepSimu.length = nbSimu → loaded.stepSimu.length = nbSimu

theorem sample_counted {nbSimu : Nat} {server : Server D} (counted : TablesCounted nbSimu server)
    (whole : WholeSample server) : server.options.samplingSize.toNat = nbSimu := by
  rw [whole, counted.simulations]
  rfl

theorem growSimulations_parts (server : Server D) (simuId : Nat) :
    (growSimulations server simuId).fields = server.fields ∧
      (growSimulations server simuId).options = { server.options with
        samplingSize := (growSimulations server simuId).options.samplingSize } ∧
      server.options.samplingSize ≤ (growSimulations server simuId).options.samplingSize := by
  unfold growSimulations
  split
  · exact ⟨rfl, rfl, le_max_left _ _⟩
  · exact ⟨rfl, rfl, le_refl _⟩

theorem scannedAccesses_inside {nbSimu nbTimeSteps groupId : Nat} (known : groupId < nbSimu)
    {structures : List (MelissaData D)}
    (counted : ∀ data ∈ structures, data.stepsInit = true → data.stepSimu.length = nbSimu) :
    ∀ access ∈ scannedAccesses nbTimeSteps groupId structures, access.index < access.size := by
  induction structures with
  | nil => simp [scannedAccesses]
  | cons data rest ih =>
      rw [List.forall_mem_cons] at counted
      have later := ih counted.2
      intro access member
      rw [scannedAccesses] at member
      split at member
      · rename_i initialised
        rcases List.mem_cons.mp member with rfl | member
        · simp only [counted.1 initialised]
          exact known
        · split at member
          · cases member
          · split at member
            · exact later access member
            · cases member
      · exact later access member

theorem counted_startServer (options : Options D) (commData : CommData) (names : List String)
    {simulations : List (Simulation D)} (sized : simulations.length = options.samplingSize.toNat)
    (nbFinishedSimulations : Nat) :
    TablesCounted options.samplingSize.toNat
      (startServer options commData names simulations nbFinishedSimulations) := by
  refine ⟨sized, ?_⟩
  intro fieldId clientRank data present initialised
  rw [startServer, entryOf_emptyFields] at present
  split at present
  · cases present
    cases initialised
  · cases present

theorem melissaInitSteps_counted {nbSimu : Nat} {options : Options D} {data : MelissaData D}
    (counted : data.stepsInit = true → data.stepSimu.length = nbSimu)
    (sample : options.samplingSize.toNat = nbSimu) :
    (melissaInitSteps options data).stepSimu.length = nbSimu := by
  unfold melissaInitSteps
  split
  · exact (List.length_replicate).trans sample
  · rename_i initialised
    exact counted (by simpa using initialised)

variable [Zero D] [NatCast D]

theorem lazyInit_counted {nbSimu : Nat} {options : Options D} {data loaded : MelissaData D}
    {restore : MelissaData D → Option (MelissaData D)} {vectSize : Nat}
    (counted : data.stepsInit = true → data.stepSimu.length = nbSimu)
    (sample : needsInit data vectSize = true → options.samplingSize.toNat = nbSimu)
    (restores : options.restart > 0 → ∀ data loaded, restore data = some loaded →
      data.stepSimu.length = nbSimu → loaded.stepSimu.length = nbSimu)
    (load : lazyInit restore options data vectSize = some loaded) :
    loaded.stepSimu.length = nbSimu := by
  cases initialises : needsInit data vectSize with
  | false =>
      rw [lazyInit_initialised initialises] at load
      cases load
      refine counted ?_
      simp only [needsInit, Bool.or_eq_false_iff, Bool.not_eq_false'] at initialises
      exact initialises.2
  | true =>
      have fresh : (melissaInitData options data vectSize).stepSimu.length = nbSimu := by
        rw [(melissaInitData_steps options data vectSize).2]
        exact melissaInitSteps_counted counted (sample initialises)
      replace load := lazyInit_passed load
      split at load
      · split at load
        · rename_i restarted
          exact restores restarted _ _ load fresh
        · cases load
          exact fresh
      · split at load
        · cases load
          exact fresh
        · rename_i initialised
          cases load
          exact counted (by simpa using initialised)

/-- With the whole sample, options that pass `melissa_check_options` and nothing to restore, the
initialisation does not end the process. -/
theorem loadedEntry_first {restore : Restore D} {server : Server D} {m : SimuData D}
    {fieldId : Nat} {data : MelissaData D}
    (entry : entryOf server.fields fieldId m.clientRank = some data)
    (accepted : needsInit data m.vectSize = true → rejected server.options = false)
    (first : server.options.restart = 0) :
    (loadedEntry restore (growSimulations (countFirstSend server fieldId m.clientRank) m.simuId) m
      fieldId).isSome := by
  obtain ⟨sameFields, sameOptions, _⟩ := countFirstSend_parts server fieldId m.clientRank
  obtain ⟨grownFields, grownOptions, larger⟩ :=
    growSimulations_parts (countFirstSend server fieldId m.clientRank) m.simuId
  rw [sameOptions] at grownOptions larger
  rw [loadedEntry, grownFields, sameFields, entry, Option.bind_some]
  cases initialises : needsInit data m.vectSize with
  | false => rw [lazyInit_initialised initialises, Option.isSome_some]
  | true =>
      have accepted' := rejected_larger (accepted initialises) larger
      rw [← grownOptions] at accepted'
      rw [lazyInit_accepted accepted', grownOptions]
      dsimp only
      rw [first, if_neg (Nat.lt_irrefl 0)]
      split
      · rfl
      · split
        · rfl
        · rfl

end TablesCounted

section Steps

variable {D : Type} [Zero D] [Add D] [Sub D] [Mul D] [Div D] [NatCast D] [IntCast D]
  [Pow D ℕ] [LT D] [DecidableLT D] [LE D] [DecidableLE D] [Libm D]

theorem accumulate_length {options : Options D} {data data' : MelissaData D} {m : SimuData D}
    (taken : accumulate options data m = some data') :
    data'.stepSimu.length = data.stepSimu.length := by
  obtain ⟨_, cases⟩ := accumulate_cases taken
  rcases cases with ⟨_, rfl⟩ | ⟨_, computed, done, rfl⟩
  · rfl
  · rw [markStep, List.length_modify, (computeMessage_frame done).1]

/-- The structure a message has updated still has an array of bits for each simulation. -/
theorem accepted_counted {restore : Restore D} {nbSimu : Nat} {server server' : Server D}
    {m : SimuData D} {reply : Job D} {fieldId status : Nat} {simu : Simulation D}
    {data loaded updated : MelissaData D}
    (restores : server.options.restart > 0 → RestoresCounted nbSimu restore)
    (counted : TablesCounted nbSimu server)
    (sample : needsInit data m.vectSize = true → server.options.samplingSize.toNat = nbSimu)
    (accepted : Accepted restore server m reply fieldId server' simu data loaded updated status) :
    updated.stepSimu.length = nbSimu := by
  rw [accumulate_length accepted.update]
  exact lazyInit_counted (counted.entries _ _ _ accepted.entry) sample
    (fun restarted => restores restarted m.fieldName m.clientRank) accepted.load

theorem counted_step {restore : Restore D} {nbSimu : Nat} {server server' : Server D}
    {event : Event D} (restores : server.options.restart > 0 → RestoresCounted nbSimu restore)
    (complete : CompleteSample server (.work event)) (counted : TablesCounted nbSimu server)
    (taken : step restore server event = some server') : TablesCounted nbSimu server' := by
  refine ⟨(step_sizes taken).1.trans counted.simulations, ?_⟩
  intro fieldId clientRank data present initialised
  rcases step_fields taken with same | ⟨now, m, reply, own, simu, old, loaded, updated, status,
    rfl, admitted, accepted⟩
  · rw [same] at present
    exact counted.entries fieldId clientRank data present initialised
  · rw [accepted.fields] at present
    rcases entryOf_setEntry_cases accepted.entry present with ⟨rfl, rfl, rfl⟩ | ⟨_, present⟩
    · exact accepted_counted restores counted (fun initialises =>
        sample_counted counted (complete _ _ admitted accepted.entry initialises)) accepted
    · exact counted.entries fieldId clientRank data present initialised

theorem counted_round {restore : Restore D} {nbSimu : Nat} {server server' : Server D}
    {round : Round D} (restores : server.options.restart > 0 → RestoresCounted nbSimu restore)
    (complete : CompleteSample server round) (counted : TablesCounted nbSimu server)
    (taken : roundStep restore server round = some server') : TablesCounted nbSimu server' := by
  cases round with
  | work event => exact counted_step restores complete counted taken
  | silence =>
      cases taken
      exact ⟨counted.simulations, counted.entries⟩
  | checkpoint now =>
      cases taken
      unfold saveTime
      split
      · exact ⟨counted.simulations, counted.entries⟩
      · exact counted

theorem counted_run {restore : Restore D} {nbSimu : Nat} {server server' : Server D}
    {rounds : List (Round D)}
    (restores : server.options.restart > 0 → RestoresCounted nbSimu restore)
    (complete : Meets (roundStep restore) CompleteSample server rounds)
    (counted : TablesCounted nbSimu server)
    (reached : run (roundStep restore) server rounds = some server') :
    TablesCounted nbSimu server' := by
  have preserved (mid : Server D) (round : Round D) (next : Server D)
      (inv : SameStudy server mid ∧ TablesCounted nbSimu mid) (complete : CompleteSample mid round)
      (taken : roundStep restore mid round = some next) :
      SameStudy server next ∧ TablesCounted nbSimu next := by
    refine ⟨sameStudy_trans inv.1 (roundStep_sameStudy taken), ?_⟩
    refine counted_round ?_ complete inv.2 taken
    rw [inv.1.options]
    exact restores
  exact (meets_invariant preserved complete ⟨sameStudy_refl server, counted⟩ reached).2

/-- What the progress check looks at: the updated structure and all others as they were. -/
theorem beforeProgress_cases {restore : Restore D} {server asked : Server D} {now : ℚ}
    {m : SimuData D} {reply : Job D} {fieldId : Nat} (known : m.simuId < server.simulations.length)
    (taken : beforeProgress restore server now m (.job reply) fieldId = some asked) :
    ∃ data loaded updated, entryOf server.fields fieldId m.clientRank = some data ∧
      lazyInit (restore m.fieldName m.clientRank) server.options data m.vectSize = some loaded ∧
      accumulate server.options loaded m = some updated ∧
      asked.fields = setEntry server.fields fieldId m.clientRank updated := by
  obtain ⟨sameFields, sameOptions, _, sameSimulations, _⟩ :=
    countFirstSend_parts server fieldId m.clientRank
  rw [beforeProgress, growSimulations_eq_self (by rw [sameSimulations]; exact known)] at taken
  simp only [Option.bind_eq_bind, Option.bind_eq_some_iff, sameFields, sameOptions] at taken
  obtain ⟨data, entry, loaded, load, simu, _, updated, update, answered⟩ := taken
  refine ⟨data, loaded, updated, entry, load, update, ?_⟩
  rw [(awaitReply_cases answered).1, storeEntry, sameFields]

theorem dataAccesses_inside {restore : Restore D} {nbSimu : Nat} {server : Server D}
    {m : SimuData D} {fieldId : Nat}
    (restores : server.options.restart > 0 → RestoresCounted nbSimu restore)
    (counted : TablesCounted nbSimu server)
    (sample : ∀ data, entryOf server.fields fieldId m.clientRank = some data →
      needsInit data m.vectSize = true → server.options.samplingSize.toNat = nbSimu)
    (known : m.simuId < nbSimu) (now : ℚ) (reply : Job D) :
    ∀ access ∈ dataAccesses restore server now m (.job reply) fieldId,
      access.index < access.size := by
  obtain ⟨sameFields, sameOptions, _, sameSimulations, _⟩ :=
    countFirstSend_parts server fieldId m.clientRank
  have inside : m.simuId < server.simulations.length := by rw [counted.simulations]; exact known
  have grown : growSimulations (countFirstSend server fieldId m.clientRank) m.simuId =
      countFirstSend server fieldId m.clientRank :=
    growSimulations_eq_self (by rw [sameSimulations]; exact inside)
  have loadedCounted {data loaded : MelissaData D}
      (entry : entryOf server.fields fieldId m.clientRank = some data)
      (load : lazyInit (restore m.fieldName m.clientRank) server.options data m.vectSize =
        some loaded) : loaded.stepSimu.length = nbSimu :=
    lazyInit_counted (counted.entries _ _ _ entry) (sample data entry)
      (fun restarted => restores restarted m.fieldName m.clientRank) load
  intro access member
  rw [dataAccesses, grown, loadedEntry, sameFields, sameOptions, sameSimulations] at member
  split at member
  · cases member
  · rename_i loaded found
    obtain ⟨data, entry, load⟩ := Option.bind_eq_some_iff.mp found
    have length := loadedCounted entry load
    rcases List.mem_cons.mp member with rfl | member
    · exact inside
    · rcases List.mem_cons.mp member with rfl | scanned
      · dsimp only [growStepSimu]
        rw [growVector_eq_self (by rw [length]; exact known), length]
        exact known
      · split at scanned
        · cases scanned
        · rename_i asked taken
          obtain ⟨data, loaded, updated, entry, load, update, fields⟩ :=
            beforeProgress_cases inside taken
          refine scannedAccesses_inside known ?_ access scanned
          intro other listed initialised
          obtain ⟨fieldId', clientRank', present⟩ := mem_entries.mp listed
          rw [fields] at present
          rcases entryOf_setEntry_cases entry present with ⟨rfl, rfl, rfl⟩ | ⟨_, present⟩
          · rw [accumulate_length update]
            exact loadedCounted entry load
          · exact counted.entries _ _ _ present initialised

/-- The growing loop makes no room for the simulation itself: the first access is the one that
fails. -/
theorem simulations_access {restore : Restore D} {server : Server D} {now : ℚ} {m : SimuData D}
    {reply : LauncherMessage D} {fieldId : Nat}
    (initialised : (loadedEntry restore
      (growSimulations (countFirstSend server fieldId m.clientRank) m.simuId) m fieldId).isSome)
    (inside : ∀ access ∈ dataAccesses restore server now m reply fieldId,
      access.index < access.size) : m.simuId < server.simulations.length := by
  obtain ⟨loaded, found⟩ := Option.isSome_iff_exists.mp initialised
  rw [dataAccesses, found] at inside
  have first := inside _ List.mem_cons_self
  simp only at first
  rw [← (countFirstSend_parts server fieldId m.clientRank).2.2.2.1]
  unfold growSimulations growVector at first
  split at first
  · rw [List.length_append, List.length_replicate] at first
    omega
  · exact first

/-- In every state that a server rank reaches, a data message indexes inside all tables exactly when
its simulation is one of those the rank started with. -/
theorem tableAccesses_iff {restore : Restore D} {options : Options D} {commData : CommData}
    {names : List String} {simulations : List (Simulation D)} {nbFinishedSimulations : Nat}
    (accepted : rejected options = false)
    (sized : simulations.length = options.samplingSize.toNat)
    (restores : options.restart > 0 → RestoresCounted options.samplingSize.toNat restore)
    {past : List (Round D)} {server : Server D}
    (reached : run (roundStep restore)
      (startServer options commData names simulations nbFinishedSimulations) past = some server)
    {now : ℚ} {m : SimuData D} {reply : Job D} {fieldId : Nat}
    (complete : Meets (roundStep restore) CompleteSample
      (startServer options commData names simulations nbFinishedSimulations)
      (past ++ [.work (.data now m reply)]))
    (admitted : Admitted server m fieldId) (known : m.clientRank < commData.clientCommSize)
    (readable : options.restart > 0 → (loadedEntry restore
      (growSimulations (countFirstSend server fieldId m.clientRank) m.simuId) m fieldId).isSome) :
    (∀ access ∈ dataAccesses restore server now m (.job reply) fieldId,
      access.index < access.size) ↔ m.simuId < options.samplingSize.toNat := by
  have start := counted_startServer options commData names sized nbFinishedSimulations
  have study := rounds_sameStudy reached
  obtain ⟨completePast, completeLast⟩ := meets_concat.mp complete
  have counted := counted_run restores completePast start reached
  have whole := completeLast server reached
  have present : (entryOf server.fields fieldId m.clientRank).isSome = true := by
    have named := admitted.2.2
    rw [getFieldId_sameStudy study, getFieldId, List.findIdx?_eq_some_iff_getElem] at named
    obtain ⟨inside, _⟩ := named
    rw [startServer, List.length_map] at inside
    rw [study.entries, startServer, entryOf_emptyFields, if_pos ⟨inside, known⟩, Option.isSome_some]
  obtain ⟨data, entry⟩ := Option.isSome_iff_exists.mp present
  constructor
  · intro inside
    rw [← counted.simulations]
    refine simulations_access ?_ inside
    rcases Nat.eq_zero_or_pos options.restart with first | restarted
    · refine loadedEntry_first entry (fun initialises => ?_) (by rw [study.options]; exact first)
      have sample := whole fieldId data admitted entry initialises
      have positive := samplingSize_pos accepted
      rw [study.options]
      refine rejected_larger accepted ?_
      rw [sample, counted.simulations, Int.toNat_of_nonneg (by omega)]
    · exact readable restarted
  · intro started
    refine dataAccesses_inside ?_ counted ?_ started now reply
    · rw [study.options]
      exact restores
    · intro data entry initialises
      exact sample_counted counted (whole fieldId data admitted entry initialises)

end Steps

section Examples

/-- The first time step of a simulation. -/
def firstStep (simuId : Nat) : SimuData ℚ :=
  { timeStamp := 0, simuId := simuId, clientRank := 0, vectSize := 1, fieldName := "heat"
    data := [3] }

def jobOf (simuId : Nat) : Job ℚ := { simuId := simuId, jobId := "job", parameters := [2] }

/-- A rank with two simulations that has received from the second one. -/
def afterSecond : Option (Server ℚ) :=
  run (roundStep noRestore)
    (startServer twoByTwo ⟨0, 1, 1⟩ ["heat"] (List.replicate 2 addSimulation) 0)
    [.work (.data 1 (firstStep 1) (jobOf 1))]

/-- While the launcher is silent the first simulation, without a job, has left the sample. -/
def afterSilence : Option (Server ℚ) :=
  run (roundStep noRestore)
    (startServer twoByTwo ⟨0, 1, 1⟩ ["heat"] (List.replicate 2 addSimulation) 0)
    [.work (.data 1 (firstStep 1) (jobOf 1)), .silence]

theorem tableAccesses_iff_first : ∃ server, afterSilence = some server ∧
    server.options.samplingSize = 1 ∧
    ∀ access ∈ dataAccesses noRestore server 2 (firstStep 0) (.job (jobOf 0)) 0,
      access.index < access.size := by
  have state : afterSilence.map (fun server =>
      (server.options.samplingSize,
        (server.fields.flatMap MelissaField.statsData).all fun data => !needsInit data 1)) =
      some (1, true) := by decide +kernel
  obtain ⟨server, reached, numbers⟩ := Option.map_eq_some_iff.mp state
  rw [Prod.mk.injEq, List.all_eq_true] at numbers
  obtain ⟨sampling, prepared⟩ := numbers
  have heard : Meets (roundStep noRestore) CompleteSample
      (startServer twoByTwo ⟨0, 1, 1⟩ ["heat"] (List.replicate 2 addSimulation) 0)
      [.work (.data 1 (firstStep 1) (jobOf 1))] :=
    meets_of_heard rfl (by simp)
  have silent : Meets (roundStep noRestore) CompleteSample
      (startServer twoByTwo ⟨0, 1, 1⟩ ["heat"] (List.replicate 2 addSimulation) 0)
      ([.work (.data 1 (firstStep 1) (jobOf 1))] ++ [.silence]) :=
    meets_concat.mpr ⟨heard, fun _ _ => trivial⟩
  have complete : Meets (roundStep noRestore) CompleteSample
      (startServer twoByTwo ⟨0, 1, 1⟩ ["heat"] (List.replicate 2 addSimulation) 0)
      ([.work (.data 1 (firstStep 1) (jobOf 1)), .silence] ++
        [.work (.data 2 (firstStep 0) (jobOf 0))]) := by
    refine meets_concat.mpr ⟨silent, ?_⟩
    intro mid arrived fieldId data _ entry empty
    cases Option.some.inj (arrived.symm.trans reached)
    have ready := prepared data (mem_entries.mpr ⟨fieldId, 0, entry⟩)
    rw [Bool.not_eq_true'] at ready
    exact absurd (ready.symm.trans empty) Bool.false_ne_true
  have admitted : Admitted server (firstStep 0) 0 :=
    (admitted_sameStudy (rounds_sameStudy reached)).mpr ⟨by decide, by decide, by decide +kernel⟩
  refine ⟨server, reached, sampling, ?_⟩
  exact (tableAccesses_iff (by decide) rfl (fun restarted => absurd restarted (by decide)) reached
    complete admitted Nat.one_pos (fun restarted => absurd restarted (by decide))).mpr (by decide)

/-- The third simulation of a study of two: its element of the vector is never added. -/
theorem not_tableAccesses_third : ∃ server, afterSecond = some server ∧
    ¬ ∀ access ∈ dataAccesses noRestore server 2 (firstStep 2) (.job (jobOf 2)) 0,
      access.index < access.size := by
  have outside : afterSecond.map (fun server =>
      dataAccesses noRestore server 2 (firstStep 2) (.job (jobOf 2)) 0) =
        some [⟨2, 2⟩, ⟨2, 2⟩] := by
    decide +kernel
  obtain ⟨server, same, accesses⟩ := Option.map_eq_some_iff.mp outside
  refine ⟨server, same, ?_⟩
  rw [accesses]
  decide

end Examples

end Melissa
