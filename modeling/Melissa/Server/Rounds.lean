import Melissa.Server.Ready

/-! The main loop with its checkpoint and its launcher timeout. While the launcher is silent the
sample shrinks; a run that initialises structures only with the complete sample does, but for the
sample and the quantiles, what the same work does without the silence. -/

namespace Melissa

open Runs

section Rounds

variable {D : Type}

/-- One block of a pass of the main loop: its work, the launcher timeout, or the checkpoint. -/
inductive Round (D : Type) where
  | work (event : Event D)
  | silence
  | checkpoint (now : ℚ)
  deriving DecidableEq, Repr

def Round.event : Round D → Option (Event D)
  | .work event => some event
  | .silence => none
  | .checkpoint _ => none

/-- The work of a run. -/
def eventsOf (rounds : List (Round D)) : List (Event D) := rounds.filterMap Round.event

theorem eventsOf_concat (rounds : List (Round D)) (round : Round D) :
    eventsOf (rounds ++ [round]) = eventsOf rounds ++ round.event.toList := by
  rw [eventsOf, List.filterMap_append, eventsOf]
  cases round with
  | work event => rfl
  | silence => rfl
  | checkpoint now => rfl

theorem eventsOf_works (events : List (Event D)) : eventsOf (events.map Round.work) = events := by
  rw [eventsOf, List.filterMap_map]
  exact List.filterMap_some

/-- The time of the last checkpoint. What it writes is in `checkpointRound`. -/
def saveTime (server : Server D) (now : ℚ) : Server D :=
  if checkpointDue server now then { server with lastCheckpointTime := now } else server

/-- No simulation has left the sample. -/
def WholeSample (server : Server D) : Prop :=
  server.options.samplingSize = (server.simulations.length : Int)

theorem wholeSample_freshServer {options : Options D} (accepted : rejected options = false)
    (commData : CommData) (names : List String) :
    WholeSample (freshServer options commData names) := by
  have positive := samplingSize_pos accepted
  have sizes : (freshServer options commData names).simulations.length =
      options.samplingSize.toNat := by simp [freshServer, startServer]
  change options.samplingSize = _
  rw [sizes]
  omega

/-- A message that initialises its structure finds the whole sample. -/
def CompleteSample (server : Server D) : Round D → Prop
  | .work (.data _ m _) => ∀ fieldId data, Admitted server m fieldId →
      entryOf server.fields fieldId m.clientRank = some data → needsInit data m.vectSize = true →
        WholeSample server
  | _ => True

theorem completeSample_of_whole {server : Server D} (whole : WholeSample server)
    (round : Round D) : CompleteSample server round := by
  unfold CompleteSample
  split
  · intro _ _ _ _ _
    exact whole
  · trivial

variable [Zero D] [Add D] [Sub D] [Mul D] [Div D] [NatCast D] [IntCast D]
  [Pow D ℕ] [LT D] [DecidableLT D] [LE D] [DecidableLE D] [Libm D]

def roundStep (restore : Restore D) (server : Server D) : Round D → Option (Server D)
  | .work event => step restore server event
  | .silence => some (removeUnsubmitted server)
  | .checkpoint now => some (saveTime server now)

/-- Without a word about the silence of the launcher the rounds are the steps of their work. -/
theorem run_works (restore : Restore D) (server : Server D) (events : List (Event D)) :
    run (roundStep restore) server (events.map Round.work) = run (step restore) server events := by
  induction events generalizing server with
  | nil => rfl
  | cons event rest ih =>
      rw [List.map_cons, run_cons, run_cons]
      exact Option.bind_congr fun next _ => ih next

end Rounds

section SampleFree

variable {D : Type}

def withoutQuantiles (data : MelissaData D) : MelissaData D := { data with quantiles := [] }

/-- A server rank but for its sample, for the quantiles, whose increments depend on it, and for the
time of the last checkpoint. -/
def sampleFree (server : Server D) : Server D :=
  { server with
    options := { server.options with samplingSize := 0 }
    lastCheckpointTime := 0
    fields := server.fields.map fun field =>
      { field with statsData := field.statsData.map withoutQuantiles } }

theorem sampleFree_saveTime (server : Server D) (now : ℚ) :
    sampleFree (saveTime server now) = sampleFree server := by
  unfold saveTime
  split
  · rfl
  · rfl

theorem entryOf_sampleFree (server : Server D) (fieldId clientRank : Nat) :
    entryOf (sampleFree server).fields fieldId clientRank =
      (entryOf server.fields fieldId clientRank).map withoutQuantiles := by
  simp only [entryOf, sampleFree, List.getElem?_map]
  cases server.fields[fieldId]? with
  | none => rfl
  | some field => exact List.getElem?_map

/-- Ranks that differ in the sample and the quantiles have the same structures but for these. -/
theorem entry_of_sampleFree {server plain : Server D} {fieldId clientRank : Nat}
    {data' : MelissaData D} (same : sampleFree server = sampleFree plain)
    (entry' : entryOf plain.fields fieldId clientRank = some data') :
    ∃ data, entryOf server.fields fieldId clientRank = some data ∧
      withoutQuantiles data = withoutQuantiles data' := by
  have entries := entryOf_sampleFree server fieldId clientRank
  rw [same, entryOf_sampleFree, entry', Option.map_some] at entries
  exact Option.map_eq_some_iff.mp entries.symm

theorem setEntry_withoutQuantiles (fields : List (MelissaField D)) (fieldId clientRank : Nat)
    (data : MelissaData D) :
    (setEntry fields fieldId clientRank data).map (fun field =>
        { field with statsData := field.statsData.map withoutQuantiles }) =
      setEntry (fields.map fun field =>
        { field with statsData := field.statsData.map withoutQuantiles }) fieldId clientRank
          (withoutQuantiles data) := by
  apply List.ext_getElem?
  intro i
  simp only [setEntry, List.getElem?_map, List.getElem?_modify]
  cases fields[i]? with
  | none => rfl
  | some field =>
      by_cases same : fieldId = i
      · simp [same, List.map_set]
      · simp [same]

theorem countFirstSend_sampleFree (server : Server D) (fieldId clientRank : Nat) :
    sampleFree (countFirstSend server fieldId clientRank) =
      countFirstSend (sampleFree server) fieldId clientRank := by
  have same : (sampleFree server).firstSend.getD
      (fieldId * (sampleFree server).commData.clientCommSize + clientRank) true =
        server.firstSend.getD (fieldId * server.commData.clientCommSize + clientRank) true := rfl
  unfold countFirstSend
  dsimp only
  rw [same]
  split
  · rfl
  · rfl

theorem processLauncherMessage_sampleFree (server : Server D) (msg : LauncherMessage D) :
    (processLauncherMessage server msg).map sampleFree =
      processLauncherMessage (sampleFree server) msg := by
  cases msg with
  | job job =>
      have same : (sampleFree server).simulations = server.simulations := rfl
      simp only [processLauncherMessage, Option.bind_eq_bind, same]
      cases (growVector server.simulations job.simuId addSimulation)[job.simuId]? with
      | none => rfl
      | some simu =>
          have assigned : assignJob (sampleFree server).options.nbParameters job simu =
              assignJob server.options.nbParameters job simu := rfl
          rw [Option.bind_some, Option.bind_some, assigned]
          cases assignJob server.options.nbParameters job simu with
          | none => rfl
          | some simu => rfl
  | drop simuId jobId => rfl
  | hello => rfl
  | alive => rfl
  | options => rfl
  | unknown messageType => rfl

theorem awaitReply_sampleFree {server plain plain' : Server D}
    (same : sampleFree server = sampleFree plain) {waits : Bool} {reply : LauncherMessage D}
    (taken : awaitReply plain waits reply = some plain') :
    ∃ server', awaitReply server waits reply = some server' ∧
      sampleFree server' = sampleFree plain' := by
  cases waits with
  | false =>
      cases taken
      exact ⟨server, rfl, same⟩
  | true =>
      have replied := processLauncherMessage_sampleFree server reply
      have answered : processLauncherMessage plain reply = some plain' := taken
      rw [same, ← processLauncherMessage_sampleFree, answered, Option.map_some] at replied
      exact Option.map_eq_some_iff.mp replied

theorem checkEntries_withoutQuantiles (nbTimeSteps groupId : Nat)
    (entries : List (MelissaData D)) :
    checkEntries nbTimeSteps groupId (entries.map withoutQuantiles) =
      checkEntries nbTimeSteps groupId entries := by
  induction entries with
  | nil => rfl
  | cons data rest ih =>
      rw [List.map_cons, checkEntries, checkEntries, ih]
      rfl

theorem checkSimuState_sampleFree (server : Server D) (nbTimeSteps groupId : Nat) :
    checkSimuState (sampleFree server).fields nbTimeSteps groupId =
      checkSimuState server.fields nbTimeSteps groupId := by
  have entries : (sampleFree server).fields.flatMap MelissaField.statsData =
      (server.fields.flatMap MelissaField.statsData).map withoutQuantiles := by
    rw [sampleFree, List.flatMap_map, List.map_flatMap]
  rw [checkSimuState, checkSimuState, entries, checkEntries_withoutQuantiles]

theorem updateProgress_sampleFree (server : Server D) (simuId : Nat) :
    (updateProgress server simuId).map sampleFree = updateProgress (sampleFree server) simuId := by
  have same : (sampleFree server).simulations = server.simulations := rfl
  have steps : (sampleFree server).options.nbTimeSteps = server.options.nbTimeSteps := rfl
  simp only [updateProgress, Option.bind_eq_bind, same, steps, checkSimuState_sampleFree]
  cases server.simulations[simuId]? with
  | none => rfl
  | some simu =>
      cases checkSimuState server.fields server.options.nbTimeSteps simuId with
      | none => rfl
      | some status => rfl

theorem storeEntry_sampleFree (server : Server D) (now : ℚ) (m : SimuData D) (fieldId : Nat)
    (simu : Simulation D) (initialised : Bool) (updated : MelissaData D) :
    sampleFree (storeEntry server now m fieldId simu initialised updated) =
      { storeEntry (sampleFree server) now m fieldId simu initialised
          (withoutQuantiles updated) with
        lastCheckpointTime := 0 } := by
  simp only [storeEntry, sampleFree, setEntry_withoutQuantiles]

theorem timeoutRound_sampleFree (server : Server D) (now : ℚ) :
    sampleFree (timeoutRound server now) = timeoutRound (sampleFree server) now := by
  have same : (sampleFree server).simulations = server.simulations := rfl
  have rank : (sampleFree server).commData = server.commData := rfl
  have last : (sampleFree server).lastTimeoutCheck = server.lastTimeoutCheck := rfl
  have allowed : (sampleFree server).options.timeoutSimu = server.options.timeoutSimu := rfl
  unfold timeoutRound
  rw [same, rank, last, allowed]
  split
  · dsimp only
    split
    · rfl
    · rfl
  · rfl

end SampleFree

section Resampled

variable {D : Type}

/-- What structures that differ in their quantiles have in common. -/
theorem withoutQuantiles_parts {data data' : MelissaData D}
    (same : withoutQuantiles data = withoutQuantiles data') :
    data.isValid = data'.isValid ∧ data.vectSize = data'.vectSize ∧
      data.statsInit = data'.statsInit ∧ data.stepsInit = data'.stepsInit ∧
      data.stepSimu = data'.stepSimu := by
  simp only [withoutQuantiles, MelissaData.mk.injEq] at same
  obtain ⟨size, valid, stats, steps, _, _, _, _, _, tables⟩ := same
  exact ⟨valid, size, stats, steps, tables⟩

/-- The quantiles of a structure are allocated anew. -/
theorem melissaInitData_withoutQuantiles [Zero D] [NatCast D] (options : Options D)
    {data data' : MelissaData D} (same : withoutQuantiles data = withoutQuantiles data')
    (vectSize : Nat) :
    melissaInitData options data vectSize = melissaInitData options data' vectSize := by
  have through (data : MelissaData D) : melissaInitData options data vectSize =
      melissaInitData options (withoutQuantiles data) vectSize := rfl
  rw [through data, same, ← through]

theorem melissaCheckData_withoutQuantiles (options : Options D) {data data' : MelissaData D}
    (same : withoutQuantiles data = withoutQuantiles data') :
    (melissaCheckData options data).isSome = (melissaCheckData options data').isSome := by
  obtain ⟨valid, _⟩ := withoutQuantiles_parts same
  unfold melissaCheckData
  rw [valid]
  split
  · rfl
  · rw [Option.isSome_map, Option.isSome_map]

theorem needsInit_withoutQuantiles {data data' : MelissaData D}
    (same : withoutQuantiles data = withoutQuantiles data') (vectSize : Nat) :
    needsInit data vectSize = needsInit data' vectSize := by
  have through (data : MelissaData D) :
      needsInit data vectSize = needsInit (withoutQuantiles data) vectSize := rfl
  rw [through data, same, ← through]

theorem lazyInit_initialised [Zero D] [NatCast D]
    {restore : MelissaData D → Option (MelissaData D)} {options : Options D} {data : MelissaData D}
    {vectSize : Nat} (ready : needsInit data vectSize = false) :
    lazyInit restore options data vectSize = some data := by
  simp only [needsInit, Bool.or_eq_false_iff, Bool.and_eq_false_iff, Bool.not_eq_false',
    decide_eq_false_iff_not] at ready
  obtain ⟨values, steps⟩ := ready
  unfold lazyInit
  rw [if_neg, if_neg]
  · rw [steps]
    decide
  · rintro ⟨absent, positive⟩
    rcases values with present | none_there
    · rw [absent] at present
      cases present
    · exact none_there positive

/-- The first message of a structure finds the same options, or nothing is initialised. -/
theorem lazyInit_sampleFree [Zero D] [NatCast D]
    {restore : MelissaData D → Option (MelissaData D)} {options options' : Options D}
    {data data' loaded' : MelissaData D} {vectSize : Nat}
    (same : withoutQuantiles data = withoutQuantiles data')
    (complete : needsInit data vectSize = true → options = options')
    (load : lazyInit restore options' data' vectSize = some loaded') :
    ∃ loaded, lazyInit restore options data vectSize = some loaded ∧
      withoutQuantiles loaded = withoutQuantiles loaded' := by
  cases initialises : needsInit data vectSize with
  | false =>
      have initialises' := initialises
      rw [needsInit_withoutQuantiles same] at initialises'
      rw [lazyInit_initialised initialises'] at load
      cases load
      exact ⟨data, lazyInit_initialised initialises, same⟩
  | true =>
      cases complete initialises
      obtain ⟨_, _, stats, steps, _⟩ := withoutQuantiles_parts same
      have passes := melissaCheckData_withoutQuantiles options same
      have init := melissaInitData_withoutQuantiles options same vectSize
      unfold lazyInit at load ⊢
      rw [stats, steps]
      split at load
      · rename_i first
        obtain ⟨checked', passed', read⟩ := Option.bind_eq_some_iff.mp load
        rw [passed', Option.isSome_some] at passes
        obtain ⟨checked, passed⟩ := Option.isSome_iff_exists.mp passes
        refine ⟨loaded', ?_, rfl⟩
        rw [if_pos first, passed, Option.bind_eq_bind, Option.bind_some,
          melissaCheckData_passed passed, init, ← melissaCheckData_passed passed']
        exact read
      · rename_i later
        rw [if_neg later]
        split at load
        · rename_i first
          obtain ⟨checked', passed', rfl⟩ := Option.map_eq_some_iff.mp load
          rw [passed', Option.isSome_some] at passes
          obtain ⟨checked, passed⟩ := Option.isSome_iff_exists.mp passes
          refine ⟨_, ?_, rfl⟩
          rw [if_pos first, passed, Option.map_some, melissaCheckData_passed passed, init,
            melissaCheckData_passed passed']
        · rename_i initialised
          cases load
          exact ⟨data, if_neg initialised, same⟩

variable [Zero D] [Add D] [Sub D] [Mul D] [Div D] [NatCast D] [IntCast D]
  [Pow D ℕ] [LT D] [DecidableLT D] [LE D] [DecidableLE D] [Libm D]

theorem computeVector_withoutQuantiles {options options' : Options D}
    (sample : options = { options' with samplingSize := options.samplingSize })
    {data data' : MelissaData D} (same : withoutQuantiles data = withoutQuantiles data')
    (timeStep simuId : Nat) (inVect : List D) :
    withoutQuantiles (computeVector options timeStep simuId inVect data) =
      withoutQuantiles (computeVector options' timeStep simuId inVect data') := by
  have through (options : Options D) (data : MelissaData D) :
      withoutQuantiles (computeVector options timeStep simuId inVect data) =
        withoutQuantiles (computeVector { options with samplingSize := 0 } timeStep simuId inVect
          (withoutQuantiles data)) := rfl
  rw [through options, through options', same, sample]

theorem computeStats_withoutQuantiles {options options' : Options D}
    (sample : options = { options' with samplingSize := options.samplingSize })
    {data data' computed' : MelissaData D} (same : withoutQuantiles data = withoutQuantiles data')
    {timeStep simuId : Nat} {inVectTab : List (List D)}
    (done : computeStats options' data' timeStep simuId inVectTab = some computed') :
    ∃ computed, computeStats options data timeStep simuId inVectTab = some computed ∧
      withoutQuantiles computed = withoutQuantiles computed' := by
  obtain ⟨valid, size, _⟩ := withoutQuantiles_parts same
  have sobol : options.sobolOp = options'.sobolOp := by rw [sample]
  have parameters : options.nbParameters = options'.nbParameters := by rw [sample]
  have first := computeVector_withoutQuantiles sample same timeStep simuId (inVectTab.getD 0 [])
  have indices {a b : MelissaData D} (alike : withoutQuantiles a = withoutQuantiles b) :
      withoutQuantiles (computeSobol timeStep inVectTab a) =
        withoutQuantiles (computeSobol timeStep inVectTab b) := by
    have through (data : MelissaData D) :
        withoutQuantiles (computeSobol timeStep inVectTab data) =
          computeSobol timeStep inVectTab (withoutQuantiles data) := rfl
    rw [through, through, alike]
  unfold computeStats at done ⊢
  rw [valid, size, sobol, parameters]
  split at done
  · cases done
  · rename_i checked
    rw [if_neg checked]
    split at done
    · cases done
    · rename_i readable
      rw [if_neg readable]
      dsimp only at done ⊢
      split at done
      · rename_i study
        rw [if_pos study]
        split at done
        · cases done
        · rename_i number
          cases done
          rw [if_neg number]
          exact ⟨_, rfl, computeVector_withoutQuantiles sample (indices first) _ _ _⟩
      · rename_i classic
        cases done
        rw [if_neg classic]
        exact ⟨_, rfl, first⟩

theorem accumulate_sampleFree {options options' : Options D}
    (sample : options = { options' with samplingSize := options.samplingSize })
    {data data' updated' : MelissaData D} (same : withoutQuantiles data = withoutQuantiles data')
    {m : SimuData D} (taken : accumulate options' data' m = some updated') :
    ∃ updated, accumulate options data m = some updated ∧
      withoutQuantiles updated = withoutQuantiles updated' := by
  obtain ⟨_, _, _, _, tables⟩ := withoutQuantiles_parts same
  obtain ⟨inside, cases⟩ := accumulate_cases taken
  have inside' : m.simuId < data.stepSimu.length := by
    rw [tables]
    exact inside
  have bit : bitOf data m.simuId m.timeStamp.toNat = bitOf data' m.simuId m.timeStamp.toNat := by
    rw [bitOf, tables, bitOf]
  rcases cases with ⟨old, rfl⟩ | ⟨fresh, computed', done, rfl⟩
  · exact ⟨data, accumulate_old inside' (bit.trans old), same⟩
  · have computed : ∃ computed, computeMessage options data m = some computed ∧
        withoutQuantiles computed = withoutQuantiles computed' := by
      have vectors : inVectTab options m = inVectTab options' m := by rw [sample]; rfl
      unfold computeMessage at done ⊢
      rw [vectors]
      split at done
      · rename_i positive
        rw [if_pos positive]
        exact computeStats_withoutQuantiles sample same done
      · rename_i empty
        cases done
        rw [if_neg empty]
        exact ⟨data, rfl, same⟩
    obtain ⟨computed, done, alike⟩ := computed
    refine ⟨markStep computed m, accumulate_new inside' (bit.trans fresh) done, ?_⟩
    have through (data : MelissaData D) :
        withoutQuantiles (markStep data m) = markStep (withoutQuantiles data) m := rfl
    rw [through, through, alike]

/-- The data branch does the same with another sample, unless the message initialises its
structure. -/
theorem acceptMessage_sampleFree {restore : Restore D} {server plain plain' : Server D} {now : ℚ}
    {m : SimuData D} {reply : LauncherMessage D} {fieldId : Nat}
    (same : sampleFree server = sampleFree plain)
    (complete : ∀ data, entryOf server.fields fieldId m.clientRank = some data →
      needsInit data m.vectSize = true →
        server.options.samplingSize = plain.options.samplingSize)
    (taken : acceptMessage restore plain now m reply fieldId = some plain') :
    ∃ server', acceptMessage restore server now m reply fieldId = some server' ∧
      sampleFree server' = sampleFree plain' := by
  obtain ⟨data', loaded', simu, updated', asked', entry', load', simulation, update', answered',
    done'⟩ := acceptMessage_parts taken
  have simulations : server.simulations = plain.simulations :=
    (congrArg Server.simulations same :)
  have sample : server.options =
      { plain.options with samplingSize := server.options.samplingSize } := by
    have options : { server.options with samplingSize := 0 } =
        { plain.options with samplingSize := 0 } := congrArg Server.options same
    calc
      server.options = { { server.options with samplingSize := 0 } with
          samplingSize := server.options.samplingSize } := rfl
      _ = { plain.options with samplingSize := server.options.samplingSize } := by rw [options]
  obtain ⟨data, entry, alike⟩ := entry_of_sampleFree same entry'
  have known : needsInit data m.vectSize = true → server.options = plain.options := by
    intro initialises
    rw [sample, complete data entry initialises]
  obtain ⟨loaded, load, alike'⟩ := lazyInit_sampleFree alike known load'
  obtain ⟨updated, update, alike''⟩ := accumulate_sampleFree sample alike' update'
  have counted : sampleFree (countFirstSend server fieldId m.clientRank) =
      sampleFree (countFirstSend plain fieldId m.clientRank) := by
    rw [countFirstSend_sampleFree, same, countFirstSend_sampleFree]
  have initialised := needsInit_withoutQuantiles alike m.vectSize
  have stored : sampleFree (storeEntry (countFirstSend server fieldId m.clientRank) now m fieldId
        simu (needsInit data m.vectSize) updated) =
      sampleFree (storeEntry (countFirstSend plain fieldId m.clientRank) now m fieldId simu
        (needsInit data' m.vectSize) updated') := by
    rw [storeEntry_sampleFree, storeEntry_sampleFree, counted, alike'', initialised]
  obtain ⟨asked, answered, alikeAsked⟩ := awaitReply_sampleFree stored answered'
  have progress := updateProgress_sampleFree asked m.simuId
  rw [alikeAsked, ← updateProgress_sampleFree, done', Option.map_some] at progress
  obtain ⟨server', done, alikeServer⟩ := Option.map_eq_some_iff.mp progress
  obtain ⟨sameFields, sameOptions, _, sameSimulations, _⟩ :=
    countFirstSend_parts server fieldId m.clientRank
  have inside : m.simuId < server.simulations.length := by
    rw [simulations]
    exact (List.getElem?_eq_some_iff.mp simulation).1
  have grown : growSimulations (countFirstSend server fieldId m.clientRank) m.simuId =
      countFirstSend server fieldId m.clientRank :=
    growSimulations_eq_self (by rw [sameSimulations]; exact inside)
  refine ⟨server', ?_, alikeServer⟩
  rw [← simulations] at simulation
  simp only [acceptMessage, grown, sameFields, sameOptions, sameSimulations, entry, load, update,
    simulation, answered, Option.bind_eq_bind, Option.bind_some]
  exact done

/-- A step does the same with another sample, unless it initialises a structure. -/
theorem step_sampleFree {restore : Restore D} {server plain plain' : Server D} {event : Event D}
    (same : sampleFree server = sampleFree plain)
    (complete : ∀ now m reply fieldId data, event = .data now m reply →
      Admitted server m fieldId → entryOf server.fields fieldId m.clientRank = some data →
        needsInit data m.vectSize = true →
          server.options.samplingSize = plain.options.samplingSize)
    (taken : step restore plain event = some plain') :
    ∃ server', step restore server event = some server' ∧
      sampleFree server' = sampleFree plain' := by
  cases event with
  | data now m reply =>
      have steps : server.options.nbTimeSteps = plain.options.nbTimeSteps :=
        congrArg (fun server => server.options.nbTimeSteps) same
      have names : server.fields.map MelissaField.name = plain.fields.map MelissaField.name := by
        have mapped := congrArg (fun server : Server D => server.fields.map MelissaField.name) same
        simpa [sampleFree, Function.comp_def] using mapped
      rw [step, dataMessage] at taken ⊢
      rw [steps, getFieldId_eq_of_names names]
      split at taken
      · rename_i bad
        cases taken
        rw [if_pos bad]
        exact ⟨server, rfl, same⟩
      · rename_i good
        rw [if_neg good]
        cases known : getFieldId plain.fields m.fieldName with
        | none =>
            rw [known] at taken
            cases taken
            exact ⟨server, rfl, same⟩
        | some fieldId =>
            rw [known] at taken
            have admitted : Admitted server m fieldId := by
              refine ⟨by omega, by omega, ?_⟩
              rw [getFieldId_eq_of_names names]
              exact known
            exact acceptMessage_sampleFree same
              (fun data => complete now m reply fieldId data rfl admitted) taken
  | launcher msg =>
      obtain ⟨handled', processed', rfl⟩ := Option.map_eq_some_iff.mp taken
      have processed := processLauncherMessage_sampleFree server msg
      rw [same, ← processLauncherMessage_sampleFree, processed', Option.map_some] at processed
      obtain ⟨handled, processed, alike⟩ := Option.map_eq_some_iff.mp processed
      refine ⟨_, Option.map_eq_some_iff.mpr ⟨handled, processed, rfl⟩, alike⟩
  | timeouts now =>
      cases taken
      refine ⟨_, rfl, ?_⟩
      rw [timeoutRound_sampleFree, same, timeoutRound_sampleFree]

end Resampled

section Runs

variable {D : Type} [Zero D] [Add D] [Sub D] [Mul D] [Div D] [NatCast D] [IntCast D]
  [Pow D ℕ] [LT D] [DecidableLT D] [LE D] [DecidableLE D] [Libm D]

/-- Without silence the sample stays whole. -/
theorem wholeSample_step {restore : Restore D} {server server' : Server D} {event : Event D}
    (whole : WholeSample server) (taken : step restore server event = some server') :
    WholeSample server' := by
  obtain ⟨length, sample | sample⟩ := step_sizes taken
  · exact sample.trans (whole.trans (by rw [length]))
  · exact sample.trans (by rw [length])

theorem roundStep_sameStudy {restore : Restore D} {server server' : Server D} {round : Round D}
    (taken : roundStep restore server round = some server') : SameStudy server server' := by
  cases round with
  | work event => exact step_sameStudy taken
  | silence =>
      cases taken
      exact ⟨rfl, rfl, rfl, fun _ _ => rfl⟩
  | checkpoint now =>
      cases taken
      unfold saveTime
      split
      · exact ⟨rfl, rfl, rfl, fun _ _ => rfl⟩
      · exact sameStudy_refl server

theorem rounds_sameStudy {restore : Restore D} {server server' : Server D}
    {rounds : List (Round D)} (reached : run (roundStep restore) server rounds = some server') :
    SameStudy server server' := by
  have preserved (mid : Server D) (round : Round D) (next : Server D)
      (same : SameStudy server mid) (taken : roundStep restore mid round = some next) :
      SameStudy server next := sameStudy_trans same (roundStep_sameStudy taken)
  exact run_invariant preserved (sameStudy_refl server) reached

/-- Silence or not, the sample has no more simulations than the server knows. -/
theorem sample_le_roundStep {restore : Restore D} {server server' : Server D} {round : Round D}
    (inside : server.options.samplingSize ≤ (server.simulations.length : Int))
    (taken : roundStep restore server round = some server') :
    server'.options.samplingSize ≤ (server'.simulations.length : Int) := by
  cases round with
  | work event =>
      obtain ⟨length, sample | sample⟩ := step_sizes taken
      · rw [sample, length]
        exact inside
      · rw [sample, length]
  | silence =>
      cases taken
      change server.options.samplingSize - (unsubmitted server : Int) ≤
        (server.simulations.length : Int)
      omega
  | checkpoint now =>
      cases taken
      unfold saveTime
      split
      · exact inside
      · exact inside

/-- As long as the launcher is heard from, every round finds the whole sample. -/
theorem meets_of_heard {restore : Restore D} {start : Server D} {rounds : List (Round D)}
    (whole : WholeSample start) (heard : .silence ∉ rounds) :
    Meets (roundStep restore) CompleteSample start rounds := by
  intro front round back mid cut reached
  have preserved (server : Server D) (round : Round D) (member : round ∈ front) (next : Server D)
      (whole : WholeSample server) (taken : roundStep restore server round = some next) :
      WholeSample next := by
    cases round with
    | work event => exact wholeSample_step whole taken
    | silence => exact absurd (by rw [cut]; exact List.mem_append_left _ member) heard
    | checkpoint now =>
        cases taken
        unfold saveTime
        split
        · exact whole
        · exact whole
  exact completeSample_of_whole (run_invariant_of_mem preserved whole reached) round

/-- A round against the step of its work without the silence. -/
theorem roundStep_sampleFree {restore : Restore D} {server plain plain' : Server D}
    {round : Round D}
    (same : sampleFree server = sampleFree plain) (whole : WholeSample plain)
    (complete : CompleteSample server round)
    (taken : run (step restore) plain round.event.toList = some plain') :
    ∃ server', roundStep restore server round = some server' ∧
      sampleFree server' = sampleFree plain' := by
  cases round with
  | work event =>
      have simulations : server.simulations = plain.simulations :=
        (congrArg Server.simulations same :)
      rw [Round.event, Option.toList_some, run_cons, Option.bind_eq_some_iff] at taken
      obtain ⟨next, taken, done⟩ := taken
      cases done
      refine step_sampleFree same ?_ taken
      rintro now m reply fieldId data rfl admitted entry initialises
      have whole' : WholeSample server := complete fieldId data admitted entry initialises
      exact whole'.trans (by rw [simulations, whole])
  | silence =>
      cases taken
      exact ⟨_, rfl, same⟩
  | checkpoint now =>
      cases taken
      exact ⟨_, rfl, (sampleFree_saveTime server now).trans same⟩

/-- A run that initialises structures only with the whole sample goes as far as the same work
without the silence, and to the same state but for the sample and the quantiles. -/
theorem run_sampleFree {restore : Restore D} {start last : Server D} {rounds : List (Round D)}
    (whole : WholeSample start)
    (complete : Meets (roundStep restore) CompleteSample start rounds)
    (reached : run (step restore) start (eventsOf rounds) = some last) :
    WholeSample last ∧ ∃ server, run (roundStep restore) start rounds = some server ∧
      sampleFree server = sampleFree last := by
  induction rounds using List.reverseRecOn generalizing last with
  | nil =>
      cases reached
      exact ⟨whole, start, rfl, rfl⟩
  | append_singleton past round ih =>
      rw [eventsOf_concat, run_append, Option.bind_eq_some_iff] at reached
      obtain ⟨mid, before, onward⟩ := reached
      obtain ⟨completePast, completeLast⟩ := meets_concat.mp complete
      obtain ⟨wholeMid, server, reachedMid, same⟩ := ih completePast before
      obtain ⟨server', taken, same'⟩ :=
        roundStep_sampleFree same wholeMid (completeLast server reachedMid) onward
      refine ⟨?_, server', run_concat_eq_some.mpr ⟨server, reachedMid, taken⟩, same'⟩
      exact run_invariant (fun _ _ _ => wholeSample_step) wholeMid onward

/-- A run at whose end the launcher is silent. -/
def thenSilent {D : Type} (events : List (Event D)) : List (Round D) :=
  events.map Round.work ++ [.silence]

theorem eventsOf_thenSilent {D : Type} (events : List (Event D)) :
    eventsOf (thenSilent events) = events := by
  rw [thenSilent, eventsOf_concat, eventsOf_works]
  exact List.append_nil _

theorem thenSilent_complete {restore : Restore D} {start : Server D} (whole : WholeSample start)
    (events : List (Event D)) :
    Meets (roundStep restore) CompleteSample start (thenSilent events) := by
  refine meets_concat.mpr ⟨meets_of_heard whole ?_, fun _ _ => trivial⟩
  intro heard
  obtain ⟨event, _, silent⟩ := List.mem_map.mp heard
  cases silent

end Runs

end Melissa
