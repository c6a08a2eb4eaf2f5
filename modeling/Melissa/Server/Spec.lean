import Melissa.Server.Loop

/-! What the handlers of the server do to each part of its state. -/

namespace Melissa

open Runs

section Entries

variable {D : Type}

theorem entryOf_setEntry_same {fields : List (MelissaField D)} {fieldId clientRank : Nat}
    {old : MelissaData D} (present : entryOf fields fieldId clientRank = some old)
    (data : MelissaData D) :
    entryOf (setEntry fields fieldId clientRank data) fieldId clientRank = some data := by
  unfold entryOf at present ⊢
  obtain ⟨field, found, inside⟩ := Option.bind_eq_some_iff.mp present
  have bound : clientRank < field.statsData.length := by
    obtain ⟨bound, _⟩ := List.getElem?_eq_some_iff.mp inside
    exact bound
  simp [setEntry, found, bound]

theorem entryOf_setEntry_other {fieldId clientRank fieldId' clientRank' : Nat}
    (apart : ¬ (fieldId' = fieldId ∧ clientRank' = clientRank)) (fields : List (MelissaField D))
    (data : MelissaData D) :
    entryOf (setEntry fields fieldId clientRank data) fieldId' clientRank' =
      entryOf fields fieldId' clientRank' := by
  unfold entryOf setEntry
  rw [List.getElem?_modify]
  cases found : fields[fieldId']? with
  | none => simp
  | some field =>
      by_cases same : fieldId = fieldId'
      · have other : clientRank ≠ clientRank' := by
          intro equal
          exact apart ⟨same.symm, equal.symm⟩
        simp [same, other]
      · simp [same]

/-- A structure after one was replaced: the new one, or an old one elsewhere. -/
theorem entryOf_setEntry_cases {fields : List (MelissaField D)}
    {fieldId clientRank fieldId' clientRank' : Nat} {old data data' : MelissaData D}
    (entry : entryOf fields fieldId clientRank = some old)
    (present : entryOf (setEntry fields fieldId clientRank data) fieldId' clientRank' =
      some data') :
    (fieldId' = fieldId ∧ clientRank' = clientRank ∧ data' = data) ∨
      ¬ (fieldId' = fieldId ∧ clientRank' = clientRank) ∧
        entryOf fields fieldId' clientRank' = some data' := by
  by_cases here : fieldId' = fieldId ∧ clientRank' = clientRank
  · obtain ⟨rfl, rfl⟩ := here
    rw [entryOf_setEntry_same entry] at present
    exact Or.inl ⟨rfl, rfl, (Option.some.inj present).symm⟩
  · rw [entryOf_setEntry_other here] at present
    exact Or.inr ⟨here, present⟩

theorem mem_entries {fields : List (MelissaField D)} {data : MelissaData D} :
    data ∈ fields.flatMap MelissaField.statsData ↔
      ∃ fieldId clientRank, entryOf fields fieldId clientRank = some data := by
  constructor
  · intro member
    obtain ⟨field, present, inside⟩ := List.mem_flatMap.mp member
    obtain ⟨fieldId, found⟩ := List.mem_iff_getElem?.mp present
    obtain ⟨clientRank, here⟩ := List.mem_iff_getElem?.mp inside
    exact ⟨fieldId, clientRank, by simp [entryOf, found, here]⟩
  · intro somewhere
    obtain ⟨fieldId, clientRank, present⟩ := somewhere
    obtain ⟨field, found, here⟩ := Option.bind_eq_some_iff.mp present
    exact List.mem_flatMap.mpr
      ⟨field, List.mem_of_getElem? found, List.mem_of_getElem? here⟩

theorem map_name_setEntry (fields : List (MelissaField D)) (fieldId clientRank : Nat)
    (data : MelissaData D) :
    (setEntry fields fieldId clientRank data).map MelissaField.name =
      fields.map MelissaField.name := by
  apply List.ext_getElem?
  intro i
  simp only [setEntry, List.getElem?_map, List.getElem?_modify]
  cases fields[i]? with
  | none => rfl
  | some field =>
      by_cases same : fieldId = i
      · simp [same]
      · simp [same]

theorem getFieldId_eq_of_names {fields fields' : List (MelissaField D)}
    (same : fields'.map MelissaField.name = fields.map MelissaField.name) (fieldName : String) :
    getFieldId fields' fieldName = getFieldId fields fieldName := by
  have through (fields : List (MelissaField D)) :
      getFieldId fields fieldName = (fields.map MelissaField.name).findIdx? (· == fieldName) := by
    rw [List.findIdx?_map]
    rfl
  rw [through, through, same]

end Entries

section Progress

variable {D : Type}

/-- Nothing of simulation `groupId` is missing from this structure, as `check_simu_state`
sees it: a structure that has not received anything counts as complete. -/
def entryComplete (nbTimeSteps groupId : Nat) (data : MelissaData D) : Prop :=
  data.stepsInit = true →
    ∃ bits, data.stepSimu[groupId]? = some bits ∧ allSteps nbTimeSteps bits = true

theorem checkEntries_eq_two {nbTimeSteps groupId : Nat} {entries : List (MelissaData D)} :
    checkEntries nbTimeSteps groupId entries = some 2 ↔
      ∀ data ∈ entries, entryComplete nbTimeSteps groupId data := by
  induction entries with
  | nil => simp [checkEntries]
  | cons data rest ih =>
      rw [checkEntries, List.forall_mem_cons, ← ih]
      unfold entryComplete
      cases data.stepsInit with
      | false => simp
      | true =>
          cases data.stepSimu[groupId]? with
          | none => simp
          | some bits =>
              by_cases complete : allSteps nbTimeSteps bits = true
              · simp [complete]
              · simp [complete]

theorem checkEntries_cases {nbTimeSteps groupId status : Nat} {entries : List (MelissaData D)}
    (checked : checkEntries nbTimeSteps groupId entries = some status) :
    status = 1 ∨ status = 2 := by
  induction entries with
  | nil => exact Or.inr (Option.some.inj checked).symm
  | cons data rest ih =>
      rw [checkEntries] at checked
      cases initialised : data.stepsInit with
      | false =>
          rw [initialised] at checked
          exact ih (by simpa using checked)
      | true =>
          cases found : data.stepSimu[groupId]? with
          | none => simp [initialised, found] at checked
          | some bits =>
              cases complete : allSteps nbTimeSteps bits with
              | true => exact ih (by simpa [initialised, found, complete] using checked)
              | false =>
                  have : status = 1 := by
                    simpa [initialised, found, complete] using checked.symm
                  exact Or.inl this

theorem checkEntries_isSome {nbTimeSteps groupId : Nat} {entries : List (MelissaData D)}
    (sized : ∀ data ∈ entries, data.stepsInit = true → groupId < data.stepSimu.length) :
    ∃ status, checkEntries nbTimeSteps groupId entries = some status := by
  induction entries with
  | nil => exact ⟨2, rfl⟩
  | cons data rest ih =>
      rw [List.forall_mem_cons] at sized
      obtain ⟨status, onward⟩ := ih sized.2
      rw [checkEntries]
      cases initialised : data.stepsInit with
      | false => exact ⟨status, by simpa using onward⟩
      | true =>
          have inside := sized.1 initialised
          rw [List.getElem?_eq_getElem inside]
          cases complete : allSteps nbTimeSteps data.stepSimu[groupId] with
          | true => exact ⟨status, by simpa [complete] using onward⟩
          | false => exact ⟨1, by simp [complete]⟩

theorem checkSimuState_eq_two {fields : List (MelissaField D)} {nbTimeSteps groupId : Nat} :
    checkSimuState fields nbTimeSteps groupId = some 2 ↔
      ∀ fieldId clientRank data, entryOf fields fieldId clientRank = some data →
        entryComplete nbTimeSteps groupId data := by
  rw [checkSimuState, checkEntries_eq_two]
  constructor
  · intro complete fieldId clientRank data present
    exact complete data (mem_entries.mpr ⟨fieldId, clientRank, present⟩)
  · intro complete data member
    obtain ⟨fieldId, clientRank, present⟩ := mem_entries.mp member
    exact complete fieldId clientRank data present

theorem checkSimuState_setEntry {fields : List (MelissaField D)}
    {fieldId clientRank nbTimeSteps groupId : Nat} {old data : MelissaData D}
    (entry : entryOf fields fieldId clientRank = some old) :
    checkSimuState (setEntry fields fieldId clientRank data) nbTimeSteps groupId = some 2 ↔
      entryComplete nbTimeSteps groupId data ∧
        ∀ fieldId' clientRank' data', ¬ (fieldId' = fieldId ∧ clientRank' = clientRank) →
          entryOf fields fieldId' clientRank' = some data' →
            entryComplete nbTimeSteps groupId data' := by
  rw [checkSimuState_eq_two]
  constructor
  · intro complete
    refine ⟨complete fieldId clientRank data (entryOf_setEntry_same entry data), ?_⟩
    intro fieldId' clientRank' data' other present
    exact complete fieldId' clientRank' data' ((entryOf_setEntry_other other _ _).trans present)
  · rintro ⟨own, others⟩ fieldId' clientRank' data' present
    rcases entryOf_setEntry_cases entry present with ⟨_, _, rfl⟩ | ⟨other, present⟩
    · exact own
    · exact others fieldId' clientRank' data' other present

end Progress

section Launcher

variable {D : Type}

def statuses (server : Server D) : List Nat := server.simulations.map Simulation.status

def parametersOf (server : Server D) : List (Option (List D)) :=
  server.simulations.map Simulation.parameters

/-- Replacing an element does not show where it looks the same. -/
theorem map_set_of_same {α β : Type} {f : α → β} {items : List α} {i : Nat} {old new : α}
    (present : items[i]? = some old) (same : f new = f old) :
    (items.set i new).map f = items.map f := by
  obtain ⟨inside, here⟩ := List.getElem?_eq_some_iff.mp present
  have bound : i < (items.map f).length := by simpa using inside
  have unchanged : f new = (items.map f)[i] := by simp [here, same]
  rw [List.map_set, unchanged, List.set_getElem_self]

theorem growVector_eq_self {α : Type} {vector : List α} {simuId : Nat}
    (inside : simuId < vector.length) (item : α) : growVector vector simuId item = vector := by
  have none_missing : simuId - vector.length = 0 := by omega
  simp [growVector, none_missing]

/-- The growing loop never makes room for the element itself. -/
theorem growVector_inside {α : Type} {vector : List α} {simuId : Nat} {item found : α}
    (present : (growVector vector simuId item)[simuId]? = some found) :
    simuId < vector.length ∧ vector[simuId]? = some found := by
  by_cases inside : simuId < vector.length
  · rw [growVector_eq_self inside] at present
    exact ⟨inside, present⟩
  · have short : (growVector vector simuId item).length ≤ simuId := by
      simp [growVector]
      omega
    rw [List.getElem?_eq_none short] at present
    cases present

/-- The effect of a launcher message that is survived: on the simulation of a JOB, or none. -/
inductive LauncherEffect (server : Server D) : LauncherMessage D → Server D → Prop where
  | job {job : Job D} {simu : Simulation D}
      (present : server.simulations[job.simuId]? = some simu)
      (enough : server.options.nbParameters ≤ job.parameters.length) :
      LauncherEffect server (.job job) { server with
        simulations := server.simulations.set job.simuId { simu with
          jobId := job.jobId, jobStatus := 0
          parameters := some (job.parameters.take server.options.nbParameters) } }
  | nothing {msg : LauncherMessage D} (noJob : ∀ job, msg ≠ .job job)
      (noDrop : ∀ simuId jobId, msg ≠ .drop simuId jobId) : LauncherEffect server msg server

theorem launcherEffect {server server' : Server D} {msg : LauncherMessage D}
    (taken : processLauncherMessage server msg = some server') :
    LauncherEffect server msg server' := by
  cases msg with
  | job job =>
      simp only [processLauncherMessage, Option.bind_eq_bind, Option.bind_eq_some_iff] at taken
      obtain ⟨simu, present, simu', assigned, done⟩ := taken
      obtain ⟨inside, found⟩ := growVector_inside present
      rw [growVector_eq_self inside] at done
      unfold assignJob at assigned
      split at assigned
      · cases assigned
      · rename_i enough
        cases assigned
        cases done
        exact .job found (by omega)
  | drop simuId jobId => cases taken
  | hello => cases taken; exact .nothing nofun nofun
  | alive => cases taken; exact .nothing nofun nofun
  | options => cases taken; exact .nothing nofun nofun
  | unknown messageType => cases taken; exact .nothing nofun nofun

theorem processLauncherMessage_job {server server' : Server D} {job : Job D}
    (taken : processLauncherMessage server (.job job) = some server') :
    job.simuId < server.simulations.length ∧
      server.options.nbParameters ≤ job.parameters.length ∧
      statuses server' = statuses server ∧
      parametersOf server' = (parametersOf server).set job.simuId
        (some (job.parameters.take server.options.nbParameters)) ∧
      server' = { server with simulations := server'.simulations } := by
  cases launcherEffect taken with
  | job present enough =>
      obtain ⟨inside, _⟩ := List.getElem?_eq_some_iff.mp present
      refine ⟨inside, enough, map_set_of_same present rfl, ?_, rfl⟩
      exact List.map_set
  | nothing noJob noDrop => exact absurd rfl (noJob job)

theorem processLauncherMessage_job_succeeds {server : Server D} {job : Job D}
    (inside : job.simuId < server.simulations.length)
    (enough : server.options.nbParameters ≤ job.parameters.length) :
    ∃ server', processLauncherMessage server (.job job) = some server' := by
  simp only [processLauncherMessage, growVector_eq_self inside, Option.bind_eq_bind,
    List.getElem?_eq_getElem inside, Option.bind_some, assignJob]
  rw [if_neg (by omega)]
  exact ⟨_, rfl⟩

end Launcher

section Parts

variable {D : Type}

theorem updateProgress_cases {server server' : Server D} {simuId : Nat}
    (taken : updateProgress server simuId = some server') :
    ∃ simu status, server.simulations[simuId]? = some simu ∧
      checkSimuState server.fields server.options.nbTimeSteps simuId = some status ∧
      server'.fields = server.fields ∧
      statuses server' = (statuses server).set simuId status ∧
      parametersOf server' = parametersOf server ∧
      server'.nbFinishedSimulations =
        (if status = 2 ∧ simu.status ≠ 2 then server.nbFinishedSimulations + 1
          else server.nbFinishedSimulations) ∧
      server'.options = server.options ∧ server'.commData = server.commData := by
  simp only [updateProgress, Option.bind_eq_bind, Option.bind_eq_some_iff] at taken
  obtain ⟨simu, present, status, checked, done⟩ := taken
  cases done
  refine ⟨simu, status, present, checked, rfl, ?_, ?_, rfl, rfl, rfl⟩
  · simp [Melissa.statuses, List.map_set]
  · exact map_set_of_same present rfl

@[simp] theorem countFirstSend_parts (server : Server D) (fieldId clientRank : Nat) :
    (countFirstSend server fieldId clientRank).fields = server.fields ∧
      (countFirstSend server fieldId clientRank).options = server.options ∧
      (countFirstSend server fieldId clientRank).commData = server.commData ∧
      (countFirstSend server fieldId clientRank).simulations = server.simulations ∧
      (countFirstSend server fieldId clientRank).nbFinishedSimulations =
        server.nbFinishedSimulations := by
  simp only [countFirstSend]
  split
  · simp only [and_self]
  · simp only [and_self]

theorem growSimulations_eq_self {server : Server D} {simuId : Nat}
    (inside : simuId < server.simulations.length) : growSimulations server simuId = server := by
  unfold growSimulations
  rw [if_neg (by omega)]

theorem growSimulations_inside {server : Server D} {simuId : Nat} {simu : Simulation D}
    (present : (growSimulations server simuId).simulations[simuId]? = some simu) :
    growSimulations server simuId = server ∧ server.simulations[simuId]? = some simu := by
  unfold growSimulations at present ⊢
  split at present
  · rename_i beyond
    obtain ⟨inside, _⟩ := growVector_inside present
    omega
  · rename_i within
    exact ⟨by rw [if_neg within], present⟩

theorem awaitReply_cases {server server' : Server D} {waiting : Bool} {reply : Job D}
    (taken : awaitReply server waiting (.job reply) = some server') :
    server' = { server with simulations := server'.simulations } ∧
      statuses server' = statuses server ∧
      (waiting = true → reply.simuId < server.simulations.length ∧
        server.options.nbParameters ≤ reply.parameters.length ∧
        parametersOf server' = (parametersOf server).set reply.simuId
          (some (reply.parameters.take server.options.nbParameters))) ∧
      (waiting = false → parametersOf server' = parametersOf server) := by
  unfold awaitReply at taken
  cases waiting with
  | false =>
      cases taken
      simp
  | true =>
      obtain ⟨inside, enough, sameStatuses, assigned, rest⟩ :=
        processLauncherMessage_job (by simpa using taken)
      exact ⟨rest, sameStatuses, fun _ => ⟨inside, enough, assigned⟩, by simp⟩

theorem awaitReply_succeeds (server : Server D) (waiting : Bool) (reply : Job D)
    (replied : waiting = true → reply.simuId < server.simulations.length ∧
      server.options.nbParameters ≤ reply.parameters.length) :
    ∃ server', awaitReply server waiting (.job reply) = some server' := by
  unfold awaitReply
  cases waiting with
  | false => exact ⟨server, by simp⟩
  | true =>
      obtain ⟨inside, enough⟩ := replied rfl
      obtain ⟨server', taken⟩ := processLauncherMessage_job_succeeds inside enough
      exact ⟨server', by simpa using taken⟩

theorem storeEntry_parts (server : Server D) {m : SimuData D} {simu : Simulation D}
    (present : server.simulations[m.simuId]? = some simu) (now : ℚ) (fieldId : Nat)
    (initialised : Bool) (updated : MelissaData D) :
    statuses (storeEntry server now m fieldId simu initialised updated) = statuses server ∧
      parametersOf (storeEntry server now m fieldId simu initialised updated) =
        parametersOf server ∧
      (storeEntry server now m fieldId simu initialised updated).simulations.length =
        server.simulations.length := by
  refine ⟨map_set_of_same present rfl, map_set_of_same present rfl, ?_⟩
  simp [storeEntry]

theorem status_eq_of_statuses {server server' : Server D} {simuId : Nat}
    {simu simu' : Simulation D} (same : statuses server' = statuses server)
    (present : server.simulations[simuId]? = some simu)
    (present' : server'.simulations[simuId]? = some simu') : simu'.status = simu.status := by
  have at' : (statuses server')[simuId]? = some simu'.status := by simp [statuses, present']
  have here : (statuses server)[simuId]? = some simu.status := by simp [statuses, present]
  rw [same, here] at at'
  exact (Option.some.inj at').symm

end Parts

section Data

variable {D : Type} [Zero D] [Add D] [Sub D] [Mul D] [Div D] [NatCast D] [IntCast D]
  [Pow D ℕ] [LT D] [DecidableLT D] [LE D] [DecidableLE D] [Libm D]

/-- The effect of one accepted message, named part by part. -/
structure Accepted (restore : Restore D) (server : Server D) (m : SimuData D) (reply : Job D)
    (fieldId : Nat) (server' : Server D) (simu : Simulation D)
    (data loaded updated : MelissaData D) (status : Nat) : Prop where
  simulation : server.simulations[m.simuId]? = some simu
  entry : entryOf server.fields fieldId m.clientRank = some data
  load : lazyInit (restore m.fieldName m.clientRank) server.options data m.vectSize = some loaded
  update : accumulate server.options loaded m = some updated
  fields : server'.fields = setEntry server.fields fieldId m.clientRank updated
  progress : checkSimuState server'.fields server.options.nbTimeSteps m.simuId = some status
  statuses : statuses server' = (statuses server).set m.simuId status
  finished : server'.nbFinishedSimulations =
    if status = 2 ∧ simu.status ≠ 2 then server.nbFinishedSimulations + 1
    else server.nbFinishedSimulations
  options : server'.options = server.options
  commData : server'.commData = server.commData
  answered : waitsForJob simu m.vectSize = true →
    reply.simuId < server.simulations.length ∧
      server.options.nbParameters ≤ reply.parameters.length ∧
      parametersOf server' = (parametersOf server).set reply.simuId
        (some (reply.parameters.take server.options.nbParameters))
  unasked : waitsForJob simu m.vectSize = false → parametersOf server' = parametersOf server

/-- The structure of an accepted message is the one that these steps give. -/
theorem Accepted.fields_of {restore : Restore D} {server server' : Server D} {m : SimuData D}
    {reply : Job D} {fieldId status : Nat} {simu : Simulation D}
    {data loaded updated data' loaded' updated' : MelissaData D}
    (accepted : Accepted restore server m reply fieldId server' simu data loaded updated status)
    (entry : entryOf server.fields fieldId m.clientRank = some data')
    (load : lazyInit (restore m.fieldName m.clientRank) server.options data' m.vectSize =
      some loaded')
    (update : accumulate server.options loaded' m = some updated') :
    server'.fields = setEntry server.fields fieldId m.clientRank updated' := by
  have sameData := accepted.entry
  rw [entry] at sameData
  cases sameData
  have sameLoaded := accepted.load
  rw [load] at sameLoaded
  cases sameLoaded
  have sameUpdated := accepted.update
  rw [update] at sameUpdated
  cases sameUpdated
  exact accepted.fields

/-- The calls that an accepted message has gone through. -/
theorem acceptMessage_parts {restore : Restore D} {server server' : Server D} {now : ℚ}
    {m : SimuData D} {reply : LauncherMessage D} {fieldId : Nat}
    (taken : acceptMessage restore server now m reply fieldId = some server') :
    ∃ data loaded simu updated asked,
      entryOf server.fields fieldId m.clientRank = some data ∧
      lazyInit (restore m.fieldName m.clientRank) server.options data m.vectSize = some loaded ∧
      server.simulations[m.simuId]? = some simu ∧
      accumulate server.options loaded m = some updated ∧
      awaitReply (storeEntry (countFirstSend server fieldId m.clientRank) now m fieldId simu
        (needsInit data m.vectSize) updated) (waitsForJob simu m.vectSize) reply = some asked ∧
      updateProgress asked m.simuId = some server' := by
  obtain ⟨sameFields, sameOptions, _, sameSimulations, _⟩ :=
    countFirstSend_parts server fieldId m.clientRank
  simp only [acceptMessage, Option.bind_eq_bind, Option.bind_eq_some_iff] at taken
  obtain ⟨data, entry, loaded, load, simu, simulation, updated, update, asked, replied, done⟩ :=
    taken
  obtain ⟨grown, simulation⟩ := growSimulations_inside simulation
  rw [grown] at entry load update replied
  rw [sameFields] at entry
  rw [sameOptions] at load update
  rw [sameSimulations] at simulation
  exact ⟨data, loaded, simu, updated, asked, entry, load, simulation, update, replied, done⟩

theorem acceptMessage_cases {restore : Restore D} {server server' : Server D} {now : ℚ}
    {m : SimuData D} {reply : Job D} {fieldId : Nat}
    (taken : acceptMessage restore server now m (.job reply) fieldId = some server') :
    ∃ simu data loaded updated status,
      Accepted restore server m reply fieldId server' simu data loaded updated status := by
  obtain ⟨sameFields, sameOptions, sameComm, sameSimulations, sameFinished⟩ :=
    countFirstSend_parts server fieldId m.clientRank
  obtain ⟨data, loaded, simu, updated, asked, entry, load, simulation, update, reply', done⟩ :=
    acceptMessage_parts taken
  obtain ⟨simu', status, present, progress, fields', statuses', parameters', finished', options',
    commData'⟩ := updateProgress_cases done
  obtain ⟨rest, askedStatuses, answer, silent⟩ := awaitReply_cases reply'
  obtain ⟨storedStatuses, storedParameters, storedLength⟩ := storeEntry_parts
    (countFirstSend server fieldId m.clientRank) (by rw [sameSimulations]; exact simulation) now
    fieldId (needsInit data m.vectSize) updated
  have countedStatuses : statuses (countFirstSend server fieldId m.clientRank) = statuses server :=
    by rw [statuses, sameSimulations, statuses]
  have countedParameters : parametersOf (countFirstSend server fieldId m.clientRank) =
      parametersOf server := by rw [parametersOf, sameSimulations, parametersOf]
  have stored : asked.fields = setEntry server.fields fieldId m.clientRank updated ∧
      asked.options = server.options ∧ asked.commData = server.commData ∧
      asked.nbFinishedSimulations = server.nbFinishedSimulations := by
    rw [rest]
    simp [storeEntry]
  obtain ⟨storedFields, storedOptions, storedComm, storedFinished⟩ := stored
  have unchanged : statuses asked = statuses server := by
    rw [askedStatuses, storedStatuses, countedStatuses]
  have before : simu'.status = simu.status := status_eq_of_statuses unchanged simulation present
  refine ⟨simu, data, loaded, updated, status, ?_⟩
  refine
    { simulation := simulation, entry := entry, load := load, update := update
      fields := fields'.trans storedFields
      progress := by rw [fields', ← storedOptions]; exact progress
      statuses := by rw [statuses', unchanged]
      finished := by rw [finished', storedFinished, before]
      options := options'.trans storedOptions
      commData := commData'.trans storedComm
      answered := ?_
      unasked := ?_ }
  · intro waits
    obtain ⟨inside, enough, assigned⟩ := answer waits
    rw [storedLength, sameSimulations] at inside
    refine ⟨inside, by simpa [storeEntry, sameOptions] using enough, ?_⟩
    rw [parameters', assigned, storedParameters, countedParameters]
    simp [storeEntry]
  · intro idle
    rw [parameters', silent idle, storedParameters, countedParameters]

/-- A message whose parts all go through is handled to its end. -/
theorem acceptMessage_succeeds {restore : Restore D} {server : Server D} {m : SimuData D}
    {reply : Job D} {fieldId status : Nat} {simu : Simulation D}
    {data loaded updated : MelissaData D}
    (simulation : server.simulations[m.simuId]? = some simu)
    (entry : entryOf server.fields fieldId m.clientRank = some data)
    (load : lazyInit (restore m.fieldName m.clientRank) server.options data m.vectSize =
      some loaded)
    (update : accumulate server.options loaded m = some updated)
    (replied : waitsForJob simu m.vectSize = true → reply.simuId < server.simulations.length ∧
      server.options.nbParameters ≤ reply.parameters.length)
    (progress : checkSimuState (setEntry server.fields fieldId m.clientRank updated)
      server.options.nbTimeSteps m.simuId = some status) (now : ℚ) :
    ∃ server', acceptMessage restore server now m (.job reply) fieldId = some server' := by
  obtain ⟨inside, _⟩ := List.getElem?_eq_some_iff.mp simulation
  obtain ⟨sameFields, sameOptions, _, sameSimulations, _⟩ :=
    countFirstSend_parts server fieldId m.clientRank
  have grown : growSimulations (countFirstSend server fieldId m.clientRank) m.simuId =
      countFirstSend server fieldId m.clientRank :=
    growSimulations_eq_self (by rw [sameSimulations]; exact inside)
  obtain ⟨_, _, storedLength⟩ := storeEntry_parts
    (countFirstSend server fieldId m.clientRank)
    (by rw [sameSimulations]; exact simulation) now fieldId (needsInit data m.vectSize) updated
  rw [sameSimulations] at storedLength
  obtain ⟨asked, answered⟩ := awaitReply_succeeds
    (storeEntry (countFirstSend server fieldId m.clientRank) now m fieldId simu
      (needsInit data m.vectSize) updated) (waitsForJob simu m.vectSize) reply (by
      intro waits
      rw [storedLength]
      simpa [storeEntry] using replied waits)
  obtain ⟨rest, askedStatuses, _, _⟩ := awaitReply_cases answered
  have length : asked.simulations.length = server.simulations.length := by
    have lengths := congrArg List.length askedStatuses
    simpa [statuses, storedLength] using lengths
  have fields : asked.fields = setEntry server.fields fieldId m.clientRank updated := by
    rw [rest]
    simp [storeEntry]
  have options : asked.options = server.options := by
    rw [rest]
    simp [storeEntry]
  have last : ∃ server', updateProgress asked m.simuId = some server' := by
    have bound : m.simuId < asked.simulations.length := by omega
    have found := List.getElem?_eq_getElem bound
    simp only [updateProgress, fields, options, found, progress, Option.bind_eq_bind,
      Option.bind_some]
    exact ⟨_, rfl⟩
  obtain ⟨server', done⟩ := last
  refine ⟨server', ?_⟩
  simp only [acceptMessage, grown, sameFields, sameOptions, sameSimulations, entry, load, update,
    simulation, answered, Option.bind_eq_bind, Option.bind_some]
  exact done

end Data

section Steps

variable {D : Type}

theorem checkTimeouts_map (now timeoutSimu : ℚ) (simulations : List (Simulation D)) :
    (checkTimeouts now timeoutSimu simulations).2.map Simulation.parameters =
        simulations.map Simulation.parameters ∧
      (checkTimeouts now timeoutSimu simulations).2.map Simulation.status =
        simulations.map fun simu => if timedOut now timeoutSimu simu then 0 else simu.status := by
  constructor
  · simp [checkTimeouts, apply_ite]
  · simp only [checkTimeouts, List.map_map]
    apply List.map_congr_left
    intro simu _
    simp only [Function.comp_apply]
    split
    · rfl
    · rfl

theorem sendTimeouts_map (detected : Nat) (simulations : List (Simulation D)) :
    (sendTimeouts detected simulations).2.map Simulation.parameters =
        simulations.map Simulation.parameters ∧
      (sendTimeouts detected simulations).2.map Simulation.status =
        simulations.map Simulation.status := by
  unfold sendTimeouts
  split
  · simp
  · simp [apply_ite]

/-- Timeouts reset running simulations to status 0 and touch nothing else that later steps
look at. -/
theorem timeoutRound_parts (server : Server D) (now : ℚ) :
    (timeoutRound server now).fields = server.fields ∧
      (timeoutRound server now).options = server.options ∧
      (timeoutRound server now).commData = server.commData ∧
      (timeoutRound server now).nbFinishedSimulations = server.nbFinishedSimulations ∧
      parametersOf (timeoutRound server now) = parametersOf server ∧
      ∃ reset : Simulation D → Bool, (∀ simu, reset simu = true → simu.status = 1) ∧
        statuses (timeoutRound server now) =
          server.simulations.map fun simu => if reset simu then 0 else simu.status := by
  obtain ⟨parameters, status⟩ :=
    checkTimeouts_map now server.options.timeoutSimu server.simulations
  obtain ⟨sentParameters, sentStatus⟩ := sendTimeouts_map
    (checkTimeouts now server.options.timeoutSimu server.simulations).1
    (checkTimeouts now server.options.timeoutSimu server.simulations).2
  have running (simu : Simulation D)
      (fired : timedOut now server.options.timeoutSimu simu = true) : simu.status = 1 := by
    simp only [timedOut, Bool.and_eq_true, beq_iff_eq] at fired
    exact fired.1.1
  unfold timeoutRound
  split
  · dsimp only
    split
    · refine ⟨rfl, rfl, rfl, rfl, sentParameters.trans parameters, ?_⟩
      exact ⟨timedOut now server.options.timeoutSimu, running, sentStatus.trans status⟩
    · refine ⟨rfl, rfl, rfl, rfl, parameters, ?_⟩
      exact ⟨timedOut now server.options.timeoutSimu, running, status⟩
  · refine ⟨rfl, rfl, rfl, rfl, rfl, fun _ => false, by simp, ?_⟩
    simp [statuses]

/-- A launcher message leaves the fields alone; the sample becomes the known simulations. -/
theorem textMessage_parts {server server' : Server D} {msg : LauncherMessage D}
    (taken : textMessage server msg = some server') :
    server'.fields = server.fields ∧ server'.commData = server.commData ∧
      server'.simulations.length = server.simulations.length ∧
      server'.options = { server.options with
        samplingSize := (server.simulations.length : Int) } := by
  obtain ⟨handled, processed, rfl⟩ := Option.map_eq_some_iff.mp taken
  cases launcherEffect processed with
  | job present enough => simp
  | nothing noJob noDrop => simp

variable [Zero D] [Add D] [Sub D] [Mul D] [Div D] [NatCast D] [IntCast D]
  [Pow D ℕ] [LT D] [DecidableLT D] [LE D] [DecidableLE D] [Libm D]

/-- The message passes the tests at the top of the data branch. -/
def Admitted (server : Server D) (m : SimuData D) (fieldId : Nat) : Prop :=
  0 ≤ m.timeStamp ∧ m.timeStamp.toNat < server.options.nbTimeSteps ∧
    getFieldId server.fields m.fieldName = some fieldId

theorem dataMessage_cases {restore : Restore D} {server server' : Server D} {now : ℚ}
    {m : SimuData D} {reply : Job D}
    (taken : dataMessage restore server now m (.job reply) = some server') :
    (server' = server ∧ ∀ fieldId, ¬ Admitted server m fieldId) ∨
      ∃ fieldId, Admitted server m fieldId ∧ ∃ simu data loaded updated status,
        Accepted restore server m reply fieldId server' simu data loaded updated status := by
  unfold dataMessage at taken
  split at taken
  · rename_i bad
    cases taken
    refine Or.inl ⟨rfl, ?_⟩
    intro fieldId admitted
    obtain ⟨valid, below, _⟩ := admitted
    omega
  · rename_i good
    cases known : getFieldId server.fields m.fieldName with
    | none =>
        rw [known] at taken
        cases taken
        refine Or.inl ⟨rfl, ?_⟩
        intro fieldId admitted
        rw [admitted.2.2] at known
        cases known
    | some fieldId =>
        rw [known] at taken
        exact Or.inr ⟨fieldId, ⟨by omega, by omega, known⟩, acceptMessage_cases taken⟩

theorem dataMessage_admitted {restore : Restore D} {server : Server D} {now : ℚ}
    {m : SimuData D} {reply : Job D} {fieldId : Nat} (admitted : Admitted server m fieldId) :
    dataMessage restore server now m (.job reply) =
      acceptMessage restore server now m (.job reply) fieldId := by
  obtain ⟨valid, below, known⟩ := admitted
  unfold dataMessage
  rw [if_neg (by omega), known]

end Steps

end Melissa
