import Melissa.Restart.Life
import Melissa.Server.Ready

/-! The parameters of the simulations at the end of a study: `write_simu_param` reads those of
all simulations, whether or not the server has been restarted. -/

namespace Melissa

open Files Runs

section Output

variable {D : Type}

/-- `write_simu_param`: the values written for each simulation. A `NULL` pointer is
dereferenced as soon as there is a parameter to write. -/
def writeSimuParam (simulations : List (Simulation D)) (nbParameters : Nat) :
    Option (List (List D)) :=
  simulations.mapM fun simu =>
    (List.range nbParameters).mapM fun j => simu.parameters.bind fun values => values[j]?

def ParametersKnown (nbParameters : Nat) (parameters : Option (List D)) : Prop :=
  ∃ values, parameters = some values ∧ values.length = nbParameters

theorem writeSimuParam_succeeds {simulations : List (Simulation D)} {nbParameters : Nat}
    (known : ∀ simu ∈ simulations, ParametersKnown nbParameters simu.parameters) :
    writeSimuParam simulations nbParameters =
      some (simulations.map fun simu => simu.parameters.getD []) := by
  apply Arrays.mapM_eq_some
  intro simu member
  obtain ⟨values, here, length⟩ := known simu member
  subst length
  rw [here]
  exact Arrays.mapM_getElem?_range values

theorem writeSimuParam_fails {simulations : List (Simulation D)} {nbParameters : Nat}
    (positive : 0 < nbParameters) {simu : Simulation D} (member : simu ∈ simulations)
    (unknown : simu.parameters = none) : writeSimuParam simulations nbParameters = none := by
  apply Arrays.mapM_eq_none member
  apply Arrays.mapM_eq_none (List.mem_range.mpr positive)
  rw [unknown]
  rfl

end Output

section Announced

variable {D : Type}

/-- What has happened since the server was started for the last time. -/
def currentLife (events : List (LifeEvent D)) : List (LifeEvent D) :=
  (events.reverse.takeWhile fun
    | .restart _ => false
    | _ => true).reverse

/-- A JOB message of the simulation, or data of it that the server accepts: these make it ask for
the parameters. -/
def Announces (study : Study D) (simuId : Nat) : LifeEvent D → Prop
  | .pass (.launcher (.job job)) => job.simuId = simuId
  | .pass (.data _ m _) => m.simuId = simuId ∧ 0 < m.vectSize ∧ 0 ≤ m.timeStamp ∧
      m.timeStamp.toNat < study.options.nbTimeSteps ∧ m.fieldName ∈ study.names
  | _ => False

def Announced (study : Study D) (events : List (LifeEvent D)) (simuId : Nat) : Prop :=
  ∃ event ∈ events, Announces study simuId event

/-- The launcher answers `simu_info` by the JOB message of that simulation. -/
def Answered (events : List (LifeEvent D)) : Prop :=
  ∀ now m reply, .pass (.data now m reply) ∈ events → reply.simuId = m.simuId

theorem currentLife_concat (events : List (LifeEvent D)) (event : LifeEvent D) :
    currentLife (events ++ [event]) =
      match event with
      | .restart _ => []
      | _ => currentLife events ++ [event] := by
  unfold currentLife
  rw [List.reverse_append, List.reverse_singleton, List.singleton_append, List.takeWhile_cons]
  cases event with
  | pass event => rw [if_pos rfl, List.reverse_cons]
  | checkpoint now => rw [if_pos rfl, List.reverse_cons]
  | restart others => rfl

theorem announced_concat {study : Study D} {events : List (LifeEvent D)} {event : LifeEvent D}
    {simuId : Nat} : Announced study (events ++ [event]) simuId ↔
      Announced study events simuId ∨ Announces study simuId event := by
  simp only [Announced, List.mem_append, List.mem_singleton, or_and_right, exists_or,
    exists_eq_left]

end Announced

section Steps

variable {D : Type}

/-- The parameters of the announced simulations are known, those of the others are `NULL`. -/
def KnownIfAnnounced (study : Study D) (events : List (LifeEvent D))
    (parameters : List (Option (List D))) : Prop :=
  ∀ s value, parameters[s]? = some value →
    (Announced study events s → ParametersKnown study.options.nbParameters value) ∧
      (¬ Announced study events s → value = none)

variable {study : Study D} {events : List (LifeEvent D)} {event : LifeEvent D}
  {parameters : List (Option (List D))}

/-- A step that announces nothing new leaves the parameters alone. -/
theorem known_unchanged (known : KnownIfAnnounced study events parameters)
    (old : ∀ s value, parameters[s]? = some value → Announces study s event →
      Announced study events s) : KnownIfAnnounced study (events ++ [event]) parameters := by
  intro s value present
  rw [announced_concat, or_iff_left_of_imp (old s value present)]
  exact known s value present

theorem known_set {simuId : Nat} {values : List D}
    (known : KnownIfAnnounced study events parameters)
    (length : values.length = study.options.nbParameters)
    (announces : ∀ s, Announces study s event ↔ s = simuId) :
    KnownIfAnnounced study (events ++ [event]) (parameters.set simuId (some values)) := by
  intro s value present
  rw [announced_concat, announces]
  by_cases own : s = simuId
  · subst own
    obtain ⟨inside, here⟩ := List.getElem?_eq_some_iff.mp present
    rw [List.getElem_set_self] at here
    subst here
    exact ⟨fun _ => ⟨values, rfl, length⟩, fun absent => absurd (Or.inr rfl) absent⟩
  · rw [List.getElem?_set_ne (Ne.symm own)] at present
    rw [or_iff_left own]
    exact known s value present

/-- What the passes of one life keep of the study. -/
structure SameOptions (study : Study D) (server : Server D) : Prop where
  names : server.fields.map MelissaField.name = study.names
  steps : server.options.nbTimeSteps = study.options.nbTimeSteps
  parameters : server.options.nbParameters = study.options.nbParameters

theorem announces_data_iff {server : Server D} (now : ℚ) (m : SimuData D) (reply : Job D)
    (same : SameOptions study server) (s : Nat) :
    Announces study s (.pass (.data now m reply)) ↔
      s = m.simuId ∧ 0 < m.vectSize ∧ ∃ fieldId, Admitted server m fieldId := by
  have known : (∃ fieldId, getFieldId server.fields m.fieldName = some fieldId) ↔
      m.fieldName ∈ study.names := by
    rw [← Option.isSome_iff_exists, getFieldId, List.findIdx?_isSome, ← same.names]
    simp
  simp only [Announces, Admitted, exists_and_left, known, same.steps, eq_comm]

theorem textMessage_parameters {server server' : Server D} {msg : LauncherMessage D}
    (taken : textMessage server msg = some server') :
    (∃ job, msg = .job job ∧ server.options.nbParameters ≤ job.parameters.length ∧
      parametersOf server' = (parametersOf server).set job.simuId
        (some (job.parameters.take server.options.nbParameters))) ∨
      ((∀ job, msg ≠ .job job) ∧ parametersOf server' = parametersOf server) := by
  obtain ⟨handled, processed, rfl⟩ := Option.map_eq_some_iff.mp taken
  cases launcherEffect processed with
  | job present enough => exact Or.inl ⟨_, rfl, enough, List.map_set⟩
  | nothing noJob noDrop => exact Or.inr ⟨noJob, rfl⟩

variable [Zero D] [Add D] [Sub D] [Mul D] [Div D] [NatCast D] [IntCast D]
  [Pow D ℕ] [LT D] [DecidableLT D] [LE D] [DecidableLE D] [Libm D]

theorem sameOptions_step {restore : Restore D} {server server' : Server D} {event : Event D}
    (same : SameOptions study server) (taken : step restore server event = some server') :
    SameOptions study server' := by
  have study' := step_sameStudy taken
  refine ⟨study'.names.trans same.names, (nbTimeSteps_eq study').trans same.steps, ?_⟩
  rw [study'.options, ← same.parameters]

/-- A message that is taken leaves the parameters of its simulation known. -/
theorem known_accepted {restore : Restore D} {server server' : Server D} {now : ℚ}
    {m : SimuData D} {reply : Job D} {fieldId status : Nat} {simu : Simulation D}
    {data loaded updated : MelissaData D} (same : SameOptions study server)
    (answered : reply.simuId = m.simuId)
    (known : KnownIfAnnounced study events (parametersOf server))
    (admitted : Admitted server m fieldId)
    (accepted : Accepted restore server m reply fieldId server' simu data loaded updated status) :
    KnownIfAnnounced study (events ++ [.pass (.data now m reply)]) (parametersOf server') := by
  have announces := announces_data_iff now m reply same
  cases waits : waitsForJob simu m.vectSize with
    | true =>
        obtain ⟨_, enough, parameters⟩ := accepted.answered waits
        have positive : 0 < m.vectSize := by
          simp only [waitsForJob, Bool.and_eq_true, decide_eq_true_eq] at waits
          exact waits.2
        rw [parameters, answered]
        apply known_set known
        · rw [List.length_take, Nat.min_eq_left enough, same.parameters]
        · intro s
          rw [announces]
          exact ⟨fun own => own.1, fun own => ⟨own, positive, fieldId, admitted⟩⟩
    | false =>
        rw [accepted.unasked waits]
        apply known_unchanged known
        intro s value present own
        obtain ⟨rfl, positive, _⟩ := (announces s).mp own
        -- it does not wait because the parameters are there already
        by_contra unheard
        have unknown := (known _ _ present).2 unheard
        rw [parametersOf, List.getElem?_map, accepted.simulation] at present
        simp [waitsForJob, positive, Option.some.inj present, unknown] at waits

/-- One pass of the main loop. -/
theorem known_step {restore : Restore D} {server server' : Server D} {event : Event D}
    (same : SameOptions study server)
    (answered : ∀ now m reply, event = .data now m reply → reply.simuId = m.simuId)
    (known : KnownIfAnnounced study events (parametersOf server))
    (taken : step restore server event = some server') :
    KnownIfAnnounced study (events ++ [.pass event]) (parametersOf server') := by
  cases event with
  | data now m reply =>
      have announces := announces_data_iff now m reply same
      rcases dataMessage_cases taken with ⟨rfl, skipped⟩ | ⟨fieldId, admitted, simu, data, loaded,
        updated, status, accepted⟩
      · apply known_unchanged known
        intro s _ _ own
        obtain ⟨_, _, fieldId, admitted⟩ := (announces s).mp own
        exact absurd admitted (skipped fieldId)
      · exact known_accepted same (answered now m reply rfl) known admitted accepted
  | launcher msg =>
      rcases textMessage_parameters taken with ⟨job, rfl, enough, parameters⟩ | ⟨other, parameters⟩
      · rw [parameters]
        apply known_set known
        · rw [List.length_take, Nat.min_eq_left enough, same.parameters]
        · intro s
          exact eq_comm
      · rw [parameters]
        apply known_unchanged known
        intro s _ _ own
        cases msg with
        | job job => exact absurd rfl (other job)
        | drop simuId jobId => cases own
        | hello => cases own
        | alive => cases own
        | options => cases own
        | unknown messageType => cases own
  | timeouts now =>
      cases taken
      rw [(timeoutRound_parts server now).2.2.2.2.1]
      exact known_unchanged known fun s _ _ own => by cases own

end Steps

section Runs

variable {D B : Type}

theorem known_new (study : Study D) {server : Server D}
    (unknown : ∀ simu ∈ server.simulations, simu.parameters = none) :
    KnownIfAnnounced study [] (parametersOf server) := by
  intro s value present
  have member := List.mem_of_getElem? present
  obtain ⟨simu, inside, rfl⟩ := List.mem_map.mp member
  refine ⟨?_, fun _ => unknown simu inside⟩
  intro announced
  obtain ⟨event, none_yet, _⟩ := announced
  cases none_yet

theorem restartServer_new {codec : Codec D B} {tempSize : Nat} {study : Study D}
    {others : List (List Nat)} {disk : Disk B} {server : Server D}
    (started : restartServer codec tempSize study others disk = some server) :
    SameOptions study server ∧ ∀ simu ∈ server.simulations, simu.parameters = none := by
  obtain ⟨read, states, rest⟩ := Option.bind_eq_some_iff.mp started
  obtain ⟨file, _, states⟩ := Option.bind_eq_some_iff.mp states
  obtain ⟨pair, _, states⟩ := Option.bind_eq_some_iff.mp states
  cases states
  cases rest
  refine ⟨⟨by simp [startServer, emptyField, Function.comp_def], rfl, rfl⟩, ?_⟩
  intro simu member
  obtain ⟨waiting, member', rfl⟩ := List.mem_map.mp member
  obtain ⟨status, _, rfl⟩ := List.mem_map.mp member'
  unfold resetRunning
  split
  · rfl
  · rfl

variable [Zero D] [Add D] [Sub D] [Mul D] [Div D] [NatCast D] [IntCast D]
  [Pow D ℕ] [LT D] [DecidableLT D] [LE D] [DecidableLE D] [Libm D]

theorem known_run {codec : Codec D B} {tempSize : Nat} {study : Study D}
    {events : List (LifeEvent D)} {life : Life D B} (answered : Answered events)
    (reached : run (lifeStep codec tempSize study) (firstLife study) events = some life) :
    SameOptions study life.server ∧
      KnownIfAnnounced study (currentLife events) (parametersOf life.server) := by
  induction events using List.reverseRecOn generalizing life with
  | nil =>
      cases reached
      refine ⟨⟨by simp [firstLife, freshServer, startServer, emptyField, Function.comp_def], rfl,
        rfl⟩, known_new study ?_⟩
      intro simu member
      rw [List.eq_of_mem_replicate member]
      rfl
  | append_singleton events event ih =>
      obtain ⟨mid, before, taken⟩ := run_concat_eq_some.mp reached
      obtain ⟨same, known⟩ := ih
        (fun now m reply member => answered now m reply (List.mem_append_left _ member)) before
      rw [currentLife_concat]
      cases event with
      | pass event =>
          obtain ⟨server, stepped, rfl⟩ := Option.map_eq_some_iff.mp taken
          refine ⟨sameOptions_step same stepped, known_step same ?_ known stepped⟩
          intro now m reply here
          exact answered now m reply (by simp [here])
      | checkpoint now =>
          cases taken
          have unchanged : parametersOf (checkpointRound codec mid now).server =
                parametersOf mid.server ∧ SameOptions study (checkpointRound codec mid now).server
              := by
            unfold checkpointRound
            split
            · exact ⟨rfl, same.names, same.steps, same.parameters⟩
            · exact ⟨rfl, same⟩
          refine ⟨unchanged.2, ?_⟩
          rw [unchanged.1]
          exact known_unchanged known fun s _ _ own => by cases own
      | restart others =>
          obtain ⟨server, started, rfl⟩ := Option.map_eq_some_iff.mp taken
          obtain ⟨same', unknown⟩ := restartServer_new started
          exact ⟨same', known_new study unknown⟩

/-- At the end every simulation has its parameters exactly if every simulation has been announced
since the last start of the server. -/
theorem finalParameters_iff (codec : Codec D B) (tempSize : Nat) (study : Study D)
    (events : List (LifeEvent D)) (life : Life D B) (answered : Answered events)
    (reached : run (lifeStep codec tempSize study) (firstLife study) events = some life) :
    (∀ simu ∈ life.server.simulations,
        ParametersKnown study.options.nbParameters simu.parameters) ↔
      ∀ s < life.server.simulations.length, Announced study (currentLife events) s := by
  obtain ⟨_, known⟩ := known_run answered reached
  constructor
  · intro all s inside
    by_contra unheard
    have present : (parametersOf life.server)[s]? =
        some life.server.simulations[s].parameters := by
      simp [parametersOf, inside]
    obtain ⟨values, here, _⟩ := all _ (List.getElem_mem inside)
    rw [(known s _ present).2 unheard] at here
    cases here
  · intro announced simu member
    obtain ⟨s, found⟩ := List.mem_iff_getElem?.mp member
    obtain ⟨inside, _⟩ := List.getElem?_eq_some_iff.mp found
    have present : (parametersOf life.server)[s]? = some simu.parameters := by
      simp [parametersOf, found]
    exact (known s _ present).1 (announced s inside)

end Runs

section Example

private def oneFieldStudy : Study ℚ := ⟨twoByTwo, ⟨0, 1, 1⟩, ["heat"]⟩

private def simulationData (now : ℚ) (simuId timeStep : Nat) : LifeEvent ℚ :=
  .pass (.data now ⟨timeStep, simuId, 0, 1, "heat", [3]⟩ ⟨simuId, "job", [1]⟩)

/-- Simulation 0 ends before the checkpoint, simulation 1 after the restart. -/
private def twoHalves : List (LifeEvent ℚ) :=
  [simulationData 1 0 0, simulationData 2 0 1, .checkpoint 10, .restart [],
    simulationData 1 1 0, simulationData 2 1 1]

private theorem answered_twoHalves : Answered twoHalves := by
  intro now m reply member
  simp only [twoHalves, simulationData, List.mem_cons, List.not_mem_nil, or_false,
    LifeEvent.pass.injEq, Event.data.injEq, reduceCtorEq, false_or] at member
  rcases member with ⟨_, rfl, rfl⟩ | ⟨_, rfl, rfl⟩ | ⟨_, rfl, rfl⟩ | ⟨_, rfl, rfl⟩
  · rfl
  · rfl
  · rfl
  · rfl

theorem finalParameters_iff_twoHalves :
    ∃ life, run (lifeStep (exactCodec ℚ) 0 oneFieldStudy) (firstLife oneFieldStudy) twoHalves =
        some life ∧
      ((∀ simu ∈ life.server.simulations, ParametersKnown 1 simu.parameters) ↔
        ∀ s < life.server.simulations.length,
          Announced oneFieldStudy (currentLife twoHalves) s) := by
  obtain ⟨life, reached⟩ := Option.isSome_iff_exists.mp (show (run (lifeStep (exactCodec ℚ) 0
    oneFieldStudy) (firstLife oneFieldStudy) twoHalves).isSome = true by decide +kernel)
  exact ⟨life, reached, finalParameters_iff (exactCodec ℚ) 0 oneFieldStudy twoHalves life
    answered_twoHalves reached⟩

/-- The server reports status 1, and the parameters of simulation 0 are `NULL`. -/
theorem not_finalParameters_twoHalves :
    ¬ ∀ (tempSize : Nat) (study : Study ℚ) (events : List (LifeEvent ℚ))
      (life : Life ℚ (Cell ℚ)), study.commData.rank = 0 → Answered events →
      run (lifeStep (exactCodec ℚ) tempSize study) (firstLife study) events = some life →
      stopTest life.server = true →
      ∀ simu ∈ life.server.simulations,
        ParametersKnown study.options.nbParameters simu.parameters := by
  intro always
  have outcome : ((run (lifeStep (exactCodec ℚ) 0 oneFieldStudy) (firstLife oneFieldStudy)
      twoHalves).map fun life => (stopTest life.server,
        writeSimuParam life.server.simulations 1)) = some (true, none) := by
    decide +kernel
  obtain ⟨life, reached, shown⟩ := Option.map_eq_some_iff.mp outcome
  obtain ⟨stops, fails⟩ := Prod.mk.inj shown
  have known := always 0 oneFieldStudy twoHalves life rfl answered_twoHalves reached stops
  have succeeds := writeSimuParam_succeeds known
  rw [show oneFieldStudy.options.nbParameters = 1 from rfl, fails] at succeeds
  cases succeeds

end Example

end Melissa
