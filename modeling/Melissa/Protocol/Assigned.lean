import Melissa.Protocol.Groups
import Melissa.Protocol.System
import Melissa.Restart.Parameters

/-! The parameters that a server rank has of a simulation are those the launcher has drawn for it,
from whichever thread they come: the message at a launch or a restart, or the answer of the
responder after a restart of the server. -/

namespace Melissa

open Runs

section Launcher

variable {D : Type} {batchSize : Int} {groups : List (Group D)} {nbParameters simuId : Nat}
  {jobId : String}

/-- The parameters are those of the simulation in some group, as far as the server reads them. -/
def FromGroups (groups : List (Group D)) (nbParameters simuId : Nat) (params : List D) : Prop :=
  ∃ given, (simuId, given) ∈ groups.flatMap assignments ∧ params = given.take nbParameters

theorem flatMap_assignments {groups groups' : List (Group D)}
    (same : groups'.map Group.identity = groups.map Group.identity) :
    groups'.flatMap assignments = groups.flatMap assignments := by
  have through (groups : List (Group D)) :
      groups.flatMap assignments = (groups.map Group.identity).flatMap assignments := by
    rw [List.flatMap_map]
    rfl
  rw [through, same, ← through]

/-- The responder sends the first values of the parameter set that was drawn. -/
theorem respond_fromGroups {reply : Job D}
    (replied : respond batchSize groups simuId jobId = some reply)
    (enough : nbParameters ≤ reply.parameters.length) :
    FromGroups groups nbParameters reply.simuId (reply.parameters.take nbParameters) := by
  simp only [respond, Option.bind_eq_bind, Option.bind_eq_some_iff] at replied
  obtain ⟨g, _, group, present, first, head, replied⟩ := replied
  have member := List.mem_of_getElem? present
  split at replied
  · rename_i sobol
    cases replied
    refine ⟨first, List.mem_flatMap.mpr ⟨group, member, ?_⟩, rfl⟩
    rw [assignments, if_neg (by omega), head]
    exact List.mem_singleton.mpr rfl
  · split at replied
    · rename_i batch
      simp only [Option.bind_eq_some_iff] at replied
      obtain ⟨params, drawn, id, number, replied⟩ := replied
      split at replied
      · cases replied
        refine ⟨params, List.mem_flatMap.mpr ⟨group, member, ?_⟩, ?_⟩
        · rw [assignments, if_pos batch]
          apply List.mem_of_getElem?
          exact List.getElem?_zip_eq_some.mpr ⟨number, drawn⟩
        · rw [List.length_take] at enough
          rw [List.take_take, Nat.min_eq_left (by omega)]
      · cases replied
    · cases replied

theorem mem_jobMessages {group : Group D} {job : Job D}
    (sent : .job job ∈ jobMessages jobId group) :
    (job.simuId, job.parameters) ∈ assignments group := by
  obtain ⟨⟨simuId, params⟩, assigned, made⟩ := List.mem_map.mp sent
  cases made
  exact assigned

theorem mem_sentByRestart {restartGroup : Bool} {launcher : Launcher D} {i : Nat} {job : Job D}
    (sent : .job job ∈ sentByRestart restartGroup jobId launcher i) :
    (job.simuId, job.parameters) ∈ launcher.groups.flatMap assignments := by
  unfold sentByRestart at sent
  split at sent
  · cases sent
  · rename_i group present
    have fromGroup (own : .job job ∈ jobMessages jobId group) :
        (job.simuId, job.parameters) ∈ launcher.groups.flatMap assignments :=
      List.mem_flatMap.mpr ⟨group, List.mem_of_getElem? present, mem_jobMessages own⟩
    split at sent
    · cases sent
    · split at sent
      · exact fromGroup sent
      · rcases List.mem_append.mp sent with first | again
        · exact fromGroup first
        · exact fromGroup again

theorem mem_sentByThread {restartGroup : Bool} {launcher launcher' : Launcher D}
    {event : LauncherEvent} {job : Job D}
    (sent : .job job ∈ sentByThread restartGroup jobId launcher launcher' event) :
    (job.simuId, job.parameters) ∈ launcher.groups.flatMap assignments ∨
      (job.simuId, job.parameters) ∈ launcher'.groups.flatMap assignments := by
  rcases List.mem_append.mp sent with sent | restarted
  · rcases List.mem_append.mp sent with launched | dropped
    · split at launched
      · cases present : launcher.groups[launcher.launched]? with
        | none =>
            rw [present] at launched
            cases launched
        | some group =>
            rw [present] at launched
            exact Or.inl (List.mem_flatMap.mpr
              ⟨group, List.mem_of_getElem? present, mem_jobMessages launched⟩)
      · cases launched
    · obtain ⟨simuId, _, made⟩ := List.mem_map.mp dropped
      cases made
  · obtain ⟨i, _, own⟩ := List.mem_flatMap.mp restarted
    exact Or.inr (mem_sentByRestart own)

end Launcher

section System

variable {D B : Type}

/-- What the server knows of the parameters, and what is on its way to it. -/
structure Assigned (setting : Setting D B) (groups : List (Group D)) (system : System D B) :
    Prop where
  options : SameOptions setting.study system.life.server
  identity : system.launcher.groups.map Group.identity = groups.map Group.identity
  sent : ∀ job, .job job ∈ system.toServer →
    (job.simuId, job.parameters) ∈ groups.flatMap assignments
  known : ∀ s params, (parametersOf system.life.server)[s]? = some (some params) →
    FromGroups groups setting.study.options.nbParameters s params

variable {setting : Setting D B} {groups : List (Group D)} {system system' : System D B}

theorem fromGroups_set {nbParameters simuId : Nat} {parameters : List (Option (List D))}
    {params : List D}
    (known : ∀ s params, parameters[s]? = some (some params) →
      FromGroups groups nbParameters s params)
    (new : FromGroups groups nbParameters simuId params) (s : Nat) (held : List D)
    (present : (parameters.set simuId (some params))[s]? = some (some held)) :
    FromGroups groups nbParameters s held := by
  rw [List.getElem?_set] at present
  split at present
  · rename_i here
    subst here
    split at present
    · cases present
      exact new
    · cases present
  · exact known s held present

theorem assigned_start (setting : Setting D B) (groups : List (Group D)) :
    Assigned setting groups (startSystem setting.study groups) := by
  refine ⟨⟨?_, rfl, rfl⟩, rfl, fun job none_yet => absurd none_yet List.not_mem_nil, ?_⟩
  · simp [startSystem, firstLife, freshServer, startServer, emptyField, Function.comp_def]
  · intro s params present
    have member := List.mem_of_getElem? present
    obtain ⟨simu, inside, given⟩ := List.mem_map.mp member
    rw [List.eq_of_mem_replicate inside] at given
    cases given

variable [Zero D] [Add D] [Sub D] [Mul D] [Div D] [NatCast D] [IntCast D]
  [Pow D ℕ] [LT D] [DecidableLT D] [LE D] [DecidableLE D] [Libm D]

/-- A pass of the server learns parameters from the answer or from a JOB message. -/
theorem known_pass {restore : Restore D} {server server' : Server D} {event : Event D}
    (same : SameOptions setting.study server)
    (known : ∀ s params, (parametersOf server)[s]? = some (some params) →
      FromGroups groups setting.study.options.nbParameters s params)
    (answered : ∀ now m reply, event = .data now m reply →
      setting.study.options.nbParameters ≤ reply.parameters.length →
      FromGroups groups setting.study.options.nbParameters reply.simuId
        (reply.parameters.take setting.study.options.nbParameters))
    (sent : ∀ job, event = .launcher (.job job) →
      (job.simuId, job.parameters) ∈ groups.flatMap assignments)
    (taken : step restore server event = some server') :
    ∀ s params, (parametersOf server')[s]? = some (some params) →
      FromGroups groups setting.study.options.nbParameters s params := by
  cases event with
  | data now m reply =>
      rcases dataMessage_cases taken with ⟨rfl, _⟩ | ⟨fieldId, _, simu, data, loaded, updated,
        status, accepted⟩
      · exact known
      · cases waits : waitsForJob simu m.vectSize with
        | true =>
            obtain ⟨_, enough, parameters⟩ := accepted.answered waits
            rw [same.parameters] at enough parameters
            rw [parameters]
            exact fromGroups_set known (answered now m reply rfl enough)
        | false =>
            rw [accepted.unasked waits]
            exact known
  | launcher msg =>
      rcases textMessage_parameters taken with ⟨job, rfl, _, parameters⟩ | ⟨_, parameters⟩
      · rw [parameters, same.parameters]
        exact fromGroups_set known ⟨job.parameters, sent job rfl, rfl⟩
      · rw [parameters]
        exact known
  | timeouts now =>
      cases taken
      rw [(timeoutRound_parts server now).2.2.2.2.1]
      exact known

theorem assigned_pass {event : Event D} {toServer : List (LauncherMessage D)}
    (assigned : Assigned setting groups system)
    (answered : ∀ now m reply, event = .data now m reply →
      setting.study.options.nbParameters ≤ reply.parameters.length →
      FromGroups groups setting.study.options.nbParameters reply.simuId
        (reply.parameters.take setting.study.options.nbParameters))
    (sent : ∀ job, event = .launcher (.job job) → .job job ∈ system.toServer)
    (fewer : ∀ msg ∈ toServer, msg ∈ system.toServer)
    (taken : serverPass setting { system with toServer := toServer } (.pass event) =
      some system') : Assigned setting groups system' := by
  unfold serverPass at taken
  split at taken
  · cases taken
  · obtain ⟨life, lived, rfl⟩ := Option.map_eq_some_iff.mp taken
    obtain ⟨server, stepped, rfl⟩ := Option.map_eq_some_iff.mp lived
    exact ⟨sameOptions_step assigned.options stepped, assigned.identity,
      fun job waiting => assigned.sent job (fewer _ waiting),
      known_pass assigned.options assigned.known answered
        (fun job own => assigned.sent job (sent job own)) stepped⟩

theorem assigned_step {event : SystemEvent D} (assigned : Assigned setting groups system)
    (taken : systemStep setting system event = some system') :
    Assigned setting groups system' := by
  cases event with
  | data now m jobId =>
      obtain ⟨reply, replied, passed⟩ := Option.bind_eq_some_iff.mp taken
      refine assigned_pass assigned ?_ (fun job own => by cases own) (fun msg waiting => waiting)
        passed
      intro now m reply' own enough
      cases own
      obtain ⟨given, member, same⟩ := respond_fromGroups replied enough
      rw [flatMap_assignments assigned.identity] at member
      exact ⟨given, member, same⟩
  | receive =>
      simp only [systemStep] at taken
      split at taken
      · cases taken
      · rename_i msg rest waiting
        refine assigned_pass assigned (fun now m reply own => by cases own) ?_ ?_ taken
        · intro job own
          cases own
          rw [waiting]
          exact List.mem_cons_self
        · intro msg' later
          rw [waiting]
          exact List.mem_cons_of_mem _ later
  | timeouts now =>
      exact assigned_pass assigned (fun now m reply own => by cases own)
        (fun job own => by cases own) (fun msg waiting => waiting) taken
  | checkpoint now =>
      simp only [systemStep, serverPass] at taken
      split at taken
      · cases taken
      · obtain ⟨life, lived, rfl⟩ := Option.map_eq_some_iff.mp taken
        cases lived
        unfold checkpointRound
        split
        · exact ⟨⟨assigned.options.names, assigned.options.steps, assigned.options.parameters⟩,
            assigned.identity, assigned.sent, assigned.known⟩
        · exact ⟨assigned.options, assigned.identity, assigned.sent, assigned.known⟩
  | finalize =>
      simp only [systemStep] at taken
      split at taken
      · cases taken
        exact ⟨assigned.options, assigned.identity, assigned.sent, assigned.known⟩
      · cases taken
  | restart others kept =>
      obtain ⟨life, lived, rfl⟩ := Option.map_eq_some_iff.mp taken
      obtain ⟨server, started, rfl⟩ := Option.map_eq_some_iff.mp lived
      obtain ⟨options, unknown⟩ := restartServer_new started
      refine ⟨options, assigned.identity, fun job waiting => absurd waiting List.not_mem_nil, ?_⟩
      intro s params present
      obtain ⟨simu, inside, given⟩ := List.mem_map.mp (List.mem_of_getElem? present)
      rw [unknown simu inside] at given
      cases given
  | deliver garbled =>
      simp only [systemStep] at taken
      split at taken
      · cases taken
      · obtain ⟨launcher, handled, rfl⟩ := Option.map_eq_some_iff.mp taken
        exact ⟨assigned.options, (map_identity_step handled).trans assigned.identity,
          assigned.sent, assigned.known⟩
  | hello =>
      simp only [systemStep] at taken
      split at taken
      · cases taken
        refine ⟨assigned.options, assigned.identity, ?_, assigned.known⟩
        intro job waiting
        rcases List.mem_append.mp waiting with earlier | last
        · exact assigned.sent job earlier
        · cases List.mem_singleton.mp last
      · cases taken
  | thread event jobId =>
      obtain ⟨launcher, _, moved, rfl⟩ := thread_step taken
      have identity := (map_identity_step moved).trans assigned.identity
      refine ⟨assigned.options, identity, ?_, assigned.known⟩
      intro job waiting
      rcases List.mem_append.mp waiting with earlier | own
      · exact assigned.sent job earlier
      · rcases mem_sentByThread own with before | after
        · rw [flatMap_assignments assigned.identity] at before
          exact before
        · rw [flatMap_assignments identity] at after
          exact after

end System

section Drawn

variable {D B : Type}

/-- The parameters of a simulation: its own draw, or the set A of its pair in a Sobol study. -/
def drawnFor (sobol : Bool) (draw : Nat → List D) (simuId : Nat) : List D :=
  draw (if sobol then 2 * simuId else simuId)

theorem assignments_drawn {sobol : Bool} {draw : Nat → List D} {samplingSize batchSize : Int}
    {groups : List (Group D)} (sample : 0 ≤ samplingSize) (batch : 0 ≤ batchSize)
    (created : createGroupList sobol draw samplingSize batchSize = some groups) {simuId : Nat}
    {given : List D} (assigned : (simuId, given) ∈ groups.flatMap assignments) :
    given = drawnFor sobol draw simuId := by
  obtain ⟨group, member, own⟩ := List.mem_flatMap.mp assigned
  cases sobol with
  | true =>
      obtain ⟨state, done, rfl, _⟩ := sobolCreated created
      obtain ⟨g, present⟩ := List.mem_iff_getElem?.mp member
      obtain ⟨type, number, head, _⟩ := done.new g group present
      rw [assignments, if_neg (by omega), head, number] at own
      cases List.mem_singleton.mp own
      rfl
  | false =>
      rw [createGroupList_batches draw sample batch] at created
      cases created
      obtain ⟨i, _, rfl⟩ := List.mem_map.mp member
      have type : (batchGroup draw batchSize.toNat i).jobType = 3 := rfl
      rw [assignments, if_pos type, batchGroup] at own
      obtain ⟨j, here⟩ := List.mem_iff_getElem?.mp own
      obtain ⟨number, drawn⟩ := List.getElem?_zip_eq_some.mp here
      obtain ⟨inside, same⟩ := List.getElem?_eq_some_iff.mp number
      rw [List.length_range'] at inside
      rw [List.getElem?_map, List.getElem?_range inside] at drawn
      rw [List.getElem_range', Nat.one_mul] at same
      have params : draw (i * batchSize.toNat + j) = given := Option.some.inj drawn
      have numbered : i * batchSize.toNat + j = simuId := same
      rw [← params, numbered]
      rfl

variable [Zero D] [Add D] [Sub D] [Mul D] [Div D] [NatCast D] [IntCast D]
  [Pow D ℕ] [LT D] [DecidableLT D] [LE D] [DecidableLE D] [Libm D]

/-- In no state of launcher and server does the server have other parameters of a simulation than
those the launcher has drawn for it, whatever is lost and however often either is started again. -/
theorem parameters_drawn {setting : Setting D B} {sobol : Bool} {draw : Nat → List D}
    {groups : List (Group D)} {events : List (SystemEvent D)} {system : System D B}
    (sample : 0 ≤ setting.study.options.samplingSize) (batch : 0 ≤ setting.config.batchSize)
    (created : createGroupList sobol draw setting.study.options.samplingSize
      setting.config.batchSize = some groups)
    (reached : run (systemStep setting) (startSystem setting.study groups) events = some system)
    (s : Nat) (params : List D)
    (present : (parametersOf system.life.server)[s]? = some (some params)) :
    params = (drawnFor sobol draw s).take setting.study.options.nbParameters := by
  have assigned : Assigned setting groups system :=
    run_invariant (fun _ _ _ inv taken => assigned_step inv taken)
      (assigned_start setting groups) reached
  obtain ⟨given, member, rfl⟩ := assigned.known s params present
  rw [assignments_drawn sample batch created member]

end Drawn

section Example

private def batchStudy : Study ℚ := ⟨twoByTwo, ⟨0, 1, 1⟩, ["heat"]⟩

private def batchSetting : Setting ℚ (Cell ℚ) :=
  { codec := exactCodec ℚ, tempSize := 0, study := batchStudy
    config := ⟨2, true, false⟩, restartGroup := true }

private def batchGroups : List (Group ℚ) :=
  (createGroupList false (fun k => [(k : ℚ) + 5, 0]) 2 2).getD []

private def batchData (now : ℚ) : SystemEvent ℚ :=
  .data now ⟨0, 1, 0, 1, "heat", [3]⟩ "job"

/-- After the restart of the server the responder gives the parameters again. -/
private def askedAgain : List (SystemEvent ℚ) :=
  [.thread (.main .returns false) "job", .thread (.launch .returns) "job",
    .thread (.main .returns false) "job", .receive, .receive, batchData 1, .checkpoint 10,
    .restart [] 0, batchData 11]

theorem parameters_drawn_askedAgain :
    ∃ system params,
      run (systemStep batchSetting) (startSystem batchStudy batchGroups) askedAgain =
        some system ∧
      (parametersOf system.life.server)[1]? = some (some params) ∧
      params = (drawnFor false (fun k => [(k : ℚ) + 5, 0]) 1).take 1 := by
  have reached : ((run (systemStep batchSetting) (startSystem batchStudy batchGroups)
      askedAgain).map fun system => parametersOf system.life.server) = some [none, some [6]] := by
    decide +kernel
  obtain ⟨system, taken, parameters⟩ := Option.map_eq_some_iff.mp reached
  have present : (parametersOf system.life.server)[1]? = some (some [6]) := by
    rw [parameters]
    rfl
  have created : createGroupList false (fun k => [(k : ℚ) + 5, 0])
      batchSetting.study.options.samplingSize batchSetting.config.batchSize = some batchGroups := by
    decide +kernel
  have sample : 0 ≤ batchSetting.study.options.samplingSize := by decide
  have batch : 0 ≤ batchSetting.config.batchSize := by decide
  exact ⟨system, [6], taken, present,
    parameters_drawn sample batch created taken 1 [6] present⟩

end Example

end Melissa
