import Melissa.Server.Finished
import Melissa.Server.Passes

/-! The sample while the launcher is silent: the simulations that have no job leave it at every
pass of the main loop. -/

namespace Melissa

open Runs Traced

section Jobs

variable {D : Type}

def jobStatuses (server : Server D) : List Int := server.simulations.map Simulation.jobStatus

def HasNoJob (server : Server D) (simuId : Nat) : Prop := (jobStatuses server)[simuId]? = some (-1)

theorem unsubmitted_eq (server : Server D) :
    unsubmitted server = (jobStatuses server).countP (· == -1) := by
  rw [jobStatuses, List.countP_map]
  rfl

theorem unsubmitted_of_jobs {server server' : Server D}
    (same : jobStatuses server' = jobStatuses server) :
    unsubmitted server' = unsubmitted server := by
  rw [unsubmitted_eq, unsubmitted_eq, same]

theorem length_of_jobs {server server' : Server D}
    (same : (jobStatuses server').length = (jobStatuses server).length) :
    server'.simulations.length = server.simulations.length := by
  simpa [jobStatuses] using same

/-- Giving a job to one simulation, which lets it leave the ones without. -/
theorem countP_set_job {jobs : List Int} {simuId : Nat} {old : Int}
    (present : jobs[simuId]? = some old) (new : Int) (submitted : new ≠ -1) :
    (jobs.set simuId new).countP (· == -1) + (if old = -1 then 1 else 0) =
      jobs.countP (· == -1) := by
  have count := countP_set_add (fun status : Int => status == -1) present new
  simp only [beq_iff_eq, if_neg submitted, Nat.add_zero] at count
  exact count

theorem jobStatuses_timeoutRound (server : Server D) (now : ℚ) :
    jobStatuses (timeoutRound server now) = jobStatuses server := by
  have checked : (checkTimeouts now server.options.timeoutSimu server.simulations).2.map
      Simulation.jobStatus = jobStatuses server := by
    simp [checkTimeouts, jobStatuses, apply_ite]
  have sent (detected : Nat) (simulations : List (Simulation D)) :
      (sendTimeouts detected simulations).2.map Simulation.jobStatus =
        simulations.map Simulation.jobStatus := by
    unfold sendTimeouts
    split
    · rfl
    · simp [apply_ite]
  unfold timeoutRound
  split
  · dsimp only
    split
    · exact (sent _ _).trans checked
    · exact checked
  · rfl

theorem jobStatuses_job {server server' : Server D} {job : Job D}
    (taken : processLauncherMessage server (.job job) = some server') :
    ∃ old, (jobStatuses server)[job.simuId]? = some old ∧
      jobStatuses server' = (jobStatuses server).set job.simuId 0 := by
  cases launcherEffect taken with
  | @job _ simu present enough =>
      have before : (jobStatuses server)[job.simuId]? = some simu.jobStatus := by
        simp [jobStatuses, present]
      exact ⟨simu.jobStatus, before, List.map_set⟩
  | nothing noJob noDrop => exact absurd rfl (noJob job)

theorem jobStatuses_updateProgress {server server' : Server D} {simuId : Nat}
    (taken : updateProgress server simuId = some server') :
    jobStatuses server' = (jobStatuses server).set simuId 1 := by
  simp only [updateProgress, Option.bind_eq_bind, Option.bind_eq_some_iff] at taken
  obtain ⟨simu, present, status, checked, done⟩ := taken
  cases done
  simp [jobStatuses, List.map_set]

end Jobs

section Accepted

variable {D : Type}

/-- A data message changes `job_status` of its own simulation, and of the one that the launcher
answers for when it is asked: one of them has none yet. -/
def GivesJob (server : Server D) (m : SimuData D) (reply : Job D) : Prop :=
  HasNoJob server m.simuId ∨
    ((parametersOf server)[m.simuId]? = some none ∧ 0 < m.vectSize ∧
      HasNoJob server reply.simuId)

private theorem countP_job_iff {jobs : List Int} {simuId : Nat}
    (present : ∃ old, jobs[simuId]? = some old) (new : Int) (submitted : new ≠ -1) :
    (jobs.set simuId new).countP (· == -1) ≤ jobs.countP (· == -1) ∧
      ((jobs.set simuId new).countP (· == -1) = jobs.countP (· == -1) ↔
        ¬ jobs[simuId]? = some (-1)) := by
  obtain ⟨old, here⟩ := present
  have count := countP_set_job here new submitted
  rw [here, Option.some.injEq]
  split at count
  · rename_i none_yet
    exact ⟨by omega, iff_of_false (by omega) (not_not_intro none_yet)⟩
  · rename_i has
    exact ⟨by omega, iff_of_true (by omega) has⟩

/-- The answer of the launcher first, if it is asked, and then the message itself. -/
private theorem countP_jobs_iff {jobs : List Int} {asked : Bool} {own other : Nat}
    (here : ∃ old, jobs[own]? = some old)
    (answered : asked = true → ∃ old, jobs[other]? = some old) :
    ((if asked then jobs.set other 0 else jobs).set own 1).countP (· == -1) ≤
        jobs.countP (· == -1) ∧
      (((if asked then jobs.set other 0 else jobs).set own 1).countP (· == -1) =
          jobs.countP (· == -1) ↔
        ¬ (jobs[own]? = some (-1) ∨ (asked = true ∧ jobs[other]? = some (-1)))) := by
  cases asked with
  | false =>
      simpa using countP_job_iff here 1 (by decide)
  | true =>
      obtain ⟨fewer, same⟩ := countP_job_iff (answered rfl) 0 (by decide)
      have still : ∃ old, (jobs.set other 0)[own]? = some old := by
        obtain ⟨old, here⟩ := here
        obtain ⟨inside, _⟩ := List.getElem?_eq_some_iff.mp here
        exact ⟨_, List.getElem?_eq_getElem (by simpa using inside)⟩
      obtain ⟨fewer', same'⟩ := countP_job_iff still 1 (by decide)
      rw [if_pos rfl]
      refine ⟨fewer'.trans fewer, ?_⟩
      have own_after : ¬ jobs[other]? = some (-1) →
          ((jobs.set other 0)[own]? = some (-1) ↔ jobs[own]? = some (-1)) := by
        intro has
        by_cases equal : other = own
        · subst equal
          obtain ⟨old, here⟩ := here
          obtain ⟨inside, _⟩ := List.getElem?_eq_some_iff.mp here
          rw [List.getElem?_set_self inside]
          exact iff_of_false (by decide) has
        · rw [List.getElem?_set_ne equal]
      constructor
      · intro both
        have first := same.mp (by omega)
        have second := same'.mp (by omega)
        rw [own_after first] at second
        simp [first, second]
      · intro none_given
        simp only [true_and, not_or] at none_given
        have first := same.mpr none_given.2
        have second := same'.mpr (by rw [own_after none_given.2]; exact none_given.1)
        exact second.trans first

variable [Zero D] [Add D] [Sub D] [Mul D] [Div D] [NatCast D] [IntCast D]
  [Pow D ℕ] [LT D] [DecidableLT D] [LE D] [DecidableLE D] [Libm D]

theorem jobStatuses_acceptMessage {restore : Restore D} {server server' : Server D} {now : ℚ}
    {m : SimuData D} {reply : Job D} {fieldId : Nat}
    (taken : acceptMessage restore server now m (.job reply) fieldId = some server') :
    ∃ simu, server.simulations[m.simuId]? = some simu ∧
      (waitsForJob simu m.vectSize = true → ∃ old, (jobStatuses server)[reply.simuId]? = some old) ∧
      jobStatuses server' =
        (if waitsForJob simu m.vectSize then (jobStatuses server).set reply.simuId 0
          else jobStatuses server).set m.simuId 1 := by
  obtain ⟨_, _, _, sameSimulations, _⟩ := countFirstSend_parts server fieldId m.clientRank
  obtain ⟨data, _, simu, updated, asked, _, _, simulation, _, replied, done⟩ :=
    acceptMessage_parts taken
  have stored : jobStatuses (storeEntry (countFirstSend server fieldId m.clientRank) now m fieldId
      simu (needsInit data m.vectSize) updated) = jobStatuses server := by
    unfold storeEntry jobStatuses
    rw [sameSimulations]
    exact map_set_of_same simulation rfl
  refine ⟨simu, simulation, ?_⟩
  rw [jobStatuses_updateProgress done]
  unfold awaitReply at replied
  cases waits : waitsForJob simu m.vectSize with
  | false =>
      rw [waits] at replied
      cases replied
      rw [stored]
      simp
  | true =>
      rw [waits, if_pos rfl] at replied
      obtain ⟨old, present, answered⟩ := jobStatuses_job replied
      rw [stored] at present answered
      rw [answered]
      exact ⟨fun _ => ⟨old, present⟩, rfl⟩

/-- The effect of an accepted message on the sample. -/
theorem acceptMessage_sample {restore : Restore D} {server server' : Server D} {now : ℚ}
    {m : SimuData D} {reply : Job D} {fieldId : Nat}
    (taken : acceptMessage restore server now m (.job reply) fieldId = some server') :
    server'.options = server.options ∧
      server'.simulations.length = server.simulations.length ∧
      unsubmitted server' ≤ unsubmitted server ∧
      (unsubmitted server' = unsubmitted server ↔ ¬ GivesJob server m reply) := by
  obtain ⟨_, _, _, _, _, accepted⟩ := acceptMessage_cases taken
  obtain ⟨simu, simulation, answered, after⟩ := jobStatuses_acceptMessage taken
  have here : ∃ old, (jobStatuses server)[m.simuId]? = some old :=
    ⟨simu.jobStatus, by simp [jobStatuses, simulation]⟩
  have length : server'.simulations.length = server.simulations.length := by
    apply length_of_jobs
    rw [after, List.length_set]
    split
    · exact List.length_set
    · rfl
  obtain ⟨fewer, same⟩ := countP_jobs_iff here answered
  rw [← after, ← unsubmitted_eq, ← unsubmitted_eq] at fewer same
  have asks : waitsForJob simu m.vectSize = true ↔
      (parametersOf server)[m.simuId]? = some none ∧ 0 < m.vectSize := by
    simp [waitsForJob, parametersOf, simulation]
  refine ⟨accepted.options, length, fewer, same.trans (not_congr ?_)⟩
  rw [asks, and_assoc]
  rfl

end Accepted

section Blocks

variable {D : Type}

/-- What the blocks before the data port leave of the simulations and of the tests of the data
branch. -/
structure SameView (rank rank' : LoopState D) : Prop where
  jobs : jobStatuses rank'.server = jobStatuses rank.server
  parameters : parametersOf rank'.server = parametersOf rank.server
  names : rank'.server.fields.map MelissaField.name = rank.server.fields.map MelissaField.name
  nbTimeSteps : rank'.server.options.nbTimeSteps = rank.server.options.nbTimeSteps

theorem sameView_refl (rank : LoopState D) : SameView rank rank := ⟨rfl, rfl, rfl, rfl⟩

theorem sameView_trans {first second third : LoopState D} (left : SameView first second)
    (right : SameView second third) : SameView first third :=
  ⟨right.jobs.trans left.jobs, right.parameters.trans left.parameters,
    right.names.trans left.names, right.nbTimeSteps.trans left.nbTimeSteps⟩

theorem admitted_view {rank rank' : LoopState D} (view : SameView rank rank') (m : SimuData D)
    (fieldId : Nat) : Admitted rank'.server m fieldId ↔ Admitted rank.server m fieldId := by
  unfold Admitted
  rw [view.nbTimeSteps, getFieldId_eq_of_names view.names]

theorem givesJob_view {rank rank' : LoopState D} (view : SameView rank rank') (m : SimuData D)
    (reply : Job D) : GivesJob rank'.server m reply ↔ GivesJob rank.server m reply := by
  unfold GivesJob HasNoJob
  rw [view.jobs, view.parameters]

theorem length_view {rank rank' : LoopState D} (view : SameView rank rank') :
    rank'.server.simulations.length = rank.server.simulations.length :=
  length_of_jobs (congrArg List.length view.jobs)

/-- At the top of a pass the simulations without a job leave the sample of a silent launcher. -/
theorem checkTimes_options (rank : LoopState D) (pass : Pass D) :
    (checkTimes rank pass).server.options = { rank.server.options with
      samplingSize := if rank.lastMsgLauncher + 250 < pass.clock 1
        then rank.server.options.samplingSize - (unsubmitted rank.server : Int)
        else rank.server.options.samplingSize } := by
  have options := (timeoutRound_parts rank.server (pass.clock 0)).2.1
  have same : unsubmitted (timeoutRound rank.server (pass.clock 0)) = unsubmitted rank.server :=
    unsubmitted_of_jobs (jobStatuses_timeoutRound rank.server (pass.clock 0))
  unfold checkTimes launcherTimeout
  dsimp only
  split
  · dsimp only [removeUnsubmitted]
    rw [options, same]
  · exact options

theorem checkTimes_view (rank : LoopState D) (pass : Pass D) :
    SameView rank (checkTimes rank pass) := by
  have untouched := checkTimes_untouched rank pass
  have simulations : (checkTimes rank pass).server.simulations =
      (timeoutRound rank.server (pass.clock 0)).simulations := by
    unfold checkTimes launcherTimeout
    split
    · rfl
    · rfl
  refine ⟨?_, ?_, congrArg _ untouched.fields, untouched.nbTimeSteps⟩
  · rw [jobStatuses, simulations]
    exact jobStatuses_timeoutRound rank.server (pass.clock 0)
  · rw [parametersOf, simulations]
    exact (timeoutRound_parts rank.server (pass.clock 0)).2.2.2.2.1

theorem periodicCheckpoint_view {rank saved : LoopState D} {now : ℚ}
    (returned : (periodicCheckpoint rank now).result = some saved) :
    SameView rank saved ∧ saved.server.options = rank.server.options := by
  obtain ⟨_, rfl⟩ := periodicCheckpoint_cases returned
  exact ⟨⟨rfl, rfl, rfl, rfl⟩, rfl⟩

theorem firstInitBlock_view {rank ready : LoopState D} {broadcast : Nat}
    (returned : (firstInitBlock rank broadcast).result = some ready) :
    SameView rank ready ∧ ready.server.options = rank.server.options := by
  unfold firstInitBlock at returned
  split at returned
  · rw [result_bind] at returned
    obtain ⟨received, _, done⟩ := Option.bind_eq_some_iff.mp returned
    cases done
    refine ⟨⟨rfl, rfl, ?_, rfl⟩, rfl⟩
    simp [allocateFields, emptyField, Function.comp_def]
  · cases returned
    exact ⟨sameView_refl rank, rfl⟩

end Blocks

section Passes

variable {D : Type}

/-- The launcher has said nothing for too long when the pass looks at it, and says nothing on the
text port in this pass. -/
def SilentPass (rank : LoopState D) (pass : Pass D) : Prop :=
  rank.lastMsgLauncher + 250 < pass.clock 1 ∧ pass.text = none

/-- The pass gets to the data port, where a message gives a job to a simulation without one. -/
def Submits (rank : LoopState D) (pass : Pass D) : Prop :=
  ¬ EndsEarly rank pass ∧
    ∃ m reply fieldId, pass.data = some (m, reply) ∧ Admitted rank.server m fieldId ∧
      GivesJob rank.server m reply

/-- Only the simulations without a job are missing in the sample, and the study ends only when as
many simulations have finished as have been submitted. -/
def RemovedOnce (server : Server D) : Prop :=
  server.options.samplingSize =
      (server.simulations.length : Int) - (unsubmitted server : Int) ∧
    (stopTest server = true →
      server.simulations.length ≤ unsubmitted server + server.nbFinishedSimulations)

theorem removedOnce_iff_sampling {server : Server D} :
    RemovedOnce server ↔ server.options.samplingSize =
      (server.simulations.length : Int) - (unsubmitted server : Int) := by
  refine and_iff_left_of_imp ?_
  intro sampling stop
  simp only [stopTest, Bool.and_eq_true, decide_eq_true_eq, ge_iff_le] at stop
  omega

variable [Zero D] [Add D] [Sub D] [Mul D] [Div D] [NatCast D] [IntCast D]
  [Pow D ℕ] [LT D] [DecidableLT D] [LE D] [DecidableLE D] [Libm D]

/-- What the blocks of a pass before the data port leave of the simulations. -/
theorem passBody_view {restore : Restore D} {rank next : LoopState D} {pass : Pass D}
    (returned : (passBody restore rank pass).result = some next) :
    ∃ saved, SameView rank saved ∧ saved.server.options = (checkTimes rank pass).server.options ∧
      ((EndsEarly rank pass ∧ saved = next) ∨
        (¬ EndsEarly rank pass ∧ ∃ informed ready, readText saved pass = some informed ∧
          SameView informed ready ∧ ready.server.options = informed.server.options ∧
          (receiveData restore ready pass).result = some next)) := by
  obtain ⟨saved, checkpoint, ending⟩ := passBody_eq_some.mp returned
  obtain ⟨view, options⟩ := periodicCheckpoint_view checkpoint
  refine ⟨saved, sameView_trans (checkTimes_view rank pass) view, options, ?_⟩
  rcases ending with early | ⟨late, informed, ready, read, block, received⟩
  · exact Or.inl early
  · obtain ⟨view', options'⟩ := firstInitBlock_view block
    rw [answerConnection_server] at options'
    have answered : SameView informed (answerConnection informed pass.connection) := by
      constructor
      · rw [answerConnection_server]
      · rw [answerConnection_server]
      · rw [answerConnection_server]
      · rw [answerConnection_server]
    exact Or.inr ⟨late, informed, ready, read, sameView_trans answered view', options', received⟩

/-- What the data port does to the sample. -/
theorem receiveData_sample {restore : Restore D} {rank next : LoopState D} {pass : Pass D}
    (returned : (receiveData restore rank pass).result = some next) :
    next.server.options = rank.server.options ∧
      next.server.simulations.length = rank.server.simulations.length ∧
      unsubmitted next.server ≤ unsubmitted rank.server ∧
      (unsubmitted next.server = unsubmitted rank.server ↔
        ¬ ∃ m reply fieldId, pass.data = some (m, reply) ∧ Admitted rank.server m fieldId ∧
          GivesJob rank.server m reply) := by
  unfold receiveData at returned
  split at returned
  · rename_i idle
    cases returned
    refine ⟨rfl, rfl, Nat.le_refl _, iff_of_true rfl ?_⟩
    intro submits
    obtain ⟨m, reply, fieldId, found, _⟩ := submits
    rw [idle] at found
    cases found
  · rename_i m reply found
    split at returned
    · rename_i refused
      cases returned
      refine ⟨rfl, rfl, Nat.le_refl _, iff_of_true rfl ?_⟩
      intro submits
      obtain ⟨m', reply', fieldId, found', admitted, _⟩ := submits
      rw [found] at found'
      cases found'
      exact admittedField_eq_none.mp refused fieldId admitted
    · rename_i fieldId known
      unfold dataBranch at returned
      rw [result_bind, result_touch, Option.bind_some, result_ofOption] at returned
      split at returned
      · obtain ⟨server, accepted, rfl⟩ := Option.map_eq_some_iff.mp returned
        obtain ⟨options, length, fewer, same⟩ := acceptMessage_sample accepted
        refine ⟨options, length, fewer, same.trans (not_congr ?_)⟩
        constructor
        · intro gives
          exact ⟨m, reply, fieldId, found, admittedField_eq_some.mp known, gives⟩
        · intro submits
          obtain ⟨m', reply', fieldId', found', admitted, gives⟩ := submits
          rw [found] at found'
          cases found'
          exact gives
      · cases returned

end Passes

section Survival

variable {D : Type}

/-- A rank with another sample, that has heard from the launcher at another time. -/
def resampled (samplingSize : Int) (lastMsgLauncher : ℚ) (rank : LoopState D) : LoopState D :=
  { rank with
    lastMsgLauncher := lastMsgLauncher
    server := { rank.server with options :=
      { rank.server.options with samplingSize := samplingSize } } }

/-- The rank if the launcher were heard from when the pass looks at it. -/
def heardNow (rank : LoopState D) (pass : Pass D) : LoopState D :=
  { rank with lastMsgLauncher := pass.clock 1 }

/-- The pass gets to the data port, where a message initialises its structure. -/
def Initialises (rank : LoopState D) (pass : Pass D) : Prop :=
  ¬ EndsEarly rank pass ∧
    ∃ m reply fieldId, pass.data = some (m, reply) ∧ Admitted rank.server m fieldId ∧
      (rank.firstInit = 0 → ∃ data, entryOf rank.server.fields fieldId m.clientRank = some data ∧
        needsInit data m.vectSize = true)

theorem checkTimes_heardNow (rank : LoopState D) (pass : Pass D) :
    (checkTimes (heardNow rank pass) pass).server = timeoutRound rank.server (pass.clock 0) := by
  unfold checkTimes launcherTimeout heardNow
  dsimp only
  rw [if_neg (by linarith)]

/-- What the silence changes at the top of a pass. -/
theorem checkTimes_silent {rank : LoopState D} {pass : Pass D} (silent : SilentPass rank pass) :
    checkTimes rank pass =
      resampled (rank.server.options.samplingSize - (unsubmitted rank.server : Int))
        rank.lastMsgLauncher (checkTimes (heardNow rank pass) pass) := by
  have options := (timeoutRound_parts rank.server (pass.clock 0)).2.1
  have same : unsubmitted (timeoutRound rank.server (pass.clock 0)) = unsubmitted rank.server :=
    unsubmitted_of_jobs (jobStatuses_timeoutRound rank.server (pass.clock 0))
  unfold checkTimes launcherTimeout heardNow resampled removeUnsubmitted
  dsimp only
  rw [if_pos silent.1, if_neg (by linarith), options, same]

theorem periodicCheckpoint_resampled (samplingSize : Int) (lastMsgLauncher : ℚ)
    (rank : LoopState D) (now : ℚ) :
    (periodicCheckpoint (resampled samplingSize lastMsgLauncher rank) now).result =
      (periodicCheckpoint rank now).result.map (resampled samplingSize lastMsgLauncher) := by
  have due : checkpointDue (resampled samplingSize lastMsgLauncher rank).server now =
      checkpointDue rank.server now := rfl
  have saved : (saveFields (resampled samplingSize lastMsgLauncher rank)).result =
      (saveFields rank).result := rfl
  unfold periodicCheckpoint
  rw [due]
  split
  · rw [result_bind, result_bind, saved, Option.map_bind]
    rfl
  · rfl

theorem answerConnection_resampled (samplingSize : Int) (lastMsgLauncher : ℚ)
    (rank : LoopState D) (connection : Option Nat) :
    answerConnection (resampled samplingSize lastMsgLauncher rank) connection =
      resampled samplingSize lastMsgLauncher (answerConnection rank connection) := by
  have root : (resampled samplingSize lastMsgLauncher rank).server.commData.rank =
      rank.server.commData.rank := rfl
  unfold answerConnection
  rw [root]
  split
  · rfl
  · split
    · rfl
    · rfl

theorem firstInitBlock_resampled (samplingSize : Int) (lastMsgLauncher : ℚ)
    (rank : LoopState D) (broadcast : Nat) :
    (firstInitBlock (resampled samplingSize lastMsgLauncher rank) broadcast).result =
      (firstInitBlock rank broadcast).result.map (resampled samplingSize lastMsgLauncher) := by
  have first : (resampled samplingSize lastMsgLauncher rank).firstInit = rank.firstInit := rfl
  have root : (resampled samplingSize lastMsgLauncher rank).server.commData.rank =
      rank.server.commData.rank := rfl
  have size : (resampled samplingSize lastMsgLauncher rank).rinitTab = rank.rinitTab := rfl
  unfold firstInitBlock
  rw [first, root, size]
  split
  · rw [result_bind, result_bind, Option.map_bind]
    rfl
  · rfl

variable [Zero D] [Add D] [Sub D] [Mul D] [Div D] [NatCast D] [IntCast D]
  [Pow D ℕ] [LT D] [DecidableLT D] [LE D] [DecidableLE D] [Libm D]

/-- A data message that goes through with one sample goes through with another, unless it
initialises its structure. -/
theorem receiveData_resampled {restore : Restore D} {ready next : LoopState D} {pass : Pass D}
    {samplingSize : Int} (lastMsgLauncher : ℚ)
    (complete : ∀ m reply fieldId data, pass.data = some (m, reply) →
      Admitted ready.server m fieldId →
      entryOf ready.server.fields fieldId m.clientRank = some data →
        needsInit data m.vectSize = true → samplingSize = ready.server.options.samplingSize)
    (returned : (receiveData restore ready pass).result = some next) :
    ∃ next', (receiveData restore (resampled samplingSize lastMsgLauncher ready) pass).result =
      some next' := by
  unfold receiveData at returned ⊢
  cases found : pass.data with
  | none => exact ⟨_, rfl⟩
  | some message =>
      obtain ⟨m, reply⟩ := message
      rw [found] at returned
      have same : admittedField (resampled samplingSize lastMsgLauncher ready).server m =
          admittedField ready.server m := rfl
      dsimp only at returned ⊢
      rw [same]
      cases known : admittedField ready.server m with
      | none => exact ⟨_, rfl⟩
      | some fieldId =>
          rw [known] at returned
          dsimp only at returned ⊢
          unfold dataBranch at returned ⊢
          rw [result_bind, result_touch, Option.bind_some, result_ofOption] at returned ⊢
          split at returned
          · rename_i allocated
            obtain ⟨server, accepted, _⟩ := Option.map_eq_some_iff.mp returned
            have admitted := admittedField_eq_some.mp known
            have alike : sampleFree (resampled samplingSize lastMsgLauncher ready).server =
                sampleFree ready.server := rfl
            obtain ⟨server', accepted', _⟩ := acceptMessage_sampleFree alike
              (fun data => complete m reply fieldId data found admitted) accepted
            rw [if_pos (show (resampled samplingSize lastMsgLauncher ready).allocated = true from
              allocated), accepted']
            exact ⟨_, rfl⟩
          · cases returned

/-- A pass that goes through while the launcher is heard from goes through without it, when no
structure is initialised with the smaller sample. -/
theorem passBody_survives {restore : Restore D} {rank heard : LoopState D} {pass : Pass D}
    (silent : SilentPass rank pass)
    (keeps : unsubmitted rank.server = 0 ∨ ¬ Initialises rank pass)
    (returned : (passBody restore (heardNow rank pass) pass).result = some heard) :
    ∃ next, (passBody restore rank pass).result = some next := by
  obtain ⟨saved, checkpoint, ending⟩ := passBody_eq_some.mp returned
  have checkpoint' := periodicCheckpoint_resampled
    (rank.server.options.samplingSize - (unsubmitted rank.server : Int)) rank.lastMsgLauncher
    (checkTimes (heardNow rank pass) pass) (pass.clock 2)
  rw [← checkTimes_silent silent, checkpoint, Option.map_some] at checkpoint'
  rcases ending with ⟨early, _⟩ | ⟨late, informed, ready, read, block, received⟩
  · exact ⟨_, passBody_eq_some.mpr ⟨_, checkpoint', Or.inl ⟨early, rfl⟩⟩⟩
  · rw [readText, silent.2] at read
    cases read
    have block' := firstInitBlock_resampled
      (rank.server.options.samplingSize - (unsubmitted rank.server : Int)) rank.lastMsgLauncher
      (answerConnection saved pass.connection) pass.broadcast
    rw [← answerConnection_resampled, block, Option.map_some] at block'
    have complete (m : SimuData D) (reply : Job D) (fieldId : Nat) (data : MelissaData D)
        (found : pass.data = some (m, reply)) (admitted : Admitted ready.server m fieldId)
        (entry : entryOf ready.server.fields fieldId m.clientRank = some data)
        (needs : needsInit data m.vectSize = true) :
        rank.server.options.samplingSize - (unsubmitted rank.server : Int) =
          ready.server.options.samplingSize := by
      have options := (firstInitBlock_view block).2
      rw [answerConnection_server, (periodicCheckpoint_view checkpoint).2, checkTimes_heardNow,
        (timeoutRound_parts rank.server (pass.clock 0)).2.1] at options
      rcases keeps with none_left | ready_all
      · rw [options, none_left]
        exact Int.sub_zero _
      · refine absurd ⟨late, m, reply, fieldId, found, ?_, fun later => ⟨data, ?_, needs⟩⟩ ready_all
        · have view := sameView_trans (checkTimes_view (heardNow rank pass) pass)
            (periodicCheckpoint_view checkpoint).1
          have opened := (firstInitBlock_view block).1
          have answered := answerConnection_server saved pass.connection
          unfold Admitted at admitted ⊢
          rw [opened.nbTimeSteps, getFieldId_eq_of_names opened.names, answered, view.nbTimeSteps,
            getFieldId_eq_of_names view.names] at admitted
          exact admitted
        · obtain ⟨_, same⟩ := periodicCheckpoint_cases checkpoint
          have untouched := checkTimes_untouched (heardNow rank pass) pass
          have still : saved.firstInit = 0 := by
            rw [same]
            exact untouched.firstInit.trans later
          have fields : saved.server.fields = rank.server.fields := by
            rw [same]
            exact untouched.fields
          rw [firstInitBlock_idle pass.connection pass.broadcast still] at block
          rw [← Option.some.inj block, answerConnection_server, fields] at entry
          exact entry
    obtain ⟨next, received'⟩ := receiveData_resampled rank.lastMsgLauncher complete received
    refine ⟨next, passBody_eq_some.mpr ⟨_, checkpoint', Or.inr ⟨late, _, _, ?_, block', received'⟩⟩⟩
    rw [readText, silent.2]

end Survival

section Runs

variable {D : Type}

/-- The sample never exceeds the known simulations. -/
def Sampled (rank : LoopState D) : Prop :=
  rank.server.options.samplingSize ≤ (rank.server.simulations.length : Int)

theorem sampled_opened (clientCommSize : Nat) (rank : LoopState D) :
    (opened clientCommSize rank).options.samplingSize ≤
        ((opened clientCommSize rank).simulations.length : Int) ↔ Sampled rank := by
  unfold opened
  split
  · exact Iff.rfl
  · exact Iff.rfl

/-- The two ways in which a server rank of a study comes to its main loop: with as many new
simulations as the sample has, or with the saved simulations as the sample. -/
inductive Opened (study : Study D) : LoopState D → Prop where
  | first (now : ℚ) : Opened study (serverInit study.options.firstStart study.commData.rank
      study.commData.commSize study.names
      (List.replicate study.options.samplingSize.toNat addSimulation) 0 now)
  | again (simulations : List (Simulation D)) (nbFinishedSimulations : Nat) (now : ℚ) :
      Opened study (serverInit
        { study.options.restarted with samplingSize := (simulations.length : Int) }
        study.commData.rank study.commData.commSize study.names simulations
        nbFinishedSimulations now)

theorem sampled_of_opened {study : Study D} {rank : LoopState D} (opened : Opened study rank) :
    Sampled rank := by
  cases opened with
  | first now =>
      change study.options.samplingSize ≤
        ((List.replicate study.options.samplingSize.toNat addSimulation).length : Int)
      rw [List.length_replicate]
      exact Int.self_le_toNat _
  | again simulations nbFinishedSimulations now => exact le_refl _

theorem firstInit_of_opened {study : Study D} {rank : LoopState D} (opened : Opened study rank) :
    FirstInit rank := by
  cases opened with
  | first now => exact firstInit_serverInit
  | again simulations nbFinishedSimulations now => exact firstInit_serverInit

/-- What a silent pass does to the sample. -/
structure SilentSample (rank : LoopState D) (pass : Pass D) (next : LoopState D) : Prop where
  sampling : next.server.options.samplingSize =
    rank.server.options.samplingSize - (unsubmitted rank.server : Int)
  length : next.server.simulations.length = rank.server.simulations.length
  fewer : unsubmitted next.server ≤ unsubmitted rank.server
  same : unsubmitted next.server = unsubmitted rank.server ↔ ¬ Submits rank pass

/-- What silent passes have done to the sample of the state they started from. -/
structure Shrunk (start : LoopState D) (rank : LoopState D) : Prop where
  sampling : rank.server.options.samplingSize ≤ start.server.options.samplingSize
  length : rank.server.simulations.length = start.server.simulations.length
  fewer : unsubmitted rank.server ≤ unsubmitted start.server
  none_left : unsubmitted start.server = 0 →
    rank.server.options.samplingSize = start.server.options.samplingSize

theorem shrunk_refl (rank : LoopState D) : Shrunk rank rank :=
  ⟨le_refl _, rfl, Nat.le_refl _, fun _ => rfl⟩

theorem shrunk_pass {start rank next : LoopState D} {pass : Pass D} (shrunk : Shrunk start rank)
    (sample : SilentSample rank pass next) : Shrunk start next := by
  have sampling := sample.sampling
  have fewer := sample.fewer
  refine ⟨?_, sample.length.trans shrunk.length, fewer.trans shrunk.fewer, ?_⟩
  · have := shrunk.sampling
    omega
  · intro none_left
    have := shrunk.none_left none_left
    have := shrunk.fewer
    omega

variable [Zero D] [Add D] [Sub D] [Mul D] [Div D] [NatCast D] [IntCast D]
  [Pow D ℕ] [LT D] [DecidableLT D] [LE D] [DecidableLE D] [Libm D]

theorem silentSample {restore : Restore D} {rank next : LoopState D} {pass : Pass D}
    (silent : SilentPass rank pass)
    (returned : (passBody restore rank pass).result = some next) :
    SilentSample rank pass next := by
  obtain ⟨saved, view, options, ending⟩ := passBody_view returned
  have sampling : saved.server.options.samplingSize =
      rank.server.options.samplingSize - (unsubmitted rank.server : Int) := by
    rw [options, checkTimes_options]
    exact if_pos silent.1
  rcases ending with ⟨early, rfl⟩ | ⟨late, informed, ready, read, block, options', received⟩
  · have jobs := unsubmitted_of_jobs view.jobs
    exact ⟨sampling, length_view view, jobs.le, iff_of_true jobs fun submits => submits.1 early⟩
  · rw [readText, silent.2] at read
    cases read
    have whole := sameView_trans view block
    have jobs := unsubmitted_of_jobs whole.jobs
    obtain ⟨kept, length, fewer, same⟩ := receiveData_sample received
    rw [jobs] at fewer same
    refine ⟨?_, length.trans (length_view whole), fewer, same.trans (not_congr ?_)⟩
    · rw [kept, options', sampling]
    · unfold Submits
      rw [and_iff_right late]
      simp only [admitted_view whole, givesJob_view whole]

theorem sampled_run {restore : Restore D} {rank last : LoopState D} {passes : List (Pass D)}
    (start : FirstInit rank) (sampled : Sampled rank)
    (reached : run (loopStep restore) rank passes = some last) : Sampled last := by
  obtain ⟨_, connected, rounds⟩ := run_passRounds start reached
  have through := rounds connected fun _ _ => rfl
  have inside := run_invariant (fun _ _ _ => sample_le_roundStep)
    ((sampled_opened connected rank).mpr sampled) through
  exact (sampled_opened connected last).mp inside

/-- Silent passes, one after the other. -/
def SilentRun (restore : Restore D) (rank : LoopState D) (passes : List (Pass D)) : Prop :=
  Along (loopStep restore) (fun rank pass _ => SilentPass rank pass) rank passes

theorem shrunk_run {restore : Restore D} {rank last : LoopState D} {passes : List (Pass D)}
    (silent : SilentRun restore rank passes)
    (reached : run (loopStep restore) rank passes = some last) : Shrunk rank last := by
  have pass_sample (rank : LoopState D) (pass : Pass D) (next : LoopState D)
      (taken : loopStep restore rank pass = some next) (quiet : SilentPass rank pass) :
      SilentSample rank pass next := silentSample quiet (passBody_of_loopStep taken)
  have sample : Along (loopStep restore) SilentSample rank passes := along_mono pass_sample silent
  exact along_run (Shrunk rank) (fun _ _ _ sample shrunk => shrunk_pass shrunk sample) sample
    (shrunk_refl rank) reached

private theorem removedOnce_returned {restore : Restore D} {rank mid last : LoopState D}
    {passes : List (Pass D)} {pass : Pass D} (sampled : Sampled rank)
    (silent : SilentRun restore rank passes)
    (onward : run (loopStep restore) rank passes = some mid) (quiet : SilentPass mid pass)
    (returned : (passBody restore mid pass).result = some last) :
    RemovedOnce last.server ↔ WholeSample rank.server ∧
      (unsubmitted rank.server = 0 ∨ (passes = [] ∧ ¬ Submits rank pass)) := by
  obtain ⟨sampling, length, fewer, same⟩ := silentSample quiet returned
  unfold Sampled at sampled
  unfold WholeSample
  rw [removedOnce_iff_sampling]
  cases passes with
  | nil =>
      cases onward
      rw [← same]
      simp only [true_and]
      omega
  | cons first rest =>
      obtain ⟨next, taken, onward⟩ := Option.bind_eq_some_iff.mp onward
      obtain ⟨quietFirst, silentRest⟩ := silent next taken
      have firstSample := silentSample quietFirst (passBody_of_loopStep taken)
      have shrunkRest := shrunk_run silentRest onward
      have shrunk := shrunk_pass (shrunk_refl rank) firstSample
      have removed := firstSample.sampling
      have later := shrunkRest.sampling
      have sizes := shrunkRest.length.trans shrunk.length
      simp only [reduceCtorEq, false_and, or_false]
      constructor
      · intro kept
        omega
      · intro complete
        have none_left : unsubmitted next.server = 0 := by
          have := firstSample.fewer
          omega
        have still := shrunkRest.none_left none_left
        have := shrunkRest.fewer
        omega

/-- After a number of silent passes exactly the simulations without a job are missing in the
sample, if and only if the sample was complete and either all simulations had a job or this was
the first silent pass and it gave no simulation a job. In these cases the server also survives the
pass, as it would with a launcher that speaks, unless it initialises a structure with the smaller
sample. -/
theorem removedOnce_iff {restore : Restore D} {study : Study D} {start rank mid : LoopState D}
    {before passes : List (Pass D)} {pass : Pass D} (opened : Opened study start)
    (reached : run (loopStep restore) start before = some rank)
    (silent : SilentRun restore rank passes)
    (onward : run (loopStep restore) rank passes = some mid) (quiet : SilentPass mid pass) :
    (WholeSample rank.server →
      (unsubmitted rank.server = 0 ∨
        (passes = [] ∧ ¬ Submits rank pass ∧ ¬ Initialises rank pass)) →
      (passBody restore (heardNow mid pass) pass).result.isSome →
        ∃ last, (passBody restore mid pass).result = some last ∧ RemovedOnce last.server) ∧
      ∀ last, (passBody restore mid pass).result = some last →
        (RemovedOnce last.server ↔ WholeSample rank.server ∧
          (unsubmitted rank.server = 0 ∨ (passes = [] ∧ ¬ Submits rank pass))) := by
  have sampled : Sampled rank :=
    sampled_run (firstInit_of_opened opened) (sampled_of_opened opened) reached
  refine ⟨fun whole removed survives => ?_,
    fun last returned => removedOnce_returned sampled silent onward quiet returned⟩
  obtain ⟨heard, survives⟩ := Option.isSome_iff_exists.mp survives
  have keeps : unsubmitted mid.server = 0 ∨ ¬ Initialises mid pass := by
    rcases removed with none_left | ⟨rfl, _, ready⟩
    · have fewer := (shrunk_run silent onward).fewer
      exact Or.inl (by omega)
    · cases onward
      exact Or.inr ready
  obtain ⟨last, returned⟩ := passBody_survives quiet keeps survives
  refine ⟨last, returned, (removedOnce_returned sampled silent onward quiet returned).mpr ?_⟩
  exact ⟨whole, removed.imp_right fun ⟨first, submits, _⟩ => ⟨first, submits⟩⟩

/-- After every number of silent passes, from every state of every run, exactly the simulations
without a job are missing in the sample. -/
def RemovesOnce (restore : Restore D) (study : Study D) : Prop :=
  ∀ start before rank passes mid pass last, Opened study start →
    run (loopStep restore) start before = some rank → SilentRun restore rank passes →
    run (loopStep restore) rank passes = some mid → SilentPass mid pass →
    (passBody restore mid pass).result = some last → RemovedOnce last.server

end Runs

section TwoSilentPasses

private def threeSimulations : Study ℚ :=
  { options := { twoByTwo with samplingSize := 3, timeoutSimu := 1000 }
    commData := ⟨0, 1, 1⟩, names := ["heat"] }

private def threeStart : LoopState ℚ :=
  serverInit threeSimulations.options.firstStart 0 1 ["heat"] (List.replicate 3 addSimulation) 0 0

private def hearing (now : ℚ) (simuId : Nat) (connection : Option Nat) : Pass ℚ :=
  { clock := fun _ => now, text := some (.job ⟨simuId, "job", [1]⟩), connection := connection
    broadcast := 0, data := none, signal := none }

private def receiving (now : ℚ) (data : Option (Int × Nat)) : Pass ℚ :=
  { clock := fun _ => now, text := none, connection := none, broadcast := 0
    data := data.map fun (timeStamp, simuId) =>
      (⟨timeStamp, simuId, 0, 1, "heat", [3]⟩, ⟨simuId, "job", [1]⟩)
    signal := none }

/-- Simulation 0 has finished, simulation 1 has a job, and simulation 2 has none. -/
private def oneFinished : List (Pass ℚ) :=
  [hearing 1 0 (some 1), hearing 2 1 none, receiving 3 (some (0, 0)), receiving 4 (some (1, 0))]

/-- The launcher is silent while simulation 1 sends its first time step. -/
private def firstSilent : Pass ℚ := receiving 300 (some (0, 1))

private def secondSilent : Pass ℚ := receiving 301 none

private theorem silent_receiving {rank : LoopState ℚ} {now : ℚ} (data : Option (Int × Nat))
    (heard : rank.lastMsgLauncher = 2) (late : 252 < now) :
    SilentPass rank (receiving now data) := by
  refine ⟨?_, rfl⟩
  rw [heard]
  exact lt_of_eq_of_lt (by norm_num) late

/-- The first silent pass removes the simulation without a job, once. -/
theorem removedOnce_iff_firstSilent : ∃ rank last,
    run (loopStep noRestore) threeStart oneFinished = some rank ∧
      unsubmitted rank.server = 1 ∧
      (passBody noRestore rank firstSilent).result = some last ∧ RemovedOnce last.server := by
  have opened : Opened threeSimulations threeStart := .first 0
  have state : (run (loopStep noRestore) threeStart oneFinished).map (fun rank =>
      (rank.firstInit, rank.lastMsgLauncher, rank.server.options.samplingSize)) =
      some (0, 2, 3) := by decide +kernel
  have submitted : (run (loopStep noRestore) threeStart oneFinished).map (fun rank =>
      (jobStatuses rank.server, parametersOf rank.server)) =
      some ([1, 0, -1], [some [1], some [1], none]) := by decide +kernel
  have prepared : ((run (loopStep noRestore) threeStart oneFinished).map fun rank =>
      (rank.server.fields.flatMap MelissaField.statsData).all fun data => !needsInit data 1) =
      some true := by decide +kernel
  have survives : ((run (loopStep noRestore) threeStart oneFinished).bind fun rank =>
      (passBody noRestore (heardNow rank firstSilent) firstSilent).result).isSome = true := by
    decide +kernel
  obtain ⟨rank, reached, numbers⟩ := Option.map_eq_some_iff.mp state
  rw [reached, Option.map_some, Option.some.injEq, List.all_eq_true] at prepared
  rw [reached, Option.bind_some] at survives
  simp only [Prod.mk.injEq] at numbers
  obtain ⟨firstInit, heard, sampling⟩ := numbers
  rw [reached, Option.map_some, Option.some.injEq, Prod.mk.injEq] at submitted
  obtain ⟨jobs, parameters⟩ := submitted
  have without : unsubmitted rank.server = 1 := by
    rw [unsubmitted_eq, jobs]
    decide
  have whole : WholeSample rank.server := by
    have length := congrArg List.length jobs
    rw [jobStatuses, List.length_map] at length
    rw [WholeSample, sampling, length]
    rfl
  have submits : ¬ Submits rank firstSilent := by
    rintro ⟨_, m, reply, fieldId, found, _, gives⟩
    cases found
    rw [GivesJob, HasNoJob, jobs, parameters] at gives
    exact absurd gives (by decide)
  have initialises : ¬ Initialises rank firstSilent := by
    rintro ⟨_, m, reply, fieldId, found, _, needs⟩
    obtain ⟨data, entry, empty⟩ := needs firstInit
    have ready := prepared data (mem_entries.mpr ⟨fieldId, m.clientRank, entry⟩)
    cases found
    rw [Bool.not_eq_true'] at ready
    exact absurd (ready.symm.trans empty) Bool.false_ne_true
  obtain ⟨last, returned, once⟩ := (removedOnce_iff opened reached
    (show SilentRun noRestore rank [] from trivial) rfl
    (silent_receiving _ heard (by norm_num))).1 whole (Or.inr ⟨rfl, submits, initialises⟩) survives
  exact ⟨rank, last, reached, without, returned, once⟩

/-- The second silent pass removes it again, and the study ends while simulation 1 is running. -/
theorem not_removesOnce_secondSilent : ¬ RemovesOnce noRestore threeSimulations := by
  intro removes
  have opened : Opened threeSimulations threeStart := .first 0
  have heard : (run (loopStep noRestore) threeStart oneFinished).map LoopState.lastMsgLauncher =
      some 2 := by decide +kernel
  have heard' : (run (loopStep noRestore) threeStart (oneFinished ++ [firstSilent])).map
      LoopState.lastMsgLauncher = some 2 := by decide +kernel
  have outcome : ((run (loopStep noRestore) threeStart (oneFinished ++ [firstSilent])).bind
      fun mid => (passBody noRestore mid secondSilent).result).map (fun last =>
        (stopTest last.server, last.server.simulations.length, unsubmitted last.server,
          last.server.nbFinishedSimulations)) = some (true, 3, 1, 1) := by decide +kernel
  obtain ⟨rank, reached, heard⟩ := Option.map_eq_some_iff.mp heard
  obtain ⟨mid, onward, heard'⟩ := Option.map_eq_some_iff.mp heard'
  rw [onward, Option.bind_some] at outcome
  obtain ⟨last, returned, numbers⟩ := Option.map_eq_some_iff.mp outcome
  rw [run_append, reached, Option.bind_some] at onward
  have silent : SilentRun noRestore rank [firstSilent] :=
    fun _ _ => ⟨silent_receiving _ heard (by norm_num), trivial⟩
  have removed := removes threeStart oneFinished rank [firstSilent] mid secondSilent last opened
    reached silent onward (silent_receiving _ heard' (by norm_num)) returned
  simp only [Prod.mk.injEq] at numbers
  obtain ⟨stop, size, without, finished⟩ := numbers
  have all_finished := removed.2 stop
  omega

end TwoSilentPasses

end Melissa
