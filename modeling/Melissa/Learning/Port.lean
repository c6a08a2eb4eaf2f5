import Melissa.Learning.Passes
import Melissa.Server.Statuses

/-! What a pass of a learning study finds at its data port, and whether it returns from the call, in
terms of the state before the pass. -/

namespace Melissa

open Runs Traced

section Port

variable {D : Type}

/-- The block `first_init == 1` is executed in this pass. -/
def opens (rank : LoopState D) (pass : Pass D) : Bool :=
  rank.firstInit == 1 ||
    (rank.firstInit == 2 && rank.server.commData.rank == 0 && pass.connection.isSome)

/-- The sample when the pass gets to its data port: a message of the launcher makes it all
simulations, and without one a silent launcher takes those without a job out of it. -/
def portSample (rank : LoopState D) (pass : Pass D) : Int :=
  if pass.text.isSome then (rank.server.simulations.length : Int)
  else if rank.lastMsgLauncher + 250 < pass.clock 1 then
    rank.server.options.samplingSize - (unsubmitted rank.server : Int)
  else rank.server.options.samplingSize

/-- The server before the pass, with the sample and the structures that its data port will find. In
a learning study there is one structure for each field. -/
def portView (rank : LoopState D) (pass : Pass D) : Server D :=
  { rank.server with
    options := { rank.server.options with samplingSize := portSample rank pass }
    fields := if opens rank pass then rank.server.fields.map fun field => emptyField 1 field.name
      else rank.server.fields }

/-- What the blocks up to the text port leave of a rank. -/
structure Informed (rank : LoopState D) (pass : Pass D) (informed : LoopState D) : Prop where
  firstInit : informed.firstInit = rank.firstInit
  commData : informed.server.commData = rank.server.commData
  fields : informed.server.fields = rank.server.fields
  options : informed.server.options = (portView rank pass).options
  finished : informed.server.nbFinishedSimulations = rank.server.nbFinishedSimulations
  done : ∀ simuId, simuStatus informed.server simuId = 2 ↔ simuStatus rank.server simuId = 2
  endSignal : informed.endSignal = (pass.signal <|> rank.endSignal)

/-- The state at the data port, as far as it is known before the pass. -/
structure PortReached (rank : LoopState D) (pass : Pass D) (ready : LoopState D) : Prop where
  fields : ready.server.fields = (portView rank pass).fields
  options : ready.server.options = (portView rank pass).options
  finished : ready.server.nbFinishedSimulations = rank.server.nbFinishedSimulations
  done : ∀ simuId, simuStatus ready.server simuId = 2 ↔ simuStatus rank.server simuId = 2
  endSignal : ready.endSignal = (pass.signal <|> rank.endSignal)

theorem simuStatus_timeouts_iff (server : Server D) (now : ℚ) (simuId : Nat) :
    simuStatus (timeoutRound server now) simuId = 2 ↔ simuStatus server simuId = 2 := by
  constructor
  · intro done
    obtain ⟨_, _, _, _, _, reset, running, after⟩ := timeoutRound_parts server now
    cases found : server.simulations[simuId]? with
    | none => simp [simuStatus, after, found] at done
    | some simu =>
        rw [simuStatus_of_present found]
        have here : (statuses (timeoutRound server now))[simuId]? =
            some (if reset simu then 0 else simu.status) := by simp [after, found]
        rw [simuStatus, List.getD_eq_getElem?_getD, here, Option.getD_some] at done
        split at done
        · cases done
        · exact done
  · intro done
    rw [simuStatus_timeouts now done.ge, done]

theorem checkTimes_done (rank : LoopState D) (pass : Pass D) :
    (checkTimes rank pass).server.nbFinishedSimulations = rank.server.nbFinishedSimulations ∧
      ∀ simuId, simuStatus (checkTimes rank pass).server simuId = 2 ↔
        simuStatus rank.server simuId = 2 := by
  have same : statuses (checkTimes rank pass).server =
      statuses (timeoutRound rank.server (pass.clock 0)) ∧
      (checkTimes rank pass).server.nbFinishedSimulations =
        (timeoutRound rank.server (pass.clock 0)).nbFinishedSimulations := by
    unfold checkTimes launcherTimeout
    split
    · exact ⟨rfl, rfl⟩
    · exact ⟨rfl, rfl⟩
  refine ⟨same.2.trans (timeoutRound_parts rank.server (pass.clock 0)).2.2.2.1, fun simuId => ?_⟩
  rw [simuStatus, same.1]
  exact simuStatus_timeouts_iff rank.server (pass.clock 0) simuId

theorem informed_of_read {rank saved informed : LoopState D} {pass : Pass D}
    (checkpoint : (periodicCheckpoint (checkTimes rank pass) (pass.clock 2)).result = some saved)
    (read : readText saved pass = some informed) : Informed rank pass informed := by
  have untouched := checkTimes_untouched rank pass
  obtain ⟨finished, done⟩ := checkTimes_done rank pass
  have length := length_view (checkTimes_view rank pass)
  have options := checkTimes_options rank pass
  have signalled := checkTimes_endSignal rank pass
  obtain ⟨time, rfl⟩ := periodicCheckpoint_cases checkpoint
  unfold readText at read
  cases sent : pass.text with
  | none =>
      rw [sent] at read
      cases read
      refine ⟨untouched.firstInit, untouched.commData, untouched.fields, ?_, finished, done,
        signalled⟩
      simpa [portView, portSample, sent] using options
  | some msg =>
      rw [sent] at read
      obtain ⟨server, handled, rfl⟩ := Option.map_eq_some_iff.mp read
      obtain ⟨fields, commData, _, options'⟩ := textMessage_parts handled
      obtain ⟨_, same, counted⟩ := textMessage_statuses handled
      refine ⟨untouched.firstInit, commData.trans untouched.commData,
        fields.trans untouched.fields, ?_, counted.trans finished, fun simuId => ?_, signalled⟩
      · dsimp only at options' ⊢
        rw [options', options, length]
        simp [portView, portSample, sent]
      · rw [simuStatus, same]
        exact done simuId

theorem answerConnection_port (rank : LoopState D) (pass : Pass D) :
    ((answerConnection rank pass.connection).firstInit = 1 ↔ opens rank pass = true) ∧
      (answerConnection rank pass.connection).endSignal = rank.endSignal := by
  unfold answerConnection opens
  cases pass.connection with
  | none => simp
  | some size =>
      dsimp only
      by_cases root : rank.server.commData.rank = 0
      · rw [if_pos root]
        by_cases waiting : rank.firstInit = 2
        · simp [waiting, root]
        · simp [waiting]
      · simp [root]

theorem portReached {rank saved ready : LoopState D} {pass : Pass D} {opened : Bool}
    (learning : rank.server.options.learning > 0)
    (checkpoint : (periodicCheckpoint (checkTimes rank pass) (pass.clock 2)).result = some saved)
    (reached : reachPort saved pass = some (ready, opened)) :
    PortReached rank pass ready ∧ opened = opens rank pass := by
  simp only [reachPort, Option.bind_eq_bind, Option.bind_eq_some_iff] at reached
  obtain ⟨informed, read, ready', block, done⟩ := reached
  cases done
  have view := informed_of_read checkpoint read
  have same : opens informed pass = opens rank pass := by
    unfold opens
    rw [view.firstInit, view.commData]
  obtain ⟨first, signalled⟩ := answerConnection_port informed pass
  have answered := answerConnection_server informed pass.connection
  rw [same] at first
  have opened : ((answerConnection informed pass.connection).firstInit == 1) = opens rank pass := by
    rw [Bool.eq_iff_iff, beq_iff_eq]
    exact first
  refine ⟨?_, opened⟩
  unfold firstInitBlock at block
  split at block
  · rename_i opening
    rw [result_bind] at block
    obtain ⟨received, _, done⟩ := Option.bind_eq_some_iff.mp block
    have learns : (answerConnection informed pass.connection).server.options.learning > 0 := by
      rw [answered, view.options]
      exact learning
    cases done
    rw [if_pos learns, answered]
    refine ⟨?_, view.options, view.finished, view.done, signalled.trans view.endSignal⟩
    simp [allocateFields, portView, first.mp opening, view.fields]
  · rename_i closed
    cases block
    have unopened : opens rank pass = false := by
      rw [← Bool.not_eq_true, ← first]
      exact closed
    refine ⟨?_, ?_, ?_, ?_, signalled.trans view.endSignal⟩
    · simp [portView, unopened, answered, view.fields]
    · rw [answered, view.options]
    · rw [answered, view.finished]
    · rw [answered]
      exact view.done

theorem admittedField_port {rank ready : LoopState D} {pass : Pass D}
    (port : PortReached rank pass ready) (m : SimuData D) :
    admittedField ready.server m = admittedField rank.server m := by
  have names : ready.server.fields.map MelissaField.name =
      rank.server.fields.map MelissaField.name := by
    rw [port.fields]
    unfold portView
    dsimp only
    split
    · simp [emptyField, Function.comp_def]
    · rfl
  have steps : ready.server.options.nbTimeSteps = rank.server.options.nbTimeSteps := by
    rw [port.options]
    rfl
  unfold admittedField
  rw [getFieldId_eq_of_names names, steps]

theorem restores_port {rank ready : LoopState D} {pass : Pass D}
    (port : PortReached rank pass ready) (m : SimuData D) (fieldId : Nat) :
    restores ready.server m fieldId = restores (portView rank pass) m fieldId := by
  unfold restores
  rw [port.fields, port.options]

end Port

section Finishing

variable {D : Type}

theorem markStep_old {data : MelissaData D} {m : SimuData D}
    (old : bitOf data m.simuId m.timeStamp.toNat = true) : markStep data m = data := by
  have same : data.stepSimu.modify m.simuId (fun bits => setBit bits m.timeStamp.toNat) =
      data.stepSimu := by
    apply List.ext_getElem?
    intro i
    rw [List.getElem?_modify]
    by_cases here : m.simuId = i
    · subst here
      rw [bitOf, List.getD_eq_getElem?_getD] at old
      cases found : data.stepSimu[m.simuId]? with
      | none => simp
      | some bits =>
          rw [found, Option.getD_some] at old
          simp [setBit_of_testBit old]
    · simp [here]
  rw [markStep, same]

variable [Zero D] [NatCast D]

/-- With the bit of the message set, `check_simu_state` finds its simulation complete, for the first
time. -/
def finishesNow (restore : Restore D) (server : Server D) (m : SimuData D) (fieldId : Nat) : Bool :=
  (((entryOf server.fields fieldId m.clientRank).bind fun data =>
      lazyInit (restore m.fieldName m.clientRank) server.options data m.vectSize).any fun loaded =>
    checkSimuState (setEntry server.fields fieldId m.clientRank (markStep loaded m))
      server.options.nbTimeSteps m.simuId == some 2) &&
    simuStatus server m.simuId != 2

variable [Add D] [Sub D] [Mul D] [Div D] [IntCast D]
  [Pow D ℕ] [LT D] [DecidableLT D] [LE D] [DecidableLE D] [Libm D]

/-- An accumulated message has set its bit and changed no other. -/
theorem accumulate_marked {options : Options D} {data data' : MelissaData D} {m : SimuData D}
    (taken : accumulate options data m = some data') :
    data'.stepsInit = data.stepsInit ∧ data'.stepSimu = (markStep data m).stepSimu := by
  obtain ⟨_, ⟨old, rfl⟩ | ⟨_, computed, done, rfl⟩⟩ := accumulate_cases taken
  · rw [markStep_old old]
    exact ⟨rfl, rfl⟩
  · obtain ⟨steps, init, _⟩ := computeMessage_frame done
    exact ⟨init, by rw [markStep, steps, markStep]⟩

theorem finishesNow_accepted {restore : Restore D} {server server' : Server D} {m : SimuData D}
    {reply : Job D} {fieldId status : Nat} {simu : Simulation D}
    {data loaded updated : MelissaData D}
    (accepted : Accepted restore server m reply fieldId server' simu data loaded updated status) :
    finishesNow restore server m fieldId = true ↔ status = 2 ∧ simu.status ≠ 2 := by
  obtain ⟨init, steps⟩ := accumulate_marked accepted.update
  have marked : entryComplete server.options.nbTimeSteps m.simuId (markStep loaded m) ↔
      entryComplete server.options.nbTimeSteps m.simuId updated := by
    unfold entryComplete
    rw [init, steps]
    rfl
  have checked : checkSimuState (setEntry server.fields fieldId m.clientRank (markStep loaded m))
      server.options.nbTimeSteps m.simuId = some 2 ↔ status = 2 := by
    have progress : status = 2 ↔
        checkSimuState server'.fields server.options.nbTimeSteps m.simuId = some 2 := by
      rw [accepted.progress, Option.some.injEq]
    rw [progress, accepted.fields, checkSimuState_setEntry accepted.entry,
      checkSimuState_setEntry accepted.entry, marked]
  have before : simuStatus server m.simuId = simu.status :=
    simuStatus_of_present accepted.simulation
  rw [finishesNow, accepted.entry, Option.bind_some, accepted.load, Option.any_some, before]
  simp [checked]

end Finishing

section Returning

variable {D : Type}

/-- The call returns in this pass for a signal, or because so many finished simulations end the
study. -/
def Returns (rank : LoopState D) (pass : Pass D) (nbFinishedSimulations : Nat) : Prop :=
  (pass.signal <|> rank.endSignal).isSome = true ∨
    (portSample rank pass ≤ (nbFinishedSimulations : Int) ∧ 0 < nbFinishedSimulations)

theorem returns_iff {rank ready : LoopState D} {pass : Pass D} {nbFinishedSimulations : Nat}
    (signal : ready.endSignal = (pass.signal <|> rank.endSignal))
    (sample : ready.server.options.samplingSize = portSample rank pass)
    (finished : ready.server.nbFinishedSimulations = nbFinishedSimulations) :
    Returns rank pass nbFinishedSimulations ↔
      ready.endSignal.isSome = true ∨ stopTest ready.server = true := by
  unfold Returns stopTest
  rw [signal, sample, finished]
  simp

/-- How the tests at the end of a pass come out. -/
theorem endTests_cases {call call' : Call D} {ending : Ending}
    (learning : call.rank.server.options.learning > 0)
    (ended : endTests call = some (ending, call')) :
    ((call.rank.endSignal.isSome = true ∨ stopTest call.rank.server = true) ∧
        (ending = .signal ∨ ending = .stop) ∧ call'.data.valSize = call.data.valSize) ∨
      (¬ (call.rank.endSignal.isSome = true ∨ stopTest call.rank.server = true) ∧ call' = call ∧
        ((ending = .sample ∧ call.newData = true ∧ 0 < call.data.valSize) ∨
          (ending = .continues ∧ ¬ (call.newData = true ∧ 0 < call.data.valSize)))) := by
  unfold endTests at ended
  split at ended
  · rename_i caught
    obtain ⟨_, _, same⟩ := Option.map_eq_some_iff.mp ended
    cases same
    exact Or.inl ⟨Or.inl caught, Or.inl rfl, rfl⟩
  · rename_i quiet
    split at ended
    · rename_i stop
      cases ended
      exact Or.inl ⟨Or.inr stop, Or.inr rfl, rfl⟩
    · rename_i onward
      have stays : ¬ (call.rank.endSignal.isSome = true ∨ stopTest call.rank.server = true) :=
        not_or.mpr ⟨quiet, onward⟩
      split at ended
      · rename_i flagged
        cases ended
        exact Or.inr ⟨stays, rfl, Or.inl ⟨rfl, flagged.1, flagged.2.2⟩⟩
      · rename_i unflagged
        cases ended
        exact Or.inr ⟨stays, rfl, Or.inr ⟨rfl, fun both => unflagged ⟨both.1, learning, both.2⟩⟩⟩

variable [Zero D] [NatCast D]

/-- The message is not empty, and its bit is not set. -/
def newSample (restore : Restore D) (rank : LoopState D) (pass : Pass D) (m : SimuData D)
    (fieldId : Nat) : Bool :=
  decide (0 < m.vectSize) && !alreadyComputed restore (portView rank pass) m fieldId

/-- The finished simulations after a message. -/
def finishedWith (restore : Restore D) (rank : LoopState D) (pass : Pass D) (m : SimuData D)
    (fieldId : Nat) : Nat :=
  if finishesNow restore (portView rank pass) m fieldId then rank.server.nbFinishedSimulations + 1
  else rank.server.nbFinishedSimulations

/-- Saved statistics have been read since the call began, or are read for this message. -/
def ReadsSaved (call : Call D) (pass : Pass D) (m : SimuData D) (fieldId : Nat) : Prop :=
  restores (portView call.rank pass) m fieldId = true ∨
    (opens call.rank pass = false ∧ call.data.status = 3)

/-- A pass without a message returns, if it does, to a branch of `main` that takes no sample out of
the buffer. -/
def SafeIdle (learner : Learner D) (pass : Pass D) : Prop :=
  opens learner.call.rank pass = false → learner.call.data.valSize ≠ 0 →
    (Returns learner.call.rank pass learner.call.rank.server.nbFinishedSimulations →
      learner.branch ≠ .learning) ∧
    (¬ Returns learner.call.rank pass learner.call.rank.server.nbFinishedSimulations →
      learner.call.newData = true →
        learner.branch ≠ .first ∧ learner.branch ≠ .learning ∧ learner.call.data.status ≠ 3)

/-- A pass with an admitted message returns to a branch of `main` that takes the sample of the
message out of the buffer, or none when the message is none. -/
def SafeMessage (restore : Restore D) (learner : Learner D) (pass : Pass D) (m : SimuData D)
    (fieldId : Nat) : Prop :=
  (Returns learner.call.rank pass (finishedWith restore learner.call.rank pass m fieldId) →
    if learner.branch = .learning then
      newSample restore learner.call.rank pass m fieldId = true ∨ m.vectSize = 0
    else newSample restore learner.call.rank pass m fieldId = false) ∧
  (¬ Returns learner.call.rank pass (finishedWith restore learner.call.rank pass m fieldId) →
    newSample restore learner.call.rank pass m fieldId = true →
      match learner.branch with
      | .first => True
      | .learning => ¬ ReadsSaved learner.call pass m fieldId
      | _ => ReadsSaved learner.call pass m fieldId)

/-- Whether the pass, if it returns, returns to a branch of `main` that suits what it has received:
a condition on the state before the pass and on what the pass finds. -/
def SafePass (restore : Restore D) (learner : Learner D) (pass : Pass D) : Prop :=
  if EndsEarly learner.call.rank pass then
    learner.branch = .learning → learner.call.data.valSize = 0
  else match pass.data with
    | none => SafeIdle learner pass
    | some (m, _) => ∀ fieldId, Admitted learner.call.rank.server m fieldId →
        SafeMessage restore learner pass m fieldId

theorem alreadyComputed_port (restore : Restore D) {rank ready : LoopState D} {pass : Pass D}
    (port : PortReached rank pass ready) (m : SimuData D) (fieldId : Nat) :
    alreadyComputed restore ready.server m fieldId =
      alreadyComputed restore (portView rank pass) m fieldId := by
  unfold alreadyComputed
  rw [port.fields, port.options]

theorem finishesNow_port {restore : Restore D} {rank ready : LoopState D} {pass : Pass D}
    (port : PortReached rank pass ready) {m : SimuData D} {fieldId : Nat} :
    finishesNow restore ready.server m fieldId =
      finishesNow restore (portView rank pass) m fieldId := by
  have done : (simuStatus ready.server m.simuId != 2) =
      (simuStatus (portView rank pass) m.simuId != 2) := by
    rw [Bool.eq_iff_iff, bne_iff_ne, bne_iff_ne]
    exact not_congr (port.done m.simuId)
  unfold finishesNow
  rw [port.fields, port.options, done]

end Returning

end Melissa
