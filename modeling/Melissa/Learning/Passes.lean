import Melissa.Learning.Loop

/-! What one pass of a learning study leaves in the buffer, and when it ends the call. -/

namespace Melissa

open Arrays Runs Traced

section Accepted

variable {D : Type}

/-- A message with the parameters of its simulation, as a sample. -/
def ownSample (nbParameters : Nat) (m : SimuData D) (parameters : Option (List D)) : Sample D :=
  { parameters := (List.range nbParameters).map fun i => (parameters.getD [])[i]?
    timeStamp := m.timeStamp
    values := (List.range m.vectSize).map fun i => m.data[i]? }

/-- The state in which a pass gets to the data port. -/
def atPort (rank : LoopState D) (pass : Pass D) : Option (LoopState D) := do
  let timed := checkTimes rank pass
  let saved ← (periodicCheckpoint timed (pass.clock 2)).result
  if checkpointDue timed.server (pass.clock 2) = true ∧ timed.server.options.learning > 0 then none
  else (reachPort saved pass).map Prod.fst

variable [Zero D] [Add D] [Sub D] [Mul D] [Div D] [NatCast D] [IntCast D]
  [Pow D ℕ] [LT D] [DecidableLT D] [LE D] [DecidableLE D] [Libm D]

/-- The sample of a message that is neither discarded nor a duplicate, and not empty. -/
def sampleAt (restore : Restore D) (ready : LoopState D) (pass : Pass D) : Option (Sample D) :=
  pass.data.bind fun (m, reply) =>
    (admittedField ready.server m).bind fun fieldId =>
      (dataBranch restore ready pass m reply fieldId).result.bind fun stored =>
        if 0 < m.vectSize ∧ alreadyComputed restore ready.server m fieldId = false then
          some (ownSample ready.server.options.nbParameters m
            (knownParameters stored.server m.simuId))
        else none

theorem sampleAt_idle (restore : Restore D) (ready : LoopState D) {pass : Pass D}
    (idle : pass.data = none) : sampleAt restore ready pass = none := by
  rw [sampleAt, idle, Option.bind_none]

theorem sampleAt_discarded (restore : Restore D) {ready : LoopState D} {pass : Pass D}
    {m : SimuData D} {reply : Job D} (found : pass.data = some (m, reply))
    (refused : admittedField ready.server m = none) : sampleAt restore ready pass = none := by
  rw [sampleAt, found, Option.bind_some]
  dsimp only
  rw [refused, Option.bind_none]

theorem sampleAt_admitted {restore : Restore D} {ready stored : LoopState D} {pass : Pass D}
    {m : SimuData D} {reply : Job D} {fieldId : Nat} (found : pass.data = some (m, reply))
    (known : admittedField ready.server m = some fieldId)
    (branch : (dataBranch restore ready pass m reply fieldId).result = some stored)
    {sample : Sample D} : sampleAt restore ready pass = some sample ↔
      (0 < m.vectSize ∧ alreadyComputed restore ready.server m fieldId = false) ∧
        ownSample ready.server.options.nbParameters m (knownParameters stored.server m.simuId) =
          sample := by
  rw [sampleAt, found, Option.bind_some]
  dsimp only
  rw [known, Option.bind_some, branch, Option.bind_some, Option.ite_none_right_eq_some,
    Option.some.injEq]

/-- The sample that the server accepts in a pass. -/
def acceptedSample (restore : Restore D) (rank : LoopState D) (pass : Pass D) :
    Option (Sample D) :=
  (atPort rank pass).bind fun ready => sampleAt restore ready pass

end Accepted

section Endings

variable {D : Type}

/-- The status with which a pass leaves the buffer. -/
def StatusOf : Ending → Nat → Prop
  | .continues, status => status = 0 ∨ status = 3
  | .checkpoint, status => status = 2
  | .signal, status => status = 2
  | .stop, status => status = 1
  | .sample, status => status = 0 ∨ status = 3

/-- What stays as it is in a learning study. -/
structure Settings (call : Call D) : Prop where
  learning : call.rank.server.options.learning > 0
  nbParam : call.rank.allocated = true →
    call.data.nbParam = call.rank.server.options.nbParameters

/-- What a pass does to the call and its buffer, when it accepts a sample or none. -/
structure PassSpec (accepted : Option (Sample D)) (ending : Ending) (call : Call D) : Prop where
  settings : Settings call
  status : StatusOf ending call.data.status
  flagged : ending = .sample → 0 < call.data.valSize
  own : ∀ sample, accepted = some sample →
    ending ≠ .continues ∧ 0 < call.data.valSize ∧ buffered call.data = sample

/-- The tests at the end of a pass return from the call when a new sample is in the buffer. -/
theorem endTests_spec {call call' : Call D} {ending : Ending} {accepted : Option (Sample D)}
    (settings : Settings call) (status : call.data.status = 0 ∨ call.data.status = 3)
    (own : ∀ sample, accepted = some sample →
      call.newData = true ∧ 0 < call.data.valSize ∧ buffered call.data = sample)
    (ended : endTests call = some (ending, call')) : PassSpec accepted ending call' := by
  unfold endTests at ended
  split at ended
  · obtain ⟨_, _, same⟩ := Option.map_eq_some_iff.mp ended
    cases same
    refine ⟨⟨settings.learning, settings.nbParam⟩, rfl, nofun, ?_⟩
    intro sample fresh
    exact ⟨nofun, (own sample fresh).2⟩
  · split at ended
    · cases ended
      refine ⟨⟨settings.learning, settings.nbParam⟩, rfl, nofun, ?_⟩
      intro sample fresh
      exact ⟨nofun, (own sample fresh).2⟩
    · split at ended
      · rename_i flagged
        cases ended
        refine ⟨settings, status, fun _ => flagged.2.2, ?_⟩
        intro sample fresh
        exact ⟨nofun, (own sample fresh).2⟩
      · rename_i unflagged
        cases ended
        refine ⟨settings, status, nofun, ?_⟩
        intro sample fresh
        obtain ⟨new, positive, _⟩ := own sample fresh
        exact absurd ⟨new, settings.learning, positive⟩ unflagged

theorem readBody_head (nbParameters : Nat) (data : SimulationData D) (m : SimuData D)
    (parameters : Option (List D)) :
    (readBody nbParameters data m parameters).nbParam = data.nbParam ∧
      (readBody nbParameters data m parameters).status = data.status ∧
      (readBody nbParameters data m parameters).valSize = data.valSize := by
  unfold readBody
  split
  · exact ⟨rfl, rfl, rfl⟩
  · exact ⟨rfl, rfl, rfl⟩

/-- A message that has been read completely is in the buffer as it was sent. -/
theorem buffered_readBody {nbParameters : Nat} {data : SimulationData D} {m : SimuData D}
    {parameters : List D} (positive : 0 < m.vectSize) (allocated : data.nbParam = nbParameters)
    (stamp : data.timeStamp = m.timeStamp) (size : data.valSize = m.vectSize) :
    buffered (readBody nbParameters data m (some parameters)) =
      ownSample nbParameters m (some parameters) := by
  have front {α : Type} (n : Nat) (f : Nat → α) (dst : List α) :
      (overwrite n f dst).take n = (List.range n).map f := by
    simp [overwrite]
  unfold buffered readBody ownSample
  rw [if_pos positive]
  dsimp only
  rw [allocated, size, stamp, front, front]
  rfl

/-- The tests of a call are those of the main loop. -/
theorem endOfPass_of_endTests {call call' : Call D} {ending : Ending}
    (ended : endTests call = some (ending, call')) :
    (endOfPass call.rank).result = if ending = .stop then none else some call'.rank := by
  unfold endTests at ended
  unfold endOfPass
  split at ended
  · rename_i caught
    obtain ⟨_, saved, same⟩ := Option.map_eq_some_iff.mp ended
    cases same
    rw [if_pos caught, result_bind, saved]
    rfl
  · rename_i quiet
    rw [if_neg quiet, result_ofOption]
    split at ended
    · rename_i stop
      cases ended
      rw [if_pos stop]
      rfl
    · rename_i onward
      rw [if_neg onward]
      split at ended
      · cases ended
        rfl
      · cases ended
        rfl

end Endings

section Blocks

variable {D : Type}

/-- What no block of a pass changes in the options. -/
structure KeepsOptions (rank rank' : LoopState D) : Prop where
  learning : rank'.server.options.learning = rank.server.options.learning
  nbParameters : rank'.server.options.nbParameters = rank.server.options.nbParameters

theorem keepsOptions_of_eq {rank rank' : LoopState D}
    (same : rank'.server.options = rank.server.options) : KeepsOptions rank rank' := by
  constructor
  · rw [same]
  · rw [same]

theorem keepsOptions_trans {first second third : LoopState D} (left : KeepsOptions first second)
    (right : KeepsOptions second third) : KeepsOptions first third :=
  ⟨right.learning.trans left.learning, right.nbParameters.trans left.nbParameters⟩

theorem checkTimes_settings (rank : LoopState D) (pass : Pass D) :
    KeepsOptions rank (checkTimes rank pass) ∧
      (checkTimes rank pass).allocated = rank.allocated := by
  refine ⟨⟨?_, ?_⟩, (checkTimes_firstInit rank pass).1⟩
  · rw [checkTimes_resampled]
  · rw [checkTimes_resampled]

theorem periodicCheckpoint_settings {rank saved : LoopState D} {now : ℚ}
    (returned : (periodicCheckpoint rank now).result = some saved) :
    KeepsOptions rank saved ∧ saved.allocated = rank.allocated := by
  obtain ⟨_, rfl⟩ := periodicCheckpoint_cases returned
  exact ⟨⟨rfl, rfl⟩, rfl⟩

theorem readText_settings {rank informed : LoopState D} {pass : Pass D}
    (read : readText rank pass = some informed) :
    KeepsOptions rank informed ∧ informed.allocated = rank.allocated := by
  unfold readText at read
  split at read
  · cases read
    exact ⟨⟨rfl, rfl⟩, rfl⟩
  · obtain ⟨server, handled, rfl⟩ := Option.map_eq_some_iff.mp read
    obtain ⟨_, _, _, options⟩ := textMessage_parts handled
    refine ⟨⟨?_, ?_⟩, rfl⟩
    · rw [options]
    · rw [options]

theorem firstInitBlock_settings {rank ready : LoopState D} {broadcast : Nat}
    (returned : (firstInitBlock rank broadcast).result = some ready) :
    KeepsOptions rank ready ∧ (rank.firstInit ≠ 1 → ready.allocated = rank.allocated) := by
  refine ⟨keepsOptions_of_eq (firstInitBlock_view returned).2, ?_⟩
  intro later
  unfold firstInitBlock at returned
  rw [if_neg later] at returned
  cases returned
  rfl

/-- The blocks between the checkpoint and the data port. -/
theorem reachPort_settings {saved ready : LoopState D} {pass : Pass D} {opened : Bool}
    (reached : reachPort saved pass = some (ready, opened)) :
    KeepsOptions saved ready ∧ (opened = false → ready.allocated = saved.allocated) := by
  simp only [reachPort, Option.bind_eq_bind, Option.bind_eq_some_iff] at reached
  obtain ⟨informed, read, ready', block, done⟩ := reached
  cases done
  obtain ⟨same, allocated⟩ := readText_settings read
  obtain ⟨same', allocated'⟩ := firstInitBlock_settings block
  have answered : KeepsOptions informed (answerConnection informed pass.connection) :=
    keepsOptions_of_eq (congrArg Server.options (answerConnection_server _ _))
  refine ⟨keepsOptions_trans same (keepsOptions_trans answered same'), ?_⟩
  intro closed
  rw [allocated' (by simpa using closed), answerConnection_allocated, allocated]

/-- The call when the checkpoint of the pass is over. -/
theorem savedCall_settings {call : Call D} {saved : LoopState D} {pass : Pass D}
    (settings : Settings call)
    (checkpoint : (periodicCheckpoint (checkTimes call.rank pass) (pass.clock 2)).result =
      some saved) : Settings { call with rank := saved } := by
  obtain ⟨timedOptions, timedAllocated⟩ := checkTimes_settings call.rank pass
  obtain ⟨savedOptions, savedAllocated⟩ := periodicCheckpoint_settings checkpoint
  have options := keepsOptions_trans timedOptions savedOptions
  constructor
  · dsimp only
    rw [options.learning]
    exact settings.learning
  · dsimp only
    rw [savedAllocated.trans timedAllocated, options.nbParameters]
    exact settings.nbParam

/-- The call when the pass gets to the data port. -/
theorem readyCall_settings {call : Call D} {ready : LoopState D} {pass : Pass D} {opened : Bool}
    (settings : Settings call) (reached : reachPort call.rank pass = some (ready, opened)) :
    Settings { call with
      rank := ready
      data := if opened then openBuffer ready.server.options.nbParameters call.data
        else call.data } := by
  obtain ⟨options, allocated⟩ := reachPort_settings reached
  constructor
  · dsimp only
    rw [options.learning]
    exact settings.learning
  · intro ready_allocated
    cases opened with
    | true => rfl
    | false =>
        dsimp only at ready_allocated ⊢
        rw [allocated rfl] at ready_allocated
        rw [options.nbParameters]
        exact settings.nbParam ready_allocated

variable [Zero D] [Add D] [Sub D] [Mul D] [Div D] [NatCast D] [IntCast D]
  [Pow D ℕ] [LT D] [DecidableLT D] [LE D] [DecidableLE D] [Libm D]

theorem dataBranch_cases {restore : Restore D} {rank stored : LoopState D} {pass : Pass D}
    {m : SimuData D} {reply : Job D} {fieldId : Nat}
    (returned : (dataBranch restore rank pass m reply fieldId).result = some stored) :
    rank.allocated = true ∧ stored.allocated = true ∧
      acceptMessage restore rank.server (pass.clock 4) m (.job reply) fieldId =
        some stored.server := by
  unfold dataBranch at returned
  rw [result_bind, result_touch, Option.bind_some, result_ofOption] at returned
  split at returned
  · rename_i allocated
    obtain ⟨server, accepted, rfl⟩ := Option.map_eq_some_iff.mp returned
    exact ⟨allocated, allocated, accepted⟩
  · cases returned

theorem dataBranch_endSignal {restore : Restore D} {rank stored : LoopState D} {pass : Pass D}
    {m : SimuData D} {reply : Job D} {fieldId : Nat}
    (returned : (dataBranch restore rank pass m reply fieldId).result = some stored) :
    stored.endSignal = rank.endSignal := by
  unfold dataBranch at returned
  rw [result_bind, result_touch, Option.bind_some, result_ofOption] at returned
  split at returned
  · obtain ⟨server, _, rfl⟩ := Option.map_eq_some_iff.mp returned
    rfl
  · cases returned

theorem dataBranch_settings {restore : Restore D} {rank stored : LoopState D} {pass : Pass D}
    {m : SimuData D} {reply : Job D} {fieldId : Nat}
    (returned : (dataBranch restore rank pass m reply fieldId).result = some stored) :
    KeepsOptions rank stored := by
  obtain ⟨_, _, accepted⟩ := dataBranch_cases returned
  obtain ⟨_, _, _, _, _, parts⟩ := acceptMessage_cases accepted
  exact keepsOptions_of_eq parts.options

/-- A message that is not empty leaves its simulation with parameters, once the launcher has
answered for the simulation it was asked about. -/
theorem knownParameters_stored {restore : Restore D} {server server' : Server D} {now : ℚ}
    {m : SimuData D} {reply : Job D} {fieldId : Nat} (positive : 0 < m.vectSize)
    (answered : reply.simuId = m.simuId)
    (accepted : acceptMessage restore server now m (.job reply) fieldId = some server') :
    ∃ parameters, knownParameters server' m.simuId = some parameters := by
  obtain ⟨simu, _, _, _, _, parts⟩ := acceptMessage_cases accepted
  have through (server : Server D) : knownParameters server m.simuId =
      ((parametersOf server)[m.simuId]?).bind id := by
    simp only [knownParameters, parametersOf, List.getElem?_map, Option.bind_map]
    rfl
  rw [through]
  obtain ⟨inside, _⟩ := List.getElem?_eq_some_iff.mp parts.simulation
  cases waits : waitsForJob simu m.vectSize with
  | true =>
      obtain ⟨_, _, assigned⟩ := parts.answered waits
      have bound : m.simuId < (parametersOf server).length := by simpa [parametersOf] using inside
      rw [assigned, answered, List.getElem?_set_self bound]
      exact ⟨_, rfl⟩
  | false =>
      have known : simu.parameters.isSome = true := by
        simpa [waitsForJob, positive] using waits
      obtain ⟨parameters, known⟩ := Option.isSome_iff_exists.mp known
      rw [parts.unasked waits]
      exact ⟨parameters, by simp [parametersOf, parts.simulation, known]⟩

end Blocks

section Spec

variable {D : Type} [Zero D] [Add D] [Sub D] [Mul D] [Div D] [NatCast D] [IntCast D]
  [Pow D ℕ] [LT D] [DecidableLT D] [LE D] [DecidableLE D] [Libm D]

/-- The launcher answers for the simulation it has been asked about. -/
def LauncherAnswers (pass : Pass D) : Prop :=
  ∀ m reply, pass.data = some (m, reply) → reply.simuId = m.simuId

/-- The call after the data branch: its buffer holds the message of this pass. -/
theorem storedCall_spec {restore : Restore D} {call call' : Call D} {stored : LoopState D}
    {pass : Pass D} {ending : Ending} {m : SimuData D} {reply : Job D} {fieldId : Nat}
    {head : SimulationData D} (settings : Settings call)
    (status : head.status = 0 ∨ head.status = 3) (nbParam : head.nbParam = call.data.nbParam)
    (stamp : head.timeStamp = m.timeStamp) (size : head.valSize = m.vectSize)
    (found : pass.data = some (m, reply)) (answered : reply.simuId = m.simuId)
    (known : admittedField call.rank.server m = some fieldId)
    (branch : (dataBranch restore call.rank pass m reply fieldId).result = some stored)
    (ended : endTests
      { rank := stored
        data := readBody call.rank.server.options.nbParameters head m
          (knownParameters stored.server m.simuId)
        newData := !alreadyComputed restore call.rank.server m fieldId } = some (ending, call')) :
    PassSpec (sampleAt restore call.rank pass) ending call' := by
  obtain ⟨allocated, _, accepted⟩ := dataBranch_cases branch
  obtain ⟨learning, nbParameters⟩ := dataBranch_settings branch
  obtain ⟨readParam, readStatus, readSize⟩ := readBody_head call.rank.server.options.nbParameters
    head m (knownParameters stored.server m.simuId)
  have given : head.nbParam = call.rank.server.options.nbParameters :=
    nbParam.trans (settings.nbParam allocated)
  apply endTests_spec ⟨?_, ?_⟩ ?_ ?_ ended
  · rw [learning]
    exact settings.learning
  · intro _
    rw [nbParameters]
    exact readParam.trans given
  · rw [readStatus]
    exact status
  · intro sample fresh
    obtain ⟨⟨positive, new⟩, rfl⟩ := (sampleAt_admitted found known branch).mp fresh
    obtain ⟨parameters, present⟩ := knownParameters_stored positive answered accepted
    dsimp only
    rw [readSize, new, present, size]
    exact ⟨rfl, positive, buffered_readBody positive given stamp size⟩

theorem receiveSample_spec {restore : Restore D} {call call' : Call D} {pass : Pass D}
    {ending : Ending} (settings : Settings call)
    (status : call.data.status = 0 ∨ call.data.status = 3) (answers : LauncherAnswers pass)
    (returned : receiveSample restore call pass = some (ending, call')) :
    PassSpec (sampleAt restore call.rank pass) ending call' := by
  unfold receiveSample at returned
  cases found : pass.data with
  | none =>
      rw [found] at returned
      apply endTests_spec settings status ?_ returned
      intro sample fresh
      rw [sampleAt_idle restore call.rank found] at fresh
      cases fresh
  | some message =>
      obtain ⟨m, reply⟩ := message
      rw [found] at returned
      dsimp only at returned
      cases known : admittedField call.rank.server m with
      | none =>
          rw [known] at returned
          cases returned
          refine ⟨⟨settings.learning, settings.nbParam⟩, status, nofun, ?_⟩
          intro sample fresh
          rw [sampleAt_discarded restore found known] at fresh
          cases fresh
      | some fieldId =>
          rw [known] at returned
          obtain ⟨stored, branch, ended⟩ := Option.bind_eq_some_iff.mp returned
          have answered := answers m reply found
          cases restored : restores call.rank.server m fieldId with
          | true =>
              rw [restored, if_pos rfl] at ended
              apply storedCall_spec settings ?_ ?_ ?_ ?_ found answered known branch ended
              · exact Or.inr rfl
              · rfl
              · rfl
              · rfl
          | false =>
              rw [restored, if_neg Bool.false_ne_true] at ended
              apply storedCall_spec settings ?_ ?_ ?_ ?_ found answered known branch ended
              · exact status
              · rfl
              · rfl
              · rfl

theorem runPass_spec {restore : Restore D} {call call' : Call D} {pass : Pass D}
    {ending : Ending} (settings : Settings call)
    (status : call.data.status = 0 ∨ call.data.status = 3) (answers : LauncherAnswers pass)
    (returned : runPass restore call pass = some (ending, call')) :
    PassSpec (acceptedSample restore call.rank pass) ending call' := by
  simp only [runPass, Option.bind_eq_bind, Option.bind_eq_some_iff] at returned
  obtain ⟨saved, checkpoint, returned⟩ := returned
  have savedSettings := savedCall_settings settings checkpoint
  have learning : (checkTimes call.rank pass).server.options.learning > 0 := by
    rw [(checkTimes_settings call.rank pass).1.learning]
    exact settings.learning
  unfold acceptedSample atPort
  dsimp only
  rw [Option.bind_eq_bind, checkpoint, Option.bind_some]
  cases due : checkpointDue (checkTimes call.rank pass).server (pass.clock 2) with
  | true =>
      rw [due, if_pos ⟨rfl, learning⟩, if_pos rfl] at returned
      cases returned
      rw [if_pos ⟨rfl, learning⟩]
      exact ⟨⟨savedSettings.learning, savedSettings.nbParam⟩, rfl, nofun, nofun⟩
  | false =>
      rw [due, if_neg (fun both => Bool.false_ne_true both.1),
        if_neg Bool.false_ne_true] at returned
      rw [if_neg (fun both => Bool.false_ne_true both.1)]
      simp only [Option.bind_eq_some_iff] at returned
      obtain ⟨⟨ready, opened⟩, reached, received⟩ := returned
      rw [reached, Option.map_some, Option.bind_some]
      apply receiveSample_spec (readyCall_settings savedSettings reached) ?_ answers received
      cases opened with
      | true => exact Or.inl rfl
      | false => exact status

theorem pollData_of_receiveSample {restore : Restore D} {call call' : Call D} {pass : Pass D}
    {ending : Ending} (returned : receiveSample restore call pass = some (ending, call')) :
    (pollData restore call.rank pass).result =
      if ending = .stop then none else some call'.rank := by
  unfold receiveSample at returned
  unfold pollData
  cases found : pass.data with
  | none =>
      rw [found] at returned
      exact endOfPass_of_endTests returned
  | some message =>
      obtain ⟨m, reply⟩ := message
      rw [found] at returned
      dsimp only at returned ⊢
      cases known : admittedField call.rank.server m with
      | none =>
          rw [known] at returned
          cases returned
          rfl
      | some fieldId =>
          rw [known] at returned
          obtain ⟨stored, branch, ended⟩ := Option.bind_eq_some_iff.mp returned
          dsimp only
          rw [result_bind, branch, Option.bind_some]
          exact endOfPass_of_endTests ended

/-- A pass of a learning study is a pass of the main loop, which ends where the call returns
with status 1. -/
theorem loopStep_of_runPass {restore : Restore D} {call call' : Call D} {pass : Pass D}
    {ending : Ending} (returned : runPass restore call pass = some (ending, call')) :
    loopStep restore call.rank pass = if ending = .stop then none else some call'.rank := by
  simp only [runPass, Option.bind_eq_bind, Option.bind_eq_some_iff] at returned
  obtain ⟨saved, checkpoint, returned⟩ := returned
  unfold loopStep servePass
  dsimp only
  rw [result_bind, checkpoint, Option.bind_some]
  split at returned
  · rename_i early
    cases returned
    rw [if_pos early]
    rfl
  · rename_i late
    rw [if_neg late]
    simp only [reachPort, Option.bind_eq_bind, Option.bind_eq_some_iff] at returned
    obtain ⟨_, ⟨informed, read, ready, block, done⟩, received⟩ := returned
    cases done
    rw [read, result_bind, result_ofOption, Option.bind_some, result_bind, block, Option.bind_some]
    exact pollData_of_receiveSample received

end Spec

end Melissa
