import Melissa.Restart.FirstConnection
import Melissa.Server.Rounds

/-! A pass of the main loop as rounds: every run of passes from a start of the server is a run of
`roundStep`, from the state in which the first connection leaves the memory of the fields. -/

namespace Melissa

open Runs Traced

section Blocks

variable {D : Type}

theorem answerConnection_server (rank : LoopState D) (connection : Option Nat) :
    (answerConnection rank connection).server = rank.server := by
  unfold answerConnection
  split
  · rfl
  · split
    · rfl
    · rfl

theorem answerConnection_allocated (rank : LoopState D) (connection : Option Nat) :
    (answerConnection rank connection).allocated = rank.allocated := by
  unfold answerConnection
  split
  · rfl
  · split
    · rfl
    · rfl

/-- After the first connection the connection port changes nothing. -/
theorem firstInitBlock_idle {rank : LoopState D} (connection : Option Nat) (broadcast : Nat)
    (later : rank.firstInit = 0) :
    (firstInitBlock (answerConnection rank connection) broadcast).result =
      some (answerConnection rank connection) := by
  have still : (answerConnection rank connection).firstInit = 0 := by
    unfold answerConnection
    split
    · exact later
    · split
      · dsimp only
        rw [later, if_neg (by decide)]
      · exact later
  rw [firstInitBlock, if_neg (by rw [still]; decide)]
  rfl

/-- A checkpoint changes the time of the last one and nothing else. -/
theorem periodicCheckpoint_cases {rank saved : LoopState D} {now : ℚ}
    (returned : (periodicCheckpoint rank now).result = some saved) :
    ∃ time, saved = { rank with server := { rank.server with lastCheckpointTime := time } } := by
  unfold periodicCheckpoint at returned
  split at returned
  · rw [result_bind] at returned
    obtain ⟨_, _, done⟩ := Option.bind_eq_some_iff.mp returned
    cases done
    exact ⟨now, rfl⟩
  · cases returned
    exact ⟨rank.server.lastCheckpointTime, rfl⟩

theorem periodicCheckpoint_saves {rank : LoopState D} (now : ℚ)
    (allocated : rank.allocated = true) :
    ∃ saved, (periodicCheckpoint rank now).result = some saved := by
  unfold periodicCheckpoint saveFields
  split
  · rw [if_pos (Or.inl allocated)]
    exact ⟨_, rfl⟩
  · exact ⟨_, rfl⟩

/-- The checks at the top of a pass change the options in the sample alone. -/
theorem checkTimes_resampled (rank : LoopState D) (pass : Pass D) :
    (checkTimes rank pass).server.options = { rank.server.options with
      samplingSize := (checkTimes rank pass).server.options.samplingSize } := by
  have options := (timeoutRound_parts rank.server (pass.clock 0)).2.1
  unfold checkTimes launcherTimeout
  split
  · dsimp only [removeUnsubmitted]
    rw [options]
  · dsimp only
    rw [options]

theorem checkTimes_checkpointDue (rank : LoopState D) (pass : Pass D) (now : ℚ) :
    checkpointDue (checkTimes rank pass).server now = checkpointDue rank.server now := by
  unfold checkpointDue
  rw [(checkTimes_untouched rank pass).lastCheckpointTime, checkTimes_resampled]

/-- A pass of a learning study ends after a checkpoint. -/
def EndsEarly (rank : LoopState D) (pass : Pass D) : Prop :=
  checkpointDue rank.server (pass.clock 2) = true ∧ rank.server.options.learning > 0

instance (rank : LoopState D) (pass : Pass D) : Decidable (EndsEarly rank pass) :=
  inferInstanceAs (Decidable (_ ∧ _))

theorem checkTimes_endsEarly (rank : LoopState D) (pass : Pass D) :
    (checkpointDue (checkTimes rank pass).server (pass.clock 2) = true ∧
      (checkTimes rank pass).server.options.learning > 0) ↔ EndsEarly rank pass := by
  unfold EndsEarly
  rw [checkTimes_checkpointDue, checkTimes_resampled]

end Blocks

section Passes

variable {D : Type} [Zero D] [Add D] [Sub D] [Mul D] [Div D] [NatCast D] [IntCast D]
  [Pow D ℕ] [LT D] [DecidableLT D] [LE D] [DecidableLE D] [Libm D]

/-- The data port without the tests that follow it. -/
def receiveData (restore : Restore D) (rank : LoopState D) (pass : Pass D) :
    Traced Touch (LoopState D) :=
  match pass.data with
  | none => pure rank
  | some (m, reply) =>
      match admittedField rank.server m with
      | none => pure rank
      | some fieldId => dataBranch restore rank pass m reply fieldId

/-- A pass up to the tests at its end: of `end_signal`, and of the end of the study. -/
def passBody (restore : Restore D) (rank : LoopState D) (pass : Pass D) :
    Traced Touch (LoopState D) := do
  let timed := checkTimes rank pass
  let saved ← periodicCheckpoint timed (pass.clock 2)
  if checkpointDue timed.server (pass.clock 2) ∧ timed.server.options.learning > 0 then pure saved
  else do
    let informed ← ofOption (readText saved pass)
    let ready ← firstInitBlock (answerConnection informed pass.connection) pass.broadcast
    receiveData restore ready pass

/-- One pass and the next ones, as far as their states go. -/
def loopStep (restore : Restore D) (rank : LoopState D) (pass : Pass D) : Option (LoopState D) :=
  (servePass restore rank pass).result

theorem receiveData_of_pollData {restore : Restore D} {rank next : LoopState D} {pass : Pass D}
    (returned : (pollData restore rank pass).result = some next) :
    (receiveData restore rank pass).result = some next := by
  unfold pollData at returned
  unfold receiveData
  cases found : pass.data with
  | none =>
      rw [found] at returned
      rw [endOfPass_same returned]
      rfl
  | some message =>
      obtain ⟨m, reply⟩ := message
      rw [found] at returned
      dsimp only at returned ⊢
      cases known : admittedField rank.server m with
      | none =>
          rw [known] at returned
          exact returned
      | some fieldId =>
          rw [known] at returned
          dsimp only at returned ⊢
          rw [result_bind] at returned
          obtain ⟨stored, branch, ended⟩ := Option.bind_eq_some_iff.mp returned
          rw [endOfPass_same ended]
          exact branch

/-- The tests at the end of a pass decide whether there is a next one and change nothing. -/
theorem passBody_of_loopStep {restore : Restore D} {rank next : LoopState D} {pass : Pass D}
    (taken : loopStep restore rank pass = some next) :
    (passBody restore rank pass).result = some next := by
  unfold loopStep servePass at taken
  unfold passBody
  dsimp only at taken ⊢
  rw [result_bind] at taken ⊢
  obtain ⟨saved, checkpoint, taken⟩ := Option.bind_eq_some_iff.mp taken
  rw [checkpoint, Option.bind_some]
  split at taken
  · rename_i early
    rw [if_pos early]
    exact taken
  · rename_i late
    rw [if_neg late]
    rw [result_bind] at taken ⊢
    obtain ⟨informed, read, taken⟩ := Option.bind_eq_some_iff.mp taken
    rw [read, Option.bind_some]
    rw [result_bind] at taken ⊢
    obtain ⟨ready, opened, taken⟩ := Option.bind_eq_some_iff.mp taken
    rw [opened, Option.bind_some]
    exact receiveData_of_pollData taken

/-- The blocks that a pass goes through. -/
theorem passBody_eq_some {restore : Restore D} {rank next : LoopState D} {pass : Pass D} :
    (passBody restore rank pass).result = some next ↔
      ∃ saved, (periodicCheckpoint (checkTimes rank pass) (pass.clock 2)).result = some saved ∧
        ((EndsEarly rank pass ∧ saved = next) ∨
          (¬ EndsEarly rank pass ∧ ∃ informed ready, readText saved pass = some informed ∧
            (firstInitBlock (answerConnection informed pass.connection) pass.broadcast).result =
              some ready ∧
            (receiveData restore ready pass).result = some next)) := by
  unfold passBody
  dsimp only
  rw [result_bind, Option.bind_eq_some_iff]
  refine exists_congr fun saved => and_congr_right fun _ => ?_
  by_cases early : EndsEarly rank pass
  · rw [if_pos ((checkTimes_endsEarly rank pass).mpr early)]
    simp [early]
  · rw [if_neg (fun ends => early ((checkTimes_endsEarly rank pass).mp ends))]
    simp only [result_bind, result_ofOption, Option.bind_eq_some_iff, early, false_and, false_or,
      not_false_eq_true, true_and, exists_and_left]

end Passes

section Opened

variable {D : Type}

/-- The server of a rank as the first connection leaves it; before that, as it would leave it if
the clients connected now. -/
def opened (clientCommSize : Nat) (rank : LoopState D) : Server D :=
  if rank.allocated then rank.server else allocateFields rank.server clientCommSize

theorem opened_allocated (clientCommSize : Nat) {rank : LoopState D}
    (allocated : rank.allocated = true) : opened clientCommSize rank = rank.server :=
  if_pos allocated

theorem opened_closed (clientCommSize : Nat) {rank : LoopState D}
    (closed : rank.allocated = false) :
    opened clientCommSize rank = allocateFields rank.server clientCommSize :=
  if_neg (by rw [closed]; decide)

/-- A block that commutes with the allocation of the fields. -/
theorem opened_congr (clientCommSize : Nat) {rank rank' : LoopState D} {f : Server D → Server D}
    (same : rank'.allocated = rank.allocated) (server : rank'.server = f rank.server)
    (commutes : allocateFields (f rank.server) clientCommSize =
      f (allocateFields rank.server clientCommSize)) :
    opened clientCommSize rank' = f (opened clientCommSize rank) := by
  unfold opened
  rw [same, server, commutes]
  split
  · rfl
  · rfl

theorem opened_removeUnsubmitted (clientCommSize : Nat) (rank : LoopState D) :
    opened clientCommSize { rank with server := removeUnsubmitted rank.server } =
      removeUnsubmitted (opened clientCommSize rank) :=
  opened_congr (f := removeUnsubmitted) clientCommSize rfl rfl rfl

theorem allocateFields_timeoutRound (server : Server D) (now : ℚ) (clientCommSize : Nat) :
    allocateFields (timeoutRound server now) clientCommSize =
      timeoutRound (allocateFields server clientCommSize) now := by
  have simulations : (allocateFields server clientCommSize).simulations = server.simulations := rfl
  have options : (allocateFields server clientCommSize).options = server.options := rfl
  have rank : (allocateFields server clientCommSize).commData.rank = server.commData.rank := rfl
  have last : (allocateFields server clientCommSize).lastTimeoutCheck = server.lastTimeoutCheck :=
    rfl
  unfold timeoutRound
  rw [simulations, options, rank, last]
  split
  · dsimp only
    split
    · rfl
    · rfl
  · rfl

theorem allocateFields_textMessage (server : Server D) (msg : LauncherMessage D)
    (clientCommSize : Nat) :
    textMessage (allocateFields server clientCommSize) msg =
      (textMessage server msg).map fun handled => allocateFields handled clientCommSize := by
  cases msg with
  | job job =>
      have simulations : (allocateFields server clientCommSize).simulations = server.simulations :=
        rfl
      have options : (allocateFields server clientCommSize).options = server.options := rfl
      simp only [textMessage, processLauncherMessage, Option.bind_eq_bind, simulations, options]
      cases (growVector server.simulations job.simuId addSimulation)[job.simuId]? with
      | none => rfl
      | some simu =>
          rw [Option.bind_some, Option.bind_some]
          cases assignJob server.options.nbParameters job simu with
          | none => rfl
          | some simu => rfl
  | drop simuId jobId => rfl
  | hello => rfl
  | alive => rfl
  | options => rfl
  | unknown messageType => rfl

theorem allocateFields_admittedField (server : Server D) (clientCommSize : Nat) (m : SimuData D) :
    admittedField (allocateFields server clientCommSize) m = admittedField server m := by
  have names : (allocateFields server clientCommSize).fields.map MelissaField.name =
      server.fields.map MelissaField.name := by
    simp [allocateFields, emptyField, Function.comp_def]
  unfold admittedField
  rw [getFieldId_eq_of_names names]
  rfl

theorem admittedField_opened (clientCommSize : Nat) (rank : LoopState D) (m : SimuData D) :
    admittedField (opened clientCommSize rank) m = admittedField rank.server m := by
  unfold opened
  split
  · rfl
  · exact allocateFields_admittedField rank.server clientCommSize m

end Opened

section Rounds

variable {D : Type}

/-- The memory of the fields has been allocated by the block that sets `first_init` to 0. -/
def FirstInit (rank : LoopState D) : Prop := rank.allocated = true ↔ rank.firstInit = 0

/-- The checks at the top of a pass. -/
def timeRounds (rank : LoopState D) (pass : Pass D) : List (Round D) :=
  .work (.timeouts (pass.clock 0)) ::
    (if rank.lastMsgLauncher + 250 < pass.clock 1 then [.silence] else [])

/-- The messages on the text port and on the data port. -/
def portRounds (pass : Pass D) : List (Round D) :=
  (pass.text.map fun msg => Round.work (.launcher msg)).toList ++
    (pass.data.map fun (m, reply) => Round.work (.data (pass.clock 4) m reply)).toList

/-- The rounds of a pass. With a learning study it ends after a checkpoint. -/
def roundsOf (rank : LoopState D) (pass : Pass D) : List (Round D) :=
  timeRounds rank pass ++ .checkpoint (pass.clock 2) ::
    if EndsEarly rank pass then [] else portRounds pass

theorem firstInit_serverInit {options : Options D} {rank commSize : Nat} {names : List String}
    {simulations : List (Simulation D)} {nbFinishedSimulations : Nat} {now : ℚ} :
    FirstInit (serverInit options rank commSize names simulations nbFinishedSimulations now) := by
  refine iff_of_false Bool.false_ne_true ?_
  unfold serverInit
  dsimp only
  split
  · decide
  · decide

theorem checkTimes_firstInit (rank : LoopState D) (pass : Pass D) :
    (checkTimes rank pass).allocated = rank.allocated ∧
      (checkTimes rank pass).firstInit = rank.firstInit := by
  refine ⟨?_, (checkTimes_untouched rank pass).firstInit⟩
  unfold checkTimes launcherTimeout
  split
  · rfl
  · rfl

/-- The blocks of the connection port leave the server as the first connection does. -/
theorem firstInitBlock_rounds {rank ready : LoopState D} {connection : Option Nat}
    {broadcast : Nat} (start : FirstInit rank)
    (returned : (firstInitBlock (answerConnection rank connection) broadcast).result =
      some ready) :
    FirstInit ready ∧ (rank.allocated = true → ready.allocated = true) ∧
      ∃ connected, ∀ clientCommSize,
        (rank.allocated = false → ready.allocated = true → clientCommSize = connected) →
          opened clientCommSize ready = opened clientCommSize rank := by
  have allocated := answerConnection_allocated rank connection
  have firstInit : (answerConnection rank connection).firstInit = rank.firstInit ∨
      rank.firstInit = 2 ∧ (answerConnection rank connection).firstInit = 1 := by
    unfold answerConnection
    split
    · exact Or.inl rfl
    · split
      · dsimp only
        split
        · rename_i waiting
          exact Or.inr ⟨waiting, rfl⟩
        · exact Or.inl rfl
      · exact Or.inl rfl
  unfold firstInitBlock at returned
  split at returned
  · rename_i first
    rw [result_bind] at returned
    obtain ⟨received, _, done⟩ := Option.bind_eq_some_iff.mp returned
    have closed : rank.allocated = false := by
      rw [← Bool.not_eq_true]
      intro before
      have := start.mp before
      omega
    cases done
    refine ⟨iff_of_true rfl rfl, fun _ => rfl,
      if rank.server.options.learning > 0 then 1 else received, fun clientCommSize connects => ?_⟩
    rw [opened_closed clientCommSize closed, opened_allocated clientCommSize rfl,
      connects closed rfl]
    dsimp only
    rw [answerConnection_server]
  · rename_i later
    cases returned
    have still := firstInit.resolve_right fun waiting => later waiting.2
    refine ⟨?_, fun before => allocated.trans before, 0, fun clientCommSize _ => ?_⟩
    · unfold FirstInit
      rw [allocated, still]
      exact start
    · unfold opened
      rw [allocated, answerConnection_server]

theorem periodicCheckpoint_rounds (clientCommSize : Nat) {rank saved : LoopState D} {now : ℚ}
    (returned : (periodicCheckpoint rank now).result = some saved) :
    saved.allocated = rank.allocated ∧ saved.firstInit = rank.firstInit ∧
      opened clientCommSize saved = saveTime (opened clientCommSize rank) now := by
  have due : checkpointDue (opened clientCommSize rank) now = checkpointDue rank.server now := by
    unfold opened
    split
    · rfl
    · rfl
  unfold periodicCheckpoint at returned
  unfold saveTime
  rw [due]
  split at returned
  · rename_i late
    rw [result_bind] at returned
    obtain ⟨_, _, done⟩ := Option.bind_eq_some_iff.mp returned
    cases done
    rw [if_pos late]
    exact ⟨rfl, rfl, opened_congr (f := fun server => { server with lastCheckpointTime := now })
      clientCommSize rfl rfl rfl⟩
  · rename_i early
    cases returned
    rw [if_neg early]
    exact ⟨rfl, rfl, rfl⟩

variable [Zero D] [Add D] [Sub D] [Mul D] [Div D] [NatCast D] [IntCast D]
  [Pow D ℕ] [LT D] [DecidableLT D] [LE D] [DecidableLE D] [Libm D]

theorem checkTimes_rounds (restore : Restore D) (clientCommSize : Nat) (rank : LoopState D)
    (pass : Pass D) :
    run (roundStep restore) (opened clientCommSize rank) (timeRounds rank pass) =
      some (opened clientCommSize (checkTimes rank pass)) := by
  have timed : opened clientCommSize { rank with
      endSignal := pass.signal <|> rank.endSignal
      server := timeoutRound rank.server (pass.clock 0) } =
        timeoutRound (opened clientCommSize rank) (pass.clock 0) :=
    opened_congr (f := fun server => timeoutRound server (pass.clock 0)) clientCommSize rfl rfl
      (allocateFields_timeoutRound rank.server (pass.clock 0) clientCommSize)
  unfold timeRounds checkTimes launcherTimeout
  dsimp only
  rw [run_cons, roundStep, step, Option.bind_some, ← timed]
  split
  · rw [run_cons, roundStep, Option.bind_some, run_nil]
    exact congrArg some (opened_removeUnsubmitted clientCommSize _).symm
  · rfl

theorem readText_rounds (restore : Restore D) (clientCommSize : Nat) {rank informed : LoopState D}
    {pass : Pass D} (read : readText rank pass = some informed) :
    informed.allocated = rank.allocated ∧ informed.firstInit = rank.firstInit ∧
      run (roundStep restore) (opened clientCommSize rank)
        (pass.text.map fun msg => Round.work (.launcher msg)).toList =
          some (opened clientCommSize informed) := by
  unfold readText at read
  cases sent : pass.text with
  | none =>
      rw [sent] at read
      cases read
      exact ⟨rfl, rfl, rfl⟩
  | some msg =>
      rw [sent] at read
      obtain ⟨server, handled, rfl⟩ := Option.map_eq_some_iff.mp read
      refine ⟨rfl, rfl, ?_⟩
      have done : textMessage (opened clientCommSize rank) msg =
          some (opened clientCommSize { rank with
            server := server, lastMsgLauncher := pass.clock 3 }) := by
        unfold opened
        dsimp only
        split
        · exact handled
        · rw [allocateFields_textMessage, handled, Option.map_some]
      rw [Option.map_some, Option.toList_some, run_cons, roundStep, step, done, Option.bind_some,
        run_nil]

theorem readText_of_rounds {restore : Restore D} {rank : LoopState D} {pass : Pass D}
    {server : Server D}
    (reached : run (roundStep restore) rank.server
      (pass.text.map fun msg => Round.work (.launcher msg)).toList = some server) :
    ∃ informed, readText rank pass = some informed ∧ informed.server = server := by
  unfold readText
  cases sent : pass.text with
  | none =>
      rw [sent] at reached
      exact ⟨rank, rfl, Option.some.inj reached⟩
  | some msg =>
      rw [sent, Option.map_some, Option.toList_some] at reached
      obtain ⟨handled, taken, done⟩ := Option.bind_eq_some_iff.mp reached
      cases done
      replace taken : textMessage rank.server msg = some server := taken
      dsimp only
      rw [taken]
      exact ⟨_, rfl, rfl⟩

theorem receiveData_rounds (clientCommSize : Nat) {restore : Restore D} {ready next : LoopState D}
    {pass : Pass D} (returned : (receiveData restore ready pass).result = some next) :
    next.allocated = ready.allocated ∧ next.firstInit = ready.firstInit ∧
      run (roundStep restore) (opened clientCommSize ready)
        (pass.data.map fun (m, reply) => Round.work (.data (pass.clock 4) m reply)).toList =
          some (opened clientCommSize next) := by
  unfold receiveData at returned
  cases found : pass.data with
  | none =>
      rw [found] at returned
      cases returned
      exact ⟨rfl, rfl, rfl⟩
  | some message =>
      obtain ⟨m, reply⟩ := message
      rw [found] at returned
      dsimp only at returned
      rw [Option.map_some, Option.toList_some, run_cons, roundStep, step, dataMessage_eq,
        admittedField_opened]
      cases known : admittedField ready.server m with
      | none =>
          rw [known] at returned
          cases returned
          exact ⟨rfl, rfl, rfl⟩
      | some fieldId =>
          rw [known] at returned
          dsimp only at returned ⊢
          unfold dataBranch at returned
          rw [result_bind, result_touch, Option.bind_some, result_ofOption] at returned
          split at returned
          · rename_i allocated
            obtain ⟨server, accepted, rfl⟩ := Option.map_eq_some_iff.mp returned
            refine ⟨rfl, rfl, ?_⟩
            rw [opened_allocated clientCommSize allocated, accepted]
            exact congrArg some (if_pos allocated).symm
          · cases returned

/-- A pass that returns, as rounds. The one that opens takes the size of the client that connects
first. -/
theorem passBody_rounds {restore : Restore D} {rank next : LoopState D} {pass : Pass D}
    (start : FirstInit rank) (returned : (passBody restore rank pass).result = some next) :
    FirstInit next ∧ (rank.allocated = true → next.allocated = true) ∧
      ∃ connected, ∀ clientCommSize,
        (rank.allocated = false → next.allocated = true → clientCommSize = connected) →
          run (roundStep restore) (opened clientCommSize rank) (roundsOf rank pass) =
            some (opened clientCommSize next) := by
  obtain ⟨saved, checkpoint, ending⟩ := passBody_eq_some.mp returned
  obtain ⟨timedAllocated, timedFirst⟩ := checkTimes_firstInit rank pass
  obtain ⟨savedAllocated, savedFirst, _⟩ := periodicCheckpoint_rounds 0 checkpoint
  have startSaved : FirstInit saved := by
    unfold FirstInit
    rw [savedAllocated, savedFirst, timedAllocated, timedFirst]
    exact start
  have untilSaved (clientCommSize : Nat) (rest : List (Round D)) :
      run (roundStep restore) (opened clientCommSize rank)
        (timeRounds rank pass ++ .checkpoint (pass.clock 2) :: rest) =
          run (roundStep restore) (opened clientCommSize saved) rest := by
    rw [run_append, checkTimes_rounds, Option.bind_some, run_cons, roundStep, Option.bind_some,
      (periodicCheckpoint_rounds clientCommSize checkpoint).2.2]
  unfold roundsOf
  rcases ending with ⟨early, rfl⟩ | ⟨late, informed, ready, read, block, received⟩
  · refine ⟨startSaved, fun before => savedAllocated.trans (timedAllocated.trans before), 0, ?_⟩
    intro clientCommSize _
    rw [if_pos early, untilSaved, run_nil]
  · obtain ⟨informedAllocated, informedFirst, _⟩ := readText_rounds restore 0 read
    have startInformed : FirstInit informed := by
      unfold FirstInit
      rw [informedAllocated, informedFirst]
      exact startSaved
    obtain ⟨startReady, onward, connected, connects⟩ := firstInitBlock_rounds startInformed block
    obtain ⟨nextAllocated, nextFirst, _⟩ := receiveData_rounds 0 received
    have before : informed.allocated = rank.allocated :=
      informedAllocated.trans (savedAllocated.trans timedAllocated)
    refine ⟨?_, ?_, connected, fun clientCommSize same => ?_⟩
    · unfold FirstInit
      rw [nextAllocated, nextFirst]
      exact startReady
    · rw [nextAllocated, ← before]
      exact onward
    · rw [if_neg late, untilSaved, portRounds, run_append,
        (readText_rounds restore clientCommSize read).2.2, Option.bind_some,
        ← connects clientCommSize (by rw [before, ← nextAllocated]; exact same)]
      exact (receiveData_rounds clientCommSize received).2.2

/-- A message on the data port of a rank with its structures goes through with its round. -/
theorem receiveData_of_rounds {restore : Restore D} {ready : LoopState D} {pass : Pass D}
    {server : Server D} (allocated : ready.allocated = true)
    (reached : run (roundStep restore) ready.server
      (pass.data.map fun (m, reply) => Round.work (.data (pass.clock 4) m reply)).toList =
        some server) : ∃ next, (receiveData restore ready pass).result = some next := by
  unfold receiveData
  cases found : pass.data with
  | none => exact ⟨ready, rfl⟩
  | some message =>
      obtain ⟨m, reply⟩ := message
      rw [found, Option.map_some, Option.toList_some, run_cons, roundStep, step, dataMessage_eq]
        at reached
      dsimp only
      cases known : admittedField ready.server m with
      | none => exact ⟨ready, rfl⟩
      | some fieldId =>
          rw [known] at reached
          obtain ⟨stored, accepted, _⟩ := Option.bind_eq_some_iff.mp reached
          dsimp only at accepted ⊢
          unfold dataBranch
          rw [result_bind, result_touch, Option.bind_some, result_ofOption, if_pos allocated,
            accepted]
          exact ⟨_, rfl⟩

/-- The other way round: where its rounds go through, so does a pass after the first connection. -/
theorem passBody_of_rounds {restore : Restore D} {rank : LoopState D} {pass : Pass D}
    {server : Server D} (start : FirstInit rank) (allocated : rank.allocated = true)
    (reached : run (roundStep restore) rank.server (roundsOf rank pass) = some server) :
    ∃ next, (passBody restore rank pass).result = some next ∧ next.server = server := by
  suffices returns : ∃ next, (passBody restore rank pass).result = some next by
    obtain ⟨next, returned⟩ := returns
    obtain ⟨_, still, connected, rounds⟩ := passBody_rounds start returned
    have through := rounds connected fun _ _ => rfl
    rw [opened_allocated connected allocated, reached, opened_allocated connected (still allocated)]
      at through
    exact ⟨next, returned, (Option.some.inj through).symm⟩
  obtain ⟨timedAllocated, timedFirst⟩ := checkTimes_firstInit rank pass
  obtain ⟨saved, checkpoint⟩ :=
    periodicCheckpoint_saves (pass.clock 2) (timedAllocated.trans allocated)
  obtain ⟨savedAllocated, savedFirst, savedServer⟩ := periodicCheckpoint_rounds 0 checkpoint
  have openSaved : saved.allocated = true := savedAllocated.trans (timedAllocated.trans allocated)
  by_cases early : EndsEarly rank pass
  · exact ⟨saved, passBody_eq_some.mpr ⟨saved, checkpoint, Or.inl ⟨early, rfl⟩⟩⟩
  · rw [roundsOf, if_neg early, run_append, ← opened_allocated 0 allocated, checkTimes_rounds,
      Option.bind_some, run_cons, roundStep, Option.bind_some, ← savedServer, portRounds,
      run_append, opened_allocated 0 openSaved] at reached
    obtain ⟨texted, handled, received⟩ := Option.bind_eq_some_iff.mp reached
    obtain ⟨informed, read, rfl⟩ := readText_of_rounds handled
    obtain ⟨informedAllocated, informedFirst, _⟩ := readText_rounds restore 0 read
    have ready : informed.firstInit = 0 := by
      rw [informedFirst, savedFirst, timedFirst]
      exact start.mp allocated
    have block := firstInitBlock_idle pass.connection pass.broadcast ready
    rw [← answerConnection_server informed pass.connection] at received
    obtain ⟨next, returned⟩ := receiveData_of_rounds
      ((answerConnection_allocated informed pass.connection).trans
        (informedAllocated.trans openSaved)) received
    exact ⟨next, passBody_eq_some.mpr ⟨saved, checkpoint,
      Or.inr ⟨early, informed, _, read, block, returned⟩⟩⟩

/-- The rounds of the passes that a run goes through. -/
def passRounds (restore : Restore D) : LoopState D → List (Pass D) → List (Round D)
  | _, [] => []
  | rank, pass :: rest =>
      roundsOf rank pass ++
        match loopStep restore rank pass with
        | none => []
        | some next => passRounds restore next rest

theorem run_passRounds {restore : Restore D} {rank last : LoopState D} {passes : List (Pass D)}
    (start : FirstInit rank) (reached : run (loopStep restore) rank passes = some last) :
    (rank.allocated = true → last.allocated = true) ∧
      ∃ connected, ∀ clientCommSize,
        (rank.allocated = false → last.allocated = true → clientCommSize = connected) →
          run (roundStep restore) (opened clientCommSize rank) (passRounds restore rank passes) =
            some (opened clientCommSize last) := by
  induction passes generalizing rank with
  | nil =>
      cases reached
      exact ⟨id, 0, fun clientCommSize _ => rfl⟩
  | cons pass rest ih =>
      obtain ⟨next, taken, onward⟩ := Option.bind_eq_some_iff.mp reached
      obtain ⟨startNext, still, here, first⟩ := passBody_rounds start (passBody_of_loopStep taken)
      obtain ⟨stillLast, later, others⟩ := ih startNext onward
      refine ⟨fun allocated => stillLast (still allocated),
        if next.allocated then here else later, fun clientCommSize same => ?_⟩
      rw [passRounds, taken, run_append, first clientCommSize, Option.bind_some]
      · apply others
        intro closed allocated
        rw [closed, if_neg Bool.false_ne_true] at same
        refine same ?_ allocated
        rw [← Bool.not_eq_true]
        intro before
        rw [still before] at closed
        cases closed
      · intro closed allocated
        rw [allocated, if_pos rfl] at same
        exact same closed (stillLast allocated)

/-- What a server rank of a study does from its start on, once a client has connected, are rounds
from the state that the other modules start from. -/
theorem passes_rounds {restore : Restore D} {options : Options D} {rank commSize : Nat}
    {names : List String} {simulations : List (Simulation D)} {nbFinishedSimulations : Nat}
    {now : ℚ} {passes : List (Pass D)} {last : LoopState D}
    (reached : run (loopStep restore)
      (serverInit options rank commSize names simulations nbFinishedSimulations now) passes =
        some last) (connected : last.allocated = true) :
    ∃ clientCommSize, run (roundStep restore)
      (startServer options ⟨rank, commSize, clientCommSize⟩ names simulations
        nbFinishedSimulations)
      (passRounds restore
        (serverInit options rank commSize names simulations nbFinishedSimulations now) passes) =
          some last.server := by
  obtain ⟨_, clientCommSize, rounds⟩ := run_passRounds firstInit_serverInit reached
  have through := rounds clientCommSize fun _ _ => rfl
  rw [opened_allocated clientCommSize connected, opened_closed clientCommSize rfl,
    allocateFields_serverInit] at through
  exact ⟨clientCommSize, through⟩

end Rounds

end Melissa
