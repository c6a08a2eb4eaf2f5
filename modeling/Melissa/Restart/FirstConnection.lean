import Melissa.Base.Traced
import Melissa.Restart.Life
import Melissa.Server.Ready

/-! The passes of the main loop from the start of a server rank on. Rank 0 waits for the first
connection request of a client before it allocates `first_send` and the structures of the
fields, and its sockets are polled all the while. -/

namespace Melissa

open Traced

inductive Signal where
  | sigint
  | sigusr1
  | sigusr2
  deriving DecidableEq, Repr

/-- What a pass does with the memory that the block `first_init == 1` allocates. -/
inductive Touch where
  | allocate (clientCommSize : Nat)
  | firstSend (fieldId clientRank : Nat)
  | statsData (fieldId : Nat)
  | clientCommSize
  deriving DecidableEq, Repr

def Touch.IsAllocation : Touch → Prop
  | .allocate _ => True
  | .firstSend _ _ => False
  | .statsData _ => False
  | .clientCommSize => False

/-- A rank between two passes of the main loop. Until `allocated` the memory of `first_send`,
`stats_data` and `client_comm_size` holds no values, and what `server` has in their place means
nothing. `rinitTab` is `rinit_tab[0]`. -/
structure LoopState (D : Type) where
  firstInit : Nat
  rinitTab : Option Nat
  allocated : Bool
  endSignal : Option Signal
  lastMsgLauncher : ℚ
  server : Server D
  deriving DecidableEq, Repr

/-- What one pass of the main loop finds. `clock k` is what its `k`-th block reads on the clock,
`connection` the size of the client that asks to connect, `broadcast` the size that `MPI_Bcast`
brings to a rank other than 0, and `signal` the last signal caught before the pass tests
`end_signal`. -/
structure Pass (D : Type) where
  clock : Nat → ℚ
  text : Option (LauncherMessage D)
  connection : Option Nat
  broadcast : Nat
  data : Option (SimuData D × Job D)
  signal : Option Signal

section Blocks

variable {D : Type}

/-- A server rank after `melissa_server_init`, at a first start or at a restart. -/
def serverInit (options : Options D) (rank commSize : Nat) (names : List String)
    (simulations : List (Simulation D)) (nbFinishedSimulations : Nat) (now : ℚ) : LoopState D :=
  { firstInit := if rank = 0 then 2 else 1
    rinitTab := none, allocated := false, endSignal := none, lastMsgLauncher := now
    server :=
      { options := options, commData := { rank := rank, commSize := commSize, clientCommSize := 0 }
        fields := names.map fun name => { name := name, statsData := [] }
        firstSend := [], localNbMessages := 0, simulations := simulations
        nbFinishedSimulations := nbFinishedSimulations
        lastCheckpointTime := 0, lastTimeoutCheck := 0, outbox := [] } }

/-- Without news from the launcher for 250 seconds the simulations that have no job leave the
sample. -/
def launcherTimeout (rank : LoopState D) (now : ℚ) : LoopState D :=
  if rank.lastMsgLauncher + 250 < now then { rank with server := removeUnsubmitted rank.server }
  else rank

/-- The timeout checks, and the signals caught meanwhile. -/
def checkTimes (rank : LoopState D) (pass : Pass D) : LoopState D :=
  launcherTimeout { rank with
    endSignal := pass.signal <|> rank.endSignal
    server := timeoutRound rank.server (pass.clock 0) } (pass.clock 1)

/-- The calls of `save_stats` for all fields. -/
def saveTouches (server : Server D) : List Touch :=
  (List.range server.fields.length).flatMap fun i => [.statsData i, .clientCommSize]

def saveFields (rank : LoopState D) : Traced Touch Unit := do
  touch (saveTouches rank.server)
  ofOption (if rank.allocated ∨ rank.server.fields = [] then some () else none)

def periodicCheckpoint (rank : LoopState D) (now : ℚ) : Traced Touch (LoopState D) :=
  if checkpointDue rank.server now then do
    saveFields rank
    pure { rank with server := { rank.server with lastCheckpointTime := now } }
  else pure rank

def readText (rank : LoopState D) (pass : Pass D) : Option (LoopState D) :=
  match pass.text with
  | none => some rank
  | some msg => (textMessage rank.server msg).map fun server =>
      { rank with server := server, lastMsgLauncher := pass.clock 3 }

def answerConnection (rank : LoopState D) (connection : Option Nat) : LoopState D :=
  match connection with
  | none => rank
  | some clientCommSize =>
      if rank.server.commData.rank = 0 then
        { rank with
          rinitTab := some clientCommSize
          firstInit := if rank.firstInit = 2 then 1 else rank.firstInit }
      else rank

/-- The memory that the block `first_init == 1` allocates. -/
def allocateFields (server : Server D) (clientCommSize : Nat) : Server D :=
  { server with
    commData := { server.commData with clientCommSize := clientCommSize }
    firstSend := List.replicate (server.fields.length * clientCommSize) false
    localNbMessages := 0
    fields := server.fields.map fun field => emptyField clientCommSize field.name }

def firstInitBlock (rank : LoopState D) (broadcast : Nat) : Traced Touch (LoopState D) :=
  if rank.firstInit = 1 then do
    let received ← ofOption (if rank.server.commData.rank = 0 then rank.rinitTab
      else some broadcast)
    let clientCommSize := if rank.server.options.learning > 0 then 1 else received
    touch [.allocate clientCommSize]
    pure { rank with
      firstInit := 0, allocated := true, server := allocateFields rank.server clientCommSize }
  else pure rank

/-- The tests of the data branch before its lookups. -/
def admittedField (server : Server D) (m : SimuData D) : Option Nat :=
  if m.timeStamp < 0 ∨ m.timeStamp ≥ server.options.nbTimeSteps then none
  else getFieldId server.fields m.fieldName

/-- The test of `end_signal` and, without a signal, of the end of the study. The callers of
`melissa_server_run` call it again unless it has returned with status 1. -/
def endOfPass (rank : LoopState D) : Traced Touch (LoopState D) :=
  if rank.endSignal.isSome then do
    saveFields rank
    pure rank
  else ofOption (if stopTest rank.server then none else some rank)

variable [Zero D] [Add D] [Sub D] [Mul D] [Div D] [NatCast D] [IntCast D]
  [Pow D ℕ] [LT D] [DecidableLT D] [LE D] [DecidableLE D] [Libm D]

/-- The data branch after its tests. -/
def dataBranch (restore : Restore D) (rank : LoopState D) (pass : Pass D) (m : SimuData D)
    (reply : Job D) (fieldId : Nat) : Traced Touch (LoopState D) := do
  touch [.firstSend fieldId m.clientRank, .statsData fieldId]
  let asked := (growSimulations rank.server m.simuId).simulations[m.simuId]?.any fun simu =>
    waitsForJob simu m.vectSize
  ofOption (if rank.allocated then
    (acceptMessage restore rank.server (pass.clock 4) m (.job reply) fieldId).map fun server =>
      { rank with
        server := server
        lastMsgLauncher := if asked then pass.clock 5 else rank.lastMsgLauncher }
    else none)

/-- The data port and what follows it. A message that is not admitted ends the pass with
`continue`. -/
def pollData (restore : Restore D) (rank : LoopState D) (pass : Pass D) :
    Traced Touch (LoopState D) :=
  match pass.data with
  | none => endOfPass rank
  | some (m, reply) =>
      match admittedField rank.server m with
      | none => pure rank
      | some fieldId => do
          let stored ← dataBranch restore rank pass m reply fieldId
          endOfPass stored

/-- One pass of the main loop. With a learning study it ends after a checkpoint. -/
def servePass (restore : Restore D) (rank : LoopState D) (pass : Pass D) :
    Traced Touch (LoopState D) := do
  let timed := checkTimes rank pass
  let saved ← periodicCheckpoint timed (pass.clock 2)
  if checkpointDue timed.server (pass.clock 2) ∧ timed.server.options.learning > 0 then pure saved
  else do
    let informed ← ofOption (readText saved pass)
    let ready ← firstInitBlock (answerConnection informed pass.connection) pass.broadcast
    pollData restore ready pass

/-- The passes of the main loop, up to the one that ends the study. -/
def serve (restore : Restore D) (rank : LoopState D) (passes : List (Pass D)) :
    Traced Touch (LoopState D) :=
  run (servePass restore) rank passes

end Blocks

section Connection

variable {D : Type}

/-- The block `first_init == 1` makes the state that the other modules start from. -/
theorem allocateFields_serverInit (options : Options D) (rank commSize : Nat)
    (names : List String) (simulations : List (Simulation D)) (nbFinishedSimulations : Nat)
    (now : ℚ) (clientCommSize : Nat) :
    allocateFields
        (serverInit options rank commSize names simulations nbFinishedSimulations now).server
        clientCommSize =
      startServer options
        { rank := rank, commSize := commSize, clientCommSize := clientCommSize } names simulations
        nbFinishedSimulations := by
  simp [allocateFields, serverInit, startServer, emptyField, Function.comp_def]

theorem admittedField_eq_some {server : Server D} {m : SimuData D} {fieldId : Nat} :
    admittedField server m = some fieldId ↔ Admitted server m fieldId := by
  unfold admittedField Admitted
  split
  · rename_i bad
    exact ⟨fun known => (nomatch known), fun admitted => by omega⟩
  · rename_i good
    exact ⟨fun known => ⟨by omega, by omega, known⟩, fun admitted => admitted.2.2⟩

theorem admittedField_eq_none {server : Server D} {m : SimuData D} :
    admittedField server m = none ↔ ∀ fieldId, ¬ Admitted server m fieldId := by
  constructor
  · intro refused fieldId admitted
    rw [admittedField_eq_some.mpr admitted] at refused
    cases refused
  · intro refused
    cases known : admittedField server m with
    | none => rfl
    | some fieldId => exact absurd (admittedField_eq_some.mp known) (refused fieldId)

/-- What the blocks before the connection port leave alone. -/
structure Untouched (rank rank' : LoopState D) : Prop where
  firstInit : rank'.firstInit = rank.firstInit
  commData : rank'.server.commData = rank.server.commData
  fields : rank'.server.fields = rank.server.fields
  nbTimeSteps : rank'.server.options.nbTimeSteps = rank.server.options.nbTimeSteps
  lastCheckpointTime : rank'.server.lastCheckpointTime = rank.server.lastCheckpointTime

theorem untouched_refl (rank : LoopState D) : Untouched rank rank :=
  ⟨rfl, rfl, rfl, rfl, rfl⟩

theorem untouched_trans {first second third : LoopState D} (left : Untouched first second)
    (right : Untouched second third) : Untouched first third :=
  ⟨right.firstInit.trans left.firstInit, right.commData.trans left.commData,
    right.fields.trans left.fields, right.nbTimeSteps.trans left.nbTimeSteps,
    right.lastCheckpointTime.trans left.lastCheckpointTime⟩

theorem launcherTimeout_untouched (rank : LoopState D) (now : ℚ) :
    Untouched rank (launcherTimeout rank now) ∧
      (launcherTimeout rank now).endSignal = rank.endSignal := by
  unfold launcherTimeout
  split
  · exact ⟨⟨rfl, rfl, rfl, rfl, rfl⟩, rfl⟩
  · exact ⟨untouched_refl rank, rfl⟩

theorem timeoutRound_lastCheckpointTime (server : Server D) (now : ℚ) :
    (timeoutRound server now).lastCheckpointTime = server.lastCheckpointTime := by
  unfold timeoutRound
  split
  · dsimp only
    split <;> rfl
  · rfl

theorem checkTimes_untouched (rank : LoopState D) (pass : Pass D) :
    Untouched rank (checkTimes rank pass) := by
  obtain ⟨fields, options, commData, _⟩ := timeoutRound_parts rank.server (pass.clock 0)
  refine untouched_trans ?_ (launcherTimeout_untouched _ _).1
  exact ⟨rfl, commData, fields, congrArg Options.nbTimeSteps options,
    timeoutRound_lastCheckpointTime _ _⟩

@[simp] theorem checkTimes_endSignal (rank : LoopState D) (pass : Pass D) :
    (checkTimes rank pass).endSignal = (pass.signal <|> rank.endSignal) :=
  (launcherTimeout_untouched _ _).2

theorem processLauncherMessage_lastCheckpointTime {server server' : Server D}
    {msg : LauncherMessage D} (processed : processLauncherMessage server msg = some server') :
    server'.lastCheckpointTime = server.lastCheckpointTime := by
  cases launcherEffect processed with
  | job present enough => rfl
  | nothing noJob noDrop => rfl

theorem readText_untouched {rank informed : LoopState D} {pass : Pass D}
    (read : readText rank pass = some informed) :
    Untouched rank informed ∧ informed.endSignal = rank.endSignal := by
  unfold readText at read
  split at read
  · cases read
    exact ⟨untouched_refl rank, rfl⟩
  · obtain ⟨server, handled, rfl⟩ := Option.map_eq_some_iff.mp read
    obtain ⟨fields, commData, _, options⟩ := textMessage_parts handled
    have nbTimeSteps : server.options.nbTimeSteps = rank.server.options.nbTimeSteps := by
      rw [options]
    obtain ⟨processed, done, rfl⟩ := Option.map_eq_some_iff.mp handled
    have lastCheckpointTime := processLauncherMessage_lastCheckpointTime done
    exact ⟨⟨rfl, commData, fields, nbTimeSteps, lastCheckpointTime⟩, rfl⟩

theorem read_untouched {rank informed : LoopState D} {pass : Pass D}
    (read : readText (checkTimes rank pass) pass = some informed) :
    Untouched rank informed ∧ informed.endSignal = (pass.signal <|> rank.endSignal) := by
  obtain ⟨untouched, endSignal⟩ := readText_untouched read
  exact ⟨untouched_trans (checkTimes_untouched rank pass) untouched,
    endSignal.trans (checkTimes_endSignal rank pass)⟩

/-- A rank that has not initialised a structure saves nothing periodically. -/
theorem checkpointDue_zero {server : Server D} (unsaved : server.lastCheckpointTime = 0)
    (now : ℚ) : checkpointDue server now = false := by
  unfold checkpointDue
  rw [unsaved, Bool.and_eq_false_iff]
  exact Or.inr (decide_eq_false (by norm_num))

variable [Zero D] [Add D] [Sub D] [Mul D] [Div D] [NatCast D] [IntCast D]
  [Pow D ℕ] [LT D] [DecidableLT D] [LE D] [DecidableLE D] [Libm D]

theorem servePass_unsaved (restore : Restore D) {rank : LoopState D} (pass : Pass D)
    (unsaved : rank.server.lastCheckpointTime = 0) :
    servePass restore rank pass = (do
      let informed ← ofOption (readText (checkTimes rank pass) pass)
      let ready ← firstInitBlock (answerConnection informed pass.connection) pass.broadcast
      pollData restore ready pass) := by
  have idle := checkpointDue_zero
    ((checkTimes_untouched rank pass).lastCheckpointTime.trans unsaved) (pass.clock 2)
  have unchanged : periodicCheckpoint (checkTimes rank pass) (pass.clock 2) =
      pure (checkTimes rank pass) := by
    rw [periodicCheckpoint, idle, if_neg Bool.false_ne_true]
  unfold servePass
  dsimp only
  rw [unchanged, bind_silent _ rfl rfl, idle, if_neg (fun both => Bool.false_ne_true both.1)]

/-- When the launcher's message ends the process, so does the pass. -/
theorem servePass_unread (restore : Restore D) {rank : LoopState D} {pass : Pass D}
    (unsaved : rank.server.lastCheckpointTime = 0)
    (ended : readText (checkTimes rank pass) pass = none) :
    servePass restore rank pass = { log := [], result := none } := by
  rw [servePass_unsaved restore pass unsaved, ended, bind_of_none _ rfl, log_ofOption]

theorem servePass_read (restore : Restore D) {rank informed : LoopState D} {pass : Pass D}
    (unsaved : rank.server.lastCheckpointTime = 0)
    (read : readText (checkTimes rank pass) pass = some informed) :
    servePass restore rank pass = (do
      let ready ← firstInitBlock (answerConnection informed pass.connection) pass.broadcast
      pollData restore ready pass) := by
  rw [servePass_unsaved restore pass unsaved, read, bind_silent _ rfl rfl]

/-- A pass that reaches the block `first_init == 1` leaves no mark before it. -/
theorem servePass_opening (restore : Restore D) {rank : LoopState D} {pass : Pass D}
    (unsaved : rank.server.lastCheckpointTime = 0)
    (answered : ∀ informed, readText (checkTimes rank pass) pass = some informed →
      (answerConnection informed pass.connection).firstInit = 1) :
    ((servePass restore rank pass).log = [] ∧ (servePass restore rank pass).result = none) ∨
      ∃ entry, (servePass restore rank pass).log.head? = some entry ∧ entry.IsAllocation := by
  cases read : readText (checkTimes rank pass) pass with
  | none =>
      rw [servePass_unread restore unsaved read]
      exact Or.inl ⟨rfl, rfl⟩
  | some informed =>
      rw [servePass_read restore unsaved read]
      unfold firstInitBlock
      rw [if_pos (answered informed read)]
      cases received : (if (answerConnection informed pass.connection).server.commData.rank = 0
          then (answerConnection informed pass.connection).rinitTab
          else some pass.broadcast) with
      | none => exact Or.inl ⟨rfl, rfl⟩
      | some size => exact Or.inr ⟨_, rfl, trivial⟩

/-- A pass before the first connection goes from the launcher's message to the data port. -/
theorem servePass_waiting (restore : Restore D) {rank informed : LoopState D} {pass : Pass D}
    (unsaved : rank.server.lastCheckpointTime = 0) (waiting : rank.firstInit = 2)
    (alone : pass.connection = none)
    (read : readText (checkTimes rank pass) pass = some informed) :
    servePass restore rank pass = pollData restore informed pass := by
  have still : informed.firstInit = 2 := (read_untouched read).1.firstInit.trans waiting
  have closed : firstInitBlock informed pass.broadcast = pure informed := by
    rw [firstInitBlock, if_neg (by rw [still]; decide)]
  rw [servePass_read restore unsaved read, alone, answerConnection, closed, bind_silent _ rfl rfl]

end Connection

section EarlyTouches

variable {D : Type}

/-- The state of rank 0 before the first connection. -/
structure Waiting (rank : LoopState D) : Prop where
  root : rank.server.commData.rank = 0
  firstInit : rank.firstInit = 2
  unsaved : rank.server.lastCheckpointTime = 0

/-- A pass that does not need what the first connection allocates: unless the launcher's message
ends the process, it finds no admitted message on the data port, and without a message no field
that a caught signal makes it save. -/
def QuietPass (rank : LoopState D) (pass : Pass D) : Prop :=
  (readText (checkTimes rank pass) pass).isSome →
    match pass.data with
    | some (m, _) => ∀ fieldId, ¬ Admitted rank.server m fieldId
    | none => (pass.signal <|> rank.endSignal) = none ∨ rank.server.fields = []

/-- No message is looked up and nothing is saved before the block `first_init == 1`. -/
def NoEarlyTouch (log : List Touch) : Prop :=
  Preceded Touch.IsAllocation log

def Connects (pass : Pass D) : Prop :=
  pass.connection.isSome

theorem admitted_untouched {rank rank' : LoopState D} (untouched : Untouched rank rank')
    (m : SimuData D) (fieldId : Nat) :
    Admitted rank'.server m fieldId ↔ Admitted rank.server m fieldId := by
  unfold Admitted
  rw [untouched.nbTimeSteps, untouched.fields]

/-- Quietness is decided before the launcher's message is read. -/
theorem quietPass_iff {rank informed : LoopState D} {pass : Pass D}
    (read : readText (checkTimes rank pass) pass = some informed) :
    QuietPass rank pass ↔
      match pass.data with
      | some (m, _) => admittedField informed.server m = none
      | none => informed.endSignal = none ∨ informed.server.fields = [] := by
  obtain ⟨untouched, endSignal⟩ := read_untouched read
  unfold QuietPass
  rw [read]
  simp only [Option.isSome_some, forall_const]
  split
  · rw [admittedField_eq_none]
    exact forall_congr' fun fieldId => not_congr (admitted_untouched untouched _ fieldId).symm
  · rw [endSignal, untouched.fields]

theorem endOfPass_same {rank next : LoopState D} (returned : (endOfPass rank).result = some next) :
    next = rank := by
  unfold endOfPass at returned
  split at returned
  · rw [result_bind] at returned
    obtain ⟨_, _, returned⟩ := Option.bind_eq_some_iff.mp returned
    exact (Option.some.inj returned).symm
  · rw [result_ofOption] at returned
    split at returned
    · cases returned
    · exact (Option.some.inj returned).symm

theorem endOfPass_quiet {rank : LoopState D}
    (quiet : rank.endSignal = none ∨ rank.server.fields = []) : (endOfPass rank).log = [] := by
  unfold endOfPass
  cases caught : rank.endSignal with
  | none =>
      rw [if_neg (by rw [Option.isSome_none]; exact Bool.false_ne_true)]
      rfl
  | some signal =>
      have empty := quiet.resolve_left (by rw [caught]; exact Option.some_ne_none signal)
      have silent : saveFields rank = pure () := by
        unfold saveFields saveTouches
        rw [empty, if_pos (Or.inr rfl)]
        rfl
      rw [if_pos (by rw [Option.isSome_some]), silent, bind_silent _ rfl rfl]
      rfl

theorem endOfPass_loud {rank : LoopState D} {signal : Signal}
    (caught : rank.endSignal = some signal) (someField : rank.server.fields ≠ []) :
    (endOfPass rank).log.head? = some (.statsData 0) := by
  unfold endOfPass
  rw [if_pos (by rw [caught, Option.isSome_some])]
  refine head_log_bind _ (head_log_bind _ ?_)
  obtain ⟨field, rest, fields⟩ := List.exists_cons_of_ne_nil someField
  rw [log_touch, saveTouches, fields, List.length_cons, List.range_succ_eq_map,
    List.flatMap_cons]
  rfl

variable [Zero D] [Add D] [Sub D] [Mul D] [Div D] [NatCast D] [IntCast D]
  [Pow D ℕ] [LT D] [DecidableLT D] [LE D] [DecidableLE D] [Libm D]

theorem pollData_quiet (restore : Restore D) {rank : LoopState D} {pass : Pass D}
    (quiet : match pass.data with
      | some (m, _) => admittedField rank.server m = none
      | none => rank.endSignal = none ∨ rank.server.fields = []) :
    (pollData restore rank pass).log = [] ∧
      ∀ next, (pollData restore rank pass).result = some next → next = rank := by
  unfold pollData
  split at quiet
  · rename_i m reply found
    rw [found]
    dsimp only
    rw [quiet]
    exact ⟨rfl, fun next returned => (Option.some.inj returned).symm⟩
  · rename_i found
    rw [found]
    exact ⟨endOfPass_quiet quiet, fun next returned => endOfPass_same returned⟩

theorem pollData_loud (restore : Restore D) {rank : LoopState D} {pass : Pass D}
    (loud : ¬ match pass.data with
      | some (m, _) => admittedField rank.server m = none
      | none => rank.endSignal = none ∨ rank.server.fields = []) :
    ∃ entry, (pollData restore rank pass).log.head? = some entry ∧ ¬ entry.IsAllocation := by
  unfold pollData
  split at loud
  · rename_i m reply found
    obtain ⟨fieldId, known⟩ := Option.ne_none_iff_exists'.mp loud
    rw [found]
    dsimp only
    rw [known]
    exact ⟨_, head_log_bind _ (head_log_bind _ rfl), id⟩
  · rename_i found
    rw [not_or] at loud
    obtain ⟨signal, caught⟩ := Option.ne_none_iff_exists'.mp loud.1
    rw [found]
    exact ⟨_, endOfPass_loud caught loud.2, id⟩

theorem waits_servePass (restore : Restore D) :
    Waits (servePass restore) Touch.IsAllocation Connects QuietPass Waiting := by
  constructor
  · intro rank pass waiting connects
    obtain ⟨clientCommSize, asks⟩ := Option.isSome_iff_exists.mp connects
    apply servePass_opening restore waiting.unsaved
    intro informed read
    have untouched := (read_untouched read).1
    rw [asks]
    dsimp only [answerConnection]
    rw [if_pos (untouched.commData ▸ waiting.root),
      if_pos (untouched.firstInit.trans waiting.firstInit)]
  · intro rank pass waiting connects quiet
    have alone : pass.connection = none := Option.not_isSome_iff_eq_none.mp connects
    cases read : readText (checkTimes rank pass) pass with
    | none =>
        rw [servePass_unread restore waiting.unsaved read]
        exact ⟨rfl, fun next returned => (nomatch returned)⟩
    | some informed =>
        rw [servePass_waiting restore waiting.unsaved waiting.firstInit alone read]
        obtain ⟨silent, same⟩ := pollData_quiet restore ((quietPass_iff read).mp quiet)
        refine ⟨silent, fun next returned => ?_⟩
        have untouched := (read_untouched read).1
        rw [same next returned]
        exact ⟨untouched.commData ▸ waiting.root, untouched.firstInit.trans waiting.firstInit,
          untouched.lastCheckpointTime.trans waiting.unsaved⟩
  · intro rank pass waiting connects loud
    have alone : pass.connection = none := Option.not_isSome_iff_eq_none.mp connects
    cases read : readText (checkTimes rank pass) pass with
    | none =>
        refine absurd (fun handled => ?_) loud
        rw [read] at handled
        exact absurd handled Bool.false_ne_true
    | some informed =>
        rw [servePass_waiting restore waiting.unsaved waiting.firstInit alone read]
        exact pollData_loud restore fun quiet => loud ((quietPass_iff read).mpr quiet)

/-- Until the first pass with a connection request, every pass that the run gets to is quiet. -/
def QuietStart (restore : Restore D) (start : LoopState D) (passes : List (Pass D)) : Prop :=
  QuietUntil (servePass restore) Connects QuietPass start passes

/-- On rank 0 nothing is touched too early exactly when the passes before the first connection
request are quiet. -/
theorem noEarlyTouch_iff (restore : Restore D) (options : Options D) (commSize : Nat)
    (names : List String) (simulations : List (Simulation D)) (nbFinishedSimulations : Nat)
    (now : ℚ) (passes : List (Pass D)) :
    NoEarlyTouch (serve restore
        (serverInit options 0 commSize names simulations nbFinishedSimulations now) passes).log ↔
      QuietStart restore
        (serverInit options 0 commSize names simulations nbFinishedSimulations now) passes :=
  preceded_run_iff (waits_servePass restore) ⟨rfl, rfl, rfl⟩ passes

/-- A simulation of the previous server that still sends after the restart. -/
def lateStep : SimuData ℚ :=
  { timeStamp := 0, simuId := 1, clientRank := 0, vectSize := 1, fieldName := "heat", data := [3] }

def sending : Pass ℚ :=
  { clock := fun _ => 1, text := none, connection := none, broadcast := 0
    data := some (lateStep, { simuId := 1, jobId := "job", parameters := [2] }), signal := none }

def connecting : Pass ℚ :=
  { clock := fun _ => 1, text := none, connection := some 2, broadcast := 0, data := none
    signal := none }

def restartedRoot : LoopState ℚ :=
  serverInit twoByTwo.restarted 0 1 ["heat"] (List.replicate 2 addSimulation) 0 0

example : (serve noRestore restartedRoot [connecting, sending]).log =
    [.allocate 2, .firstSend 0 0, .statsData 0] := by
  decide +kernel

theorem not_noEarlyTouch_sendingFirst :
    ¬ NoEarlyTouch (serve noRestore restartedRoot [sending, connecting]).log := by
  intro preceded
  have head : (serve noRestore restartedRoot [sending, connecting]).log.head? =
      some (.firstSend 0 0) := by
    decide +kernel
  exact preceded_iff_head.mp preceded _ head

/-- The other ranks wait in `MPI_Bcast` before they poll the data port for the first time. -/
theorem noEarlyTouch_others (restore : Restore D) (options : Options D) {rank : Nat}
    (other : rank ≠ 0) (commSize : Nat) (names : List String)
    (simulations : List (Simulation D)) (nbFinishedSimulations : Nat) (now : ℚ)
    (passes : List (Pass D)) :
    NoEarlyTouch (serve restore
      (serverInit options rank commSize names simulations nbFinishedSimulations now)
      passes).log := by
  have waits : Waits (servePass restore) Touch.IsAllocation (fun _ => True) QuietPass
      (fun state => state.server.commData.rank ≠ 0 ∧ state.firstInit = 1 ∧
        state.server.lastCheckpointTime = 0) := by
    refine ⟨?_, fun _ _ _ closed => absurd trivial closed,
      fun _ _ _ closed => absurd trivial closed⟩
    rintro state pass ⟨notRoot, ready, unsaved⟩ _
    apply servePass_opening restore unsaved
    intro informed read
    have untouched := (read_untouched read).1
    unfold answerConnection
    split
    · exact untouched.firstInit.trans ready
    · rw [if_neg (untouched.commData ▸ notRoot)]
      exact untouched.firstInit.trans ready
  have start : (serverInit options rank commSize names simulations nbFinishedSimulations
      now).firstInit = 1 := if_neg other
  refine (preceded_run_iff waits ⟨other, start, rfl⟩ passes).mpr ?_
  intro before pass after mid split reached closed notOpening
  exact absurd trivial notOpening

theorem dataMessage_eq (restore : Restore D) (server : Server D) (now : ℚ) (m : SimuData D)
    (reply : LauncherMessage D) :
    dataMessage restore server now m reply =
      match admittedField server m with
      | none => some server
      | some fieldId => acceptMessage restore server now m reply fieldId := by
  unfold dataMessage admittedField
  split <;> rfl

/-- After the first connection the data port does a step of the server. -/
theorem pollData_step (restore : Restore D) {rank next : LoopState D} {pass : Pass D}
    {m : SimuData D} {reply : Job D} (allocated : rank.allocated = true)
    (found : pass.data = some (m, reply))
    (returned : (pollData restore rank pass).result = some next) :
    step restore rank.server (.data (pass.clock 4) m reply) = some next.server := by
  change dataMessage restore rank.server (pass.clock 4) m (.job reply) = some next.server
  rw [dataMessage_eq]
  unfold pollData at returned
  rw [found] at returned
  dsimp only at returned
  cases known : admittedField rank.server m with
  | none =>
      rw [known] at returned
      cases returned
      rfl
  | some fieldId =>
      rw [known] at returned
      dsimp only at returned
      rw [result_bind] at returned
      obtain ⟨stored, branch, returned⟩ := Option.bind_eq_some_iff.mp returned
      unfold dataBranch at branch
      rw [result_bind, result_touch, Option.bind_some, result_ofOption, if_pos allocated] at branch
      obtain ⟨server, accepted, rfl⟩ := Option.map_eq_some_iff.mp branch
      rw [endOfPass_same returned]
      exact accepted

end EarlyTouches

end Melissa
