import Melissa.Data

/-! The state of one server rank (`melissa_server_t`) and the handlers of `server_helper.c`
and `fault_tolerance.c` that change it. -/

namespace Melissa

/-- `melissa_simulation_t`. `parameters` is `none` while the pointer is `NULL`. -/
structure Simulation (D : Type) where
  status : Nat
  timeout : Bool
  lastMessage : ℚ
  jobId : String
  jobStatus : Int
  parameters : Option (List D)
  deriving DecidableEq, Repr

def addSimulation {D : Type} : Simulation D :=
  { status := 0, timeout := false, lastMessage := 0, jobId := "0", jobStatus := -1
    parameters := none }

/-- `comm_data_t`. -/
structure CommData where
  rank : Nat
  commSize : Nat
  clientCommSize : Nat
  deriving DecidableEq, Repr

/-- `melissa_field_t`: the structures of a field, one per client rank. -/
structure MelissaField (D : Type) where
  name : String
  statsData : List (MelissaData D)
  deriving DecidableEq, Repr

/-- The messages a server rank sends to the launcher. -/
inductive Notice where
  | simuInfo (simuId : Nat)
  | simuStatus (simuId status : Nat)
  | timeout (simuId : Int)
  | alive
  deriving DecidableEq, Repr

/-- A JOB message. -/
structure Job (D : Type) where
  simuId : Nat
  jobId : String
  parameters : List D
  deriving DecidableEq, Repr

/-- The messages of the launcher that `process_launcher_message` tells apart. -/
inductive LauncherMessage (D : Type) where
  | job (job : Job D)
  | drop (simuId : Nat) (jobId : String)
  | hello
  | alive
  | options
  | unknown (messageType : Nat)
  deriving DecidableEq, Repr

/-- The part of `melissa_server_t` that the main loop works on. `firstSend` holds the rows of
the fields one after the other. -/
structure Server (D : Type) where
  options : Options D
  commData : CommData
  fields : List (MelissaField D)
  firstSend : List Bool
  localNbMessages : Nat
  simulations : List (Simulation D)
  nbFinishedSimulations : Nat
  lastCheckpointTime : ℚ
  lastTimeoutCheck : ℚ
  outbox : List Notice
  deriving DecidableEq, Repr

section Init

variable {D : Type}

/-- `add_fields` on one field. -/
def emptyField (clientCommSize : Nat) (name : String) : MelissaField D :=
  { name := name, statsData := List.replicate clientCommSize emptyData }

/-- A server rank after `melissa_server_init` and the first connection of a client, for given
simulations: new ones at a first start, the saved ones after a restart. -/
def startServer (options : Options D) (commData : CommData) (names : List String)
    (simulations : List (Simulation D)) (nbFinishedSimulations : Nat) : Server D :=
  { options := options, commData := commData
    fields := names.map (emptyField commData.clientCommSize)
    firstSend := List.replicate (names.length * commData.clientCommSize) false
    localNbMessages := 0, simulations := simulations
    nbFinishedSimulations := nbFinishedSimulations
    lastCheckpointTime := 0, lastTimeoutCheck := 0, outbox := [] }

/-- A study of two simulations with two time steps, to evaluate the definitions on. -/
def twoByTwo : Options ℚ :=
  { nbTimeSteps := 2, nbParameters := 1, samplingSize := 2, meanOp := true, varianceOp := true
    skewnessOp := false, kurtosisOp := false, minAndMaxOp := false, thresholdOp := false
    quantileOp := false, sobolOp := false, threshold := [], quantileOrder := [], learning := 0
    restart := 0, checkInterval := 5, timeoutSimu := 5 }

example : melissaCheckOptions twoByTwo = some twoByTwo := by decide +kernel

/-- A first start, without `-r`. -/
def freshServer (options : Options D) (commData : CommData) (names : List String) : Server D :=
  startServer options.firstStart commData names
    (List.replicate options.samplingSize.toNat addSimulation) 0

end Init

section Progress

variable {D : Type}

/-- All bits of the first `nbTimeSteps` time steps are set. -/
def allSteps (nbTimeSteps : Nat) (bits : List Word) : Bool :=
  (List.range nbTimeSteps).all (testBit bits)

/-- The loops of `check_simu_state` over the structures of all fields. Reading past the end of
`step_simu` is undefined. -/
def checkEntries (nbTimeSteps groupId : Nat) : List (MelissaData D) → Option Nat
  | [] => some 2
  | data :: rest =>
      if data.stepsInit then
        match data.stepSimu[groupId]? with
        | none => none
        | some bits =>
            if allSteps nbTimeSteps bits then checkEntries nbTimeSteps groupId rest else some 1
      else checkEntries nbTimeSteps groupId rest

def checkSimuState (fields : List (MelissaField D)) (nbTimeSteps groupId : Nat) : Option Nat :=
  checkEntries nbTimeSteps groupId (fields.flatMap MelissaField.statsData)

end Progress

section Launcher

variable {D : Type}

/-- The loop `for (i = size; i < simu_id; i++) vector_add(...)`: it stops one element short of
`simu_id`. -/
def growVector {α : Type} (vector : List α) (simuId : Nat) (item : α) : List α :=
  vector ++ List.replicate (simuId - vector.length) item

/-- The simulation after its JOB message; `none` when the message holds fewer than
`nb_parameters` values. -/
def assignJob (nbParameters : Nat) (job : Job D) (simu : Simulation D) :
    Option (Simulation D) :=
  if job.parameters.length < nbParameters then none
  else some { simu with
    jobId := job.jobId, jobStatus := 0
    parameters := some (job.parameters.take nbParameters) }

/-- `process_launcher_message`. A simulation that `vector_get` does not find is a `NULL` pointer,
which the branch for a JOB dereferences. The one for a DROP ends in `read_message_drop`: it is given
the address of the array `job_id` where it expects the address of a pointer, and its `strcpy` writes
to where the first bytes of an array nobody has initialised point. -/
def processLauncherMessage (server : Server D) : LauncherMessage D → Option (Server D)
  | .job job => do
      let simulations := growVector server.simulations job.simuId addSimulation
      let simu ← simulations[job.simuId]?
      let simu ← assignJob server.options.nbParameters job simu
      some { server with simulations := simulations.set job.simuId simu }
  | .drop _ _ => none
  | .hello => some server
  | .alive => some server
  | .options => some server
  | .unknown _ => some server

/-- The branch of the main loop for a message on the text port. -/
def textMessage (server : Server D) (msg : LauncherMessage D) : Option (Server D) :=
  (processLauncherMessage server msg).map fun server =>
    { server with
      options := { server.options with samplingSize := (server.simulations.length : Int) } }

end Launcher

section Timeouts

variable {D : Type}

/-- The test of `check_timeouts` on one simulation. -/
def timedOut (now timeoutSimu : ℚ) (simu : Simulation D) : Bool :=
  simu.status == 1 && decide (simu.jobStatus > 0) &&
    decide (simu.lastMessage + timeoutSimu < now)

/-- `check_timeouts`: the number of timeouts and the simulations after it. -/
def checkTimeouts (now timeoutSimu : ℚ) (simulations : List (Simulation D)) :
    Nat × List (Simulation D) :=
  (simulations.countP (timedOut now timeoutSimu),
    simulations.map fun simu =>
      if timedOut now timeoutSimu simu then
        { simu with timeout := true, lastMessage := 0, status := 0 }
      else simu)

/-- `send_timeouts`: the messages sent and the simulations after it. -/
def sendTimeouts (detectedTimeouts : Nat) (simulations : List (Simulation D)) :
    List Notice × List (Simulation D) :=
  if detectedTimeouts < 1 then ([.timeout (-1)], simulations)
  else
    (simulations.zipIdx.filterMap fun (simu, i) =>
        if simu.timeout then some (.timeout (i : Int)) else none,
      simulations.map fun simu =>
        if simu.timeout then { simu with timeout := false } else simu)

/-- The timeout check at the top of the main loop. -/
def timeoutRound (server : Server D) (now : ℚ) : Server D :=
  if server.commData.rank = 0 ∧ server.lastTimeoutCheck + 20 < now then
    let (detected, simulations) :=
      checkTimeouts now server.options.timeoutSimu server.simulations
    if detected > 0 then
      let (notices, simulations) := sendTimeouts detected simulations
      { server with
        simulations := simulations, lastTimeoutCheck := now, outbox := server.outbox ++ notices }
    else
      { server with
        simulations := simulations, lastTimeoutCheck := now, outbox := server.outbox ++ [.alive] }
  else server

/-- `count_job_status(&simulations, -1)`. -/
def unsubmitted (server : Server D) : Nat :=
  server.simulations.countP fun simu => simu.jobStatus == -1

/-- What the main loop does at each pass while the launcher is silent: the simulations that have no
job leave the sample. -/
def removeUnsubmitted (server : Server D) : Server D :=
  { server with options := { server.options with
      samplingSize := server.options.samplingSize - (unsubmitted server : Int) } }

/-- The test of the periodic checkpoint. -/
def checkpointDue (server : Server D) (now : ℚ) : Bool :=
  decide (server.lastCheckpointTime + server.options.checkInterval < now) &&
    decide (server.lastCheckpointTime > 1 / 10)

end Timeouts

/-- The test that makes `melissa_server_run` return with status 1. -/
def stopTest {D : Type} (server : Server D) : Bool :=
  decide ((server.nbFinishedSimulations : Int) ≥ server.options.samplingSize) &&
    decide (server.nbFinishedSimulations > 0)

end Melissa
