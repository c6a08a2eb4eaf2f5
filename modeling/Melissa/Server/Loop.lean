import Melissa.Base.Runs
import Melissa.Server.State

/-! The main loop of `melissa_server_run`: the branch for data messages, and runs of the loop. -/

namespace Melissa

/-- What `read_message_simu_data` finds in a message. `data` are the values of all vectors, one
vector after the other. -/
structure SimuData (D : Type) where
  timeStamp : Int
  simuId : Nat
  clientRank : Nat
  vectSize : Nat
  fieldName : String
  data : List D
  deriving DecidableEq, Repr

/-- `read_saved_stats` of a server rank with fixed files: the structure it reads into comes
last. -/
abbrev Restore (D : Type) := String → Nat → MelissaData D → Option (MelissaData D)

section Entries

variable {D : Type}

def getFieldId (fields : List (MelissaField D)) (fieldName : String) : Option Nat :=
  fields.findIdx? fun field => field.name == fieldName

/-- `fields[field_id].stats_data[client_rank]`. -/
def entryOf (fields : List (MelissaField D)) (fieldId clientRank : Nat) : Option (MelissaData D) :=
  fields[fieldId]?.bind fun field => field.statsData[clientRank]?

def setEntry (fields : List (MelissaField D)) (fieldId clientRank : Nat) (data : MelissaData D) :
    List (MelissaField D) :=
  fields.modify fieldId fun field =>
    { field with statsData := field.statsData.set clientRank data }

/-- The vectors of a message: `buff_tab_ptr`. -/
def inVectTab (options : Options D) (m : SimuData D) : List (List D) :=
  (List.range options.nbVect).map fun i => m.data.drop (i * m.vectSize)

def growStepSimu (options : Options D) (data : MelissaData D) (simuId : Nat) : MelissaData D :=
  { data with stepSimu := growVector data.stepSimu simuId (noSteps options) }

/-- The `set_bit` for a message. -/
def markStep (data : MelissaData D) (m : SimuData D) : MelissaData D :=
  { data with stepSimu := data.stepSimu.modify m.simuId fun bits => setBit bits m.timeStamp.toNat }

end Entries

section Entry

variable {D : Type} [Zero D] [NatCast D]

def needsInit (data : MelissaData D) (vectSize : Nat) : Bool :=
  (!data.statsInit && decide (vectSize > 0)) || !data.stepsInit

/-- Initialisation of a structure by its first message, and of its statistics by the first
message that is not empty. After a restart the saved statistics are read at that moment. -/
def lazyInit (restore : MelissaData D → Option (MelissaData D)) (options : Options D)
    (data : MelissaData D) (vectSize : Nat) : Option (MelissaData D) :=
  if data.statsInit = false ∧ vectSize > 0 then do
    let data ← melissaCheckData options data
    let data := melissaInitData options data vectSize
    if options.restart > 0 then restore data else some data
  else if data.stepsInit = false then
    (melissaCheckData options data).map fun data => melissaInitData options data vectSize
  else some data

variable [Add D] [Sub D] [Mul D] [Div D] [IntCast D]
  [Pow D ℕ] [LT D] [DecidableLT D] [LE D] [DecidableLE D] [Libm D]

/-- The statistics part of a message; an empty message has none. -/
def computeMessage (options : Options D) (data : MelissaData D) (m : SimuData D) :
    Option (MelissaData D) :=
  if m.vectSize > 0 then
    computeStats options data m.timeStamp.toNat m.simuId (inVectTab options m)
  else some data

/-- The update of an initialised structure by one message. A time step whose bit is set is
ignored; a simulation past the end of `step_simu` is read out of bounds. -/
def accumulate (options : Options D) (data : MelissaData D) (m : SimuData D) :
    Option (MelissaData D) :=
  let data := growStepSimu options data m.simuId
  match data.stepSimu[m.simuId]? with
  | none => none
  | some bits =>
      if testBit bits m.timeStamp.toNat then some data
      else (computeMessage options data m).map fun data => markStep data m

end Entry

section Server

variable {D : Type}

def countFirstSend (server : Server D) (fieldId clientRank : Nat) : Server D :=
  let slot := fieldId * server.commData.clientCommSize + clientRank
  if server.firstSend.getD slot true then server
  else { server with
    firstSend := server.firstSend.set slot true, localNbMessages := server.localNbMessages + 1 }

def growSimulations (server : Server D) (simuId : Nat) : Server D :=
  if simuId > server.simulations.length then
    let simulations := growVector server.simulations simuId addSimulation
    { server with
      simulations := simulations
      options := { server.options with
        samplingSize := max server.options.samplingSize (simulations.length : Int) } }
  else server

/-- The progress check at the end of the data branch. -/
def updateProgress (server : Server D) (simuId : Nat) : Option (Server D) := do
  let simu ← server.simulations[simuId]?
  let status ← checkSimuState server.fields server.options.nbTimeSteps simuId
  some { server with
    simulations := server.simulations.set simuId { simu with status := status, jobStatus := 1 }
    nbFinishedSimulations := if status = 2 ∧ simu.status ≠ 2
      then server.nbFinishedSimulations + 1 else server.nbFinishedSimulations
    outbox := if simu.status ≠ status ∧ server.commData.rank = 0
      then server.outbox ++ [.simuStatus simuId status] else server.outbox }

/-- `wait_launcher_msg`: the parameters are asked for by the first message that is not empty. -/
def waitsForJob (simu : Simulation D) (vectSize : Nat) : Bool :=
  simu.parameters.isNone && decide (vectSize > 0)

/-- The state when the structure of the message has been updated. -/
def storeEntry (server : Server D) (now : ℚ) (m : SimuData D) (fieldId : Nat)
    (simu : Simulation D) (initialised : Bool) (updated : MelissaData D) : Server D :=
  { server with
    fields := setEntry server.fields fieldId m.clientRank updated
    lastCheckpointTime := if initialised then now else server.lastCheckpointTime
    simulations := server.simulations.set m.simuId { simu with lastMessage := now }
    outbox := if waitsForJob simu m.vectSize
      then server.outbox ++ [.simuInfo m.simuId] else server.outbox }

def awaitReply (server : Server D) (waitLauncherMsg : Bool) (reply : LauncherMessage D) :
    Option (Server D) :=
  if waitLauncherMsg then processLauncherMessage server reply else some server

variable [Zero D] [Add D] [Sub D] [Mul D] [Div D] [NatCast D] [IntCast D]
  [Pow D ℕ] [LT D] [DecidableLT D] [LE D] [DecidableLE D] [Libm D]

/-- The data branch for a message with a valid time stamp and a known field. `reply` is the
answer of the launcher to `simu_info`. -/
def acceptMessage (restore : Restore D) (server : Server D) (now : ℚ) (m : SimuData D)
    (reply : LauncherMessage D) (fieldId : Nat) : Option (Server D) := do
  let server := growSimulations (countFirstSend server fieldId m.clientRank) m.simuId
  let data ← entryOf server.fields fieldId m.clientRank
  let loaded ← lazyInit (restore m.fieldName m.clientRank) server.options data m.vectSize
  let simu ← server.simulations[m.simuId]?
  let updated ← accumulate server.options loaded m
  let stored := storeEntry server now m fieldId simu (needsInit data m.vectSize) updated
  let answered ← awaitReply stored (waitsForJob simu m.vectSize) reply
  updateProgress answered m.simuId

/-- The data branch. A bad time stamp or an unknown field is skipped by `continue`. -/
def dataMessage (restore : Restore D) (server : Server D) (now : ℚ) (m : SimuData D)
    (reply : LauncherMessage D) : Option (Server D) :=
  if m.timeStamp < 0 ∨ m.timeStamp ≥ server.options.nbTimeSteps then some server
  else
    match getFieldId server.fields m.fieldName with
    | none => some server
    | some fieldId => acceptMessage restore server now m reply fieldId

/-- What one pass of the loop may find to do, but for the checkpoint and for the launcher timeout,
which `roundStep` adds. The launcher answers `simu_info` by the JOB message of the simulation. -/
inductive Event (D : Type) where
  | data (now : ℚ) (m : SimuData D) (reply : Job D)
  | launcher (msg : LauncherMessage D)
  | timeouts (now : ℚ)
  deriving DecidableEq, Repr

def step (restore : Restore D) (server : Server D) : Event D → Option (Server D)
  | .data now m reply => dataMessage restore server now m (.job reply)
  | .launcher msg => textMessage server msg
  | .timeouts now => some (timeoutRound server now)

/-- Without `-r` nothing is restored. -/
def noRestore : Restore D := fun _ _ data => some data

end Server

end Melissa
