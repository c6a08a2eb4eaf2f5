import Melissa.Base.Runs
import Melissa.Melissa4py.Message
import Mathlib.Data.List.AList

/-! `server.py` and `fault_tolerance.py` of melissa4py: one rank of the Python server, which
handles the messages of the launcher and of the simulations one after the other. -/

namespace Melissa

namespace Melissa4py

open Runs

inductive SimulationStatus where
  | connected
  | running
  | finished
  deriving DecidableEq, Repr

/-- `Simulation`. `timesteps` is a dictionary of arrays, 1 where a message has come in. -/
structure Simulation where
  simulationId : Int
  lastMessage : ℚ
  jobId : List Char
  parameters : Option (List (BitVec 64))
  ntimesteps : Nat
  timesteps : List (List Char × List Bool)
  maxDelay : ℚ
  deriving DecidableEq

namespace Simulation

/-- `Simulation.__init__` with its defaults; a dictionary has one entry for each field. -/
def create (simulationId : Int) (fields : List (List Char)) (ntimesteps : Nat) (now : ℚ) :
    Simulation :=
  { simulationId := simulationId, lastMessage := now, jobId := ['0'], parameters := none
    ntimesteps := ntimesteps
    timesteps := fields.dedup.map fun field => (field, List.replicate ntimesteps false)
    maxDelay := 60 * 10 }

/-- `timesteps[field][timestep]`; none if there is no such entry. -/
def received (simulation : Simulation) (field : List Char) (timestep : Nat) : Option Bool :=
  (simulation.timesteps.lookup field).bind fun flags => flags[timestep]?

def markMessageReceived (simulation : Simulation) (field : List Char) (timestep : Nat) (now : ℚ) :
    Simulation :=
  { simulation with
    timesteps := simulation.timesteps.map fun entry =>
      if entry.1 = field then (entry.1, entry.2.set timestep true) else entry
    lastMessage := now }

def finished (simulation : Simulation) : Bool :=
  (simulation.timesteps.map fun entry => entry.2.count true).sum ==
    simulation.timesteps.length * simulation.ntimesteps

def crashed (simulation : Simulation) (now : ℚ) : Bool :=
  !simulation.finished && decide (now - simulation.lastMessage > simulation.maxDelay)

end Simulation

/-- The part of `MelissaServer` that the handlers use. `statuses` are the messages sent to the
launcher so far. -/
structure MelissaServer where
  fields : List (List Char)
  nbTimeSteps : Nat
  sampleSize : Int
  simulations : AList fun _ : Int => Simulation
  statuses : List (Int × SimulationStatus)
  deriving DecidableEq

/-- A data object that `handle_simulation_data` returns, with the parameters it got. -/
structure Delivered where
  message : SimulationData
  parameters : Option (List (BitVec 64))
  deriving DecidableEq

/-- What the launcher has on a simulation when it is asked for it. -/
structure Metadata where
  jobId : List Char
  parameters : List (BitVec 64)
  deriving DecidableEq

/-- The filters of `handle_simulation_data`. -/
def Admitted (fields : List (List Char)) (nbTimeSteps : Nat) (message : SimulationData) : Prop :=
  (0 ≤ message.timestep ∧ message.timestep < nbTimeSteps) ∧ message.fieldName ∈ fields

instance (fields : List (List Char)) (nbTimeSteps : Nat) (message : SimulationData) :
    Decidable (Admitted fields nbTimeSteps message) :=
  inferInstanceAs (Decidable ((_ ∧ _) ∧ _))

namespace MelissaServer

def start (fields : List (List Char)) (nbTimeSteps : Nat) (sampleSize : Int) : MelissaServer :=
  { fields := fields, nbTimeSteps := nbTimeSteps, sampleSize := sampleSize, simulations := ∅
    statuses := [] }

/-- The record of a simulation, or a new one. -/
def recordOf (server : MelissaServer) (simulationId : Int) (now : ℚ) : Simulation :=
  (server.simulations.lookup simulationId).getD
    (Simulation.create simulationId server.fields server.nbTimeSteps now)

/-- `handle_launcher_message` on a JOB. -/
def handleJob (server : MelissaServer) (jobDetails : JobDetails) (now : ℚ) : MelissaServer :=
  let simulation := server.recordOf jobDetails.simulationId now
  { server with
    simulations := server.simulations.insert jobDetails.simulationId
      { simulation with
        jobId := jobDetails.jobId, parameters := some jobDetails.parameters } }

/-- `handle_launcher_message` on a DROP. -/
def handleDrop (server : MelissaServer) (simulationId : Int) : MelissaServer :=
  { server with
    simulations := server.simulations.erase simulationId
    sampleSize := server.sampleSize - 1 }

/-- `_request_simulation_metadata` with the response of the launcher; none if the response is
for a simulation without a record. -/
def requestSimulationMetadata (server : MelissaServer) (response : JobDetails) :
    Option MelissaServer :=
  (server.simulations.lookup response.simulationId).map fun simulation =>
    { server with
      simulations := server.simulations.insert response.simulationId
        { simulation with jobId := response.jobId, parameters := some response.parameters } }

/-- The record for a data message; a new one is announced to the launcher. -/
def addSimulation (server : MelissaServer) (simulationId : Int) (now : ℚ) : MelissaServer :=
  if (server.simulations.lookup simulationId).isSome then server
  else
    { server with
      simulations := server.simulations.insert simulationId
        (Simulation.create simulationId server.fields server.nbTimeSteps now)
      statuses := server.statuses ++ [(simulationId, .running)] }

/-- The parameters of a simulation are asked for if they are missing. -/
def completeRecord (server : MelissaServer) (simulation : Simulation) (simulationId : Int)
    (metadata : Metadata) : Option MelissaServer :=
  if simulation.parameters.isNone then
    server.requestSimulationMetadata
      { simulationId := simulationId, jobId := metadata.jobId, parameters := metadata.parameters }
  else some server

/-- `handle_simulation_data`; `metadata` is what the launcher answers if it is asked. -/
def handleSimulationData (server : MelissaServer) (message : SimulationData) (metadata : Metadata)
    (now : ℚ) : Option (MelissaServer × Option Delivered) :=
  if Admitted server.fields server.nbTimeSteps message then do
    let id := message.simulationId
    let server := server.addSimulation id now
    let simulation ← server.simulations.lookup id
    let received ← simulation.received message.fieldName message.timestep.toNat
    if received then some (server, none)
    else do
      let simulation :=
        simulation.markMessageReceived message.fieldName message.timestep.toNat now
      let server := { server with simulations := server.simulations.insert id simulation }
      let server ← server.completeRecord simulation id metadata
      let simulation ← server.simulations.lookup id
      let server :=
        if simulation.finished then
          { server with statuses := server.statuses ++ [(id, .finished)] }
        else server
      some (server, if message.dataSize > 0 then
        some { message := message, parameters := simulation.parameters } else none)
  else some (server, none)

/-- `all_done`. -/
def allDone (server : MelissaServer) (now : ℚ) : Bool :=
  if server.simulations.entries.length < server.sampleSize then false
  else server.simulations.entries.all fun entry => entry.2.finished || entry.2.crashed now

end MelissaServer

/-- What a rank receives, with the time at which it handles it. -/
inductive Event where
  | job (jobDetails : JobDetails) (now : ℚ)
  | drop (simulationId : Int)
  | data (message : SimulationData) (metadata : Metadata) (now : ℚ)
  deriving DecidableEq

/-- A server and the data objects its handler has returned. -/
structure Session where
  server : MelissaServer
  returned : List Delivered
  deriving DecidableEq

def step (session : Session) : Event → Option Session
  | .job jobDetails now => some { session with server := session.server.handleJob jobDetails now }
  | .drop simulationId => some { session with server := session.server.handleDrop simulationId }
  | .data message metadata now =>
      (session.server.handleSimulationData message metadata now).map fun result =>
        { server := result.1, returned := session.returned ++ result.2.toList }

def startSession (fields : List (List Char)) (nbTimeSteps : Nat) (sampleSize : Int) : Session :=
  { server := MelissaServer.start fields nbTimeSteps sampleSize, returned := [] }

section Bytes

namespace MelissaServer

/-- `handle_simulation_data` on the bytes of a message. -/
def receiveData (server : MelissaServer) (msg : Bytes) (metadata : Metadata) (now : ℚ) :
    Option (MelissaServer × Option Delivered) :=
  (SimulationData.fromMsg msg).bind fun message =>
    server.handleSimulationData message metadata now

/-- `handle_launcher_message` on the bytes of a message. -/
def receiveLauncher (server : MelissaServer) (nbParameters : Nat) (msg : Bytes) (now : ℚ) :
    Option MelissaServer := do
  let msgType ← readInt (slice msg 0 4) 0
  if msgType = MessageType.job then do
    let jobDetails ← JobDetails.fromMsg msg nbParameters
    some (server.handleJob jobDetails now)
  else if msgType = MessageType.drop then do
    let details ← dropDetails msg
    some (server.handleDrop details.1)
  else some server

variable (server : MelissaServer)

/-- The bytes of a data message of one vector lead to the data event of its contents. -/
theorem receiveData_messageSimuData {timeStamp simuId clientRank vectSize : BitVec 32}
    {fieldName : FieldName} {vect : List (BitVec 64)}
    (described : Described vectSize 1 [vect]) {name : List Char}
    (text : Utf8.decode (fieldName.bytes.takeWhile (· != 0)) = some name) {msg : Bytes}
    (built : messageSimuData timeStamp simuId clientRank vectSize 1 fieldName [vect] = some msg)
    (metadata : Metadata) (now : ℚ) :
    server.receiveData msg metadata now =
      server.handleSimulationData
        { timestep := timeStamp.toInt, simulationId := simuId.toInt
          clientRank := clientRank.toInt, dataSize := vectSize.toInt, fieldName := name
          data := vect } metadata now := by
  have sized := described.sized vect (List.mem_singleton_self vect)
  have parsed := @SimulationData.fromMsg_at timeStamp simuId clientRank vectSize fieldName vect
    described.natural sized name text
  rw [messageSimuData_eq described, List.map_singleton, List.flatten_singleton] at built
  rw [receiveData, ← Option.some.inj built, parsed, Option.bind_some]

/-- So do the bytes of a JOB, but for the NUL at the end of the job id. -/
theorem receiveLauncher_messageJob (simuId : BitVec 32) {jobId : CString} {text : List Char}
    (decoded : Utf8.decode jobId.bytes = some text) {paramSet : List (BitVec 64)}
    (filled : 1 ≤ paramSet.length) (now : ℚ) :
    server.receiveLauncher paramSet.length (messageJob simuId jobId paramSet) now =
      some (server.handleJob
        { simulationId := simuId.toInt, jobId := text ++ [Char.ofNat 0]
          parameters := paramSet } now) := by
  have messageType := @readInt_slice [] MessageType.job
    (intBytes simuId ++ (stringBytes jobId ++ paramSet.flatMap doubleBytes)) 0 rfl
  rw [List.nil_append, ← messageJob_eq] at messageType
  simp only [Nat.cast_zero, Nat.zero_add, Nat.cast_ofNat] at messageType
  rw [receiveLauncher, messageType]
  simp only [Option.bind_eq_bind, Option.bind_some, if_true,
    JobDetails.fromMsg_messageJob simuId decoded filled]

theorem receiveLauncher_messageDrop (simuId : BitVec 32) {jobId : CString} {text : List Char}
    (decoded : Utf8.decode jobId.bytes = some text) (nbParameters : Nat) (now : ℚ) :
    server.receiveLauncher nbParameters (messageDrop simuId jobId) now =
      some (server.handleDrop simuId.toInt) := by
  have messageType := @readInt_slice [] MessageType.drop
    (intBytes simuId ++ stringBytes jobId) 0 rfl
  rw [List.nil_append, ← messageDrop_eq] at messageType
  simp only [Nat.cast_zero, Nat.zero_add, Nat.cast_ofNat] at messageType
  rw [receiveLauncher, messageType]
  simp only [Option.bind_eq_bind, Option.bind_some, if_neg (show MessageType.drop ≠ MessageType.job
    by decide), if_true, dropDetails_messageDrop simuId decoded]

end MelissaServer

end Bytes

end Melissa4py

end Melissa
