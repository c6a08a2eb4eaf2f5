import Melissa.Api.Plan
import Melissa.Server.Loop
import Melissa.Sobol.PortRange

/-! The processes of a Sobol group coupled with ZeroMQ on `localhost`: the ports they meet on,
the buffer of the master simulation and the messages `melissa_send` builds from it when it
redistributes the data (`learning < 2`). -/

namespace Melissa

open Arrays Blocks Text

section Identity

/-- A process of a simulation. -/
structure ClientProcess where
  simuId : Nat
  rank : Nat
  deriving DecidableEq, Repr

def sobolRank (nbParameters simuId : Nat) : Nat := simuId % (nbParameters + 2)

def sampleId (nbParameters simuId : Nat) : Nat := simuId / (nbParameters + 2)

/-- The port a process connects to; the processes of the master simulation bind theirs. -/
def connectedPort (nbParameters commSize : Nat) (process : ClientProcess) :
    Option (List Char) :=
  let sobolRank := sobolRank nbParameters process.simuId
  if sobolRank = 0 then none
  else memberPort nbParameters commSize (sampleId nbParameters process.simuId) process.rank
    sobolRank

/-- The library binds a port only up to 65535. -/
def validPort (port : List Char) : Bool := (parseNat port).any fun number => number ≤ 65535

/-- The ports of the groups that run at a time are ports, and no two sockets share one. -/
def PortsValid (nbParameters commSize : Nat) (running : List Nat) : Prop :=
  ∀ simuId ∈ running, ∀ simuId' ∈ running, NeverClash nbParameters commSize
    (sampleId nbParameters simuId) (sampleId nbParameters simuId')

end Identity

/-- A field of a Sobol study. `value` is what a simulation computes on a client rank, `fresh`
the content of an allocated `buffer_data`, and `running` are the simulations on the host. -/
structure SobolStudy (D : Type) where
  options : Options D
  sobolOp : options.sobolOp = true
  learning : Bool
  nbProcServer : Nat
  localVectSizes : List Nat
  value : Nat → Nat → Nat → D
  fresh : ClientProcess → Nat → D
  running : List Nat

namespace SobolStudy

variable {D : Type} (study : SobolStudy D)

def nbParameters : Nat := study.options.nbParameters

def commSize : Nat := study.localVectSizes.length

/-- The local vectors of a simulation. -/
def clients (simuId : Nat) : List (List D) :=
  (List.range study.commSize).map fun rank =>
    (List.range (study.localVectSizes.getD rank 0)).map (study.value simuId rank)

def processes : List ClientProcess :=
  study.running.flatMap fun simuId =>
    (List.range study.commSize).map fun rank => ⟨simuId, rank⟩

/-- The plan of `melissa_init_internal`, where `global_vect_size` is an `int`. -/
def plan (rank : Nat) : FieldPlan :=
  let serverSizes := serverVectSize study.localVectSizes.sum study.nbProcServer
  if study.learning then comm1ToMInit serverSizes rank
  else commNToMInit study.localVectSizes serverSizes rank

/-- `local_vect_size` after the gather of a learning study. -/
def vectSize (rank : Nat) : Nat :=
  if study.learning then if rank = 0 then study.localVectSizes.sum else 0
  else study.localVectSizes.getD rank 0

/-- `buffer_data` after the gather of a learning study. -/
def gathered (slots : Nat) (process : ClientProcess) : List D :=
  let bufferData := (List.range (slots * study.vectSize process.rank)).map (study.fresh process)
  if study.learning = true ∧ process.rank = 0 then
    let (rcvcnt, displs) := gathervInit study.localVectSizes
    mpiGatherv rcvcnt displs (study.clients process.simuId) bufferData study.commSize
  else bufferData

/-- What `zmq_send` sends to the master. -/
def sentToMaster (process : ClientProcess) : Option (List D) :=
  let sendVect := if study.learning then study.gathered 1 process
    else (study.clients process.simuId).getD process.rank []
  readVector sendVect 0 (study.vectSize process.rank)

/-- The process that is connected to requester `i` of a master process; none where the port has no
number or cannot be bound. -/
def sender (master : ClientProcess) (i : Nat) : Option ClientProcess := do
  let port ← masterPort study.nbParameters study.commSize
    (sampleId study.nbParameters master.simuId) master.rank i
  if validPort port then
    study.processes.find? fun process =>
      connectedPort study.nbParameters study.commSize process == some port
  else none

/-- `buffer_data` of a master process after the first `n` turns of the loop over the
requesters; none if the `int` product of its size overflows. -/
def receiveGroup (master : ClientProcess) : Nat → Option (List D)
  | 0 => (mulInt (study.nbParameters + 2 : ℕ) (study.vectSize master.rank)).map fun _ =>
      study.gathered (study.nbParameters + 2) master
  | i + 1 => do
      let bufferData ← receiveGroup master i
      let process ← study.sender master i
      let sent ← study.sentToMaster process
      let size := study.vectSize master.rank
      some (copyAt bufferData ((i + 1) * size) (sent.take size))

/-- `message_simu_data` on the arrays behind `data_ptr` and the positions in them. -/
def messageSimuData (dataPtr : List (List D × Nat)) (vectSize : Nat) : Option (List D) :=
  (dataPtr.mapM fun pointer => readVector pointer.1 pointer.2 vectSize).map List.flatten

/-- `data_ptr` for a message of a master process. -/
def dataPtr (master : ClientProcess) (bufferData : List D) (start : Nat) : List (List D × Nat) :=
  let sendVect := if study.learning then bufferData
    else (study.clients master.simuId).getD master.rank []
  (sendVect, start) :: (List.range (study.nbParameters + 1)).map fun i =>
    (bufferData, (i + 1) * study.vectSize master.rank + start)

/-- The messages of one `melissa_send` of a master process, each with the server rank it
arrives at. -/
def sobolMessages (timeStamp : Int) (fieldName : String) (master : ClientProcess) :
    Option (List (Nat × SimuData D)) := do
  let _ ← globalVectSize study.localVectSizes
  let bufferData ← study.receiveGroup master (study.nbParameters + 1)
  let plan := study.plan master.rank
  (melissaSend plan master.rank).mapM fun push => do
    let data ← messageSimuData (study.dataPtr master bufferData push.start) push.count
    some ((dataPushers plan master.rank).getD push.pusher 0,
      { timeStamp := timeStamp, simuId := sampleId study.nbParameters master.simuId
        clientRank := master.rank, vectSize := push.count, fieldName := fieldName, data := data })

end SobolStudy

end Melissa
