import Melissa.Base.Arrays
import Melissa.Server.Silence

/-! A server rank of a learning study: the calls of `melissa_server_run`, and the main loop of
`melissa_server.py`, which takes a sample out of the buffer that the two share. -/

namespace Melissa

open Arrays Traced

/-- `simulation_data_t`, the buffer that travels between the calls. Memory that has been allocated
but not written holds `none`. -/
structure SimulationData (D : Type) where
  simuId : Nat
  parameters : List (Option D)
  nbParam : Nat
  timeStamp : Int
  status : Nat
  val : List (Option D)
  valSize : Nat
  maxValSize : Nat
  deriving DecidableEq, Repr

/-- A call of `melissa_server_run` between two passes. -/
structure Call (D : Type) where
  rank : LoopState D
  data : SimulationData D
  newData : Bool
  deriving DecidableEq, Repr

/-- How a pass ends: the call goes on, or returns. -/
inductive Ending where
  | continues
  | checkpoint
  | signal
  | stop
  | sample
  deriving DecidableEq, Repr

section Buffer

variable {D : Type}

/-- `melissa_realloc`. -/
def realloc {α : Type} (size : Nat) (cells : List (Option α)) : List (Option α) :=
  (cells ++ List.replicate (size - cells.length) none).take size

/-- What the block `first_init == 1` does to the buffer. -/
def openBuffer (nbParameters : Nat) (data : SimulationData D) : SimulationData D :=
  { data with
    status := 0, valSize := 0, maxValSize := 0, nbParam := nbParameters
    parameters := List.replicate nbParameters none }

/-- The head of a data message. -/
def readHead (data : SimulationData D) (m : SimuData D) : SimulationData D :=
  let grows := decide (m.vectSize > data.maxValSize) && decide (m.vectSize > 0)
  { data with
    timeStamp := m.timeStamp, simuId := m.simuId, valSize := m.vectSize
    val := if grows then realloc m.vectSize data.val else data.val
    maxValSize := if grows then m.vectSize else data.maxValSize }

/-- The values of a data message, and the parameters of its simulation when they are known. -/
def readBody (nbParameters : Nat) (data : SimulationData D) (m : SimuData D)
    (parameters : Option (List D)) : SimulationData D :=
  if m.vectSize > 0 then
    { data with
      val := overwrite m.vectSize (fun i => m.data[i]?) data.val
      parameters := match parameters with
        | some parameters => overwrite nbParameters (fun i => parameters[i]?) data.parameters
        | none => data.parameters }
  else data

/-- The message makes the server read the saved statistics. -/
def restores (server : Server D) (m : SimuData D) (fieldId : Nat) : Bool :=
  (entryOf server.fields fieldId m.clientRank).any fun data =>
    !data.statsInit && decide (m.vectSize > 0) && decide (server.options.restart > 0)

variable [Zero D] [NatCast D]

/-- The bit of the message is set: its time step has been computed before. -/
def alreadyComputed (restore : Restore D) (server : Server D) (m : SimuData D) (fieldId : Nat) :
    Bool :=
  ((entryOf server.fields fieldId m.clientRank).bind fun data =>
      lazyInit (restore m.fieldName m.clientRank) server.options data m.vectSize).any fun data =>
    ((growStepSimu server.options data m.simuId).stepSimu[m.simuId]?).any fun bits =>
      testBit bits m.timeStamp.toNat

end Buffer

section Run

variable {D : Type}

/-- The blocks between the checkpoint and the data port, and whether the buffer is opened. -/
def reachPort (saved : LoopState D) (pass : Pass D) : Option (LoopState D × Bool) := do
  let informed ← readText saved pass
  let answered := answerConnection informed pass.connection
  let ready ← (firstInitBlock answered pass.broadcast).result
  some (ready, answered.firstInit == 1)

/-- The parameters of a simulation. -/
def knownParameters (server : Server D) (simuId : Nat) : Option (List D) :=
  server.simulations[simuId]?.bind Simulation.parameters

/-- The tests at the end of a pass. -/
def endTests (call : Call D) : Option (Ending × Call D) :=
  if call.rank.endSignal.isSome then
    (saveFields call.rank).result.map fun _ =>
      (.signal, { call with data := { call.data with status := 2 } })
  else if stopTest call.rank.server then
    some (.stop, { call with data := { call.data with status := 1 } })
  else if call.newData ∧ call.rank.server.options.learning > 0 ∧ call.data.valSize > 0 then
    some (.sample, call)
  else some (.continues, call)

variable [Zero D] [Add D] [Sub D] [Mul D] [Div D] [NatCast D] [IntCast D]
  [Pow D ℕ] [LT D] [DecidableLT D] [LE D] [DecidableLE D] [Libm D]

/-- The data port and what follows it. A message with a bad time stamp or of an unknown field
ends the pass with `continue`, after its head has been read into the buffer. -/
def receiveSample (restore : Restore D) (call : Call D) (pass : Pass D) :
    Option (Ending × Call D) :=
  match pass.data with
  | none => endTests call
  | some (m, reply) =>
      let data := readHead call.data m
      match admittedField call.rank.server m with
      | none => some (.continues, { call with data := data, newData := true })
      | some fieldId => do
          let stored ← (dataBranch restore call.rank pass m reply fieldId).result
          let data :=
            if restores call.rank.server m fieldId then { data with status := 3 } else data
          endTests
            { rank := stored
              data := readBody call.rank.server.options.nbParameters data m
                (knownParameters stored.server m.simuId)
              newData := !alreadyComputed restore call.rank.server m fieldId }

/-- One pass of the main loop of `melissa_server_run`. -/
def runPass (restore : Restore D) (call : Call D) (pass : Pass D) : Option (Ending × Call D) := do
  let timed := checkTimes call.rank pass
  let saved ← (periodicCheckpoint timed (pass.clock 2)).result
  let due := checkpointDue timed.server (pass.clock 2)
  let data := if due then { call.data with status := 2 } else call.data
  if due = true ∧ timed.server.options.learning > 0 then
    some (.checkpoint, { call with rank := saved, data := data })
  else do
    let (ready, opened) ← reachPort saved pass
    receiveSample restore
      { call with
        rank := ready
        data := if opened then openBuffer ready.server.options.nbParameters data else data } pass

end Run

section Main

/-- `param_array` and `val_array`; the time stamp is the last element of `param_array`. -/
structure Sample (D : Type) where
  parameters : List (Option D)
  timeStamp : Int
  values : List (Option D)
  deriving DecidableEq, Repr

inductive LearningSet where
  | training
  | testing
  deriving DecidableEq, Repr

/-- Where `main` is: in the call before its loop, in the call of the branch for `server_status`
0, 2 or 3, or no longer in any call. -/
inductive Branch where
  | first
  | learning
  | saving
  | reading
  | spinning
  | ended
  deriving DecidableEq, Repr

/-- `main` with the server it calls. `j` counts the samples up to the next one for testing. -/
structure Learner (D : Type) where
  call : Call D
  branch : Branch
  modelIsInit : Bool
  j : Nat
  added : List (LearningSet × Sample D)
  deriving DecidableEq, Repr

variable {D : Type}

/-- The sample that the buffer holds. -/
def buffered (data : SimulationData D) : Sample D :=
  { parameters := data.parameters.take data.nbParam, timeStamp := data.timeStamp
    values := data.val.take data.valSize }

def addTo (set : LearningSet) (learner : Learner D) : Learner D :=
  { learner with added := learner.added ++ [(set, buffered learner.call.data)] }

/-- Every eighth result goes to the testing set. -/
def addResult (learner : Learner D) : Learner D :=
  if learner.j + 1 = 8 then addTo .testing { learner with j := 0 }
  else addTo .training { learner with j := learner.j + 1 }

/-- `model_init`, and the sample in the buffer as the first one to train with. -/
def initModel (learner : Learner D) : Learner D :=
  addTo .training { learner with modelIsInit := true }

/-- The next call of `melissa_server_run`, up to its first pass. -/
def nextCall (branch : Branch) (learner : Learner D) : Learner D :=
  { learner with
    branch := branch
    call := { learner.call with
      newData := false, data := { learner.call.data with status := 0 } } }

/-- After a call of the branch for status 0 the buffer is read whatever the new status is. -/
def readResult (learner : Learner D) : Learner D :=
  if learner.branch = .learning ∧ learner.call.data.valSize ≠ 0 then addResult learner else learner

/-- What `main` does from the return of a call to the next one. Status 2 without a model makes its
loop spin. -/
def afterCall (learner : Learner D) : Learner D :=
  let learner := readResult learner
  match learner.call.data.status with
  | 0 => nextCall .learning (if learner.modelIsInit then learner else initModel learner)
  | 1 => { learner with branch := .ended }
  | 2 =>
      if learner.modelIsInit then nextCall .saving learner
      else { learner with branch := .spinning }
  | 3 => nextCall .reading (initModel learner)
  | _ => { learner with branch := .spinning }

/-- Before the first call the buffer is zeroed. -/
def startLearning (rank : LoopState D) : Learner D :=
  { call :=
      { rank := rank, newData := false
        data :=
          { simuId := 0, parameters := [], nbParam := 0, timeStamp := 0, status := 0, val := []
            valSize := 0, maxValSize := 0 } }
    branch := .first, modelIsInit := false, j := 0, added := [] }

variable [Zero D] [Add D] [Sub D] [Mul D] [Div D] [NatCast D] [IntCast D]
  [Pow D ℕ] [LT D] [DecidableLT D] [LE D] [DecidableLE D] [Libm D]

/-- A pass of the call that `main` is in, and after a return the way to the next call. -/
def learnStep (restore : Restore D) (learner : Learner D) (pass : Pass D) :
    Option (Learner D) :=
  if learner.branch = .spinning ∨ learner.branch = .ended then none
  else (runPass restore learner.call pass).map fun (ending, call) =>
    if ending = .continues then { learner with call := call }
    else afterCall { learner with call := call }

end Main

end Melissa
