import Melissa.Api.GatherBuffer
import Melissa.Output.RoundTrip
import Melissa.Sobol.PortRange

/-! `melissa_send` with `learning >= 2`: all data of a sample, or of a Sobol group, is gathered on
rank 0 of the master and sent to one server rank, which changes with every time step. -/

namespace Melissa

open Arrays Blocks

/-- A simulation, or the simulations of a group: the local vectors of a field on their client
ranks, by `sobol_rank`, and what `malloc` has left in `buffer_data`. -/
structure LearningSample (D : Type) where
  sobol : Bool
  coupling : Coupling
  coupled : sobol = true → coupling ≠ .other
  nbParameters : Nat
  nbProcServer : Nat
  servers : 0 < nbProcServer
  localVectSizes : List Nat
  simulations : Nat → List (List D)
  sized : ∀ sobolRank, (simulations sobolRank).map List.length = localVectSizes
  fresh : Nat → D

namespace LearningSample

variable {D : Type} (sample : LearningSample D)

section Gather

def globalVectSize : Nat := sample.localVectSizes.sum

/-- The vector of a simulation. -/
def vector (sobolRank : Nat) : List D := (sample.simulations sobolRank).flatten

/-- The vectors that `buffer_data` of rank 0 has room for. -/
def slots (sobolRank : Nat) : Nat :=
  if sample.sobol = true ∧ sobolRank = 0 then sample.nbParameters + 2 else 1

/-- `buffer_data` on rank 0 of a simulation behind `MPI_Gatherv`. -/
def gathered (sobolRank : Nat) : List D :=
  let (rcvcnt, displs) := gathervInit sample.localVectSizes
  mpiGatherv rcvcnt displs (sample.simulations sobolRank)
    ((List.range (sample.slots sobolRank * sample.globalVectSize)).map sample.fresh)
    sample.localVectSizes.length

/-- What rank 0 of a simulation sends to the master. -/
def sent (sobolRank : Nat) : List D := (sample.gathered sobolRank).take sample.globalVectSize

/-- `buffer_data` on rank 0 of the master behind the gather of the group: requester `i` is the
one of simulation `i + 1`, and FlowVR delivers what the other simulations sent in one message.
On the master `MPI_Gather` sends from `buffer_data`, into which it also receives; MPI promises
nothing then, and the block is taken to stay where it is. -/
def bufferData : List D :=
  let size := sample.globalVectSize
  if sample.sobol then
    match sample.coupling with
    | .zmq => (List.range (sample.nbParameters + 1)).foldl
        (fun buffer i => copyAt buffer ((i + 1) * size) (sample.sent (i + 1)))
        (sample.gathered 0)
    | .mpi => (List.range (sample.nbParameters + 2)).foldl
        (fun buffer r => copyAt buffer (r * size) (sample.sent r)) (sample.gathered 0)
    | .flowvr => copyAt (sample.gathered 0) size
        ((List.range (sample.nbParameters + 1)).flatMap fun i => sample.sent (i + 1))
    | .other => sample.gathered 0
  else sample.gathered 0

end Gather

section Send

def serverSizes : List Nat := serverVectSize sample.globalVectSize sample.nbProcServer

def plan : FieldPlan := comm1ToMInit sample.serverSizes 0

/-- `j`, the server rank that gets the data of a time step. -/
def target (sampleId timestamp : Nat) : Option Nat :=
  (addInt timestamp (sampleId % sample.nbProcServer : Nat)).map fun sum =>
    sum.toNat % sample.nbProcServer

/-- `send_message_simu_data` with `data_ptr` as positions in `buffer_data`. -/
def simuData (fieldName : String) (sampleId timestamp vectSize : Nat) (dataPtr : List Nat) :
    Option (SimuData D) := do
  let _ ← mulInt dataPtr.length vectSize
  let vectors ← dataPtr.mapM fun start => readVector sample.bufferData start vectSize
  some { timeStamp := timestamp, simuId := sampleId, clientRank := 0, vectSize := vectSize
         fieldName := fieldName, data := vectors.flatten }

/-- Turn `i` of the loop over the server ranks: the pusher and the message. -/
def sendTurn (fieldName : String) (sampleId timestamp j i : Nat) :
    Option (Nat × SimuData D) :=
  if i ≠ j then
    (sample.simuData fieldName sampleId timestamp 0 [0]).map fun message => (i, message)
  else if sample.sobol then do
    let others ← (List.range (sample.nbParameters + 1)).mapM fun k =>
      (mulInt (k + 1 : Nat) sample.globalVectSize).map Int.toNat
    let vectSize := sample.plan.sendCounts.getD (sample.plan.pullRank.getD i 0) 0
    let message ← sample.simuData fieldName sampleId timestamp vectSize (0 :: others)
    some (j, message)
  else do
    let message ← sample.simuData fieldName sampleId timestamp sample.globalVectSize [0]
    some (i, message)

/-- The messages of one `melissa_send`, each with the server rank its pusher is connected to. -/
def sendRoundRobin (fieldName : String) (sampleId timestamp : Nat) :
    Option (List (Nat × SimuData D)) := do
  let j ← sample.target sampleId timestamp
  (List.range sample.nbProcServer).mapM fun i => do
    let (pusher, message) ← sample.sendTurn fieldName sampleId timestamp j i
    let server ← (dataPushers sample.plan 0)[pusher]?
    some (server, message)

end Send

section Property

/-- The number of vectors of a sample. -/
def nbVect : Nat := if sample.sobol then sample.nbParameters + 2 else 1

/-- The vectors of the sample in the order of their roles. -/
def whole : List D := (List.range sample.nbVect).flatMap sample.vector

/-- Every server rank gets one message: the chosen one all values, the others none. -/
def Delivers (fieldName : String) (sampleId timestamp : Nat) : Prop :=
  ∃ messages server, sample.sendRoundRobin fieldName sampleId timestamp = some messages ∧
    sample.target sampleId timestamp = some server ∧
    messages.map Prod.fst = List.range sample.nbProcServer ∧
    ∀ message ∈ messages, if message.1 = server then
      0 < message.2.vectSize ∧ message.2.vectSize = sample.globalVectSize ∧
        message.2.data = sample.whole
      else message.2.vectSize = 0

/-- Each server rank has its turn in as many time steps as there are server ranks. -/
def ChosenOnce (sampleId timestamp : Nat) : Prop :=
  ∀ server < sample.nbProcServer, ∃! k, k < sample.nbProcServer ∧
    sample.target sampleId (timestamp + k) = some server

structure RoundRobin (fieldName : String) (sampleId timestamp : Nat) : Prop where
  delivers : sample.Delivers fieldName sampleId timestamp
  once : sample.ChosenOnce sampleId timestamp

end Property

section Buffer

theorem vector_length (sobolRank : Nat) :
    (sample.vector sobolRank).length = sample.globalVectSize := by
  rw [vector, List.length_flatten, sample.sized, globalVectSize]

theorem filled_gathered (sobolRank : Nat) :
    Filled (sample.slots sobolRank * sample.globalVectSize) (sample.vector sobolRank)
      (sample.gathered sobolRank) := by
  have sizes := sample.sized sobolRank
  have ranks : sample.localVectSizes.length = (sample.simulations sobolRank).length := by
    rw [← sizes, List.length_map]
  have some_slot : 1 ≤ sample.slots sobolRank := by
    unfold slots
    split <;> omega
  have room : (sample.simulations sobolRank).flatten.length ≤
      sample.slots sobolRank * sample.globalVectSize := by
    rw [← vector, vector_length]
    exact Nat.le_mul_of_pos_left _ some_slot
  have allocated : ((List.range (sample.slots sobolRank * sample.globalVectSize)).map
      sample.fresh).length = sample.slots sobolRank * sample.globalVectSize := by simp
  have filled := filled_mpiGatherv allocated room (Nat.le_refl _)
  rw [List.take_length, sizes] at filled
  rw [gathered, gathervInit, ranks]
  exact filled

theorem sent_eq (sobolRank : Nat) : sample.sent sobolRank = sample.vector sobolRank := by
  have starts := (sample.filled_gathered sobolRank).starts
  rw [vector_length] at starts
  exact starts

/-- A loop that copies the next vector behind the others. -/
theorem filled_foldl_copyAt {total size start : Nat} {parts : Nat → List D} {buffer : List D}
    (sized : ∀ r, (parts r).length = size)
    (filled : Filled total ((List.range start).flatMap parts) buffer) (n : Nat)
    (room : (n + start) * size ≤ total) :
    Filled total ((List.range (n + start)).flatMap parts)
      ((List.range n).foldl (fun buffer i => copyAt buffer ((i + start) * size) (parts (i + start)))
        buffer) := by
  induction n with
  | zero =>
      rw [Nat.zero_add]
      exact filled
  | succ n ih =>
      rw [Nat.add_right_comm, Nat.succ_mul] at room
      have before := ih (by omega)
      have front : ((List.range (n + start)).flatMap parts).length = (n + start) * size := by
        rw [flatMap_length_eq fun r _ => sized r, List.length_range]
      have fits : ((List.range (n + start)).flatMap parts).length + (parts (n + start)).length ≤
          total := by rw [front, sized]; exact room
      have next := filled_copyAt before fits
      rw [front] at next
      rw [Nat.add_right_comm, List.range_succ, List.flatMap_append, List.flatMap_singleton,
        List.range_succ, List.foldl_append, List.foldl_cons, List.foldl_nil]
      exact next

theorem whole_length : sample.whole.length = sample.nbVect * sample.globalVectSize := by
  rw [whole, flatMap_length_eq fun r _ => sample.vector_length r, List.length_range]

/-- However the group is coupled, the buffer holds the vectors of all roles. -/
theorem bufferData_eq : sample.bufferData = sample.whole := by
  have master := sample.filled_gathered 0
  have length := sample.whole_length
  have one : (List.range 1).flatMap sample.vector = sample.vector 0 := List.flatMap_singleton _ _
  by_cases sobol : sample.sobol = true
  · have roles : sample.nbVect = sample.nbParameters + 2 := if_pos sobol
    have places : sample.slots 0 = sample.nbParameters + 2 := if_pos ⟨sobol, rfl⟩
    rw [places] at master
    rw [whole, roles] at length
    rw [bufferData, if_pos sobol, whole, roles]
    simp only [sent_eq]
    cases coupling : sample.coupling with
    | zmq =>
        rw [← one] at master
        have filled := filled_foldl_copyAt sample.vector_length master (sample.nbParameters + 1)
          (Nat.le_refl _)
        exact filled.eq_of_full length
    | mpi =>
        have empty : Filled ((sample.nbParameters + 2) * sample.globalVectSize)
            ((List.range 0).flatMap sample.vector) (sample.gathered 0) :=
          filled_nil master.length
        have filled := filled_foldl_copyAt sample.vector_length empty (sample.nbParameters + 2)
          (Nat.le_refl _)
        exact filled.eq_of_full length
    | flowvr =>
        have parts : (List.range (sample.nbParameters + 2)).flatMap sample.vector =
            sample.vector 0 ++
              (List.range (sample.nbParameters + 1)).flatMap fun i => sample.vector (i + 1) := by
          rw [List.range_succ_eq_map, List.flatMap_cons, List.flatMap_map]
        rw [parts] at length ⊢
        rw [List.length_append] at length
        have filled := filled_copyAt master (Nat.le_of_eq length)
        rw [sample.vector_length] at filled
        exact filled.eq_of_full (List.length_append.trans length)
    | other => exact absurd coupling (sample.coupled sobol)
  · have role : sample.nbVect = 1 := if_neg sobol
    have place : sample.slots 0 = 1 := if_neg fun both => sobol both.1
    rw [place] at master
    rw [bufferData, if_neg sobol, whole, role, one]
    exact master.eq_of_full ((sample.vector_length 0).trans (Nat.one_mul _).symm)

end Buffer

section Target

variable {sample} {sampleId timestamp server : Nat}

theorem target_eq_some_iff : sample.target sampleId timestamp = some server ↔
    timestamp + sampleId % sample.nbProcServer < 2 ^ 31 ∧
      (timestamp + sampleId % sample.nbProcServer) % sample.nbProcServer = server := by
  rw [target, Option.map_eq_some_iff]
  constructor
  · rintro ⟨sum, added, rfl⟩
    obtain ⟨bounds, rfl⟩ := addInt_eq_some.mp added
    rw [← Int.natCast_add] at bounds ⊢
    exact ⟨by omega, rfl⟩
  · rintro ⟨small, rfl⟩
    exact ⟨_, addInt_natCast small, rfl⟩

/-- Among as many consecutive numbers as there are remainders each remainder comes once. -/
theorem existsUnique_mod {count : Nat} (positive : 0 < count) (start : Nat) {slot : Nat}
    (inside : slot < count) : ∃! k, k < count ∧ (start + k) % count = slot := by
  have rest := Nat.mod_lt start positive
  have sum : start + (slot + (count - start % count)) = slot + count * (start / count + 1) := by
    have parts := Nat.div_add_mod start count
    rw [Nat.mul_add]
    omega
  refine ⟨(slot + (count - start % count)) % count, ⟨Nat.mod_lt _ positive, ?_⟩, ?_⟩
  · rw [Nat.add_mod_mod, sum, Nat.add_mul_mod_self_left, Nat.mod_eq_of_lt inside]
  · rintro k ⟨below, reached⟩
    have same : start + k ≡ start + (slot + (count - start % count)) [MOD count] := by
      rw [sum, Nat.ModEq, reached, Nat.add_mul_mod_self_left, Nat.mod_eq_of_lt inside]
    have shift : k % count = _ := Nat.ModEq.add_left_cancel' start same
    rwa [Nat.mod_eq_of_lt below] at shift

/-- Every server rank has its turn exactly when no sum in the window overflows. -/
theorem chosenOnce_iff : sample.ChosenOnce sampleId timestamp ↔
    timestamp + (sample.nbProcServer - 1) + sampleId % sample.nbProcServer < 2 ^ 31 := by
  have positive := sample.servers
  constructor
  · intro once
    obtain ⟨k, ⟨below, chosen⟩, _⟩ := once
      ((timestamp + (sample.nbProcServer - 1) + sampleId % sample.nbProcServer) %
        sample.nbProcServer) (Nat.mod_lt _ positive)
    obtain ⟨small, reached⟩ := target_eq_some_iff.mp chosen
    have last : k = sample.nbProcServer - 1 := by
      have shifted : timestamp + sampleId % sample.nbProcServer + k ≡
          timestamp + sampleId % sample.nbProcServer + (sample.nbProcServer - 1)
            [MOD sample.nbProcServer] := by
        rwa [Nat.add_right_comm, Nat.add_right_comm _ _ (sample.nbProcServer - 1)]
      have same : k % sample.nbProcServer = _ := Nat.ModEq.add_left_cancel' _ shifted
      rwa [Nat.mod_eq_of_lt below, Nat.mod_eq_of_lt (Nat.sub_lt positive Nat.one_pos)] at same
    rwa [last] at small
  · intro small server inside
    obtain ⟨k, ⟨below, reached⟩, only⟩ := existsUnique_mod positive
      (timestamp + sampleId % sample.nbProcServer) inside
    refine ⟨k, ⟨below, target_eq_some_iff.mpr ⟨by omega, ?_⟩⟩, ?_⟩
    · rw [Nat.add_right_comm, reached]
    · rintro k' ⟨below', chosen⟩
      have reached' := (target_eq_some_iff.mp chosen).2
      rw [Nat.add_right_comm] at reached'
      exact only k' ⟨below', reached'⟩

end Target

section Messages

variable {fieldName : String} {sampleId timestamp : Nat}

/-- What is announced to the server rank that is chosen. -/
def announced (server : Nat) : Nat :=
  if sample.sobol then sample.serverSizes.getD server 0 else sample.globalVectSize

theorem readVector_role {k : Nat} (known : k < sample.nbVect) :
    readVector sample.bufferData (k * sample.globalVectSize) sample.globalVectSize =
      some (sample.vector k) := by
  have uniform : ∀ slot ∈ (List.range sample.nbVect).map sample.vector,
      slot.length = sample.globalVectSize := by
    intro slot member
    obtain ⟨r, _, rfl⟩ := List.mem_map.mp member
    exact sample.vector_length r
  have listed : k < ((List.range sample.nbVect).map sample.vector).length := by
    rw [List.length_map, List.length_range]
    exact known
  have here := drop_take_slot uniform listed (Nat.le_of_eq (Nat.zero_add _))
  have own : ((List.range sample.nbVect).map sample.vector).getD k [] = sample.vector k := by
    rw [List.getD_eq_getElem _ _ listed, List.getElem_map, List.getElem_range]
  rw [own, List.drop_zero, Nat.add_zero, ← List.flatMap_def, ← whole, ← bufferData_eq] at here
  have inside : k * sample.globalVectSize + sample.globalVectSize ≤ sample.bufferData.length := by
    rw [bufferData_eq, whole_length, ← Nat.succ_mul]
    exact Nat.mul_le_mul_right _ known
  rw [readVector_eq (Or.inr inside), here, ← sample.vector_length k, List.take_length]

/-- All vectors together make the message of the whole sample. -/
theorem simuData_whole (fieldName : String) (sampleId timestamp : Nat)
    (small : sample.nbVect * sample.globalVectSize < 2 ^ 31) :
    sample.simuData fieldName sampleId timestamp sample.globalVectSize
        ((List.range sample.nbVect).map (· * sample.globalVectSize)) =
      some { timeStamp := timestamp, simuId := sampleId, clientRank := 0
             vectSize := sample.globalVectSize, fieldName := fieldName, data := sample.whole } := by
  have roles : ((List.range sample.nbVect).map (· * sample.globalVectSize)).mapM
      (fun start => readVector sample.bufferData start sample.globalVectSize) =
        some ((List.range sample.nbVect).map sample.vector) := by
    rw [List.mapM_map]
    exact mapM_eq_some fun k member => sample.readVector_role (List.mem_range.mp member)
  have product : mulInt (((List.range sample.nbVect).map (· * sample.globalVectSize)).length : ℕ)
      sample.globalVectSize = some _ :=
    mulInt_natCast (by rw [List.length_map, List.length_range]; exact small)
  rw [simuData, product, roles, whole, List.flatMap_def]
  rfl

/-- A message says how many values its vectors have, and it exists only if their number is an
`int`. -/
theorem simuData_some {vectSize : Nat} {dataPtr : List Nat} {message : SimuData D}
    (made : sample.simuData fieldName sampleId timestamp vectSize dataPtr = some message) :
    message.vectSize = vectSize ∧ dataPtr.length * vectSize < 2 ^ 31 := by
  rw [simuData, Option.bind_eq_bind, Option.bind_eq_some_iff] at made
  obtain ⟨product, small, made⟩ := made
  rw [Option.bind_eq_bind, Option.bind_eq_some_iff] at made
  obtain ⟨vectors, _, made⟩ := made
  cases made
  exact ⟨rfl, lt_of_mulInt small⟩

theorem sendTurn_other {j i : Nat} (other : i ≠ j) :
    sample.sendTurn fieldName sampleId timestamp j i =
      some (i, { timeStamp := timestamp, simuId := sampleId, clientRank := 0, vectSize := 0
                 fieldName := fieldName, data := [] }) := by
  rw [sendTurn, if_pos other]
  rfl

variable {server : Nat}

theorem serverSizes_length : sample.serverSizes.length = sample.nbProcServer :=
  evenSizes_length _ _

theorem planned_count (inside : server < sample.nbProcServer) :
    sample.plan.sendCounts.getD (sample.plan.pullRank.getD server 0) 0 =
      sample.serverSizes.getD server 0 := by
  have own : (List.range sample.serverSizes.length).getD server 0 = server := by
    have listed : server < (List.range sample.serverSizes.length).length := by
      rw [List.length_range, serverSizes_length]
      exact inside
    rw [List.getD_eq_getElem _ _ listed, List.getElem_range]
  change sample.serverSizes.getD ((List.range sample.serverSizes.length).getD server 0) 0 = _
  rw [own]

theorem dataPushers_plan : dataPushers sample.plan 0 = List.range sample.nbProcServer := by
  rw [dataPushers, plan, dataPushers_oneToM, if_pos rfl, serverSizes_length]

/-- What the message of the chosen server rank announces. -/
theorem sendTurn_target {pusher : Nat} {message : SimuData D}
    (inside : server < sample.nbProcServer)
    (made : sample.sendTurn fieldName sampleId timestamp server server = some (pusher, message)) :
    message.vectSize = sample.announced server ∧
      sample.nbVect * sample.announced server < 2 ^ 31 := by
  rw [sendTurn, if_neg (not_not.mpr rfl)] at made
  by_cases sobol : sample.sobol = true
  · have roles : sample.nbVect = sample.nbParameters + 2 := if_pos sobol
    have size : sample.announced server = sample.serverSizes.getD server 0 := if_pos sobol
    rw [if_pos sobol, Option.bind_eq_bind, Option.bind_eq_some_iff] at made
    obtain ⟨others, found, made⟩ := made
    rw [Option.bind_eq_bind, Option.bind_eq_some_iff] at made
    obtain ⟨message', made, here⟩ := made
    cases here
    obtain ⟨announced, small⟩ := simuData_some sample made
    have count := mapM_length found
    rw [List.length_range] at count
    rw [sample.planned_count inside] at announced small
    rw [List.length_cons, count] at small
    rw [roles, size]
    exact ⟨announced, small⟩
  · have role : sample.nbVect = 1 := if_neg sobol
    have size : sample.announced server = sample.globalVectSize := if_neg sobol
    rw [if_neg sobol, Option.bind_eq_bind, Option.bind_eq_some_iff] at made
    obtain ⟨message', made, here⟩ := made
    cases here
    rw [role, size]
    exact simuData_some sample made

theorem sendTurn_whole (inside : server < sample.nbProcServer)
    (right : sample.announced server = sample.globalVectSize)
    (small : sample.nbVect * sample.globalVectSize < 2 ^ 31) :
    sample.sendTurn fieldName sampleId timestamp server server =
      some (server, { timeStamp := timestamp, simuId := sampleId, clientRank := 0
                      vectSize := sample.globalVectSize, fieldName := fieldName
                      data := sample.whole }) := by
  have message := simuData_whole sample fieldName sampleId timestamp small
  rw [sendTurn, if_neg (not_not.mpr rfl)]
  by_cases sobol : sample.sobol = true
  · have roles : sample.nbVect = sample.nbParameters + 2 := if_pos sobol
    have size : sample.announced server = sample.serverSizes.getD server 0 := if_pos sobol
    rw [roles] at message small
    have others : (List.range (sample.nbParameters + 1)).mapM (fun k =>
        (mulInt (k + 1 : Nat) sample.globalVectSize).map Int.toNat) =
          some ((List.range (sample.nbParameters + 1)).map fun k =>
            (k + 1) * sample.globalVectSize) := by
      refine mapM_eq_some fun k member => ?_
      have below : (k + 1) * sample.globalVectSize ≤
          (sample.nbParameters + 2) * sample.globalVectSize :=
        Nat.mul_le_mul_right _ (by have := List.mem_range.mp member; omega)
      rw [mulInt_natCast (Nat.lt_of_le_of_lt below small)]
      rfl
    have places : (List.range (sample.nbParameters + 2)).map (· * sample.globalVectSize) =
        0 :: (List.range (sample.nbParameters + 1)).map fun k =>
          (k + 1) * sample.globalVectSize := by
      rw [List.range_succ_eq_map, List.map_cons, List.map_map, Nat.zero_mul]
      rfl
    rw [places] at message
    rw [if_pos sobol, sample.planned_count inside, ← size, right]
    exact Option.bind_eq_some_iff.mpr ⟨_, others, Option.bind_eq_some_iff.mpr ⟨_, message, rfl⟩⟩
  · have role : sample.nbVect = 1 := if_neg sobol
    have place : (List.range 1).map (· * sample.globalVectSize) = [0] := by
      rw [List.range_one, List.map_singleton, Nat.zero_mul]
    rw [role, place] at message
    rw [if_neg sobol]
    exact Option.bind_eq_some_iff.mpr ⟨_, message, rfl⟩

end Messages

section Iff

variable {sample} {fieldName : String} {sampleId timestamp server : Nat}

theorem target_lt (chosen : sample.target sampleId timestamp = some server) :
    server < sample.nbProcServer := by
  obtain ⟨_, rfl⟩ := target_eq_some_iff.mp chosen
  exact Nat.mod_lt _ sample.servers

theorem announced_of_delivers (chosen : sample.target sampleId timestamp = some server)
    (delivers : sample.Delivers fieldName sampleId timestamp) :
    0 < sample.globalVectSize ∧ sample.announced server = sample.globalVectSize ∧
      sample.nbVect * sample.globalVectSize < 2 ^ 31 := by
  obtain ⟨messages, server', sent, chosen', servers, each⟩ := delivers
  cases chosen.symm.trans chosen'
  have inside := target_lt chosen
  rw [sendRoundRobin, chosen, Option.bind_eq_bind, Option.bind_some] at sent
  have count := mapM_length sent
  rw [List.length_range] at count
  have known : server < messages.length := by rw [count]; exact inside
  have turn := mapM_getElem? sent server
  rw [List.getElem?_eq_getElem known, List.getElem?_range inside, Option.bind_some,
    Option.bind_eq_bind, eq_comm, Option.bind_eq_some_iff] at turn
  obtain ⟨⟨pusher, message⟩, made, arrived⟩ := turn
  rw [Option.bind_eq_bind, Option.bind_eq_some_iff] at arrived
  obtain ⟨reached, _, here⟩ := arrived
  have own : messages[server].1 = server := by
    have listed : (messages.map Prod.fst)[server]? = (List.range sample.nbProcServer)[server]? :=
      congrArg (fun list : List Nat => list[server]?) servers
    rw [List.getElem?_map, List.getElem?_eq_getElem known, List.getElem?_range inside] at listed
    exact Option.some.inj listed
  have right := each messages[server] (List.getElem_mem known)
  rw [if_pos own] at right
  have same : messages[server].2 = message := congrArg Prod.snd (Option.some.inj here).symm
  rw [same] at right
  obtain ⟨announced, small⟩ := sendTurn_target sample inside made
  rw [← announced, right.2.1] at small
  exact ⟨right.2.1 ▸ right.1, announced.symm.trans right.2.1, small⟩

/-- The message for a server rank: all values for the chosen one, none for the others. -/
def roundMessage (sample : LearningSample D) (fieldName : String)
    (sampleId timestamp server i : Nat) : SimuData D :=
  { timeStamp := timestamp, simuId := sampleId, clientRank := 0
    vectSize := if i = server then sample.globalVectSize else 0, fieldName := fieldName
    data := if i = server then sample.whole else [] }

theorem delivers_of_announced (chosen : sample.target sampleId timestamp = some server)
    (filled : 0 < sample.globalVectSize)
    (right : sample.announced server = sample.globalVectSize)
    (small : sample.nbVect * sample.globalVectSize < 2 ^ 31) :
    sample.Delivers fieldName sampleId timestamp := by
  have inside := target_lt chosen
  have turns : ∀ i ∈ List.range sample.nbProcServer,
      sample.sendTurn fieldName sampleId timestamp server i =
        some (i, sample.roundMessage fieldName sampleId timestamp server i) := by
    intro i _
    by_cases same : i = server
    · subst same
      rw [sendTurn_whole sample inside right small, roundMessage, if_pos rfl, if_pos rfl]
    · rw [sendTurn_other sample same, roundMessage, if_neg same, if_neg same]
  refine ⟨(List.range sample.nbProcServer).map fun i =>
    (i, sample.roundMessage fieldName sampleId timestamp server i), server, ?_, chosen, ?_, ?_⟩
  · rw [sendRoundRobin, chosen, Option.bind_eq_bind, Option.bind_some]
    refine mapM_eq_some fun i member => ?_
    have connected : (dataPushers sample.plan 0)[i]? = some i := by
      rw [dataPushers_plan, List.getElem?_range (List.mem_range.mp member)]
    exact Option.bind_eq_some_iff.mpr ⟨_, turns i member,
      Option.bind_eq_some_iff.mpr ⟨i, connected, rfl⟩⟩
  · rw [List.map_map]
    exact List.map_id _
  · intro message member
    obtain ⟨i, _, rfl⟩ := List.mem_map.mp member
    rw [roundMessage]
    split
    · exact ⟨filled, rfl, rfl⟩
    · rfl

/-- A server rank's part of the vector is all of it only if there is no other rank with a part. -/
theorem announced_eq_iff (filled : 0 < sample.globalVectSize)
    (inside : server < sample.nbProcServer) :
    sample.announced server = sample.globalVectSize ↔
      (sample.sobol = true →
        sample.nbProcServer = 1 ∨ (sample.globalVectSize = 1 ∧ server = 0)) := by
  by_cases sobol : sample.sobol = true
  · have size : sample.announced server = sample.globalVectSize / sample.nbProcServer +
        if server < sample.globalVectSize % sample.nbProcServer then 1 else 0 := by
      rw [announced, if_pos sobol, serverSizes, serverVectSize, evenSizes_getD inside]
    rw [size]
    generalize sample.globalVectSize = total at filled ⊢
    generalize sample.nbProcServer = servers at inside ⊢
    have parts := Nat.div_add_mod total servers
    rcases Nat.lt_or_ge 1 servers with more | single
    · have twice : 2 * (total / servers) ≤ servers * (total / servers) :=
        Nat.mul_le_mul_right _ more
      constructor
      · intro all _
        right
        split at all
        · rename_i early
          have one : total = 1 := by omega
          rw [one, Nat.mod_eq_of_lt more] at early
          omega
        · omega
      · intro one
        obtain ⟨rfl, rfl⟩ := (one sobol).resolve_left (by omega)
        rw [Nat.div_eq_of_lt more, Nat.mod_eq_of_lt more]
        rfl
    · have one : servers = 1 := by omega
      subst one
      rw [Nat.div_one, Nat.mod_one]
      exact iff_of_true rfl fun _ => Or.inl rfl
  · exact iff_of_true (if_neg sobol) fun other => absurd other sobol

/-- One call sends the whole sample to one server rank, and the server ranks take turns, exactly
when there are values, no `int` overflows, and, in a Sobol study, the part of the vector that the
chosen rank would get from a redistribution is all of it. -/
theorem roundRobin_iff (sample : LearningSample D) (fieldName : String) (sampleId timestamp : Nat) :
    sample.RoundRobin fieldName sampleId timestamp ↔
      0 < sample.globalVectSize ∧ sample.nbVect * sample.globalVectSize < 2 ^ 31 ∧
        timestamp + (sample.nbProcServer - 1) + sampleId % sample.nbProcServer < 2 ^ 31 ∧
        (sample.sobol = true → sample.nbProcServer = 1 ∨ (sample.globalVectSize = 1 ∧
          (timestamp + sampleId % sample.nbProcServer) % sample.nbProcServer = 0)) := by
  constructor
  · rintro ⟨delivers, once⟩
    have window := chosenOnce_iff.mp once
    have chosen := target_eq_some_iff.mpr
      ⟨(by omega : timestamp + sampleId % sample.nbProcServer < 2 ^ 31), rfl⟩
    obtain ⟨filled, right, small⟩ := announced_of_delivers chosen delivers
    exact ⟨filled, small, window, (announced_eq_iff filled (target_lt chosen)).mp right⟩
  · rintro ⟨filled, small, window, right⟩
    have chosen := target_eq_some_iff.mpr
      ⟨(by omega : timestamp + sampleId % sample.nbProcServer < 2 ^ 31), rfl⟩
    exact ⟨delivers_of_announced chosen filled
      ((announced_eq_iff filled (target_lt chosen)).mpr right) small, chosenOnce_iff.mpr window⟩

/-- A group of four simulations with two values each. -/
def groupOfFour : LearningSample Nat :=
  { sobol := true, coupling := .zmq, coupled := fun _ => by decide, nbParameters := 2
    nbProcServer := 2, servers := by decide, localVectSizes := [2]
    simulations := fun sobolRank => [[10 * sobolRank, 10 * sobolRank + 1]]
    sized := fun _ => rfl, fresh := fun _ => 0 }

/-- Two server ranks: the message announces one value for each vector instead of two. -/
theorem not_roundRobin_group : ¬ groupOfFour.RoundRobin "heat" 0 0 := by
  rintro ⟨⟨messages, server, sent, chosen, _, each⟩, _⟩
  cases chosen.symm.trans (rfl : groupOfFour.target 0 0 = some 0)
  have made : groupOfFour.sendRoundRobin "heat" 0 0 =
      some [(0, ⟨0, 0, 0, 1, "heat", [0, 10, 20, 30]⟩), (1, ⟨0, 0, 0, 0, "heat", []⟩)] := by
    decide
  cases sent.symm.trans made
  have first := each _ List.mem_cons_self
  exact absurd first (by decide)

end Iff

end LearningSample

end Melissa
