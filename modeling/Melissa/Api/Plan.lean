import Melissa.Base.Arrays
import Melissa.Base.Blocks
import Melissa.Ints

/-! The redistribution plan of `melissa_api.c`: which client rank sends which part of its local
vector to which server rank. -/

namespace Melissa

open Arrays Blocks

/-- `global_vect_size`, the `int` sum of the `int` local sizes; none if it overflows. -/
def globalVectSize (localVectSizes : List Nat) : Option Nat :=
  localVectSizes.foldlM
    (fun (size localVectSize : Nat) => (addInt size localVectSize).map Int.toNat) 0

private theorem foldlM_addInt (localVectSizes : List Nat) (size : Nat) (small : size < 2 ^ 31) :
    localVectSizes.foldlM
        (fun (size localVectSize : Nat) => (addInt size localVectSize).map Int.toNat) size =
      if size + localVectSizes.sum < 2 ^ 31 then some (size + localVectSizes.sum) else none := by
  induction localVectSizes generalizing size with
  | nil =>
      rw [List.sum_nil, Nat.add_zero, if_pos small]
      rfl
  | cons localVectSize rest ih =>
      rw [List.foldlM_cons, List.sum_cons, ← Nat.add_assoc]
      by_cases inside : size + localVectSize < 2 ^ 31
      · rw [addInt_natCast inside]
        exact ih (size + localVectSize) inside
      · have overflow : addInt size localVectSize = none := if_neg (by omega)
        rw [overflow, if_neg (by omega)]
        rfl

theorem globalVectSize_eq (localVectSizes : List Nat) :
    globalVectSize localVectSizes =
      if localVectSizes.sum < 2 ^ 31 then some localVectSizes.sum else none := by
  rw [globalVectSize, foldlM_addInt _ _ (by decide), Nat.zero_add]

theorem globalVectSize_of_lt {localVectSizes : List Nat} (small : localVectSizes.sum < 2 ^ 31) :
    globalVectSize localVectSizes = some localVectSizes.sum := by
  rw [globalVectSize_eq, if_pos small]

theorem globalVectSize_eq_none {localVectSizes : List Nat} :
    globalVectSize localVectSizes = none ↔ 2 ^ 31 ≤ localVectSizes.sum := by
  rw [globalVectSize_eq]
  split
  · rename_i small
    exact iff_of_false nofun (Nat.not_le_of_lt small)
  · rename_i large
    exact iff_of_true rfl (Nat.le_of_not_lt large)

/-- `server_vect_size` of `melissa_init_internal`. -/
def serverVectSize (globalVectSize nbProcServer : Nat) : List Nat :=
  evenSizes globalVectSize nbProcServer

/-- The part of `field_data_t` the plan consists of. -/
structure FieldPlan where
  pushRank : List Nat
  pullRank : List Nat
  sendCounts : List Nat
  sdispls : List Nat
  totalNbMessages : Nat
  localNbMessages : Nat
  deriving DecidableEq, Repr

/-- `sdispls[0] = 0; sdispls[i + 1] = sdispls[i] + send_counts[i]`. -/
def displacements (sendCounts : List Nat) : List Nat :=
  (List.range sendCounts.length).map (offset sendCounts)

section NToM

/-- The counters of the first loop of `comm_n_to_m_init`. -/
structure CountState where
  client : Cursor
  server : Cursor
  sendCounts : List Nat
  totalNbMessages : Nat
  localNbMessages : Nat
  deriving DecidableEq, Repr

/-- The body of the first loop. -/
def countElement (localVectSizes serverSizes : List Nat) (rank : Nat) (state : CountState) :
    CountState :=
  let (client, nextClient) := state.client.advance localVectSizes
  let (server, nextServer) := state.server.advance serverSizes
  let newMessage := nextClient || nextServer
  { client := client, server := server
    sendCounts := if client.rank = rank
      then state.sendCounts.modify server.rank (· + 1) else state.sendCounts
    totalNbMessages := if newMessage then state.totalNbMessages + 1 else state.totalNbMessages
    localNbMessages := if newMessage ∧ client.rank = rank
      then state.localNbMessages + 1 else state.localNbMessages }

def countLoop (localVectSizes serverSizes : List Nat) (rank : Nat) : Nat → CountState
  | 0 =>
      { client := ⟨0, 0⟩, server := ⟨0, 0⟩, sendCounts := List.replicate serverSizes.length 0
        totalNbMessages := 1, localNbMessages := if rank = 0 then 1 else 0 }
  | n + 1 =>
      countElement localVectSizes serverSizes rank (countLoop localVectSizes serverSizes rank n)

/-- The counters of the second loop; the pair of a message is its push and its pull rank. -/
structure PairState where
  client : Cursor
  server : Cursor
  pairs : List (Nat × Nat)
  deriving DecidableEq, Repr

def pairElement (localVectSizes serverSizes : List Nat) (state : PairState) : PairState :=
  let (client, nextClient) := state.client.advance localVectSizes
  let (server, nextServer) := state.server.advance serverSizes
  { client := client, server := server
    pairs := if nextClient || nextServer
      then state.pairs ++ [(client.rank, server.rank)] else state.pairs }

def pairLoop (localVectSizes serverSizes : List Nat) : Nat → PairState
  | 0 => { client := ⟨0, 0⟩, server := ⟨0, 0⟩, pairs := [(0, 0)] }
  | n + 1 => pairElement localVectSizes serverSizes (pairLoop localVectSizes serverSizes n)

/-- `comm_n_to_m_init` on client rank `rank`. The loops run to `global_vect_size`, which is this
sum where `globalVectSize` has a value; the callers look there first. -/
def commNToMInit (localVectSizes serverSizes : List Nat) (rank : Nat) : FieldPlan :=
  let globalVectSize := localVectSizes.sum
  let counts := countLoop localVectSizes serverSizes rank globalVectSize
  let pairs := (pairLoop localVectSizes serverSizes globalVectSize).pairs
  { pushRank := pairs.map Prod.fst, pullRank := pairs.map Prod.snd
    sendCounts := counts.sendCounts, sdispls := displacements counts.sendCounts
    totalNbMessages := counts.totalNbMessages, localNbMessages := counts.localNbMessages }

end NToM

section OneToM

/-- `comm_1_to_m_init`: rank 0 sends everything. -/
def comm1ToMInit (serverSizes : List Nat) (rank : Nat) : FieldPlan :=
  let nbProcServer := serverSizes.length
  { pushRank := List.replicate nbProcServer 0, pullRank := List.range nbProcServer
    sendCounts := if rank = 0 then serverSizes else List.replicate nbProcServer 0
    sdispls := if rank = 0 then displacements serverSizes else List.replicate nbProcServer 0
    totalNbMessages := nbProcServer
    localNbMessages := if rank = 0 then nbProcServer else 0 }

/-- `gatherv_init`: the counts and the displacements of the gather on rank 0. -/
def gathervInit (vectSizes : List Nat) : List Nat × List Nat :=
  (vectSizes, displacements vectSizes)

variable {D : Type}

/-- `MPI_Gatherv` on the root: rank `i` sent `sent[i]`. -/
def mpiGatherv (rcvcnt displs : List Nat) (sent : List (List D)) (buffer : List D) : Nat → List D
  | 0 => buffer
  | i + 1 => copyAt (mpiGatherv rcvcnt displs sent buffer i) (displs.getD i 0)
      ((sent.getD i []).take (rcvcnt.getD i 0))

end OneToM

section Send

/-- One message of `melissa_send`: the pusher it goes through, the server rank it is meant for,
and the part of the local vector it carries. -/
structure Push where
  pusher : Nat
  pullRank : Nat
  start : Nat
  count : Nat
  deriving DecidableEq, Repr

/-- The server ranks the pushers of `melissa_init_internal` are connected to, in order. -/
def dataPushers (plan : FieldPlan) (rank : Nat) : List Nat :=
  ((plan.pushRank.zip plan.pullRank).filter fun pair => pair.1 == rank).map Prod.snd

/-- The loop of `melissa_send` over the messages, with its counter `j`. -/
def sendLoop (plan : FieldPlan) (rank : Nat) : Nat → List (Nat × Nat) → List Push
  | _, [] => []
  | j, (pushRank, pullRank) :: rest =>
      if rank = pushRank then
        { pusher := j, pullRank := pullRank, start := plan.sdispls.getD pullRank 0
          count := plan.sendCounts.getD pullRank 0 } :: sendLoop plan rank (j + 1) rest
      else sendLoop plan rank j rest

/-- One round of `melissa_send` on client rank `rank`. -/
def melissaSend (plan : FieldPlan) (rank : Nat) : List Push :=
  sendLoop plan rank 0 (plan.pushRank.zip plan.pullRank)

variable {D : Type}

/-- The data of a message; none if it reads outside the vector. -/
def readVector (vector : List D) (start count : Nat) : Option (List D) :=
  if count = 0 then some []
  else if start + count ≤ vector.length then some ((vector.drop start).take count)
  else none

/-- What one round of client rank `rank` delivers: the server rank a message arrives at is the
one its pusher is connected to. -/
def sendRound (plan : FieldPlan) (rank : Nat) (sendVect : List D) :
    Option (List (Nat × List D)) :=
  (melissaSend plan rank).mapM fun push =>
    (readVector sendVect push.start push.count).map fun data =>
      ((dataPushers plan rank).getD push.pusher 0, data)

/-- One round of all client ranks, `clients[rank]` being the local vector of rank `rank` and
`fresh` the content of `buffer_data` before the gather. -/
def sendRounds (learning : Bool) (nbProcServer : Nat) (fresh : Nat → D) (clients : List (List D)) :
    Option (List (List (Nat × List D))) :=
  let localVectSizes := clients.map List.length
  (globalVectSize localVectSizes).bind fun globalVectSize =>
    let serverSizes := serverVectSize globalVectSize nbProcServer
    (List.range clients.length).mapM fun rank =>
      if learning then
        let (rcvcnt, displs) := gathervInit localVectSizes
        let gathered := mpiGatherv rcvcnt displs clients ((List.range globalVectSize).map fresh)
          clients.length
        sendRound (comm1ToMInit serverSizes rank) rank (if rank = 0 then gathered else [])
      else
        sendRound (commNToMInit localVectSizes serverSizes rank) rank (clients.getD rank [])

end Send

end Melissa
