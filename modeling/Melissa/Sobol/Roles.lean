import Melissa.Launcher.Groups
import Melissa.Sobol.Buffer

/-! The roles of the simulations of a Sobol group, from the launcher to the estimator. -/

namespace Melissa

open Arrays Blocks

namespace SobolStudy

variable {D : Type} (study : SobolStudy D)

/-- The global indices client rank `rank` has to send to server rank `s`. -/
def blockIndices (rank s : Nat) : List Nat :=
  let serverSizes := serverVectSize study.localVectSizes.sum study.nbProcServer
  if study.learning then
    if rank = 0 then List.range' (offset serverSizes s) (serverSizes.getD s 0) else []
  else List.range' (overlapStart study.localVectSizes serverSizes rank s)
    (overlap study.localVectSizes serverSizes rank s)

/-- A message of a plan: inside the local vector, and the block of the server rank. -/
structure RightBlock (rank : Nat) (push : Push) : Prop where
  inside : push.count = 0 ∨ push.start + push.count ≤ study.vectSize rank
  counted : push.count = (study.blockIndices rank push.pullRank).length
  carries : ∀ simuId, ((study.roleVector rank simuId).drop push.start).take push.count =
    pick (study.clients simuId).flatten (study.blockIndices rank push.pullRank)

theorem rightBlock_learning (learning : study.learning = true) (servers : 0 < study.nbProcServer)
    {rank : Nat} {push : Push} (sent : push ∈ melissaSend (study.plan rank) rank) :
    study.RightBlock rank push := by
  have sum := evenSizes_sum study.localVectSizes.sum servers
  rw [plan, learning, if_pos rfl] at sent
  by_cases root : rank = 0
  · subst root
    rw [melissaSend_oneToM] at sent
    obtain ⟨s, _, rfl⟩ := List.mem_map.mp sent
    have last := offset_le_sum (serverVectSize study.localVectSizes.sum study.nbProcServer) (s + 1)
    rw [offset_succ, serverVectSize, sum] at last
    refine ⟨Or.inr ?_, ?_, ?_⟩
    · rw [vectSize, learning, if_pos rfl, if_pos rfl]
      exact last
    · rw [blockIndices, learning]
      simp only [if_true, List.length_range']
    · intro simuId
      rw [roleVector, blockIndices, learning]
      simp only [if_true]
      exact (pick_range' _ (by rw [clients_flatten_length]; exact last)).symm
  · rw [melissaSend_oneToM_other _ root] at sent
    cases sent

theorem rightBlock_empty (classic : study.learning = false) (empty : study.localVectSizes.sum = 0)
    {rank : Nat} {push : Push} (sent : push ∈ melissaSend (study.plan rank) rank) :
    study.RightBlock rank push := by
  have none_sent : push.count = 0 := by
    rw [(melissaSend_push sent).2.2, plan, classic, if_neg Bool.false_ne_true, commNToMInit, empty,
      countLoop]
    simp
  have none_shared : study.blockIndices rank push.pullRank = [] := by
    have last := offset_le_sum study.localVectSizes (rank + 1)
    rw [empty] at last
    rw [blockIndices, classic]
    simp only [Bool.false_eq_true, if_false, overlap]
    rw [Nat.le_zero.mp last, Nat.zero_min, Nat.zero_sub, List.range'_zero]
  refine ⟨Or.inl none_sent, by rw [none_sent, none_shared]; rfl, ?_⟩
  intro simuId
  rw [none_sent, none_shared, List.take_zero]
  rfl

theorem rightBlock_steady (classic : study.learning = false) (servers : 0 < study.nbProcServer)
    (steady : Steady study.localVectSizes) {rank : Nat} {push : Push}
    (sent : push ∈ melissaSend (study.plan rank) rank) : study.RightBlock rank push := by
  rcases Nat.eq_zero_or_pos study.localVectSizes.sum with empty | filled
  · exact study.rightBlock_empty classic empty sent
  · rw [plan, classic, if_neg Bool.false_ne_true] at sent
    have vector (simuId : Nat) :
        study.roleVector rank simuId = (study.clients simuId).getD rank [] := by
      rw [roleVector, classic, if_neg Bool.false_ne_true]
    have size : study.vectSize rank = study.localVectSizes.getD rank 0 := by
      rw [vectSize, classic, if_neg Bool.false_ne_true]
    have indices (s : Nat) : study.blockIndices rank s = List.range'
        (overlapStart study.localVectSizes
          (serverVectSize study.localVectSizes.sum study.nbProcServer) rank s)
        (overlap study.localVectSizes
          (serverVectSize study.localVectSizes.sum study.nbProcServer) rank s) := by
      rw [blockIndices, classic]
      rfl
    have aligned (simuId : Nat) : Aligned ((study.clients simuId).map List.length)
        (serverVectSize study.localVectSizes.sum study.nbProcServer) := by
      have some_data : 0 < (study.clients simuId).flatten.length := by
        rw [clients_flatten_length]
        exact filled
      have built := aligned_serverVectSize some_data servers (by rwa [clients_lengths])
      rwa [clients_lengths] at built ⊢
    refine ⟨?_, ?_, ?_⟩
    · rw [size, ← study.clients_getD_length 0]
      exact push_inside (aligned 0) (by rwa [clients_lengths])
    · have same := congrArg List.length (carried_eq (aligned 0) (by rwa [clients_lengths]))
      rw [indicesOf_pairAt (aligned 0).clientsSteady (aligned 0).serversSteady (aligned 0).same,
        carried, List.length_range', clients_lengths] at same
      rw [same, indices]
    · intro simuId
      have block := push_block (aligned simuId) (by rwa [clients_lengths])
      rw [clients_lengths] at block
      rw [vector, block, indices]

variable {study}

/-- The vector of simulation `k` of a group in a message. -/
def block (study : SobolStudy D) (group rank : Nat) (push : Push) (k : Nat) : List D :=
  ((study.roleVector rank (group * (study.nbParameters + 2) + k)).drop push.start).take push.count

theorem block_length {group rank k : Nat} {push : Push} (right : study.RightBlock rank push) :
    (study.block group rank push k).length = push.count := by
  rw [block, List.length_take, List.length_drop, roleVector_length]
  have inside := right.inside
  omega

/-- The vectors of a message one behind the other. -/
theorem block_vector {rank : Nat} {push : Push} (right : study.RightBlock rank push)
    (groupId : Nat) {k : Nat} (role : k < study.nbParameters + 2) :
    (((List.range (study.nbParameters + 2)).map
        (study.block groupId rank push)).flatten.drop (k * push.count)).take push.count =
      study.block groupId rank push k := by
  have sizes : ∀ part ∈ (List.range (study.nbParameters + 2)).map
      (study.block groupId rank push), part.length = push.count := by
    intro part inside
    obtain ⟨k, _, rfl⟩ := List.mem_map.mp inside
    exact block_length right
  have listed : k < ((List.range (study.nbParameters + 2)).map
      (study.block groupId rank push)).length := by
    rw [List.length_map, List.length_range]
    exact role
  have slot := drop_take_slot sizes listed (Nat.le_of_eq (Nat.zero_add push.count))
  have own : (study.block groupId rank push k).length = push.count :=
    block_length right
  rw [Nat.add_zero, List.drop_zero, List.getD_eq_getElem _ _ listed, List.getElem_map,
    List.getElem_range, List.take_of_length_le (Nat.le_of_eq own)] at slot
  exact slot

/-- The part of a slot that a message of the plan takes. -/
theorem readVector_slot {rank : Nat} {push : Push} (right : study.RightBlock rank push)
    (group : Nat) {k : Nat} (known : k < study.nbParameters + 2) :
    readVector (study.slots group rank (study.nbParameters + 1)).flatten
        (k * study.vectSize rank + push.start) push.count =
      some ((((study.slots group rank (study.nbParameters + 1)).getD k []).drop push.start).take
        push.count) := by
  rcases right.inside with empty | inside
  · rw [readVector_eq (Or.inl empty), empty, List.take_zero, List.take_zero]
  · have room : (k + 1) * study.vectSize rank ≤
        (study.nbParameters + 1 + 1) * study.vectSize rank := Nat.mul_le_mul_right _ known
    rw [Nat.succ_mul] at room
    have total := study.slots_flatten_length group rank (study.nbParameters + 1)
    rw [readVector_eq (Or.inr (by omega)),
      drop_take_slot (study.slots_uniform group rank (study.nbParameters + 1))
        (by rw [study.slots_length]; exact known) inside]

/-- `data_ptr[k]` points to the part of the vector of simulation `k` that is to be sent. -/
theorem messageSimuData_eq {group rank : Nat} {push : Push} (right : study.RightBlock rank push) :
    messageSimuData (study.dataPtr ⟨group * (study.nbParameters + 2), rank⟩
        (study.slots group rank (study.nbParameters + 1)).flatten push.start) push.count =
      some ((List.range (study.nbParameters + 2)).map (study.block group rank push)).flatten := by
  have first : readVector (if study.learning then
        (study.slots group rank (study.nbParameters + 1)).flatten
      else (study.clients (group * (study.nbParameters + 2))).getD rank []) push.start push.count =
        some (study.block group rank push 0) := by
    cases learning : study.learning with
    | false =>
        have own := study.roleVector_length rank (group * (study.nbParameters + 2))
        rw [block, Nat.add_zero]
        rw [roleVector, learning, if_neg Bool.false_ne_true] at own ⊢
        exact readVector_eq (by rw [own]; exact right.inside)
    | true =>
        have zero := readVector_slot right group (Nat.succ_pos (study.nbParameters + 1))
        rw [Nat.zero_mul, Nat.zero_add] at zero
        rw [if_pos rfl, zero, slots, List.getD_cons_zero, slotZero, learning]
        rfl
  have others (i : Nat) (member : i ∈ List.range (study.nbParameters + 1)) :
      readVector (study.slots group rank (study.nbParameters + 1)).flatten
          ((i + 1) * study.vectSize rank + push.start) push.count =
        some (study.block group rank push (i + 1)) := by
    have known := List.mem_range.mp member
    rw [readVector_slot right group (Nat.succ_lt_succ known),
      study.slots_getD_succ group rank known]
    rfl
  have rest := mapM_eq_some others
  have roles : (List.range (study.nbParameters + 2)).map (study.block group rank push) =
      study.block group rank push 0 ::
        (List.range (study.nbParameters + 1)).map fun i => study.block group rank push (i + 1) := by
    rw [List.range_succ_eq_map, List.map_cons, List.map_map]
    rfl
  rw [messageSimuData, dataPtr, List.mapM_cons, first, List.mapM_map, roles]
  simp only [Function.comp_def, rest, Option.bind_eq_bind, Option.bind_some, Option.pure_def,
    Option.map_some]

/-- What the master of a group sends for one entry of the plan. -/
def sentMessage (study : SobolStudy D) (timeStamp : Int) (fieldName : String) (group rank : Nat)
    (push : Push) : Nat × SimuData D :=
  (push.pullRank,
    { timeStamp := timeStamp, simuId := group, clientRank := rank, vectSize := push.count
      fieldName := fieldName
      data := ((List.range (study.nbParameters + 2)).map (study.block group rank push)).flatten })

theorem sobolMessages_eq {group rank : Nat} (small : study.localVectSizes.sum < 2 ^ 31)
    (right : ∀ push ∈ melissaSend (study.plan rank) rank, study.RightBlock rank push)
    (received : study.receiveGroup ⟨group * (study.nbParameters + 2), rank⟩
        (study.nbParameters + 1) =
      some (study.slots group rank (study.nbParameters + 1)).flatten)
    (timeStamp : Int) (fieldName : String) :
    study.sobolMessages timeStamp fieldName ⟨group * (study.nbParameters + 2), rank⟩ =
      some ((melissaSend (study.plan rank) rank).map
        (study.sentMessage timeStamp fieldName group rank)) := by
  have master : sampleId study.nbParameters (group * (study.nbParameters + 2)) = group :=
    sampleId_member (Nat.succ_pos _)
  rw [sobolMessages, globalVectSize_of_lt small, received]
  simp only [Option.bind_eq_bind, Option.bind_some]
  apply mapM_eq_some
  intro push sent
  have target : (dataPushers (study.plan rank) rank).getD push.pusher 0 = push.pullRank := by
    rw [List.getD_eq_getElem?_getD, (melissaSend_push sent).1]
    rfl
  rw [messageSimuData_eq (right push sent), Option.bind_some, target, master]
  rfl

/-- An empty client rank that is given elements of a later rank: the master reads past its local
vector. -/
theorem sobolMessages_gap (classic : study.learning = false) {rank : Nat} {push : Push}
    (empty : study.localVectSizes.getD rank 0 = 0)
    (sent : push ∈ melissaSend (study.plan rank) rank) (positive : 0 < push.count)
    (timeStamp : Int) (fieldName : String) (simuId : Nat) :
    study.sobolMessages timeStamp fieldName ⟨simuId, rank⟩ = none := by
  have outside : readVector ((study.clients simuId).getD rank []) push.start push.count = none := by
    have own := study.clients_getD_length simuId rank
    rw [readVector, if_neg (by omega), if_neg (by omega)]
  have lost (bufferData : List D) :
      messageSimuData (study.dataPtr ⟨simuId, rank⟩ bufferData push.start) push.count = none := by
    rw [messageSimuData, dataPtr, List.mapM_cons, classic]
    simp only [Bool.false_eq_true, if_false, outside]
    rfl
  rw [sobolMessages]
  cases globalVectSize study.localVectSizes with
  | none => rfl
  | some vectSize =>
      cases study.receiveGroup ⟨simuId, rank⟩ (study.nbParameters + 1) with
      | none => rfl
      | some bufferData =>
          apply mapM_eq_none sent
          rw [lost]
          rfl

end SobolStudy

section Roles

variable {D : Type}

/-- The part of simulation `k` of a group that client rank `rank` has to send to server rank
`s`. -/
def roleBlock (study : SobolStudy D) (group : Group D) (rank s k : Nat) : List D :=
  pick (study.clients (group.simuId.getD k 0)).flatten (study.blockIndices rank s)

variable [Zero D]

theorem sameVector_of_take {vectSize : Nat} {left right : List D}
    (same : left.take vectSize = right.take vectSize) : SameVector vectSize left right := by
  intro i inside
  have cell := congrArg (fun values => values.getD i 0) same
  simp only [List.getD_eq_getElem?_getD, List.getElem?_take, if_pos inside] at cell
  simpa only [List.getD_eq_getElem?_getD] using cell

variable [Add D] [Sub D] [Mul D] [Div D] [NatCast D] [LT D] [DecidableLT D] [Libm D]

/-- A message of a group that server rank `s` splits by the roles. -/
structure RightMessage (study : SobolStudy D) (group : Group D) (rank s : Nat) (m : SimuData D) :
    Prop where
  sample : m.simuId = group.groupId
  sized : m.vectSize = (study.blockIndices rank s).length
  vectors : ∀ k < study.nbParameters + 2,
    (m.data.drop (k * m.vectSize)).take m.vectSize = roleBlock study group rank s k
  pointers : ∀ k < study.nbParameters + 2,
    (inVectTab study.options m)[k]? = some (m.data.drop (k * m.vectSize))
  estimated : ∀ sobolArray : SobolArray D,
    incrementSobolMartinez sobolArray (inVectTab study.options m) m.vectSize =
      incrementSobolMartinez sobolArray
        ((List.range (study.nbParameters + 2)).map (roleBlock study group rank s)) m.vectSize

/-- The roles of a group agree from the launcher to the estimator. -/
structure RolesAgree (study : SobolStudy D) (timeStamp : Int) (fieldName : String)
    (group : Group D) (paramSetA paramSetB : List D) : Prop where
  numbered : ∀ k < study.nbParameters + 2, ∃ simuId, group.simuId[k]? = some simuId ∧
    sampleId study.nbParameters simuId = group.groupId ∧ sobolRank study.nbParameters simuId = k
  sampled : ∀ k < study.nbParameters + 2, ∃ params, group.paramSet[k]? = some params ∧
    ∀ j, params[j]? = roleComponent paramSetA paramSetB k j
  received : ∀ rank < study.commSize, ∃ bufferData,
    study.receiveGroup ⟨group.simuId.getD 0 0, rank⟩ (study.nbParameters + 1) = some bufferData ∧
    ∀ i < study.nbParameters + 1,
      (bufferData.drop ((i + 1) * study.vectSize rank)).take (study.vectSize rank) =
        study.roleVector rank (group.simuId.getD (i + 1) 0)
  delivered : ∀ rank < study.commSize, ∃ messages,
    study.sobolMessages timeStamp fieldName ⟨group.simuId.getD 0 0, rank⟩ = some messages ∧
    ∀ message ∈ messages, RightMessage study group rank message.1 message.2

variable {study : SobolStudy D} {group : Group D} {paramSetA paramSetB : List D}

theorem rightMessage_of_block {rank s : Nat} {m : SimuData D}
    (sample : m.simuId = group.groupId)
    (sized : m.vectSize = (study.blockIndices rank s).length)
    (vectors : ∀ k < study.nbParameters + 2,
      (m.data.drop (k * m.vectSize)).take m.vectSize = roleBlock study group rank s k) :
    RightMessage study group rank s m := by
  have number : study.options.nbVect = study.nbParameters + 2 := by
    rw [Options.nbVect, study.sobolOp, if_pos rfl]
    rfl
  have split (k : Nat) (known : k < study.nbParameters + 2) :
      (inVectTab study.options m)[k]? = some (m.data.drop (k * m.vectSize)) := by
    rw [inVectTab, number, List.getElem?_map, List.getElem?_range known]
    rfl
  refine ⟨sample, sized, vectors, split, ?_⟩
  intro sobolArray
  apply incrementSobolMartinez_congr
  intro k
  apply sameVector_of_take
  by_cases known : k < study.nbParameters + 2
  · have own := congrArg (List.take m.vectSize) (vectors k known)
    rw [List.take_take, Nat.min_self] at own
    rw [List.getD_eq_getElem?_getD, split k known, Option.getD_some, own,
      List.getD_eq_getElem?_getD, List.getElem?_map, List.getElem?_range known]
    rfl
  · rw [List.getD_eq_default, List.getD_eq_default]
    · rw [List.length_map, List.length_range]
      exact Nat.le_of_not_lt known
    · rw [inVectTab, List.length_map, List.length_range, number]
      exact Nat.le_of_not_lt known

/-- The sizes `melissa_init_internal` computes with are `int`. -/
def SizesFit (study : SobolStudy D) : Prop :=
  study.localVectSizes.sum < 2 ^ 31 ∧
    ∀ rank < study.commSize, (study.nbParameters + 2) * study.vectSize rank < 2 ^ 31

/-- With the data gathered first, or without an empty client rank inside, the roles agree. -/
theorem rolesAgree_of_rightBlock (timeStamp : Int) (fieldName : String) (fits : SizesFit study)
    (ports : PortsValid study.nbParameters study.commSize study.running)
    (designed : SobolDesign group paramSetA paramSetB)
    (parameters : paramSetA.length = study.nbParameters)
    (started : ∀ id ∈ group.simuId, id ∈ study.running)
    (right : ∀ rank, ∀ push ∈ melissaSend (study.plan rank) rank, study.RightBlock rank push) :
    RolesAgree study timeStamp fieldName group paramSetA paramSetB := by
  have simuIds := designed.simuId
  rw [parameters] at simuIds
  have member (k : Nat) (known : k < study.nbParameters + 2) :
      group.simuId.getD k 0 = group.groupId * (study.nbParameters + 2) + k := by
    rw [List.getD_eq_getElem?_getD, simuIds k known, Option.getD_some]
  have master : group.simuId.getD 0 0 = group.groupId * (study.nbParameters + 2) :=
    member 0 (Nat.succ_pos _)
  have running (k : Nat) (known : k < study.nbParameters + 2) :
      group.groupId * (study.nbParameters + 2) + k ∈ study.running :=
    started _ (List.mem_of_getElem? (simuIds k known))
  have bufferData (rank : Nat) (known : rank < study.commSize) :
      study.receiveGroup ⟨group.groupId * (study.nbParameters + 2), rank⟩
          (study.nbParameters + 1) =
        some (study.slots group.groupId rank (study.nbParameters + 1)).flatten := by
    obtain ⟨bufferData, got, filled⟩ := study.filled_receiveGroup known (fits.2 rank known) ports
      running (le_refl _)
    rw [got, filled.eq_of_full (study.slots_flatten_length _ _ _)]
  constructor
  · intro k known
    exact ⟨_, simuIds k known, sampleId_member known, sobolRank_member known⟩
  · intro k known
    exact designed.paramSet k (by rw [parameters]; exact known)
  · intro rank known
    rw [master]
    refine ⟨_, bufferData rank known, ?_⟩
    intro i inside
    rw [member (i + 1) (by omega)]
    exact study.slot_vector group.groupId rank inside
  · intro rank known
    rw [master]
    refine ⟨_, SobolStudy.sobolMessages_eq fits.1 (right rank) (bufferData rank known) timeStamp
      fieldName, ?_⟩
    intro message listed
    obtain ⟨push, sent, rfl⟩ := List.mem_map.mp listed
    have block := right rank push sent
    apply rightMessage_of_block
    · rfl
    · exact block.counted
    · intro k role
      rw [roleBlock, member k role]
      exact (SobolStudy.block_vector block group.groupId role).trans (block.carries _)

/-- Sizes that overflow reach no server rank. -/
theorem sizesFit_of_rolesAgree {timeStamp : Int} {fieldName : String}
    (agree : RolesAgree study timeStamp fieldName group paramSetA paramSetB) : SizesFit study := by
  constructor
  · rcases Nat.eq_zero_or_pos study.commSize with nobody | somebody
    · rw [List.length_eq_zero_iff.mp nobody]
      decide
    · obtain ⟨messages, delivered, _⟩ := agree.delivered 0 somebody
      by_contra large
      have overflow := globalVectSize_eq_none.mpr (Nat.le_of_not_lt large)
      rw [SobolStudy.sobolMessages, overflow] at delivered
      cases delivered
  · intro rank known
    obtain ⟨bufferData, received, _⟩ := agree.received rank known
    exact study.small_of_receiveGroup received

/-- The roles agree exactly when the sizes are `int` and the data is gathered first or no empty
client rank, rank 0 apart, has a later rank with elements. -/
theorem rolesAgree_iff (study : SobolStudy D) (timeStamp : Int) (fieldName : String)
    {counters counters' : Counters}
    (created : sobolGroup counters paramSetA paramSetB = some (group, counters'))
    (parameters : paramSetA.length = study.nbParameters)
    (started : ∀ id ∈ group.simuId, id ∈ study.running) (servers : 0 < study.nbProcServer)
    (ports : PortsValid study.nbParameters study.commSize study.running) :
    RolesAgree study timeStamp fieldName group paramSetA paramSetB ↔
      SizesFit study ∧ (study.learning = true ∨
        ∀ rank, offset study.localVectSizes (rank + 1) < study.localVectSizes.sum →
          0 < study.localVectSizes.getD (rank + 1) 0) := by
  have designed := sobolGroup_design created
  constructor
  · intro agree
    refine ⟨sizesFit_of_rolesAgree agree, ?_⟩
    cases classic : study.learning with
    | true => exact Or.inl rfl
    | false =>
        right
        by_contra gap
        obtain ⟨rank, known, empty, push, sent, positive⟩ := exists_push_gap servers gap
        obtain ⟨messages, delivered, _⟩ := agree.delivered rank known
        have plan : study.plan rank = commNToMInit study.localVectSizes
            (serverVectSize study.localVectSizes.sum study.nbProcServer) rank := by
          rw [SobolStudy.plan, classic, if_neg Bool.false_ne_true]
        rw [SobolStudy.sobolMessages_gap classic empty (by rw [plan]; exact sent) positive]
          at delivered
        cases delivered
  · rintro ⟨fits, either⟩
    apply rolesAgree_of_rightBlock timeStamp fieldName fits ports designed parameters started
    intro rank push sent
    cases classic : study.learning with
    | true => exact study.rightBlock_learning classic servers sent
    | false =>
        rcases either with gathered | steady
        · rw [classic] at gathered
          cases gathered
        · exact study.rightBlock_steady classic servers steady sent

end Roles

/-- A study of two parameters, to evaluate the definitions on. -/
def coupledStudy (localVectSizes : List Nat) : SobolStudy ℚ where
  options := { twoByTwo with nbParameters := 2, sobolOp := true }
  sobolOp := rfl
  learning := false
  nbProcServer := 2
  localVectSizes := localVectSizes
  value simuId rank j := 100 * simuId + 10 * rank + j
  fresh _ _ := 0
  running := List.range 8

def coupledGroup : Group ℚ :=
  { groupId := 1, jobType := 4, size := 4
    paramSet := [[5, 7], [6, 8], [6, 7], [5, 8]], simuId := [4, 5, 6, 7], simuStatus := []
    status := notSubmitted, jobStatus := notSubmitted, nbRestarts := 0 }

/-- The first two groups of two parameters on few client ranks. -/
theorem coupledPorts {commSize : Nat} (ranks : 1 ≤ commSize ∧ commSize ≤ 2) :
    PortsValid 2 commSize (List.range 8) := by
  intro simuId member simuId' member'
  have group : sampleId 2 simuId < 2 := Nat.div_lt_of_lt_mul (List.mem_range.mp member)
  have group' : sampleId 2 simuId' < 2 := Nat.div_lt_of_lt_mul (List.mem_range.mp member')
  have small : (max (sampleId 2 simuId) (sampleId 2 simuId') + 1) * (commSize * (2 + 1)) ≤ 9900 :=
    le_trans (Nat.mul_le_mul (by omega : _ ≤ 2) (by omega : _ ≤ 6)) (by decide)
  refine neverClash_of_small ranks.1 small ?_ ?_
  · intro names
    have low := names.1
    omega
  · intro names
    have low := names.1
    omega

theorem rolesAgree_iff_twoRanks :
    RolesAgree (coupledStudy [2, 1]) 0 "heat" coupledGroup [5, 7] [6, 8] := by
  have created : sobolGroup ⟨1, 0⟩ ([5, 7] : List ℚ) [6, 8] =
      some (coupledGroup, ⟨2, 0⟩) := by decide +kernel
  have steady : ∀ rank, offset [2, 1] (rank + 1) < 3 → 0 < [2, 1].getD (rank + 1) 0 := by
    intro rank short
    cases rank with
    | zero => decide
    | succ rank =>
        have past : offset [2, 1] 2 ≤ offset [2, 1] (rank + 1 + 1) :=
          offset_mono [2, 1] (Nat.le_add_left 2 rank)
        have all : offset [2, 1] 2 = 3 := rfl
        omega
  have fits : SizesFit (coupledStudy [2, 1]) := by
    unfold SizesFit
    decide
  exact (rolesAgree_iff (coupledStudy [2, 1]) 0 "heat" created rfl (by decide) (by decide)
    (coupledPorts (by decide))).mpr ⟨fits, Or.inr steady⟩

/-- The middle rank has no element: its master is made to send one of each simulation. -/
theorem not_rolesAgree_emptyInside :
    ¬ RolesAgree (coupledStudy [1, 0, 1]) 0 "heat" coupledGroup [5, 7] [6, 8] := by
  intro agree
  obtain ⟨messages, delivered, _⟩ := agree.delivered 1 (by decide)
  have lost : (coupledStudy [1, 0, 1]).sobolMessages 0 "heat" ⟨4, 1⟩ = none := by decide +kernel
  cases lost.symm.trans delivered

end Melissa
