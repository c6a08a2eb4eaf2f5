import Melissa.Api.Cover
import Melissa.Output.Gather

/-! Scatter then gather: when one round of the clients, stored on the server ranks, is put
together again as the concatenation of the local vectors. -/

namespace Melissa

open Arrays Blocks

section Pipeline

variable {D : Type}

/-- The vector server rank `s` stores for a client rank: its first message. -/
def storedVector (sent : List (Nat × List D)) (s : Nat) : List D :=
  match sent.find? fun message => message.1 == s with
  | some message => message.2
  | none => []

/-- The buffer handed to `write_output_d` after one round of all client ranks; none if a client
rank reads outside its local vector. -/
def writeRound (learning : Bool) (nbProcServer : Nat) (freshGather : Nat → D)
    (fresh : Nat → Nat → D) (clients : List (List D)) : Option (List D) :=
  (sendRounds learning nbProcServer freshGather clients).map fun rounds =>
    writtenBuffer fresh
      ((List.range nbProcServer).map fun s => rounds.map fun sent => storedVector sent s)

theorem storedVector_eq {sent : List (Nat × List D)} {s : Nat} {value : List D}
    (same : ∀ message ∈ sent, message.1 = s → message.2 = value)
    (present : value ≠ [] → ∃ message ∈ sent, message.1 = s) : storedVector sent s = value := by
  unfold storedVector
  cases found : sent.find? fun message => message.1 == s with
  | some message =>
      exact same message (List.mem_of_find?_eq_some found) (by simpa using List.find?_some found)
  | none =>
      by_contra other
      obtain ⟨message, member, here⟩ := present (Ne.symm other)
      have absent := List.find?_eq_none.mp found message member
      simp [here] at absent

theorem readVector_eq {vector : List D} {start count : Nat}
    (inside : count = 0 ∨ start + count ≤ vector.length) :
    readVector vector start count = some ((vector.drop start).take count) := by
  rw [readVector]
  rcases inside with empty | inside
  · rw [if_pos empty, empty, List.take_zero]
  · split
    · rename_i empty
      rw [empty, List.take_zero]
    · rfl

theorem sendRound_eq {plan : FieldPlan} {rank : Nat} {sendVect : List D}
    (inside : ∀ push ∈ melissaSend plan rank, push.count = 0 ∨
      push.start + push.count ≤ sendVect.length) :
    sendRound plan rank sendVect = some ((melissaSend plan rank).map fun push =>
      (push.pullRank, (sendVect.drop push.start).take push.count)) := by
  apply mapM_eq_some
  intro push sent
  have target : (dataPushers plan rank).getD push.pusher 0 = push.pullRank := by
    rw [List.getD_eq_getElem?_getD, (melissaSend_push sent).1]
    rfl
  rw [target, readVector_eq (inside push sent)]
  rfl

theorem sendRound_eq_none {plan : FieldPlan} {rank : Nat} {sendVect : List D} {push : Push}
    (sent : push ∈ melissaSend plan rank) (positive : 0 < push.count)
    (outside : sendVect.length < push.start + push.count) :
    sendRound plan rank sendVect = none := by
  apply mapM_eq_none sent
  rw [readVector, if_neg (by omega), if_neg (by omega)]
  rfl

/-- A local vector is its block of the global vector. -/
theorem drop_take_client (clients : List (List D)) {rank start count : Nat}
    (inside : start + count ≤ (clients.getD rank []).length) :
    ((clients.getD rank []).drop start).take count =
      pick clients.flatten
        (List.range' (offset (clients.map List.length) rank + start) count) := by
  by_cases known : rank < clients.length
  · have front : offset (clients.map List.length) rank = (clients.take rank).flatten.length :=
      offset_map_length clients rank
    have split : clients.flatten =
        (clients.take rank).flatten ++
          (clients.getD rank [] ++ (clients.drop (rank + 1)).flatten) := by
      rw [List.getD_eq_getElem _ _ known, ← List.flatten_cons, ← List.flatten_append,
        ← List.drop_eq_getElem_cons known, List.take_append_drop]
    have room : offset (clients.map List.length) rank + start + count ≤
        clients.flatten.length := by
      rw [split, front]
      simp only [List.length_append]
      omega
    have rest : count ≤ ((clients.getD rank []).drop start).length := by
      rw [List.length_drop]
      omega
    rw [pick_range' _ room, ← List.drop_drop, split, front, List.drop_left,
      List.drop_append_of_le_length (by omega), List.take_append_of_le_length rest]
  · rw [List.getD_eq_default _ _ (by omega)] at inside ⊢
    have none_left : count = 0 := Nat.le_zero.mp (Nat.le_of_add_left_le inside)
    simp [none_left, pick]

/-- What lies in slot `k` of a buffer of slots of one size. -/
theorem drop_take_slot {slots : List (List D)} {size k start count : Nat}
    (uniform : ∀ slot ∈ slots, slot.length = size) (known : k < slots.length)
    (inside : start + count ≤ size) :
    (slots.flatten.drop (k * size + start)).take count =
      ((slots.getD k []).drop start).take count := by
  have own : (slots.getD k []).length = size := by
    rw [List.getD_eq_getElem _ _ known]
    exact uniform _ (List.getElem_mem known)
  have sizes : ∀ other ∈ slots.map List.length, other = size := by
    intro other member
    obtain ⟨slot, listed, rfl⟩ := List.mem_map.mp member
    exact uniform slot listed
  have position : offset (slots.map List.length) k = k * size :=
    offset_uniform sizes (by rw [List.length_map]; exact Nat.le_of_lt known)
  have room := offset_le_sum (slots.map List.length) (k + 1)
  rw [offset_uniform sizes (by rw [List.length_map]; exact known), Nat.succ_mul,
    ← List.length_flatten] at room
  rw [drop_take_client slots (by omega), position, pick_range' _ (by omega)]

/-- If every server rank stores its part of the global vector, the gather returns the vector. -/
theorem writtenBuffer_of_stored {nbClients nbProcServer : Nat} (servers : 0 < nbProcServer)
    {values : List D} {sent : Nat → List (Nat × List D)} (fresh : Nat → Nat → D)
    (part : Nat → Nat → List Nat)
    (stored : ∀ s < nbProcServer, ∀ r < nbClients,
      storedVector (sent r) s = pick values (part r s))
    (cover : ∀ s < nbProcServer, (List.range nbClients).flatMap (fun r => part r s) =
      List.range' (offset (serverVectSize values.length nbProcServer) s)
        ((serverVectSize values.length nbProcServer).getD s 0)) :
    writtenBuffer fresh ((List.range nbProcServer).map fun s =>
      ((List.range nbClients).map sent).map fun sent => storedVector sent s) = values := by
  have sum := evenSizes_sum values.length servers
  have own (s : Nat) (known : s ∈ List.range nbProcServer) :
      (((List.range nbClients).map sent).map fun sent => storedVector sent s).flatten =
        pick values (List.range' (offset (serverVectSize values.length nbProcServer) s)
          ((serverVectSize values.length nbProcServer).getD s 0)) := by
    rw [List.mem_range] at known
    rw [← cover s known, ← pick_flatMap, List.map_map, List.flatMap]
    congr 1
    exact List.map_congr_left fun r member => stored s known r (List.mem_range.mp member)
  calc
    _ = (List.range nbProcServer).flatMap fun s =>
        (((List.range nbClients).map sent).map fun sent => storedVector sent s).flatten := by
      rw [writtenBuffer_eq, List.map_map, List.flatMap]
      rfl
    _ = pick values ((List.range nbProcServer).flatMap fun s =>
        List.range' (offset (serverVectSize values.length nbProcServer) s)
          ((serverVectSize values.length nbProcServer).getD s 0)) := by
      rw [← pick_flatMap]
      exact List.flatMap_congr own
    _ = values := by
      rw [flatMap_blocks, offset_of_length_le (by simp [serverVectSize]), serverVectSize, sum,
        pick_range]

end Pipeline

section NToM

variable {D : Type} {clients : List (List D)} {nbProcServer : Nat}

theorem aligned_serverVectSize (filled : 0 < clients.flatten.length) (servers : 0 < nbProcServer)
    (steady : Steady (clients.map List.length)) :
    Aligned (clients.map List.length)
      (serverVectSize (clients.map List.length).sum nbProcServer) where
  clients := by
    intro none_left
    rw [List.map_eq_nil_iff] at none_left
    simp [none_left] at filled
  servers := List.length_pos_iff.mp (by simpa [serverVectSize] using servers)
  clientsSteady := steady
  serversSteady := steady_evenSizes _ servers
  same := evenSizes_sum _ servers

/-- A message of a steady plan stays inside the local vector. -/
theorem push_inside {serverSizes : List Nat}
    (aligned : Aligned (clients.map List.length) serverSizes) {rank : Nat} {push : Push}
    (sent : push ∈ melissaSend (commNToMInit (clients.map List.length) serverSizes rank) rank) :
    push.count = 0 ∨ push.start + push.count ≤ (clients.getD rank []).length := by
  rcases Nat.eq_zero_or_pos push.count with empty | positive
  · exact Or.inl empty
  · have last : offset (clients.map List.length) rank + push.start + (push.count - 1) ∈
        carried (clients.map List.length) rank push := by
      rw [carried, List.mem_range'_1]
      omega
    have owned := (carried_owned aligned sent last).1.2
    have size : (clients.map List.length).getD rank 0 = (clients.getD rank []).length := by
      rw [← List.length_nil, List.getD_map]
    rw [offset_succ, size] at owned
    exact Or.inr (by omega)

/-- A message of a steady plan carries what its two ranks have in common. -/
theorem push_block {serverSizes : List Nat}
    (aligned : Aligned (clients.map List.length) serverSizes) {rank : Nat} {push : Push}
    (sent : push ∈ melissaSend (commNToMInit (clients.map List.length) serverSizes rank) rank) :
    ((clients.getD rank []).drop push.start).take push.count =
      pick clients.flatten
        (List.range' (overlapStart (clients.map List.length) serverSizes rank push.pullRank)
          (overlap (clients.map List.length) serverSizes rank push.pullRank)) := by
  rw [← indicesOf_pairAt aligned.clientsSteady aligned.serversSteady aligned.same,
    ← carried_eq aligned sent, carried]
  rcases push_inside aligned sent with empty | inside
  · rw [empty]
    simp [pick]
  · exact drop_take_client clients inside

theorem storedVector_nToM {serverSizes : List Nat}
    (aligned : Aligned (clients.map List.length) serverSizes) (rank s : Nat) :
    storedVector ((melissaSend (commNToMInit (clients.map List.length) serverSizes rank) rank).map
        fun push => (push.pullRank, ((clients.getD rank []).drop push.start).take push.count)) s =
      pick clients.flatten (List.range' (overlapStart (clients.map List.length) serverSizes rank s)
        (overlap (clients.map List.length) serverSizes rank s)) := by
  apply storedVector_eq
  · intro message member here
    obtain ⟨push, sent, rfl⟩ := List.mem_map.mp member
    simp only at here ⊢
    rw [← here]
    exact push_block aligned sent
  · intro some_data
    rw [← indicesOf_pairAt aligned.clientsSteady aligned.serversSteady aligned.same] at some_data
    have not_empty : indicesOf (pairAt (clients.map List.length) serverSizes)
        (clients.map List.length).sum (rank, s) ≠ [] := by
      intro none_left
      rw [none_left] at some_data
      exact some_data rfl
    obtain ⟨i, member⟩ := List.exists_mem_of_ne_nil _ not_empty
    obtain ⟨inside, attributed⟩ := mem_indicesOf.mp member
    have owned := (pairAt_eq_iff aligned.clientsSteady aligned.serversSteady aligned.same
      inside).mp attributed
    have pair := mem_pairs_of_owns aligned owned.1 owned.2
    rw [← commNToMInit_pairs rank, ← mem_dataPushers, ← melissaSend_pullRanks] at pair
    obtain ⟨push, sent, here⟩ := List.mem_map.mp pair
    exact ⟨_, List.mem_map.mpr ⟨push, sent, rfl⟩, here⟩

/-- The intervals a server rank has in common with the first `n` client ranks, in order. -/
theorem flatMap_overlap {localVectSizes serverSizes : List Nat} (s n : Nat) :
    (List.range n).flatMap (fun r => List.range' (overlapStart localVectSizes serverSizes r s)
        (overlap localVectSizes serverSizes r s)) =
      List.range' (offset serverSizes s)
        (min (offset localVectSizes n) (offset serverSizes (s + 1)) - offset serverSizes s) := by
  induction n with
  | zero => simp
  | succ n ih =>
      rw [List.range_succ, List.flatMap_append, ih, List.flatMap_singleton]
      have client := offset_mono localVectSizes (Nat.le_add_right n 1)
      have server := offset_mono serverSizes (Nat.le_add_right s 1)
      unfold overlap overlapStart
      rcases Nat.lt_or_ge (offset serverSizes s) (offset localVectSizes (n + 1))
        with reached | before
      · rcases Nat.lt_or_ge (offset localVectSizes n) (offset serverSizes (s + 1)) with more | full
        · have next : max (offset localVectSizes n) (offset serverSizes s) = offset serverSizes s +
              (min (offset localVectSizes n) (offset serverSizes (s + 1)) -
                offset serverSizes s) := by
            omega
          rw [next, List.range'_append_1]
          congr 1
          omega
        · have none_left : min (offset localVectSizes (n + 1)) (offset serverSizes (s + 1)) -
              max (offset localVectSizes n) (offset serverSizes s) = 0 := by omega
          rw [none_left, List.range'_zero, List.append_nil]
          congr 1
          omega
      · have none_left : min (offset localVectSizes (n + 1)) (offset serverSizes (s + 1)) -
            max (offset localVectSizes n) (offset serverSizes s) = 0 := by omega
        rw [none_left, List.range'_zero, List.append_nil]
        congr 1
        omega

/-- Without an empty client rank inside, scatter then gather is the identity. -/
theorem writeRound_nToM (filled : 0 < clients.flatten.length)
    (small : (clients.map List.length).sum < 2 ^ 31) (servers : 0 < nbProcServer)
    (steady : Steady (clients.map List.length)) (freshGather : Nat → D) (fresh : Nat → Nat → D) :
    writeRound false nbProcServer freshGather fresh clients = some clients.flatten := by
  have aligned := aligned_serverVectSize filled servers steady
  have rounds : sendRounds false nbProcServer freshGather clients = some
      ((List.range clients.length).map fun rank =>
        (melissaSend (commNToMInit (clients.map List.length)
            (serverVectSize (clients.map List.length).sum nbProcServer) rank) rank).map fun push =>
          (push.pullRank, ((clients.getD rank []).drop push.start).take push.count)) := by
    rw [sendRounds, globalVectSize_of_lt small, Option.bind_some]
    exact mapM_eq_some fun rank _ => sendRound_eq fun push sent => push_inside aligned sent
  rw [writeRound, rounds, Option.map_some]
  congr 1
  apply writtenBuffer_of_stored servers fresh fun r s => List.range' (overlapStart _ _ r s)
    (overlap _ _ r s)
  · exact fun s _ r _ => storedVector_nToM aligned r s
  · intro s _
    have last := offset_le_sum (serverVectSize (clients.map List.length).sum nbProcServer) (s + 1)
    rw [aligned.same] at last
    have all_clients : offset (clients.map List.length) clients.length =
        (clients.map List.length).sum := offset_of_length_le (by simp)
    rw [List.length_flatten, flatMap_overlap, all_clients, Nat.min_eq_right last, offset_succ,
      Nat.add_sub_cancel_left]

/-- If an empty client rank has a later rank with elements, some rank without elements is given
one to send. -/
theorem exists_push_gap {localVectSizes : List Nat} (servers : 0 < nbProcServer)
    (gap : ¬ Steady localVectSizes) :
    ∃ rank < localVectSizes.length, localVectSizes.getD rank 0 = 0 ∧
      ∃ push ∈ melissaSend (commNToMInit localVectSizes
        (serverVectSize localVectSizes.sum nbProcServer) rank) rank, 0 < push.count := by
  obtain ⟨rank, known, i, inside, reached, empty⟩ := exists_walk_gap gap
  have sum := evenSizes_sum localVectSizes.sum servers
  have owned := owns_walk_of_steady (steady_evenSizes localVectSizes.sum servers)
    (by rw [sum]; exact inside : i < _)
  have attributed : pairAt localVectSizes (serverVectSize localVectSizes.sum nbProcServer) i =
      (rank, (walk (serverVectSize localVectSizes.sum nbProcServer) (i + 1)).rank) := by
    rw [pairAt, ranksAfter, reached]
  have pair := mem_changes.mpr ⟨i + 1, Nat.succ_lt_succ inside, attributed⟩
  rw [← commNToMInit_pairs rank, ← mem_dataPushers, ← melissaSend_pullRanks] at pair
  obtain ⟨push, sent, here⟩ := List.mem_map.mp pair
  have counted := (countLoop_sendCounts localVectSizes
    (serverVectSize localVectSizes.sum nbProcServer) rank
    localVectSizes.sum).2 push.pullRank (by rw [here]; exact owns_length owned)
  have positive : 0 < push.count := by
    rw [(melissaSend_push sent).2.2, commNToMInit, counted, here]
    exact List.length_pos_of_mem (mem_indicesOf.mpr ⟨inside, attributed⟩)
  exact ⟨rank, known, empty, push, sent, positive⟩

theorem sendRound_gap (servers : 0 < nbProcServer) (gap : ¬ Steady (clients.map List.length)) :
    ∃ rank < clients.length, sendRound (commNToMInit (clients.map List.length)
        (serverVectSize (clients.map List.length).sum nbProcServer) rank) rank
      (clients.getD rank []) = none := by
  obtain ⟨rank, known, empty, push, sent, positive⟩ := exists_push_gap servers gap
  rw [List.length_map] at known
  have vector : (clients.getD rank []).length = 0 := by
    rw [← empty, ← List.length_nil, List.getD_map]
  exact ⟨rank, known, sendRound_eq_none sent positive (by omega)⟩

end NToM

section OneToM

variable {D : Type} {clients : List (List D)} {nbProcServer : Nat}

theorem displacements_getD (sizes : List Nat) {s : Nat} (known : s < sizes.length) :
    (displacements sizes).getD s 0 = offset sizes s := by
  rw [List.getD_eq_getElem _ _ (by simpa [displacements] using known)]
  simp [displacements]

/-- The gather on rank 0 puts the local vectors one after the other. -/
theorem filled_mpiGatherv {total : Nat} {buffer : List D} (allocated : buffer.length = total)
    (room : clients.flatten.length ≤ total) {n : Nat} (known : n ≤ clients.length) :
    Filled total (clients.take n).flatten
      (mpiGatherv (clients.map List.length) (displacements (clients.map List.length)) clients
        buffer n) := by
  induction n with
  | zero => exact filled_nil allocated
  | succ n ih =>
      have inside : n < clients.length := known
      have grown : (clients.take (n + 1)).flatten =
          (clients.take n).flatten ++ clients.getD n [] := by
        rw [List.take_succ_eq_append_getElem inside, List.flatten_append,
          List.getD_eq_getElem _ _ inside]
        simp
      have front : (clients.take (n + 1)).flatten.length ≤ clients.flatten.length := by
        rw [← offset_map_length, List.length_flatten]
        exact offset_le_sum _ _
      have size : (clients.map List.length).getD n 0 = (clients.getD n []).length := by
        rw [← List.length_nil, List.getD_map]
      rw [grown, List.length_append] at front
      rw [mpiGatherv, displacements_getD _ (by simpa using inside), offset_map_length, size,
        List.take_length, grown]
      exact filled_copyAt (ih (Nat.le_of_lt inside)) (Nat.le_trans front room)

theorem mpiGatherv_eq (freshGather : Nat → D) :
    mpiGatherv (clients.map List.length) (displacements (clients.map List.length)) clients
        ((List.range (clients.map List.length).sum).map freshGather) clients.length =
      clients.flatten := by
  have allocated : ((List.range (clients.map List.length).sum).map freshGather).length =
      clients.flatten.length := by
    simp [List.length_flatten]
  have filled := filled_mpiGatherv allocated (le_refl _) (le_refl clients.length)
  rw [List.take_length] at filled
  exact filled.eq_of_full rfl

theorem dataPushers_oneToM (serverSizes : List Nat) (rank : Nat) :
    (((comm1ToMInit serverSizes rank).pushRank.zip
        (comm1ToMInit serverSizes rank).pullRank).filter fun pair => pair.1 == rank).map Prod.snd =
      if rank = 0 then List.range serverSizes.length else [] := by
  have pairs : (comm1ToMInit serverSizes rank).pushRank.zip
      (comm1ToMInit serverSizes rank).pullRank =
        (List.range serverSizes.length).map fun s => (0, s) := by
    apply List.ext_getElem
    · simp [comm1ToMInit]
    · intro s _ _
      simp [comm1ToMInit]
  rw [pairs, List.filter_map, List.map_map]
  split
  · rename_i root
    simp [root, Function.comp_def]
  · rename_i other
    simp [Ne.symm other, Function.comp_def]

theorem melissaSend_oneToM (serverSizes : List Nat) :
    melissaSend (comm1ToMInit serverSizes 0) 0 = (List.range serverSizes.length).map fun s =>
      { pusher := s, pullRank := s, start := offset serverSizes s
        count := serverSizes.getD s 0 } := by
  rw [melissaSend, sendLoop_eq, dataPushers_oneToM, if_pos rfl]
  apply List.ext_getElem
  · simp
  · intro s _ known
    have inside : s < serverSizes.length := by simpa using known
    have start := displacements_getD serverSizes inside
    rw [List.getD_eq_getElem?_getD] at start
    simp [comm1ToMInit, start]

theorem melissaSend_oneToM_other (serverSizes : List Nat) {rank : Nat} (other : rank ≠ 0) :
    melissaSend (comm1ToMInit serverSizes rank) rank = [] := by
  rw [melissaSend, sendLoop_eq, dataPushers_oneToM, if_neg other]
  rfl

/-- After the gather rank 0 sends every server rank its part, and the others send nothing. -/
theorem sendRounds_oneToM (small : (clients.map List.length).sum < 2 ^ 31)
    (servers : 0 < nbProcServer) (freshGather : Nat → D) :
    sendRounds true nbProcServer freshGather clients = some
      ((List.range clients.length).map fun rank =>
        (melissaSend (comm1ToMInit (serverVectSize (clients.map List.length).sum nbProcServer) rank)
          rank).map fun push =>
            (push.pullRank, (clients.flatten.drop push.start).take push.count)) := by
  have sum : (serverVectSize (clients.map List.length).sum nbProcServer).sum =
      clients.flatten.length := by
    rw [List.length_flatten]
    exact evenSizes_sum _ servers
  rw [sendRounds, globalVectSize_of_lt small, Option.bind_some]
  apply mapM_eq_some
  intro rank _
  by_cases root : rank = 0
  · subst root
    simp only [gathervInit, if_true, mpiGatherv_eq]
    apply sendRound_eq
    intro push sent
    rw [melissaSend_oneToM] at sent
    obtain ⟨s, _, rfl⟩ := List.mem_map.mp sent
    have last := offset_le_sum (serverVectSize (clients.map List.length).sum nbProcServer) (s + 1)
    rw [offset_succ, sum] at last
    exact Or.inr last
  · simp only [gathervInit, if_true, if_neg root, sendRound, melissaSend_oneToM_other _ root]
    rfl

/-- With all data gathered on rank 0 first, scatter then gather is the identity. -/
theorem writeRound_oneToM (filled : 0 < clients.flatten.length)
    (small : (clients.map List.length).sum < 2 ^ 31) (servers : 0 < nbProcServer)
    (freshGather : Nat → D) (fresh : Nat → Nat → D) :
    writeRound true nbProcServer freshGather fresh clients = some clients.flatten := by
  let sizes := serverVectSize (clients.map List.length).sum nbProcServer
  have sum : sizes.sum = clients.flatten.length := by
    rw [List.length_flatten]
    exact evenSizes_sum _ servers
  rw [writeRound, sendRounds_oneToM small servers freshGather, Option.map_some]
  congr 1
  apply writtenBuffer_of_stored servers fresh fun r s =>
    if r = 0 then List.range' (offset sizes s) (sizes.getD s 0) else []
  · intro s known r _
    by_cases root : r = 0
    · subst root
      rw [if_pos rfl, melissaSend_oneToM]
      apply storedVector_eq
      · intro message member here
        obtain ⟨push, sent, rfl⟩ := List.mem_map.mp member
        obtain ⟨s', _, rfl⟩ := List.mem_map.mp sent
        simp only at here ⊢
        subst here
        have last := offset_le_sum sizes (s' + 1)
        rw [offset_succ, sum] at last
        exact (pick_range' _ last).symm
      · intro _
        have listed : s ∈ List.range sizes.length := by simpa [sizes, serverVectSize] using known
        exact ⟨_, List.mem_map_of_mem (List.mem_map_of_mem listed), rfl⟩
    · rw [if_neg root, melissaSend_oneToM_other sizes root]
      rfl
  · intro s _
    have ranks : clients.length = clients.length - 1 + 1 := by
      cases clients with
      | nil => simp at filled
      | cons first rest => rfl
    rw [ranks, List.range_succ_eq_map, List.flatMap_cons, List.flatMap_map, if_pos rfl,
      List.length_flatten]
    have others : (List.range (clients.length - 1)).flatMap (fun r =>
        if r.succ = 0 then List.range' (offset sizes s) (sizes.getD s 0) else []) = [] := by
      rw [List.flatMap_eq_nil_iff]
      exact fun r _ => if_neg (Nat.succ_ne_zero r)
    rw [others, List.append_nil]

end OneToM

section Identity

variable {D : Type}

/-- One round written out is the concatenation of the local vectors exactly when the global size is
an `int` and the data is gathered first or no empty client rank, rank 0 apart, has a later rank with
elements. -/
theorem scatterGather_iff (learning : Bool) (nbProcServer : Nat) (freshGather : Nat → D)
    (fresh : Nat → Nat → D) (clients : List (List D)) (servers : 0 < nbProcServer)
    (filled : 0 < clients.flatten.length) :
    writeRound learning nbProcServer freshGather fresh clients = some clients.flatten ↔
      (clients.map List.length).sum < 2 ^ 31 ∧
        (learning = true ∨ ∀ rank, offset (clients.map List.length) (rank + 1) <
          (clients.map List.length).sum → 0 < (clients.map List.length).getD (rank + 1) 0) := by
  constructor
  · intro same
    have small : (clients.map List.length).sum < 2 ^ 31 := by
      by_contra large
      have overflow := globalVectSize_eq_none.mpr (Nat.le_of_not_lt large)
      rw [writeRound, sendRounds, overflow] at same
      cases same
    refine ⟨small, ?_⟩
    cases learning with
    | true => exact Or.inl rfl
    | false =>
        right
        by_contra gap
        obtain ⟨rank, known, outside⟩ := sendRound_gap servers gap
        have lost : sendRounds false nbProcServer freshGather clients = none := by
          rw [sendRounds, globalVectSize_of_lt small, Option.bind_some]
          exact mapM_eq_none (List.mem_range.mpr known) outside
        rw [writeRound, lost] at same
        cases same
  · rintro ⟨small, either⟩
    cases learning with
    | true => exact writeRound_oneToM filled small servers freshGather fresh
    | false =>
        rcases either with gathered | steady
        · cases gathered
        · exact writeRound_nToM filled small servers steady freshGather fresh

theorem scatterGather_iff_emptyLast :
    writeRound false 2 (fun _ => 0) (fun _ _ => 0) ([[5], [7, 9], []] : List (List Nat)) =
      some [5, 7, 9] := by
  have steady : ∀ rank, offset [1, 2, 0] (rank + 1) < 3 → 0 < [1, 2, 0].getD (rank + 1) 0 := by
    intro rank short
    cases rank with
    | zero => decide
    | succ rank =>
        have past : offset [1, 2, 0] 2 ≤ offset [1, 2, 0] (rank + 1 + 1) :=
          offset_mono [1, 2, 0] (Nat.le_add_left 2 rank)
        have all : offset [1, 2, 0] 2 = 3 := rfl
        omega
  exact (scatterGather_iff false 2 (fun _ => 0) (fun _ _ => 0) [[5], [7, 9], []] (by decide)
    (by decide)).mpr ⟨by decide, Or.inr steady⟩

/-- The middle rank has no element: it is given the element of the last rank to send. -/
theorem not_scatterGather_emptyInside :
    ¬ writeRound false 1 (fun _ => 0) (fun _ _ => 0) ([[5], [], [7]] : List (List Nat)) =
      some [5, 7] := by
  decide

end Identity

end Melissa
