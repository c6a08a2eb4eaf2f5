import Melissa.Api.PlanLoops

/-! The messages of one round of `melissa_send` cover the global vector exactly. -/

namespace Melissa

open Blocks

section Messages

theorem sendLoop_eq (plan : FieldPlan) (rank j : Nat) (pairs : List (Nat × Nat)) :
    sendLoop plan rank j pairs =
      ((((pairs.filter fun pair => pair.1 == rank).map Prod.snd).zipIdx j).map fun item =>
        { pusher := item.2, pullRank := item.1, start := plan.sdispls.getD item.1 0
          count := plan.sendCounts.getD item.1 0 }) := by
  induction pairs generalizing j with
  | nil => rfl
  | cons pair rest ih =>
      obtain ⟨pushRank, pullRank⟩ := pair
      by_cases mine : rank = pushRank
      · subst mine
        simp [sendLoop, ih]
      · have other : ¬ pushRank = rank := Ne.symm mine
        simp [sendLoop, ih, mine, other]

/-- Message `k` goes through pusher `k`, which is connected to the server rank it is meant for. -/
theorem melissaSend_push {plan : FieldPlan} {rank : Nat} {push : Push}
    (sent : push ∈ melissaSend plan rank) :
    (dataPushers plan rank)[push.pusher]? = some push.pullRank ∧
      push.start = plan.sdispls.getD push.pullRank 0 ∧
      push.count = plan.sendCounts.getD push.pullRank 0 := by
  rw [melissaSend, sendLoop_eq, List.mem_map] at sent
  obtain ⟨item, member, rfl⟩ := sent
  exact ⟨List.mem_zipIdx_iff_getElem?.mp member, rfl, rfl⟩

theorem melissaSend_pullRanks (plan : FieldPlan) (rank : Nat) :
    (melissaSend plan rank).map Push.pullRank = dataPushers plan rank := by
  rw [melissaSend, sendLoop_eq, List.map_map]
  exact List.zipIdx_map_fst 0 _

theorem mem_dataPushers {plan : FieldPlan} {rank s : Nat} :
    s ∈ dataPushers plan rank ↔ (rank, s) ∈ plan.pushRank.zip plan.pullRank := by
  simp [dataPushers, List.mem_map, List.mem_filter]

/-- The global indices a message of client rank `rank` carries. -/
def carried (localVectSizes : List Nat) (rank : Nat) (push : Push) : List Nat :=
  List.range' (offset localVectSizes rank + push.start) push.count

/-- The global indices of one round of `melissa_send`, client rank after client rank. -/
def roundIndices (localVectSizes serverSizes : List Nat) : List Nat :=
  (List.range localVectSizes.length).flatMap fun rank =>
    (melissaSend (commNToMInit localVectSizes serverSizes rank) rank).flatMap
      (carried localVectSizes rank)

end Messages

section Steady

variable {localVectSizes serverSizes : List Nat}

/-- What the plan needs of the two partitions: no empty block before the last element. -/
structure Aligned (localVectSizes serverSizes : List Nat) : Prop where
  clients : localVectSizes ≠ []
  servers : serverSizes ≠ []
  clientsSteady : Steady localVectSizes
  serversSteady : Steady serverSizes
  same : serverSizes.sum = localVectSizes.sum

theorem pair_known (aligned : Aligned localVectSizes serverSizes) {pair : Nat × Nat}
    (member : pair ∈ changes (ranksAfter localVectSizes serverSizes) (localVectSizes.sum + 1)) :
    pair.1 < localVectSizes.length ∧ pair.2 < serverSizes.length := by
  obtain ⟨i, inside, here⟩ := mem_changes.mp member
  cases i with
  | zero =>
      rw [← here]
      exact ⟨List.length_pos_iff.mpr aligned.clients, List.length_pos_iff.mpr aligned.servers⟩
  | succ i =>
      have owned := (pairAt_eq_iff aligned.clientsSteady aligned.serversSteady aligned.same
        (Nat.lt_of_succ_lt_succ inside)).mp here
      exact ⟨owns_length owned.1, owns_length owned.2⟩

/-- A message carries the interval its two ranks have in common. -/
theorem carried_eq (aligned : Aligned localVectSizes serverSizes) {rank : Nat} {push : Push}
    (sent : push ∈ melissaSend (commNToMInit localVectSizes serverSizes rank) rank) :
    carried localVectSizes rank push =
      indicesOf (pairAt localVectSizes serverSizes) localVectSizes.sum (rank, push.pullRank) := by
  obtain ⟨pusher, start, count⟩ := melissaSend_push sent
  have member := mem_dataPushers.mp (List.mem_of_getElem? pusher)
  rw [commNToMInit_pairs] at member
  have known := (pair_known aligned member).2
  rw [carried, start, count, sendCounts_eq_overlap aligned.clientsSteady
    aligned.serversSteady aligned.same known,
    indicesOf_pairAt aligned.clientsSteady aligned.serversSteady aligned.same]
  rcases Nat.eq_zero_or_pos (overlap localVectSizes serverSizes rank push.pullRank)
    with none' | some'
  · rw [none', List.range'_zero, List.range'_zero]
  · rw [sdispls_getD aligned.clientsSteady aligned.serversSteady aligned.same some' known]

/-- The messages of one rank carry, pair after pair, what its pairs have in common. -/
theorem rank_indices (aligned : Aligned localVectSizes serverSizes) (rank : Nat) :
    (melissaSend (commNToMInit localVectSizes serverSizes rank) rank).flatMap
        (carried localVectSizes rank) =
      ((changes (ranksAfter localVectSizes serverSizes) (localVectSizes.sum + 1)).filter
          fun pair => pair.1 == rank).flatMap
        (indicesOf (pairAt localVectSizes serverSizes) localVectSizes.sum) := by
  let plan := commNToMInit localVectSizes serverSizes rank
  let shared (s : Nat) : List Nat :=
    indicesOf (pairAt localVectSizes serverSizes) localVectSizes.sum (rank, s)
  calc
    _ = (melissaSend plan rank).flatMap fun push => shared push.pullRank :=
      List.flatMap_congr fun push sent => carried_eq aligned sent
    _ = (dataPushers plan rank).flatMap shared := by
      rw [← melissaSend_pullRanks, List.flatMap_map]
    _ = _ := by
      rw [dataPushers, commNToMInit_pairs, List.flatMap_map]
      apply List.flatMap_congr
      intro pair member
      have mine := (List.mem_filter.mp member).2
      rw [beq_iff_eq] at mine
      have whole : (rank, pair.2) = pair := by rw [← mine]
      exact congrArg (indicesOf _ _) whole

/-- One round carries every global index exactly once. -/
theorem roundIndices_eq (aligned : Aligned localVectSizes serverSizes) :
    roundIndices localVectSizes serverSizes = List.range localVectSizes.sum := by
  have climbs := ranksAfter_climbs localVectSizes serverSizes (localVectSizes.sum + 1)
  have sorted : (changes (ranksAfter localVectSizes serverSizes)
      (localVectSizes.sum + 1)).Pairwise fun a b => a.1 ≤ b.1 := by
    apply (changes_pairwise lexBelow_trans climbs).imp
    intro a b below
    rcases below with less | ⟨same, _⟩
    · exact Nat.le_of_lt less
    · exact Nat.le_of_eq same
  have everyone : (changes (ranksAfter localVectSizes serverSizes) (localVectSizes.sum + 1)).filter
      (fun pair => decide (pair.1 < localVectSizes.length)) =
      changes (ranksAfter localVectSizes serverSizes) (localVectSizes.sum + 1) := by
    rw [List.filter_eq_self]
    intro pair member
    exact decide_eq_true (pair_known aligned member).1
  calc
    _ = (List.range localVectSizes.length).flatMap fun rank =>
        ((changes (ranksAfter localVectSizes serverSizes) (localVectSizes.sum + 1)).filter
          fun pair => pair.1 == rank).flatMap
            (indicesOf (pairAt localVectSizes serverSizes) localVectSizes.sum) :=
      List.flatMap_congr fun rank _ => rank_indices aligned rank
    _ = (changes (ranksAfter localVectSizes serverSizes) (localVectSizes.sum + 1)).flatMap
        (indicesOf (pairAt localVectSizes serverSizes) localVectSizes.sum) := by
      rw [← List.flatMap_assoc, flatMap_filter_of_sorted sorted, everyone]
    _ = List.range localVectSizes.sum :=
      flatMap_indicesOf_next lexBelow_trans lexBelow_irrefl climbs

end Steady

section ExactCover

/-- The plans of all client ranks are an exact cover of the global vector: `pairs` are the push
and pull ranks of its messages. -/
structure ExactCover (localVectSizes serverSizes : List Nat) (pairs : List (Nat × Nat)) :
    Prop where
  sorted : pairs.Pairwise LexBelow
  intersect : ∀ r s, (r, s) ∈ pairs ↔ ∃ i, Owns localVectSizes r i ∧ Owns serverSizes s i
  everywhere : ∀ rank < localVectSizes.length,
    (commNToMInit localVectSizes serverSizes rank).pushRank = pairs.map Prod.fst ∧
      (commNToMInit localVectSizes serverSizes rank).pullRank = pairs.map Prod.snd ∧
      (commNToMInit localVectSizes serverSizes rank).totalNbMessages = pairs.length
  localMessages : ∀ rank < localVectSizes.length,
    (commNToMInit localVectSizes serverSizes rank).localNbMessages =
      (commNToMInit localVectSizes serverSizes rank).pushRank.count rank
  counts : ∀ rank < localVectSizes.length, ∀ s < serverSizes.length,
    (commNToMInit localVectSizes serverSizes rank).sendCounts.getD s 0 =
      overlap localVectSizes serverSizes rank s
  starts : ∀ rank < localVectSizes.length, ∀ s < serverSizes.length,
    0 < overlap localVectSizes serverSizes rank s →
      offset localVectSizes rank + (commNToMInit localVectSizes serverSizes rank).sdispls.getD s 0 =
        overlapStart localVectSizes serverSizes rank s
  connected : ∀ rank < localVectSizes.length,
    (dataPushers (commNToMInit localVectSizes serverSizes rank) rank).length =
        (commNToMInit localVectSizes serverSizes rank).localNbMessages ∧
      ∀ push ∈ melissaSend (commNToMInit localVectSizes serverSizes rank) rank,
        (dataPushers (commNToMInit localVectSizes serverSizes rank) rank)[push.pusher]? =
          some push.pullRank
  owned : ∀ rank < localVectSizes.length,
    ∀ push ∈ melissaSend (commNToMInit localVectSizes serverSizes rank) rank,
      ∀ i ∈ carried localVectSizes rank push,
        Owns localVectSizes rank i ∧ Owns serverSizes push.pullRank i
  once : roundIndices localVectSizes serverSizes = List.range localVectSizes.sum

variable {localVectSizes serverSizes : List Nat}

theorem localNbMessages_eq (rank : Nat) :
    (commNToMInit localVectSizes serverSizes rank).localNbMessages =
        (commNToMInit localVectSizes serverSizes rank).pushRank.count rank ∧
      (dataPushers (commNToMInit localVectSizes serverSizes rank) rank).length =
        (commNToMInit localVectSizes serverSizes rank).localNbMessages := by
  have counted :=
    (countLoop_messages localVectSizes serverSizes rank localVectSizes.sum).2
  constructor
  · rw [commNToMInit, counted, List.count, List.countP_map]
    rfl
  · rw [dataPushers, commNToMInit_pairs, List.length_map, ← List.countP_eq_length_filter,
      ← (pairLoop_spec localVectSizes serverSizes localVectSizes.sum).2.2, commNToMInit, counted]

theorem carried_owned (aligned : Aligned localVectSizes serverSizes) {rank : Nat} {push : Push}
    (sent : push ∈ melissaSend (commNToMInit localVectSizes serverSizes rank) rank) {i : Nat}
    (member : i ∈ carried localVectSizes rank push) :
    Owns localVectSizes rank i ∧ Owns serverSizes push.pullRank i := by
  rw [carried_eq aligned sent] at member
  obtain ⟨inside, attributed⟩ := mem_indicesOf.mp member
  exact (pairAt_eq_iff aligned.clientsSteady aligned.serversSteady aligned.same inside).mp
    attributed

theorem mem_pairs_of_owns (aligned : Aligned localVectSizes serverSizes) {r s i : Nat}
    (client : Owns localVectSizes r i) (server : Owns serverSizes s i) :
    (r, s) ∈ changes (ranksAfter localVectSizes serverSizes) (localVectSizes.sum + 1) := by
  have inside := owns_lt_sum client
  have attributed := (pairAt_eq_iff aligned.clientsSteady aligned.serversSteady aligned.same
    inside).mpr ⟨client, server⟩
  exact mem_changes.mpr ⟨i + 1, Nat.succ_lt_succ inside, attributed⟩

/-- When the first element belongs to rank 0 on both sides, no pair is empty. -/
theorem mem_pairs_iff (aligned : Aligned localVectSizes serverSizes)
    (first : Owns localVectSizes 0 0) (first' : Owns serverSizes 0 0) (r s : Nat) :
    (r, s) ∈ changes (ranksAfter localVectSizes serverSizes) (localVectSizes.sum + 1) ↔
      ∃ i, Owns localVectSizes r i ∧ Owns serverSizes s i := by
  constructor
  · intro member
    obtain ⟨i, inside, here⟩ := mem_changes.mp member
    cases i with
    | zero =>
        cases here
        exact ⟨0, first, first'⟩
    | succ i =>
        exact ⟨i, (pairAt_eq_iff aligned.clientsSteady aligned.serversSteady aligned.same
          (Nat.lt_of_succ_lt_succ inside)).mp here⟩
  · intro common
    obtain ⟨i, client, server⟩ := common
    exact mem_pairs_of_owns aligned client server

theorem aligned_of_pos {nbProcServer : Nat} (clients : localVectSizes ≠ [])
    (positive : ∀ size ∈ localVectSizes, 0 < size) (servers : 0 < nbProcServer) :
    Aligned localVectSizes (serverVectSize localVectSizes.sum nbProcServer) where
  clients := clients
  servers := List.length_pos_iff.mp (by simpa [serverVectSize] using servers)
  clientsSteady := steady_of_pos positive
  serversSteady := steady_evenSizes _ servers
  same := evenSizes_sum _ servers

/-- Whatever the numbers of ranks and the local sizes, if the global size is an `int` the plan of
`comm_n_to_m_init` is an exact cover, and one round of `melissa_send` delivers it. -/
theorem commNToMInit_exactCover (localVectSizes : List Nat) (nbProcServer : Nat)
    (clients : localVectSizes ≠ []) (positive : ∀ size ∈ localVectSizes, 0 < size)
    (servers : 0 < nbProcServer) (small : localVectSizes.sum < 2 ^ 31) :
    ∃ vectSize, globalVectSize localVectSizes = some vectSize ∧
      ∃ pairs, ExactCover localVectSizes (serverVectSize vectSize nbProcServer) pairs := by
  have aligned := aligned_of_pos clients positive servers
  have first : Owns localVectSizes 0 0 := by
    rw [owns_zero_iff, List.getD_eq_getElem _ _ (List.length_pos_iff.mpr clients)]
    exact positive _ (List.getElem_mem _)
  have first' : Owns (serverVectSize localVectSizes.sum nbProcServer) 0 0 :=
    owns_zero_iff.mpr (evenSizes_first (owns_lt_sum first) servers)
  refine ⟨_, globalVectSize_of_lt small,
    changes (ranksAfter localVectSizes (serverVectSize localVectSizes.sum nbProcServer))
      (localVectSizes.sum + 1), ?_⟩
  exact {
    sorted := changes_pairwise lexBelow_trans (ranksAfter_climbs _ _ _)
    intersect := mem_pairs_iff aligned first first'
    everywhere := by
      intro rank _
      have loop := pairLoop_spec localVectSizes (serverVectSize localVectSizes.sum nbProcServer)
        localVectSizes.sum
      rw [← loop.2.2]
      exact ⟨rfl, rfl, (countLoop_messages _ _ rank _).1⟩
    localMessages := fun rank _ => (localNbMessages_eq rank).1
    counts := fun rank _ s known => sendCounts_eq_overlap aligned.clientsSteady
      aligned.serversSteady aligned.same known
    starts := fun rank _ s known common => sdispls_getD aligned.clientsSteady
      aligned.serversSteady aligned.same common known
    connected := fun rank _ =>
      ⟨(localNbMessages_eq rank).2, fun push sent => (melissaSend_push sent).1⟩
    owned := fun rank _ push sent i member => carried_owned aligned sent member
    once := roundIndices_eq aligned }

theorem commNToMInit_exactCover_threeToTwo :
    ∃ vectSize, globalVectSize [2, 1, 3] = some vectSize ∧
      ∃ pairs, ExactCover [2, 1, 3] (serverVectSize vectSize 2) pairs :=
  commNToMInit_exactCover [2, 1, 3] 2 (by decide) (by decide) (by decide) (by decide)

/-- Two client ranks with `2 ^ 30` elements each: `global_vect_size` overflows. -/
theorem not_commNToMInit_exactCover_overflow : ¬ ∀ (localVectSizes : List Nat) (nbProcServer : Nat),
    localVectSizes ≠ [] → (∀ size ∈ localVectSizes, 0 < size) → 0 < nbProcServer →
    ∃ vectSize, globalVectSize localVectSizes = some vectSize ∧
      ∃ pairs, ExactCover localVectSizes (serverVectSize vectSize nbProcServer) pairs := by
  intro always
  have overflow : globalVectSize [2 ^ 30, 2 ^ 30] = none :=
    globalVectSize_eq_none.mpr (by decide)
  obtain ⟨vectSize, sum, _⟩ := always [2 ^ 30, 2 ^ 30] 1 (by decide) (by decide) (by decide)
  rw [overflow] at sum
  cases sum

example : (commNToMInit [2, 1, 3] (serverVectSize 6 2) 1).sendCounts = [1, 0] := by decide

end ExactCover

end Melissa
