import Melissa.Api.Plan

/-! What the two loops of `comm_n_to_m_init` compute: the pairs of ranks the two cursors run
through, and for each pair the interval the two ranks have in common. -/

namespace Melissa

open Blocks

section Loops

variable (localVectSizes serverSizes : List Nat)

/-- The ranks of the two cursors after `n` elements. -/
def ranksAfter (n : Nat) : Nat × Nat :=
  ((walk localVectSizes n).rank, (walk serverSizes n).rank)

/-- The ranks the loops attribute element `i` to. -/
def pairAt (i : Nat) : Nat × Nat := ranksAfter localVectSizes serverSizes (i + 1)

/-- Lexicographic order on pairs of a push and a pull rank. -/
def LexBelow (a b : Nat × Nat) : Prop := a.1 < b.1 ∨ a.1 = b.1 ∧ a.2 < b.2

theorem lexBelow_trans (a b c : Nat × Nat) (first : LexBelow a b) (second : LexBelow b c) :
    LexBelow a c := by
  rcases first with less | ⟨same, less⟩
  · rcases second with less' | ⟨same', _⟩
    · exact Or.inl (by omega)
    · exact Or.inl (by omega)
  · rcases second with less' | ⟨same', less'⟩
    · exact Or.inl (by omega)
    · exact Or.inr ⟨by omega, by omega⟩

theorem lexBelow_irrefl (a : Nat × Nat) : ¬ LexBelow a a := by
  intro self
  rcases self with less | ⟨_, less⟩
  · omega
  · omega

/-- A message is new exactly when one of the two ranks changes. -/
theorem ranksAfter_step (n : Nat) :
    (((walk localVectSizes n).advance localVectSizes).2 ||
          ((walk serverSizes n).advance serverSizes).2) = false ∧
        ranksAfter localVectSizes serverSizes (n + 1) = ranksAfter localVectSizes serverSizes n ∨
      (((walk localVectSizes n).advance localVectSizes).2 ||
          ((walk serverSizes n).advance serverSizes).2) = true ∧
        LexBelow (ranksAfter localVectSizes serverSizes n)
          (ranksAfter localVectSizes serverSizes (n + 1)) := by
  rcases walk_step localVectSizes n with ⟨client, next⟩ | ⟨client, same⟩
  · exact Or.inr ⟨by simp [client], Or.inl (by simp only [ranksAfter]; omega)⟩
  · rcases walk_step serverSizes n with ⟨server, next⟩ | ⟨server, same'⟩
    · exact Or.inr ⟨by simp [server], Or.inr (by simp only [ranksAfter]; omega)⟩
    · exact Or.inl ⟨by simp [client, server], by simp [ranksAfter, same, same']⟩

theorem ranksAfter_climbs (n : Nat) :
    Climbs LexBelow (ranksAfter localVectSizes serverSizes) n := by
  intro i _
  rcases ranksAfter_step localVectSizes serverSizes i with ⟨_, same⟩ | ⟨_, up⟩
  · exact Or.inl same
  · exact Or.inr up

/-- The messages of the second loop are the pairs of ranks the cursors run through. -/
theorem pairLoop_spec (n : Nat) :
    (pairLoop localVectSizes serverSizes n).client = walk localVectSizes n ∧
      (pairLoop localVectSizes serverSizes n).server = walk serverSizes n ∧
      (pairLoop localVectSizes serverSizes n).pairs =
        changes (ranksAfter localVectSizes serverSizes) (n + 1) := by
  induction n with
  | zero => exact ⟨rfl, rfl, rfl⟩
  | succ n ih =>
      obtain ⟨client, server, pairs⟩ := ih
      simp only [pairLoop, pairElement, client, server, pairs]
      refine ⟨rfl, rfl, ?_⟩
      rw [changes]
      rcases ranksAfter_step localVectSizes serverSizes n with ⟨flag, same⟩ | ⟨flag, up⟩
      · rw [flag, if_pos same]
        simp
      · have new : ¬ ranksAfter localVectSizes serverSizes (n + 1) =
            ranksAfter localVectSizes serverSizes n := by
          intro same
          rw [same] at up
          exact lexBelow_irrefl _ up
        rw [flag, if_neg new]
        simp [ranksAfter, walk]

variable (rank : Nat)

theorem countLoop_cursors (n : Nat) :
    (countLoop localVectSizes serverSizes rank n).client = walk localVectSizes n ∧
      (countLoop localVectSizes serverSizes rank n).server = walk serverSizes n := by
  induction n with
  | zero => exact ⟨rfl, rfl⟩
  | succ n ih =>
      obtain ⟨client, server⟩ := ih
      simp [countLoop, countElement, client, server, walk]

/-- The first loop announces as many messages as the second one lists. -/
theorem countLoop_messages (n : Nat) :
    (countLoop localVectSizes serverSizes rank n).totalNbMessages =
        (pairLoop localVectSizes serverSizes n).pairs.length ∧
      (countLoop localVectSizes serverSizes rank n).localNbMessages =
        (pairLoop localVectSizes serverSizes n).pairs.countP fun pair => pair.1 == rank := by
  induction n with
  | zero =>
      by_cases first : rank = 0
      · simp [countLoop, pairLoop, first]
      · have other : ¬ 0 = rank := Ne.symm first
        simp [countLoop, pairLoop, first, other]
  | succ n ih =>
      obtain ⟨total, local'⟩ := ih
      obtain ⟨client, server⟩ := countLoop_cursors localVectSizes serverSizes rank n
      obtain ⟨client', server', _⟩ := pairLoop_spec localVectSizes serverSizes n
      simp only [countLoop, countElement, pairLoop, pairElement, client, server, client', server',
        total, local']
      cases flag : ((walk localVectSizes n).advance localVectSizes).2 ||
          ((walk serverSizes n).advance serverSizes).2 with
      | false => simp
      | true =>
          by_cases mine : ((walk localVectSizes n).advance localVectSizes).1.rank = rank
          · simp [mine]
          · simp [mine]

/-- `send_counts[s]` counts the elements attributed to this rank and to server rank `s`. -/
theorem countLoop_sendCounts (n : Nat) :
    (countLoop localVectSizes serverSizes rank n).sendCounts.length = serverSizes.length ∧
      ∀ s < serverSizes.length,
        (countLoop localVectSizes serverSizes rank n).sendCounts.getD s 0 =
          (indicesOf (pairAt localVectSizes serverSizes) n (rank, s)).length := by
  induction n with
  | zero =>
      refine ⟨by simp [countLoop], ?_⟩
      intro s inside
      rw [List.getD_eq_getElem _ _ (by simpa [countLoop] using inside)]
      simp [countLoop, indicesOf]
  | succ n ih =>
      obtain ⟨length, counts⟩ := ih
      obtain ⟨client, server⟩ := countLoop_cursors localVectSizes serverSizes rank n
      simp only [countLoop, countElement, client, server]
      refine ⟨by split <;> simp [length], ?_⟩
      intro s inside
      rw [indicesOf_succ]
      have attributed : pairAt localVectSizes serverSizes n =
          (((walk localVectSizes n).advance localVectSizes).1.rank,
            ((walk serverSizes n).advance serverSizes).1.rank) := rfl
      have bound := counts s inside
      rw [attributed]
      by_cases mine : ((walk localVectSizes n).advance localVectSizes).1.rank = rank
      · rw [if_pos mine, List.getD_eq_getElem _ _ (by simpa [length] using inside),
          List.getElem_modify]
        rw [List.getD_eq_getElem _ _ (by simpa [length] using inside)] at bound
        by_cases there : ((walk serverSizes n).advance serverSizes).1.rank = s
        · rw [if_pos there, if_pos (by rw [mine, there]), bound]
          simp
        · rw [if_neg there, if_neg (by simp [there]), bound]
      · rw [if_neg mine, if_neg (by simp [mine])]
        exact bound

end Loops

section Overlap

/-- Where the common interval of client rank `r` and server rank `s` starts. -/
def overlapStart (localVectSizes serverSizes : List Nat) (r s : Nat) : Nat :=
  max (offset localVectSizes r) (offset serverSizes s)

/-- The number of indices client rank `r` and server rank `s` have in common. -/
def overlap (localVectSizes serverSizes : List Nat) (r s : Nat) : Nat :=
  min (offset localVectSizes (r + 1)) (offset serverSizes (s + 1)) -
    overlapStart localVectSizes serverSizes r s

variable {localVectSizes serverSizes : List Nat}

/-- Both cursors stand in the blocks that own the element. -/
theorem pairAt_eq_iff (steady : Steady localVectSizes) (steady' : Steady serverSizes)
    (same : serverSizes.sum = localVectSizes.sum) {i : Nat} (inside : i < localVectSizes.sum)
    {r s : Nat} :
    pairAt localVectSizes serverSizes i = (r, s) ↔
      Owns localVectSizes r i ∧ Owns serverSizes s i := by
  have client := owns_walk_of_steady steady inside
  have server := owns_walk_of_steady steady' (by omega : i < serverSizes.sum)
  constructor
  · intro here
    rw [pairAt, ranksAfter, Prod.mk.injEq] at here
    rw [← here.1, ← here.2]
    exact ⟨client, server⟩
  · intro owns
    rw [pairAt, ranksAfter, owns_unique client owns.1, owns_unique server owns.2]

theorem indicesOf_pairAt (steady : Steady localVectSizes) (steady' : Steady serverSizes)
    (same : serverSizes.sum = localVectSizes.sum) (r s : Nat) :
    indicesOf (pairAt localVectSizes serverSizes) localVectSizes.sum (r, s) =
      List.range' (overlapStart localVectSizes serverSizes r s)
        (overlap localVectSizes serverSizes r s) := by
  have bound := offset_le_sum localVectSizes (r + 1)
  rw [indicesOf, overlap, ← filter_range_between (Nat.le_trans (Nat.min_le_left _ _) bound)]
  apply List.filter_congr
  intro i member
  rw [List.mem_range] at member
  have attributed := pairAt_eq_iff steady steady' same member (r := r) (s := s)
  unfold Owns at attributed
  unfold overlapStart
  by_cases here : pairAt localVectSizes serverSizes i = (r, s)
  · have owned := attributed.mp here
    simp only [here, BEq.rfl, true_eq_decide_iff]
    omega
  · have apart := mt attributed.mpr here
    simp only [here, beq_eq_false_iff_ne.mpr, ne_eq, not_false_eq_true, false_eq_decide_iff]
    omega

end Overlap

section Plan

variable {localVectSizes serverSizes : List Nat}

@[simp] theorem commNToMInit_pairs (rank : Nat) :
    (commNToMInit localVectSizes serverSizes rank).pushRank.zip
        (commNToMInit localVectSizes serverSizes rank).pullRank =
      changes (ranksAfter localVectSizes serverSizes) (localVectSizes.sum + 1) := by
  simp only [commNToMInit, (pairLoop_spec localVectSizes serverSizes localVectSizes.sum).2.2]
  exact (List.zip_of_prod rfl rfl).symm

theorem sendCounts_length (localVectSizes serverSizes : List Nat) (rank : Nat) :
    (commNToMInit localVectSizes serverSizes rank).sendCounts.length = serverSizes.length :=
  (countLoop_sendCounts localVectSizes serverSizes rank localVectSizes.sum).1

theorem sendCounts_eq_overlap (steady : Steady localVectSizes) (steady' : Steady serverSizes)
    (same : serverSizes.sum = localVectSizes.sum) {rank s : Nat} (known : s < serverSizes.length) :
    (commNToMInit localVectSizes serverSizes rank).sendCounts.getD s 0 =
      overlap localVectSizes serverSizes rank s := by
  have counted :=
    (countLoop_sendCounts localVectSizes serverSizes rank localVectSizes.sum).2 s known
  rw [indicesOf_pairAt steady steady' same, List.length_range'] at counted
  exact counted

/-- The counts before server rank `s` add up to what lies before its interval. -/
theorem offset_sendCounts (steady : Steady localVectSizes) (steady' : Steady serverSizes)
    (same : serverSizes.sum = localVectSizes.sum) {rank s : Nat}
    (known : s ≤ serverSizes.length) :
    offset (commNToMInit localVectSizes serverSizes rank).sendCounts s =
      min (offset localVectSizes (rank + 1)) (offset serverSizes s) -
        offset localVectSizes rank := by
  induction s with
  | zero => simp
  | succ s ih =>
      have client := offset_mono localVectSizes (Nat.le_add_right rank 1)
      have server := offset_mono serverSizes (Nat.le_add_right s 1)
      rw [offset_succ, ih (by omega), sendCounts_eq_overlap steady steady' same known, overlap,
        overlapStart]
      omega

theorem sdispls_getD (steady : Steady localVectSizes) (steady' : Steady serverSizes)
    (same : serverSizes.sum = localVectSizes.sum) {rank s : Nat}
    (common : 0 < overlap localVectSizes serverSizes rank s) (known : s < serverSizes.length) :
    offset localVectSizes rank +
        (commNToMInit localVectSizes serverSizes rank).sdispls.getD s 0 =
      overlapStart localVectSizes serverSizes rank s := by
  have size := sendCounts_length localVectSizes serverSizes rank
  have here : (commNToMInit localVectSizes serverSizes rank).sdispls.getD s 0 =
      offset (commNToMInit localVectSizes serverSizes rank).sendCounts s := by
    rw [List.getD_eq_getElem]
    · simp [commNToMInit, displacements]
    · simpa [commNToMInit, displacements] using size.symm ▸ known
  rw [here, offset_sendCounts steady steady' same (Nat.le_of_lt known)]
  unfold overlap at common
  unfold overlapStart at common ⊢
  omega

end Plan

end Melissa
