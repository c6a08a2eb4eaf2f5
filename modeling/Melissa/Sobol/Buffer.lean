import Melissa.Output.RoundTrip
import Melissa.Sobol.Ports

/-! What the master simulation of a Sobol group holds after it has received from its group, and
what its messages carry. -/

namespace Melissa

open Arrays Blocks

namespace SobolStudy

variable {D : Type} (study : SobolStudy D)

theorem clients_lengths (simuId : Nat) :
    (study.clients simuId).map List.length = study.localVectSizes := by
  rw [clients, List.map_map]
  simp only [Function.comp_def, List.length_map, List.length_range]
  exact map_getD_range study.localVectSizes 0

theorem clients_length (simuId : Nat) : (study.clients simuId).length = study.commSize := by
  rw [← List.length_map List.length, clients_lengths, commSize]

theorem clients_flatten_length (simuId : Nat) :
    (study.clients simuId).flatten.length = study.localVectSizes.sum := by
  rw [List.length_flatten, clients_lengths]

theorem clients_getD_length (simuId rank : Nat) :
    ((study.clients simuId).getD rank []).length = study.localVectSizes.getD rank 0 := by
  rw [← study.clients_lengths simuId, ← List.length_nil, List.getD_map]

/-- The vector a simulation contributes on a client rank. -/
def roleVector (rank simuId : Nat) : List D :=
  if study.learning then if rank = 0 then (study.clients simuId).flatten else []
  else (study.clients simuId).getD rank []

theorem roleVector_length (rank simuId : Nat) :
    (study.roleVector rank simuId).length = study.vectSize rank := by
  rw [roleVector, vectSize]
  split
  · split
    · exact study.clients_flatten_length simuId
    · rfl
  · exact study.clients_getD_length simuId rank

/-- After the gather of a learning study the first slot holds the vector of the simulation
itself. -/
theorem filled_gathered {slots : Nat} (allocated : 0 < slots) (process : ClientProcess) :
    Filled (slots * study.vectSize process.rank)
      (if study.learning then study.roleVector process.rank process.simuId else [])
      (study.gathered slots process) := by
  have length : ((List.range (slots * study.vectSize process.rank)).map
      (study.fresh process)).length = slots * study.vectSize process.rank := by
    rw [List.length_map, List.length_range]
  unfold gathered
  cases learning : study.learning with
  | false =>
      simp only [Bool.false_eq_true, false_and, if_false]
      exact filled_nil length
  | true =>
      simp only [true_and, if_true]
      by_cases root : process.rank = 0
      · have room : (study.clients process.simuId).flatten.length ≤
            slots * study.vectSize process.rank := by
          rw [clients_flatten_length, vectSize, learning, if_pos rfl, if_pos root]
          exact Nat.le_mul_of_pos_left _ allocated
        have filled := filled_mpiGatherv length room (le_refl _)
        rw [List.take_length, clients_lengths, clients_length] at filled
        rw [if_pos root, roleVector, learning, if_pos rfl, if_pos root]
        exact filled
      · rw [if_neg root, roleVector, learning, if_pos rfl, if_neg root]
        exact filled_nil length

theorem sentToMaster_eq (process : ClientProcess) :
    study.sentToMaster process = some (study.roleVector process.rank process.simuId) := by
  have own := study.roleVector_length process.rank process.simuId
  have vector : (if study.learning then study.gathered 1 process
      else (study.clients process.simuId).getD process.rank []) =
        study.roleVector process.rank process.simuId := by
    cases learning : study.learning with
    | false =>
        rw [roleVector, learning]
        rfl
    | true =>
        have filled := study.filled_gathered Nat.one_pos process
        rw [learning, Nat.one_mul, if_pos rfl] at filled
        exact filled.eq_of_full own
  rw [sentToMaster, vector, readVector_eq (Or.inr (by rw [own, Nat.zero_add])), List.drop_zero,
    ← own, List.take_length]

/-- Slot 0 of the master: its own vector in a learning study, unused otherwise. -/
def slotZero (group rank : Nat) : List D :=
  let master := group * (study.nbParameters + 2)
  if study.learning then study.roleVector rank master
  else (study.gathered (study.nbParameters + 2) ⟨master, rank⟩).take (study.vectSize rank)

/-- The slots of a master process after `n` turns of the loop over the requesters. -/
def slots (group rank n : Nat) : List (List D) :=
  study.slotZero group rank :: (List.range n).map fun i =>
    study.roleVector rank (group * (study.nbParameters + 2) + (i + 1))

theorem filled_slotZero (group rank : Nat) :
    Filled ((study.nbParameters + 2) * study.vectSize rank) (study.slotZero group rank)
        (study.gathered (study.nbParameters + 2) ⟨group * (study.nbParameters + 2), rank⟩) ∧
      (study.slotZero group rank).length = study.vectSize rank := by
  have filled := study.filled_gathered (Nat.succ_pos (study.nbParameters + 1))
    ⟨group * (study.nbParameters + 2), rank⟩
  have length := filled.length
  rw [slotZero]
  cases learning : study.learning with
  | false =>
      have room : study.vectSize rank ≤ (study.nbParameters + 2) * study.vectSize rank :=
        Nat.le_mul_of_pos_left _ (Nat.succ_pos _)
      have size : ((study.gathered (study.nbParameters + 2)
          ⟨group * (study.nbParameters + 2), rank⟩).take (study.vectSize rank)).length =
            study.vectSize rank := by
        rw [List.length_take, length]
        exact Nat.min_eq_left room
      simp only [Bool.false_eq_true, if_false]
      refine ⟨⟨length, ?_⟩, size⟩
      rw [size]
  | true =>
      rw [learning, if_pos rfl] at filled
      exact ⟨filled, study.roleVector_length _ _⟩

theorem slots_uniform (group rank n : Nat) :
    ∀ slot ∈ study.slots group rank n, slot.length = study.vectSize rank := by
  intro slot member
  rcases List.mem_cons.mp member with rfl | later
  · exact (study.filled_slotZero group rank).2
  · obtain ⟨i, _, rfl⟩ := List.mem_map.mp later
    exact study.roleVector_length _ _

theorem slots_length (group rank n : Nat) : (study.slots group rank n).length = n + 1 := by
  rw [slots, List.length_cons, List.length_map, List.length_range]

theorem slots_succ (group rank n : Nat) :
    study.slots group rank (n + 1) = study.slots group rank n ++
      [study.roleVector rank (group * (study.nbParameters + 2) + (n + 1))] := by
  rw [slots, slots, List.range_succ, List.map_append, List.cons_append]
  rfl

theorem slots_flatten_length (group rank n : Nat) :
    (study.slots group rank n).flatten.length = (n + 1) * study.vectSize rank := by
  have sizes : ∀ size ∈ (study.slots group rank n).map List.length,
      size = study.vectSize rank := by
    intro size member
    obtain ⟨slot, listed, rfl⟩ := List.mem_map.mp member
    exact study.slots_uniform group rank n slot listed
  rw [List.length_flatten, ← offset_of_length_le (le_refl _), offset_uniform sizes (le_refl _),
    List.length_map, slots_length]

/-- The loop over the requesters: slot `i + 1` is filled by simulation `i + 1` of the group. -/
theorem filled_receiveGroup {group rank : Nat} (known : rank < study.commSize)
    (small : (study.nbParameters + 2) * study.vectSize rank < 2 ^ 31)
    (ports : PortsValid study.nbParameters study.commSize study.running)
    (started : ∀ k < study.nbParameters + 2,
      group * (study.nbParameters + 2) + k ∈ study.running) {n : Nat}
    (inside : n ≤ study.nbParameters + 1) :
    ∃ bufferData,
      study.receiveGroup ⟨group * (study.nbParameters + 2), rank⟩ n = some bufferData ∧
      Filled ((study.nbParameters + 2) * study.vectSize rank) (study.slots group rank n).flatten
        bufferData := by
  induction n with
  | zero =>
      refine ⟨_, by rw [receiveGroup, mulInt_natCast small, Option.map_some], ?_⟩
      rw [slots, List.range_zero, List.map_nil, List.flatten_singleton]
      exact (study.filled_slotZero group rank).1
  | succ n ih =>
      obtain ⟨bufferData, received, filled⟩ := ih (Nat.le_of_succ_le inside)
      have from_member :=
        study.sender_eq ports known inside (started (n + 1) (Nat.succ_lt_succ inside))
      have own := study.roleVector_length rank (group * (study.nbParameters + 2) + (n + 1))
      have front := study.slots_flatten_length group rank n
      have room : (n + 1) * study.vectSize rank + study.vectSize rank ≤
          (study.nbParameters + 2) * study.vectSize rank := by
        rw [← Nat.succ_mul]
        exact Nat.mul_le_mul_right _ (Nat.succ_le_succ inside)
      have step : study.receiveGroup ⟨group * (study.nbParameters + 2), rank⟩ (n + 1) =
          some (copyAt bufferData (study.slots group rank n).flatten.length
            (study.roleVector rank (group * (study.nbParameters + 2) + (n + 1)))) := by
        rw [receiveGroup, received, front, ← own]
        simp only [Option.bind_eq_bind, Option.bind_some, from_member, sentToMaster_eq, own]
        rw [List.take_of_length_le (Nat.le_of_eq own)]
      refine ⟨_, step, ?_⟩
      rw [slots_succ, List.flatten_append, List.flatten_singleton]
      exact filled_copyAt filled (by rw [front, own]; exact room)

/-- What has received something has room for the whole group. -/
theorem small_of_receiveGroup {master : ClientProcess} {n : Nat} {bufferData : List D}
    (received : study.receiveGroup master n = some bufferData) :
    (study.nbParameters + 2) * study.vectSize master.rank < 2 ^ 31 := by
  induction n generalizing bufferData with
  | zero =>
      obtain ⟨size, product, _⟩ := Option.map_eq_some_iff.mp received
      exact lt_of_mulInt product
  | succ n ih =>
      rw [receiveGroup, Option.bind_eq_bind, Option.bind_eq_some_iff] at received
      obtain ⟨before, earlier, _⟩ := received
      exact ih earlier

theorem slots_getD_succ (group rank : Nat) {n i : Nat} (inside : i < n) :
    (study.slots group rank n).getD (i + 1) [] =
      study.roleVector rank (group * (study.nbParameters + 2) + (i + 1)) := by
  rw [slots, List.getD_cons_succ,
    List.getD_eq_getElem _ _ (by rw [List.length_map, List.length_range]; exact inside),
    List.getElem_map, List.getElem_range]

/-- Behind the requesters, slot `i + 1` of the master is the vector of simulation `i + 1`. -/
theorem slot_vector (group rank : Nat) {i : Nat} (inside : i < study.nbParameters + 1) :
    ((study.slots group rank (study.nbParameters + 1)).flatten.drop
        ((i + 1) * study.vectSize rank)).take (study.vectSize rank) =
      study.roleVector rank (group * (study.nbParameters + 2) + (i + 1)) := by
  have own := study.roleVector_length rank (group * (study.nbParameters + 2) + (i + 1))
  have slot := drop_take_slot (study.slots_uniform group rank (study.nbParameters + 1))
    (by rw [study.slots_length]; omega : i + 1 < _) (Nat.le_of_eq (Nat.zero_add _))
  rw [Nat.add_zero] at slot
  rw [slot, study.slots_getD_succ group rank inside, List.drop_zero, ← own, List.take_length]

end SobolStudy

end Melissa
