import Melissa.Base.Arrays
import Melissa.Base.Blocks

/-! How `melissa_write_stats_seq` and `dgather_data` of `melissa_output.c` put the vectors of a
field together: client rank after client rank on each server rank, then server rank after server
rank on rank 0. -/

namespace Melissa

open Arrays Blocks

variable {D : Type}

/-- The loop over the client ranks, with `temp_offset`. -/
def copyVectors : List (List D) → Nat → List D → List D
  | [], _, buffer => buffer
  | vector :: rest, tempOffset, buffer =>
      if 0 < vector.length then
        copyVectors rest (tempOffset + vector.length) (copyAt buffer tempOffset vector)
      else copyVectors rest tempOffset buffer

/-- The loop of `dgather_data` on rank 0 over the other ranks: `temp_offset` and `d_buffer`. -/
def dgatherData (localVectSizes : List Nat) (dBuffers : List (List D)) : Nat → Nat × List D
  | 0 => (0, dBuffers.getD 0 [])
  | j + 1 =>
      let (tempOffset, dBuffer) := dgatherData localVectSizes dBuffers j
      let tempOffset := tempOffset + localVectSizes.getD j 0
      let size := localVectSizes.getD (j + 1) 0
      (tempOffset,
        if 0 < size then copyAt dBuffer tempOffset ((dBuffers.getD (j + 1) []).take size)
        else dBuffer)

/-- The buffer handed to `write_output_d`: `stored[s][r]` is the vector of client rank `r` on
server rank `s`, and `fresh s` the content of the allocated `d_buffer` of that rank. -/
def writtenBuffer (fresh : Nat → Nat → D) (stored : List (List (List D))) : List D :=
  let localVectSizes := stored.map fun vectors => (vectors.map List.length).sum
  let globalVectSize := localVectSizes.sum
  let dBuffers := stored.mapIdx fun s vectors =>
    copyVectors vectors 0 ((List.range globalVectSize).map (fresh s))
  (dgatherData localVectSizes dBuffers (stored.length - 1)).2

theorem filled_copyVectors {total : Nat} {front buffer : List D} (vectors : List (List D))
    (filled : Filled total front buffer) (room : front.length + vectors.flatten.length ≤ total) :
    Filled total (front ++ vectors.flatten) (copyVectors vectors front.length buffer) := by
  induction vectors generalizing front buffer with
  | nil => simpa [copyVectors] using filled
  | cons vector rest ih =>
      rw [List.flatten_cons, List.length_append] at room
      rw [List.flatten_cons, ← List.append_assoc, copyVectors]
      split
      · rw [← List.length_append]
        have copied := filled_copyAt filled (by omega : front.length + vector.length ≤ total)
        exact ih copied (by rw [List.length_append]; omega)
      · have empty : vector = [] := List.eq_nil_of_length_eq_zero (by omega)
        subst empty
        rw [List.append_nil]
        exact ih filled (by omega)

/-- `dgather_data` appends the buffers of the ranks, each filled with its own part. -/
theorem filled_dgatherData {total : Nat} {parts dBuffers : List (List D)}
    (whole : parts.flatten.length = total)
    (own : ∀ s < parts.length, Filled total (parts.getD s []) (dBuffers.getD s []))
    {j : Nat} (known : j < parts.length) :
    (dgatherData (parts.map List.length) dBuffers j).1 = (parts.take j).flatten.length ∧
      Filled total (parts.take (j + 1)).flatten
        (dgatherData (parts.map List.length) dBuffers j).2 := by
  induction j with
  | zero =>
      have first := own 0 known
      rw [List.getD_eq_getElem _ _ known] at first
      have head : (parts.take 1).flatten = parts.get ⟨0, known⟩ := by
        rw [List.take_succ_eq_append_getElem known]
        simp
      rw [head]
      exact ⟨by simp [dgatherData], first⟩
  | succ j ih =>
      obtain ⟨position, filled⟩ := ih (by omega)
      have part := own (j + 1) known
      have size : (parts.map List.length).getD (j + 1) 0 = (parts.getD (j + 1) []).length := by
        simp [List.getD_eq_getElem?_getD, known]
      have next : (dgatherData (parts.map List.length) dBuffers j).1 +
          (parts.map List.length).getD j 0 = (parts.take (j + 1)).flatten.length := by
        rw [position, ← offset_map_length, ← offset_map_length, offset_succ]
      have grown : (parts.take (j + 2)).flatten =
          (parts.take (j + 1)).flatten ++ parts.getD (j + 1) [] := by
        rw [List.take_succ_eq_append_getElem known, List.flatten_append,
          List.getD_eq_getElem _ _ known]
        simp
      have room : (parts.take (j + 2)).flatten.length ≤ total := by
        rw [← whole, ← offset_map_length, List.length_flatten]
        exact offset_le_sum _ _
      rw [grown, List.length_append] at room
      rw [dgatherData]
      simp only [next, size, part.starts]
      refine ⟨trivial, ?_⟩
      rw [grown]
      split
      · exact filled_copyAt filled room
      · have empty : parts.getD (j + 1) [] = [] := List.eq_nil_of_length_eq_zero (by omega)
        rw [empty, List.append_nil]
        exact filled

/-- Client ranks and server ranks in order: nothing is lost, moved or left uninitialised. -/
theorem writtenBuffer_eq (fresh : Nat → Nat → D) (stored : List (List (List D))) :
    writtenBuffer fresh stored = (stored.map List.flatten).flatten := by
  let parts := stored.map List.flatten
  let total := (parts.map List.length).sum
  let dBuffers := stored.mapIdx fun s vectors =>
    copyVectors vectors 0 ((List.range total).map (fresh s))
  have sizes : stored.map (fun vectors => (vectors.map List.length).sum) =
      parts.map List.length := by
    rw [List.map_map]
    exact List.map_congr_left fun vectors _ => List.length_flatten.symm
  have whole : parts.flatten.length = total := List.length_flatten
  have own (s : Nat) (known : s < parts.length) :
      Filled total (parts.getD s []) (dBuffers.getD s []) := by
    have inside : s < stored.length := by simpa [parts] using known
    have part : parts.getD s [] = stored[s].flatten := by
      rw [List.getD_eq_getElem _ _ known]
      simp [parts]
    have buffer : dBuffers.getD s [] =
        copyVectors stored[s] 0 ((List.range total).map (fresh s)) := by
      rw [List.getD_eq_getElem _ _ (by simpa [dBuffers] using inside)]
      simp [dBuffers]
    have room : (parts.getD s []).length ≤ total := by
      have grown := offset_le_sum (parts.map List.length) (s + 1)
      rw [offset_succ] at grown
      have size : (parts.map List.length).getD s 0 = (parts.getD s []).length := by
        simp [List.getD_eq_getElem?_getD, known]
      omega
    rw [part] at room
    rw [part, buffer]
    exact filled_copyVectors stored[s] (filled_nil (by simp)) (by simpa using room)
  rw [writtenBuffer, sizes]
  cases stored with
  | nil => rfl
  | cons first rest =>
      have last : rest.length < parts.length := by simp [parts]
      have gathered := (filled_dgatherData whole own last).2
      have complete : parts.take (rest.length + 1) = parts :=
        List.take_of_length_le (by simp [parts])
      rw [complete] at gathered
      exact gathered.eq_of_full whole

end Melissa
