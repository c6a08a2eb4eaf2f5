import Melissa.Messages.Control

/-! The data messages of the simulations: `message_simu_data`, `read_message_simu_data` and how
the server cuts the values into vectors. -/

namespace Melissa

section Build

def maxFieldName : Nat := 128

/-- The `char` array that holds the name of a field. -/
structure FieldName where
  bytes : Bytes
  size : bytes.length = maxFieldName
  deriving DecidableEq

/-- `memcpy` of `size` doubles; none if it reads behind the end of the array. -/
def copyDoubles (vect : List (BitVec 64)) (size : Nat) : Option Bytes :=
  if size ≤ vect.length then some ((vect.take size).flatMap doubleBytes) else none

/-- None where `nb_vect * vect_size` overflows or a vector is read behind its end. -/
def messageSimuData (timeStamp simuId clientRank vectSize nbVect : BitVec 32)
    (fieldName : FieldName) (dataPtr : List (List (BitVec 64))) : Option Bytes :=
  if 0 ≤ vectSize.toInt ∧ 0 ≤ nbVect.toInt ∧ nbVect.toInt * vectSize.toInt < 2 ^ 31 then do
    let vects ← (List.range nbVect.toNat).mapM fun i =>
      dataPtr[i]?.bind fun vect => copyDoubles vect vectSize.toNat
    some (zmqMsg (4 * 4 + maxFieldName + nbVect.toNat * vectSize.toNat * 8)
      (intBytes timeStamp ++ (intBytes simuId ++ (intBytes clientRank ++ (intBytes vectSize ++
        (fieldName.bytes ++ vects.flatten))))))
  else none

end Build

section Read

/-- What `read_message_simu_data` finds: the name behind `field_name_ptr`, and the position that
`data_ptr` points to. -/
structure SimuDataHeader where
  timeStamp : BitVec 32
  simuId : BitVec 32
  clientRank : BitVec 32
  vectSize : BitVec 32
  fieldName : Bytes
  dataPtr : Nat
  deriving DecidableEq

def readMessageSimuData (msg : Bytes) : Option SimuDataHeader := do
  let timeStamp ← readInt msg 0
  let simuId ← readInt msg 4
  let clientRank ← readInt msg 8
  let vectSize ← readInt msg 12
  let fieldName ← readBytes msg 16 maxFieldName
  some { timeStamp := timeStamp, simuId := simuId, clientRank := clientRank, vectSize := vectSize
         fieldName := fieldName, dataPtr := 16 + maxFieldName }

/-- The loop over `buff_tab_ptr`: the vectors, and where `buf_ptr` stands behind the last one. -/
def cutVectors (msg : Bytes) (recvVectSize : Nat) :
    Nat → Nat → Option (List (List (BitVec 64)) × Nat)
  | bufPtr, 0 => some ([], bufPtr)
  | bufPtr, count + 1 => do
      let vect ← readDoubles msg bufPtr recvVectSize
      let rest ← cutVectors msg recvVectSize (bufPtr + recvVectSize * 8) count
      some (vect :: rest.1, rest.2)

/-- The vectors `melissa_server_run` hands to `compute_stats`. -/
def serverVectors {D : Type} (options : Options D) (msg : Bytes) :
    Option (List (List (BitVec 64)) × Nat) := do
  let header ← readMessageSimuData msg
  cutVectors msg header.vectSize.toNat header.dataPtr options.nbVect

end Read

section Lemmas

theorem toInt_of_natural {i : BitVec 32} (natural : 0 ≤ i.toInt) : i.toInt = (i.toNat : Int) := by
  have bound := i.isLt
  rw [BitVec.toInt_eq_toNat_cond] at natural ⊢
  split
  · rfl
  · rename_i negative
    rw [if_neg negative] at natural
    omega

theorem copyDoubles_all {vect : List (BitVec 64)} {size : Nat} (sized : vect.length = size) :
    copyDoubles vect size = some (vect.flatMap doubleBytes) := by
  rw [copyDoubles, if_pos (Nat.le_of_eq sized.symm), ← sized, List.take_length]

/-- The loop of `message_simu_data` copies all vectors, one after the other. -/
theorem mapM_copyDoubles {dataPtr : List (List (BitVec 64))} {vectSize : Nat}
    (sized : ∀ vect ∈ dataPtr, vect.length = vectSize) :
    (List.range dataPtr.length).mapM (fun i =>
      dataPtr[i]?.bind fun vect => copyDoubles vect vectSize) =
        some (dataPtr.map fun vect => vect.flatMap doubleBytes) := by
  have each : ∀ i ∈ List.range dataPtr.length,
      (dataPtr[i]?.bind fun vect => copyDoubles vect vectSize) =
        some ((dataPtr.getD i []).flatMap doubleBytes) := by
    intro i member
    have inside := List.mem_range.mp member
    rw [List.getElem?_eq_getElem inside, Option.bind_some,
      copyDoubles_all (sized _ (List.getElem_mem inside)), List.getD_eq_getElem _ _ inside]
  rw [Arrays.mapM_eq_some each]
  congr 1
  apply List.ext_getElem
  · simp
  · intro i _ bound
    have inside : i < dataPtr.length := by simpa using bound
    simp [inside]

theorem flatten_vectors_length {dataPtr : List (List (BitVec 64))} {vectSize : Nat}
    (sized : ∀ vect ∈ dataPtr, vect.length = vectSize) :
    (dataPtr.map fun vect => vect.flatMap doubleBytes).flatten.length =
      dataPtr.length * vectSize * 8 := by
  induction dataPtr with
  | nil => simp
  | cons vect dataPtr ih =>
      rw [List.forall_mem_cons] at sized
      rw [List.map_cons, List.flatten_cons, List.length_append, flatMap_doubleBytes_length,
        ih sized.2, sized.1, List.length_cons]
      ring

/-- Vectors that follow each other are cut where they were joined. -/
theorem cutVectors_at {front : Bytes} {dataPtr : List (List (BitVec 64))} {vectSize bufPtr : Nat}
    (starts : front.length = bufPtr) (sized : ∀ vect ∈ dataPtr, vect.length = vectSize) :
    cutVectors (front ++ (dataPtr.map fun vect => vect.flatMap doubleBytes).flatten) vectSize
        bufPtr dataPtr.length =
      some (dataPtr, bufPtr + dataPtr.length * vectSize * 8) := by
  induction dataPtr generalizing front bufPtr with
  | nil => simp [cutVectors]
  | cons vect dataPtr ih =>
      rw [List.forall_mem_cons] at sized
      have next : (front ++ vect.flatMap doubleBytes).length = bufPtr + vectSize * 8 := by
        rw [List.length_append, starts, flatMap_doubleBytes_length, sized.1]
      have here := readDoubles_in starts (Nat.le_of_eq sized.1.symm)
        (dataPtr.map fun vect => vect.flatMap doubleBytes).flatten
      have rest := ih next sized.2
      rw [List.append_assoc] at rest
      rw [List.map_cons, List.flatten_cons, List.length_cons, cutVectors, here]
      simp only [Option.bind_eq_bind, Option.bind_some, rest]
      rw [← sized.1, List.take_length]
      congr 2
      ring

end Lemmas

section RoundTrip

variable {timeStamp simuId clientRank vectSize nbVect : BitVec 32} {fieldName : FieldName}
  {dataPtr : List (List (BitVec 64))}

/-- The arguments of `message_simu_data` describe the arrays they come with. -/
structure Described (vectSize nbVect : BitVec 32) (dataPtr : List (List (BitVec 64))) : Prop where
  natural : 0 ≤ vectSize.toInt
  positive : 1 ≤ nbVect.toInt
  bounded : nbVect.toInt * vectSize.toInt < 2 ^ 31
  counted : dataPtr.length = nbVect.toNat
  sized : ∀ vect ∈ dataPtr, vect.length = vectSize.toNat

def headerBytes (timeStamp simuId clientRank vectSize : BitVec 32) (fieldName : FieldName) :
    Bytes :=
  intBytes timeStamp ++ (intBytes simuId ++ (intBytes clientRank ++ (intBytes vectSize ++
    fieldName.bytes)))

theorem headerBytes_length :
    (headerBytes timeStamp simuId clientRank vectSize fieldName).length = 16 + maxFieldName := by
  simp only [headerBytes, List.length_append, intBytes_length, fieldName.size]
  omega

theorem messageSimuData_eq (described : Described vectSize nbVect dataPtr) :
    messageSimuData timeStamp simuId clientRank vectSize nbVect fieldName dataPtr =
      some (headerBytes timeStamp simuId clientRank vectSize fieldName ++
        (dataPtr.map fun vect => vect.flatMap doubleBytes).flatten) := by
  obtain ⟨natural, positive, bounded, counted, sized⟩ := described
  have values := flatten_vectors_length sized
  rw [messageSimuData, if_pos ⟨natural, by omega, bounded⟩, ← counted, mapM_copyDoubles sized]
  simp only [Option.bind_eq_bind, Option.bind_some, Option.some.injEq]
  rw [zmqMsg_eq]
  · simp only [headerBytes, List.append_assoc]
  · simp only [List.length_append, intBytes_length, fieldName.size, values]
    omega

theorem readMessageSimuData_at (back : Bytes) :
    readMessageSimuData (headerBytes timeStamp simuId clientRank vectSize fieldName ++ back) =
      some { timeStamp := timeStamp, simuId := simuId, clientRank := clientRank
             vectSize := vectSize, fieldName := fieldName.bytes
             dataPtr := 16 + maxFieldName } := by
  have first := @readInt_at [] timeStamp (intBytes simuId ++ (intBytes clientRank ++
    (intBytes vectSize ++ (fieldName.bytes ++ back)))) 0 rfl
  have second := @readInt_at (intBytes timeStamp) simuId (intBytes clientRank ++
    (intBytes vectSize ++ (fieldName.bytes ++ back))) 4 (intBytes_length _)
  have third := @readInt_at (intBytes timeStamp ++ intBytes simuId) clientRank
    (intBytes vectSize ++ (fieldName.bytes ++ back)) 8 (by simp)
  have fourth := @readInt_at (intBytes timeStamp ++ intBytes simuId ++ intBytes clientRank)
    vectSize (fieldName.bytes ++ back) 12 (by simp)
  have name := @readBytes_at (intBytes timeStamp ++ intBytes simuId ++ intBytes clientRank ++
    intBytes vectSize) fieldName.bytes back 16 maxFieldName (by simp) fieldName.size
  simp only [List.nil_append, List.append_assoc] at first second third fourth name
  simp only [readMessageSimuData, headerBytes, List.append_assoc, first, second, third, fourth,
    name, Option.bind_eq_bind, Option.bind_some]

end RoundTrip

end Melissa
