import Melissa.Messages.SimuData

/-! `message.py` of melissa4py: the messages of the simulations and of the launcher as the Python
server reads them. Its `SimulationData` keeps a Sobol-free message of one vector. -/

namespace Melissa

open Utf8

namespace Melissa4py

section Slices

/-- An index of a slice, counted from the end if it is negative. -/
def sliceIndex (length : Nat) (i : Int) : Nat :=
  if i < 0 then (length + i).toNat else min i.toNat length

/-- `bytes[start:stop]`. -/
def slice (bytes : Bytes) (start stop : Int) : Bytes :=
  (bytes.take (sliceIndex bytes.length stop)).drop (sliceIndex bytes.length start)

/-- `bytes[start:]`. -/
def sliceFrom (bytes : Bytes) (start : Int) : Bytes :=
  bytes.drop (sliceIndex bytes.length start)

/-- `np.frombuffer(bytes, np.int32)`. -/
def frombufferInt32 (bytes : Bytes) : Option (List (BitVec 32)) :=
  if bytes.length % 4 = 0 then
    (List.range (bytes.length / 4)).mapM fun i => readInt bytes (4 * i)
  else none

/-- `np.frombuffer(bytes, np.double)`. -/
def frombufferDouble (bytes : Bytes) : Option (List (BitVec 64)) :=
  if bytes.length % 8 = 0 then readDoubles bytes 0 (bytes.length / 8) else none

/-- `get_str`. -/
def getStr (buff : Bytes) : Option (List Char) := decode (buff.takeWhile (· != 0))

end Slices

section Messages

structure SimulationData where
  timestep : Int
  simulationId : Int
  clientRank : Int
  dataSize : Int
  fieldName : List Char
  data : List (BitVec 64)
  deriving DecidableEq

def maxFieldNameSize : Nat := 128

/-- `SimulationData.from_msg`; none if it raises. -/
def SimulationData.fromMsg (msg : Bytes) : Option SimulationData := do
  match ← frombufferInt32 (slice msg 0 (4 * 4)) with
  | [timestep, simulationId, clientRank, dataSize] => do
      let fieldName ← getStr (slice msg (4 * 4) (4 * 4 + maxFieldNameSize))
      let offset : Int := 4 * 4 + maxFieldNameSize
      let data ← frombufferDouble (slice msg offset (offset + dataSize.toInt * 8))
      some { timestep := timestep.toInt, simulationId := simulationId.toInt
             clientRank := clientRank.toInt, dataSize := dataSize.toInt
             fieldName := fieldName, data := data }
  | _ => none

structure JobDetails where
  simulationId : Int
  jobId : List Char
  parameters : List (BitVec 64)
  deriving DecidableEq

/-- `JobDetails.from_msg`; none if it raises. The type of the message is not looked at. -/
def JobDetails.fromMsg (msg : Bytes) (nbParameters : Nat) : Option JobDetails := do
  let _ ← readInt (slice msg 0 4) 0
  let simulationId ← readInt (slice msg 4 8) 0
  let jobId ← decode (slice msg 8 (-nbParameters * 8))
  let params := sliceFrom msg (-nbParameters * 8)
  let parameters ← frombufferDouble params
  some { simulationId := simulationId.toInt, jobId := jobId, parameters := parameters }

/-- The simulation id and the job id that `handle_launcher_message` takes from a DROP. -/
def dropDetails (msg : Bytes) : Option (Int × List Char) := do
  let simulationId ← readInt (slice msg 4 8) 0
  let jobId ← decode (sliceFrom msg 8)
  some (simulationId.toInt, jobId)

end Messages

section SliceLemmas

theorem slice_at {front piece : Bytes} (back : Bytes) {start stop : Nat}
    (starts : front.length = start) (stops : start + piece.length = stop) :
    slice (front ++ (piece ++ back)) start stop = piece := by
  have total : (front ++ (piece ++ back)).length = front.length + (piece.length + back.length) := by
    rw [List.length_append, List.length_append]
  have first : sliceIndex (front ++ (piece ++ back)).length start = front.length := by
    rw [sliceIndex, if_neg (by omega), total]
    omega
  have last : sliceIndex (front ++ (piece ++ back)).length stop = front.length + piece.length := by
    rw [sliceIndex, if_neg (by omega), total]
    omega
  rw [slice, first, last, ← List.append_assoc, ← List.length_append, List.take_left,
    List.drop_left]

theorem sliceFrom_at {front : Bytes} (back : Bytes) {start : Nat} (starts : front.length = start) :
    sliceFrom (front ++ back) start = back := by
  have first : sliceIndex (front ++ back).length start = front.length := by
    rw [sliceIndex, if_neg (by omega), List.length_append]
    omega
  rw [sliceFrom, first, List.drop_left]

/-- An index counted from the end, where the rest begins. -/
theorem sliceIndex_back {front : Bytes} {back : Bytes} {size : Nat} (positive : 0 < size)
    (ends : back.length = size) :
    sliceIndex (front ++ back).length (-(size : Int)) = front.length := by
  rw [sliceIndex, if_pos (by omega), List.length_append]
  omega

theorem frombufferDouble_flatMap (vect : List (BitVec 64)) :
    frombufferDouble (vect.flatMap doubleBytes) = some vect := by
  have size := flatMap_doubleBytes_length vect
  have whole := @readDoubles_at [] vect 0 vect.length rfl (Nat.le_refl _)
  rw [List.nil_append, List.take_length] at whole
  rw [frombufferDouble, if_pos (by omega), size, Nat.mul_div_cancel _ (by decide), whole]

theorem readInt_slice {front : Bytes} (i : BitVec 32) (back : Bytes) {start : Nat}
    (starts : front.length = start) :
    readInt (slice (front ++ (intBytes i ++ back)) start (start + 4 : Nat)) 0 = some i := by
  have here := @readInt_at [] i [] 0 rfl
  rw [List.nil_append, List.append_nil] at here
  rw [slice_at back starts (by rw [intBytes_length]), here]

end SliceLemmas

section SimulationDataCodec

theorem frombufferInt32_four (a b c d : BitVec 32) :
    frombufferInt32 (intBytes a ++ (intBytes b ++ (intBytes c ++ intBytes d))) =
      some [a, b, c, d] := by
  have length : (intBytes a ++ (intBytes b ++ (intBytes c ++ intBytes d))).length = 16 := by
    simp only [List.length_append, intBytes_length]
  have first := @readInt_at [] a (intBytes b ++ (intBytes c ++ intBytes d)) (4 * 0) rfl
  have second := @readInt_at (intBytes a) b (intBytes c ++ intBytes d) (4 * 1) (by simp)
  have third := @readInt_at (intBytes a ++ intBytes b) c (intBytes d) (4 * 2) (by simp)
  have fourth := @readInt_at (intBytes a ++ intBytes b ++ intBytes c) d [] (4 * 3) (by simp)
  simp only [List.nil_append, List.append_assoc, List.append_nil] at first second third fourth
  have indices : List.range 4 = [0, 1, 2, 3] := rfl
  rw [frombufferInt32, if_pos (by rw [length]), length, show 16 / 4 = 4 from rfl, indices]
  simp only [List.mapM_cons, List.mapM_nil, first, second, third, fourth, Option.bind_eq_bind,
    Option.bind_some, Option.pure_def]

/-- `from_msg` on a message of one vector. -/
theorem SimulationData.fromMsg_at {timeStamp simuId clientRank vectSize : BitVec 32}
    {fieldName : FieldName} {vect : List (BitVec 64)} (natural : 0 ≤ vectSize.toInt)
    (sized : vect.length = vectSize.toNat) {name : List Char}
    (text : decode (fieldName.bytes.takeWhile (· != 0)) = some name) :
    SimulationData.fromMsg (headerBytes timeStamp simuId clientRank vectSize fieldName ++
        vect.flatMap doubleBytes) =
      some { timestep := timeStamp.toInt, simulationId := simuId.toInt
             clientRank := clientRank.toInt, dataSize := vectSize.toInt, fieldName := name
             data := vect } := by
  let ints := intBytes timeStamp ++ (intBytes simuId ++ (intBytes clientRank ++ intBytes vectSize))
  have four : ints.length = 16 := by simp only [ints, List.length_append, intBytes_length]
  have shape : headerBytes timeStamp simuId clientRank vectSize fieldName =
      ints ++ fieldName.bytes := by simp only [headerBytes, ints, List.append_assoc]
  have size : vectSize.toInt = (vect.length : Int) := by rw [sized, toInt_of_natural natural]
  have first := @slice_at [] ints (fieldName.bytes ++ vect.flatMap doubleBytes) 0 16 rfl
    (by rw [four])
  have second := slice_at (vect.flatMap doubleBytes) four
    (show 16 + fieldName.bytes.length = 144 by rw [fieldName.size]; rfl)
  have third := @slice_at (ints ++ fieldName.bytes) (vect.flatMap doubleBytes) [] 144
    (144 + vect.length * 8) (by rw [List.length_append, four, fieldName.size]; rfl)
    (by rw [flatMap_doubleBytes_length])
  simp only [Nat.cast_ofNat, Nat.cast_zero] at first second third
  rw [List.nil_append] at first
  rw [List.append_nil, List.append_assoc] at third
  have stop : (144 : Int) + vectSize.toInt * 8 = ((144 + vect.length * 8 : ℕ) : Int) := by
    rw [size]
    push_cast
    ring
  have four' : frombufferInt32 ints = some [timeStamp, simuId, clientRank, vectSize] :=
    frombufferInt32_four _ _ _ _
  rw [fromMsg, shape, List.append_assoc]
  simp only [Int.reduceMul, Int.reduceAdd, maxFieldNameSize, Nat.cast_ofNat, first, second, four',
    stop, third, getStr, text, frombufferDouble_flatMap, Option.bind_eq_bind, Option.bind_some]

/-- What the two servers make of the bytes of a data message. -/
structure Recovered (timeStamp simuId clientRank vectSize nbVect : BitVec 32)
    (fieldName : FieldName) (dataPtr : List (List (BitVec 64))) (msg : Bytes) : Prop where
  header : readMessageSimuData msg =
    some { timeStamp := timeStamp, simuId := simuId, clientRank := clientRank
           vectSize := vectSize, fieldName := fieldName.bytes, dataPtr := 16 + maxFieldName }
  vectors : ∀ options : Options (BitVec 64), options.nbVect = nbVect.toNat →
    serverVectors options msg = some (dataPtr, msg.length)
  melissa4py : ∀ vect, dataPtr = [vect] →
    ∀ name, decode (fieldName.bytes.takeWhile (· != 0)) = some name →
      SimulationData.fromMsg msg =
        some { timestep := timeStamp.toInt, simulationId := simuId.toInt
               clientRank := clientRank.toInt, dataSize := vectSize.toInt, fieldName := name
               data := vect }

/-- The data messages are read as they were built, by either server. -/
theorem simuDataCodec {timeStamp simuId clientRank vectSize nbVect : BitVec 32}
    {fieldName : FieldName} {dataPtr : List (List (BitVec 64))}
    (described : Described vectSize nbVect dataPtr) :
    ∃ msg, messageSimuData timeStamp simuId clientRank vectSize nbVect fieldName dataPtr =
        some msg ∧
      Recovered timeStamp simuId clientRank vectSize nbVect fieldName dataPtr msg := by
  refine ⟨_, messageSimuData_eq described, ?_⟩
  obtain ⟨natural, _, _, counted, sized⟩ := described
  have header := @readMessageSimuData_at timeStamp simuId clientRank vectSize fieldName
    (dataPtr.map fun vect => vect.flatMap doubleBytes).flatten
  constructor
  · exact header
  · intro options number
    have starts := @headerBytes_length timeStamp simuId clientRank vectSize fieldName
    have cut := cutVectors_at starts sized
    rw [serverVectors, header]
    simp only [Option.bind_eq_bind, Option.bind_some]
    rw [number, ← counted, cut, List.length_append, starts, flatten_vectors_length sized]
  · intro vect single name text
    subst single
    rw [List.forall_mem_singleton] at sized
    rw [List.map_singleton, List.flatten_singleton]
    exact SimulationData.fromMsg_at natural sized text

/-- The array of a field name that is filled up with NUL. -/
def heatName : FieldName := ⟨[104, 101, 97, 116] ++ List.replicate 124 0, by simp [maxFieldName]⟩

/-- Three vectors of one value, as in a Sobol study with one parameter, and one vector of two
values, as the server in Python reads it. -/
theorem simuDataCodec_threeVectors :
    (∃ msg, messageSimuData 7 2 0 1 3 heatName [[0x3FF0000000000000], [0], [0x4000000000000000]] =
        some msg ∧
      Recovered 7 2 0 1 3 heatName [[0x3FF0000000000000], [0], [0x4000000000000000]] msg) ∧
      ∃ msg, messageSimuData 7 2 0 2 1 heatName [[0x3FF0000000000000, 0]] = some msg ∧
        SimulationData.fromMsg msg =
          some { timestep := 7, simulationId := 2, clientRank := 0, dataSize := 2
                 fieldName := "heat".toList, data := [0x3FF0000000000000, 0] } := by
  have three : Described 1 3 [[0x3FF0000000000000], [0], [0x4000000000000000]] :=
    ⟨by decide, by decide, by decide, by decide, by simp⟩
  have one : Described 2 1 [[0x3FF0000000000000, 0]] :=
    ⟨by decide, by decide, by decide, by decide, by simp⟩
  have name : decode (heatName.bytes.takeWhile (· != 0)) = some "heat".toList := by decide
  obtain ⟨msg, built, recovered⟩ := @simuDataCodec 7 2 0 2 1 heatName _ one
  exact ⟨simuDataCodec three, msg, built, recovered.melissa4py _ rfl _ name⟩

end SimulationDataCodec

section JobCodec

/-- A slice that ends where the last bytes, counted from the end, begin. -/
theorem slice_back {front piece back : Bytes} {start size : Nat} (starts : front.length = start)
    (positive : 0 < size) (ends : back.length = size) :
    slice (front ++ (piece ++ back)) start (-(size : Int)) = piece := by
  have last : sliceIndex (front ++ piece ++ back).length (-(size : Int)) =
      (front ++ piece).length := sliceIndex_back positive ends
  have first : sliceIndex (front ++ piece ++ back).length start = front.length := by
    rw [sliceIndex, if_neg (by omega), List.length_append, List.length_append]
    omega
  rw [slice, ← List.append_assoc, first, last, List.take_left, List.drop_left]

theorem sliceFrom_back {front back : Bytes} {size : Nat} (positive : 0 < size)
    (ends : back.length = size) : sliceFrom (front ++ back) (-(size : Int)) = back := by
  rw [sliceFrom, sliceIndex_back positive ends, List.drop_left]

/-- Decoding takes the NUL along. -/
theorem decode_stringBytes {jobId : CString} {text : List Char}
    (decoded : decode jobId.bytes = some text) :
    decode (stringBytes jobId) = some (text ++ [Char.ofNat 0]) := by
  have nul : decode [0] = some [Char.ofNat 0] := by
    rw [← decode_encode [Char.ofNat 0]]
    congr 1
  rw [stringBytes, encode_of_decode decoded, decode_encode_append, nul, Option.map_some]

/-- `from_msg` on a JOB: the job id keeps the NUL that ends it. -/
theorem JobDetails.fromMsg_messageJob (simuId : BitVec 32) {jobId : CString} {text : List Char}
    (decoded : decode jobId.bytes = some text) {paramSet : List (BitVec 64)}
    (filled : 1 ≤ paramSet.length) :
    JobDetails.fromMsg (messageJob simuId jobId paramSet) paramSet.length =
      some { simulationId := simuId.toInt, jobId := text ++ [Char.ofNat 0]
             parameters := paramSet } := by
  let back := paramSet.flatMap doubleBytes
  have size : back.length = paramSet.length * 8 := flatMap_doubleBytes_length paramSet
  have counted : -(paramSet.length : Int) * 8 = -((paramSet.length * 8 : ℕ) : Int) := by
    push_cast
    ring
  have messageType := @readInt_slice [] MessageType.job
    (intBytes simuId ++ (stringBytes jobId ++ back)) 0 rfl
  have number := readInt_slice simuId (stringBytes jobId ++ back) (intBytes_length MessageType.job)
  have name := @slice_back (intBytes MessageType.job ++ intBytes simuId) (stringBytes jobId) back 8
    (paramSet.length * 8) (by simp) (by omega) size
  have values := @sliceFrom_back (intBytes MessageType.job ++ (intBytes simuId ++
    stringBytes jobId)) back (paramSet.length * 8) (by omega) size
  simp only [List.nil_append, List.append_assoc, Nat.cast_ofNat, Nat.cast_zero, Nat.reduceAdd]
    at messageType number name values
  rw [messageJob_eq, fromMsg]
  simp only [counted, messageType, number, name, values, decode_stringBytes decoded,
    frombufferDouble_flatMap, back, Option.bind_eq_bind, Option.bind_some]

theorem dropDetails_messageDrop (simuId : BitVec 32) {jobId : CString} {text : List Char}
    (decoded : decode jobId.bytes = some text) :
    dropDetails (messageDrop simuId jobId) = some (simuId.toInt, text ++ [Char.ofNat 0]) := by
  have number := readInt_slice simuId (stringBytes jobId) (intBytes_length MessageType.drop)
  have name := @sliceFrom_at (intBytes MessageType.drop ++ intBytes simuId) (stringBytes jobId) 8
    (by simp)
  simp only [List.append_assoc, Nat.cast_ofNat, Nat.reduceAdd] at number name
  rw [messageDrop_eq, dropDetails]
  simp only [number, name, decode_stringBytes decoded, Option.bind_eq_bind, Option.bind_some]

/-- The job messages of the launcher are decoded to what they were built from. -/
structure JobDecoded (simuId : BitVec 32) (jobId : CString) (text : List Char)
    (paramSet : List (BitVec 64)) : Prop where
  job : JobDetails.fromMsg (messageJob simuId jobId paramSet) paramSet.length =
    some { simulationId := simuId.toInt, jobId := text, parameters := paramSet }
  drop : dropDetails (messageDrop simuId jobId) = some (simuId.toInt, text)

/-- Neither message is ever decoded to its job id. -/
theorem jobId_never_decoded (simuId : BitVec 32) {jobId : CString} {text : List Char}
    (decoded : decode jobId.bytes = some text) {paramSet : List (BitVec 64)}
    (filled : 1 ≤ paramSet.length) :
    ¬ JobDecoded simuId jobId text paramSet ∧
      JobDetails.fromMsg (messageJob simuId jobId paramSet) paramSet.length ≠
        some { simulationId := simuId.toInt, jobId := text, parameters := paramSet } ∧
      dropDetails (messageDrop simuId jobId) ≠ some (simuId.toInt, text) := by
  have job : JobDetails.fromMsg (messageJob simuId jobId paramSet) paramSet.length ≠
      some { simulationId := simuId.toInt, jobId := text, parameters := paramSet } := by
    rw [JobDetails.fromMsg_messageJob simuId decoded filled]
    simp
  have drop : dropDetails (messageDrop simuId jobId) ≠ some (simuId.toInt, text) := by
    rw [dropDetails_messageDrop simuId decoded]
    simp
  exact ⟨fun both => job both.job, job, drop⟩

theorem jobId_never_decoded_twelve :
    decode jobTwelve.bytes = some ['1', '2'] ∧ 1 ≤ [(0x3FF0000000000000 : BitVec 64)].length ∧
      ¬ JobDecoded 1 jobTwelve ['1', '2'] [0x3FF0000000000000] := by
  have decoded : decode jobTwelve.bytes = some ['1', '2'] := decode_encode ['1', '2']
  exact ⟨decoded, by decide, (jobId_never_decoded 1 decoded (by decide)).1⟩

/-- The job id "12" of simulation 1 with one parameter. -/
theorem not_jobDecoded_twelve : ¬ JobDecoded 1 jobTwelve ['1', '2'] [0x3FF0000000000000] := by
  intro both
  have decoded : decode jobTwelve.bytes = some ['1', '2'] := decode_encode ['1', '2']
  have job := both.job
  rw [JobDetails.fromMsg_messageJob 1 decoded (by decide)] at job
  simp at job

end JobCodec

end Melissa4py

end Melissa
