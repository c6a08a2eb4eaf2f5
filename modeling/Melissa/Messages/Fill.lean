import Melissa.Base.Writes
import Melissa.Messages.SimuData

/-! The functions of `melissa_messages.c` that build a message: how many bytes they ask for, in
the types of the C code, and where they write. -/

namespace Melissa

open Writes

section Build

/-- An `int` as a `size_t`. -/
def sizeT (i : BitVec 32) : BitVec 64 := i.signExtend 64

def strlen (text : CString) : BitVec 64 := BitVec.ofNat 64 text.bytes.length

def zmqMsgInitSize (size : BitVec 64) : Block UInt8 := .allocate size.toNat

/-- The first doubles of an array in memory. -/
def arrayBytes (array : Nat → BitVec 64) (count : Nat) : Bytes :=
  (List.range count).flatMap fun i => doubleBytes (array i)

/-- A call of one of the ten functions. -/
inductive MessageCall where
  | hello
  | alive
  | job (simuId : BitVec 32) (jobId : CString) (nbParam : BitVec 32) (paramSet : Nat → BitVec 64)
  | drop (simuId : BitVec 32) (jobId : CString)
  | stop
  | timeout (simuId : BitVec 32)
  | simuStatus (simuId status : BitVec 32)
  | serverName (nodeName : CString) (rank : BitVec 32)
  | confidenceInterval (statName fieldName : CString) (value : BitVec 64)
  | simuData (timeStamp simuId clientRank vectSize nbVect : BitVec 32) (fieldName : FieldName)
      (dataPtr : Nat → Nat → BitVec 64)

/-- The loop of `message_simu_data`. -/
def writeVectors (vectSize : BitVec 32) (dataPtr : Nat → Nat → BitVec 64) (block : Block UInt8) :
    Nat → Block UInt8
  | 0 => block
  | i + 1 =>
      ((writeVectors vectSize dataPtr block i).write
        (arrayBytes (dataPtr i) vectSize.toNat)).advance (vectSize.toNat * 8)

def MessageCall.build : MessageCall → Block UInt8
  | .hello => (zmqMsgInitSize 4).write (intBytes MessageType.hello)
  | .alive => (zmqMsgInitSize 4).write (intBytes MessageType.alive)
  | .job simuId jobId nbParam paramSet =>
      ((((zmqMsgInitSize (2 * 4 + sizeT nbParam * 8 + strlen jobId + 1)).write
        (intBytes MessageType.job)).advance 4 |>.write
        (intBytes simuId)).advance 4 |>.write
        (stringBytes jobId)).advance (jobId.bytes.length + 1) |>.write
        (arrayBytes paramSet nbParam.toNat)
  | .drop simuId jobId =>
      (((zmqMsgInitSize (2 * 4 + strlen jobId + 1)).write
        (intBytes MessageType.drop)).advance 4 |>.write
        (intBytes simuId)).advance 4 |>.write
        (stringBytes jobId)
  | .stop => (zmqMsgInitSize 4).write (intBytes MessageType.stop)
  | .timeout simuId =>
      ((zmqMsgInitSize 4).write (intBytes MessageType.timeout)).advance 4 |>.write
        (intBytes simuId)
  | .simuStatus simuId status =>
      (((zmqMsgInitSize (3 * 4)).write
        (intBytes MessageType.simuStatus)).advance 4 |>.write
        (intBytes simuId)).advance 4 |>.write
        (intBytes status)
  | .serverName nodeName rank =>
      (((zmqMsgInitSize (2 * 4 + strlen nodeName + 1)).write
        (intBytes MessageType.server)).advance 4 |>.write
        (intBytes rank)).advance 4 |>.write
        (stringBytes nodeName)
  | .confidenceInterval statName fieldName value =>
      ((((zmqMsgInitSize (4 + 8 + strlen statName + strlen fieldName + 2)).write
        (intBytes MessageType.confidenceInterval)).advance 4 |>.write
        (stringBytes statName)).advance (statName.bytes.length + 1) |>.write
        (stringBytes fieldName)).advance (fieldName.bytes.length + 1) |>.write
        (doubleBytes value)
  | .simuData timeStamp simuId clientRank vectSize nbVect fieldName dataPtr =>
      -- the product of the two `int` is computed before `sizeof(double)` comes in
      let block := zmqMsgInitSize
        (4 * 4 + BitVec.ofNat 64 maxFieldName + sizeT (nbVect * vectSize) * 8)
      let block := (block.write (intBytes timeStamp)).advance 4
      let block := (block.write (intBytes simuId)).advance 4
      let block := (block.write (intBytes clientRank)).advance 4
      let block := (block.write (intBytes vectSize)).advance 4
      let block := (block.write fieldName.bytes).advance maxFieldName
      writeVectors vectSize dataPtr block nbVect.toNat

/-- The length of the message without any overflow. -/
def MessageCall.exactLength : MessageCall → Nat
  | .hello | .alive | .stop => 4
  | .job _ jobId nbParam _ => 2 * 4 + nbParam.toNat * 8 + (jobId.bytes.length + 1)
  | .drop _ jobId => 2 * 4 + (jobId.bytes.length + 1)
  | .timeout _ => 2 * 4
  | .simuStatus _ _ => 3 * 4
  | .serverName nodeName _ => 2 * 4 + (nodeName.bytes.length + 1)
  | .confidenceInterval statName fieldName _ =>
      4 + (statName.bytes.length + 1) + (fieldName.bytes.length + 1) + 8
  | .simuData _ _ _ vectSize nbVect _ _ =>
      4 * 4 + maxFieldName + nbVect.toNat * (vectSize.toNat * 8)

/-- Counts and sizes are not negative. -/
def MessageCall.Natural : MessageCall → Prop
  | .job _ _ nbParam _ => 0 ≤ nbParam.toInt
  | .simuData _ _ _ vectSize nbVect _ _ => 0 ≤ vectSize.toInt ∧ 0 ≤ nbVect.toInt
  | _ => True

/-- The size that is asked for is the one of the message. -/
def MessageCall.SizedRight : MessageCall → Prop
  | .timeout _ => False
  | .simuData _ _ _ vectSize nbVect _ _ => nbVect.toInt * vectSize.toInt < 2 ^ 31
  | _ => True

end Build

section Packed

theorem arrayBytes_length (array : Nat → BitVec 64) (count : Nat) :
    (arrayBytes array count).length = count * 8 := by
  rw [arrayBytes, Arrays.flatMap_length_eq fun i _ => doubleBytes_length (array i),
    List.length_range]

theorem aligned_writeVectors (vectSize : BitVec 32) (dataPtr : Nat → Nat → BitVec 64)
    {block : Block UInt8} (aligned : block.Aligned) (n : Nat) :
    (writeVectors vectSize dataPtr block n).Aligned ∧
      (writeVectors vectSize dataPtr block n).pointer = block.pointer + n * (vectSize.toNat * 8) ∧
      (writeVectors vectSize dataPtr block n).size = block.size := by
  induction n with
  | zero => exact ⟨aligned, by rw [Nat.zero_mul]; rfl, rfl⟩
  | succ n ih =>
      obtain ⟨before, pointer, size⟩ := ih
      refine ⟨before.next (arrayBytes_length _ _), ?_, size⟩
      change (writeVectors vectSize dataPtr block n).pointer + vectSize.toNat * 8 = _
      rw [pointer, Nat.succ_mul, Nat.add_assoc]

/-- The header of a data message before the loop. -/
theorem simuDataHeader_aligned (size : BitVec 64) (timeStamp simuId clientRank vectSize : BitVec 32)
    (fieldName : FieldName) :
    (((((((((((zmqMsgInitSize size).write (intBytes timeStamp)).advance 4).write
      (intBytes simuId)).advance 4).write (intBytes clientRank)).advance 4).write
        (intBytes vectSize)).advance 4).write fieldName.bytes).advance maxFieldName).Aligned :=
  (((((aligned_allocate size.toNat).next (intBytes_length timeStamp)).next
    (intBytes_length simuId)).next (intBytes_length clientRank)).next
      (intBytes_length vectSize)).next fieldName.size

/-- Whatever is asked for, the pieces lie one behind the other and are as long as the message. -/
theorem packed_build (call : MessageCall) : Packed call.build.written call.exactLength := by
  have start := fun size : BitVec 64 => @aligned_allocate UInt8 size.toNat
  have int := intBytes_length
  cases call with
  | hello => exact (start _).write (intBytes MessageType.hello)
  | alive => exact (start _).write (intBytes MessageType.alive)
  | stop => exact (start _).write (intBytes MessageType.stop)
  | job simuId jobId nbParam paramSet =>
      have packed := ((((start (2 * 4 + sizeT nbParam * 8 + strlen jobId + 1)).next
        (int MessageType.job)).next (int simuId)).next (stringBytes_length jobId)).write
          (arrayBytes paramSet nbParam.toNat)
      rw [arrayBytes_length] at packed
      have total : MessageCall.exactLength (.job simuId jobId nbParam paramSet) =
          0 + 4 + 4 + (jobId.bytes.length + 1) + nbParam.toNat * 8 := by
        rw [MessageCall.exactLength]
        omega
      rw [total]
      exact packed
  | drop simuId jobId =>
      have packed := (((start (2 * 4 + strlen jobId + 1)).next (int MessageType.drop)).next
        (int simuId)).write (stringBytes jobId)
      rw [stringBytes_length] at packed
      exact packed
  | timeout simuId => exact ((start _).next (int MessageType.timeout)).write (intBytes simuId)
  | simuStatus simuId status =>
      exact (((start _).next (int MessageType.simuStatus)).next (int simuId)).write
        (intBytes status)
  | serverName nodeName rank =>
      have packed := (((start (2 * 4 + strlen nodeName + 1)).next (int MessageType.server)).next
        (int rank)).write (stringBytes nodeName)
      rw [stringBytes_length] at packed
      exact packed
  | confidenceInterval statName fieldName value =>
      have packed := ((((start (4 + 8 + strlen statName + strlen fieldName + 2)).next
        (int MessageType.confidenceInterval)).next (stringBytes_length statName)).next
          (stringBytes_length fieldName)).write (doubleBytes value)
      rw [doubleBytes_length] at packed
      have total : MessageCall.exactLength (.confidenceInterval statName fieldName value) =
          0 + 4 + (statName.bytes.length + 1) + (fieldName.bytes.length + 1) + 8 := by
        rw [MessageCall.exactLength]
      rw [total]
      exact packed
  | simuData timeStamp simuId clientRank vectSize nbVect fieldName dataPtr =>
      have header := simuDataHeader_aligned (4 * 4 + BitVec.ofNat 64 maxFieldName +
        sizeT (nbVect * vectSize) * 8) timeStamp simuId clientRank vectSize fieldName
      obtain ⟨packed, pointer, _⟩ := aligned_writeVectors vectSize dataPtr header nbVect.toNat
      rw [Block.Aligned, pointer] at packed
      exact packed

end Packed

section Sizes

/-- Sign extension keeps the integer: a negative `int` becomes a huge size. -/
theorem sizeT_toNat (i : BitVec 32) :
    (sizeT i).toNat = i.toNat + if i.toNat < 2 ^ 31 then 0 else 2 ^ 64 - 2 ^ 32 := by
  have bound := i.isLt
  have wide := (sizeT i).isLt
  have signed : (sizeT i).toInt = i.toInt :=
    BitVec.toInt_signExtend_of_le (show 32 ≤ 64 by decide)
  rw [BitVec.toInt_eq_toNat_cond, BitVec.toInt_eq_toNat_cond] at signed
  split_ifs at signed ⊢ <;> omega

theorem toNat_lt_of_natural {i : BitVec 32} (natural : 0 ≤ i.toInt) : i.toNat < 2 ^ 31 := by
  have value := toInt_of_natural natural
  have bound := BitVec.toInt_lt (x := i)
  omega

theorem strlen_toNat {text : CString} (small : text.bytes.length < 2 ^ 64) :
    (strlen text).toNat = text.bytes.length := by
  rw [strlen, BitVec.toNat_ofNat, Nat.mod_eq_of_lt small]

/-- The header and the values of a data message, when the product wraps and when it does not. -/
theorem simuDataSize_iff {vectSize nbVect : BitVec 32} (vectNatural : 0 ≤ vectSize.toInt)
    (countNatural : 0 ≤ nbVect.toInt)
    (small : 4 * 4 + maxFieldName + nbVect.toNat * (vectSize.toNat * 8) < 2 ^ 63) :
    (4 * 4 + BitVec.ofNat 64 maxFieldName + sizeT (nbVect * vectSize) * 8 : BitVec 64).toNat =
        4 * 4 + maxFieldName + nbVect.toNat * (vectSize.toNat * 8) ↔
      nbVect.toInt * vectSize.toInt < 2 ^ 31 := by
  have product := BitVec.toNat_mul nbVect vectSize
  have asked := sizeT_toNat (nbVect * vectSize)
  have size : (4 * 4 + BitVec.ofNat 64 maxFieldName + sizeT (nbVect * vectSize) * 8 :
      BitVec 64).toNat = (144 + (sizeT (nbVect * vectSize)).toNat * 8) % 2 ^ 64 := by
    rw [BitVec.toNat_add, BitVec.toNat_mul,
      show (4 * 4 + BitVec.ofNat 64 maxFieldName : BitVec 64).toNat = 144 from rfl,
      show (8 : BitVec 64).toNat = 8 from rfl]
    omega
  have signed : nbVect.toInt * vectSize.toInt = ((nbVect.toNat * vectSize.toNat : Nat) : Int) := by
    rw [toInt_of_natural vectNatural, toInt_of_natural countNatural, Int.natCast_mul]
  rw [maxFieldName, ← Nat.mul_assoc] at small
  rw [product] at asked
  rw [size, asked, signed, maxFieldName, ← Nat.mul_assoc]
  generalize nbVect.toNat * vectSize.toNat = values at small ⊢
  split_ifs <;> omega

/-- A type, a number and a name. -/
theorem nameSize_toNat {text : CString} (small : 2 * 4 + text.bytes.length + 1 < 2 ^ 63) :
    (2 * 4 + strlen text + 1 : BitVec 64).toNat = 2 * 4 + (text.bytes.length + 1) := by
  rw [BitVec.toNat_add, BitVec.toNat_add, strlen_toNat (by omega),
    show (2 * 4 : BitVec 64).toNat = 8 from rfl, show (1 : BitVec 64).toNat = 1 from rfl]
  omega

theorem jobSize_toNat {nbParam : BitVec 32} {jobId : CString} (natural : 0 ≤ nbParam.toInt)
    (small : 2 * 4 + nbParam.toNat * 8 + jobId.bytes.length + 1 < 2 ^ 63) :
    (2 * 4 + sizeT nbParam * 8 + strlen jobId + 1 : BitVec 64).toNat =
      2 * 4 + nbParam.toNat * 8 + jobId.bytes.length + 1 := by
  have count := sizeT_toNat nbParam
  rw [if_pos (toNat_lt_of_natural natural)] at count
  rw [BitVec.toNat_add, BitVec.toNat_add, BitVec.toNat_add, BitVec.toNat_mul (sizeT nbParam),
    strlen_toNat (by omega), count, show (8 : BitVec 64).toNat = 8 from rfl,
    show (2 * 4 : BitVec 64).toNat = 8 from rfl, show (1 : BitVec 64).toNat = 1 from rfl]
  omega

theorem confidenceSize_toNat {statName fieldName : CString}
    (small : 4 + 8 + statName.bytes.length + fieldName.bytes.length + 2 < 2 ^ 63) :
    (4 + 8 + strlen statName + strlen fieldName + 2 : BitVec 64).toNat =
      4 + 8 + statName.bytes.length + fieldName.bytes.length + 2 := by
  rw [BitVec.toNat_add, BitVec.toNat_add, BitVec.toNat_add, strlen_toNat (by omega),
    strlen_toNat (by omega), show (4 + 8 : BitVec 64).toNat = 12 from rfl,
    show (2 : BitVec 64).toNat = 2 from rfl]
  omega

theorem build_size_iff {call : MessageCall} (natural : call.Natural)
    (small : call.exactLength < 2 ^ 63) :
    call.build.size = call.exactLength ↔ call.SizedRight := by
  cases call with
  | hello | alive | stop => exact iff_of_true rfl trivial
  | simuStatus simuId status => exact iff_of_true rfl trivial
  | timeout simuId => exact iff_of_false (show ¬ (4 : BitVec 64).toNat = 2 * 4 by decide) not_false
  | job simuId jobId nbParam paramSet =>
      refine iff_of_true ?_ trivial
      rw [MessageCall.exactLength] at small ⊢
      have size := @jobSize_toNat nbParam jobId natural (by omega)
      change (2 * 4 + sizeT nbParam * 8 + strlen jobId + 1 : BitVec 64).toNat = _
      omega
  | drop simuId jobId =>
      refine iff_of_true ?_ trivial
      rw [MessageCall.exactLength] at small ⊢
      have size := @nameSize_toNat jobId (by omega)
      change (2 * 4 + strlen jobId + 1 : BitVec 64).toNat = _
      omega
  | serverName nodeName rank =>
      refine iff_of_true ?_ trivial
      rw [MessageCall.exactLength] at small ⊢
      have size := @nameSize_toNat nodeName (by omega)
      change (2 * 4 + strlen nodeName + 1 : BitVec 64).toNat = _
      omega
  | confidenceInterval statName fieldName value =>
      refine iff_of_true ?_ trivial
      rw [MessageCall.exactLength] at small ⊢
      have size := @confidenceSize_toNat statName fieldName (by omega)
      change (4 + 8 + strlen statName + strlen fieldName + 2 : BitVec 64).toNat = _
      omega
  | simuData timeStamp simuId clientRank vectSize nbVect fieldName dataPtr =>
      have size : (MessageCall.build (.simuData timeStamp simuId clientRank vectSize nbVect
          fieldName dataPtr)).size =
          (4 * 4 + BitVec.ofNat 64 maxFieldName + sizeT (nbVect * vectSize) * 8).toNat :=
        (aligned_writeVectors vectSize dataPtr (simuDataHeader_aligned ..) nbVect.toNat).2.2
      rw [size]
      exact simuDataSize_iff natural.1 natural.2 small

/-- Each of the ten functions writes inside of its message and fills it exactly when the size it
asks for is right: only a TIMEOUT message is too short whatever it says, and a data message is
wrong when the number of its values is no `int`. -/
theorem messageFits_iff (call : MessageCall) (natural : call.Natural)
    (small : call.exactLength < 2 ^ 63) : call.build.Exact ↔ call.SizedRight :=
  (packed_build call).exact_iff.trans (build_size_iff natural small)

/-- Three vectors of two values. -/
def threeVectors : MessageCall :=
  .simuData 7 2 0 2 3 ⟨[104, 101, 97, 116] ++ List.replicate 124 0, rfl⟩
    fun i j => BitVec.ofNat 64 (i + j)

theorem messageFits_iff_threeVectors : threeVectors.build.Exact ↔ threeVectors.SizedRight :=
  messageFits_iff threeVectors ⟨by decide, by decide⟩ (by decide)

/-- A TIMEOUT message has four bytes, and its number is written behind them. -/
theorem not_messageFits_timeout :
    ¬ ∀ call : MessageCall, call.Natural → call.exactLength < 2 ^ 63 → call.build.Exact := by
  intro fits
  obtain ⟨inside, _⟩ := fits (.timeout 0) trivial (by decide)
  exact absurd (inside (4, intBytes 0) (by decide)) (by decide)

end Sizes

section Contents

/-- The bytes of the message that was built. -/
def MessageCall.bytes (call : MessageCall) : Bytes := zmqMsg call.build.size call.build.contents

/-- The same call on the lists of values. -/
def MessageCall.layout : MessageCall → Option Bytes
  | .hello => some (intBytes MessageType.hello)
  | .alive => some messageAlive
  | .job simuId jobId nbParam paramSet =>
      some (messageJob simuId jobId ((List.range nbParam.toNat).map paramSet))
  | .drop simuId jobId => some (messageDrop simuId jobId)
  | .stop => some messageStop
  | .timeout simuId => some (messageTimeout simuId)
  | .simuStatus simuId status => some (messageSimuStatus simuId status)
  | .serverName nodeName rank => some (messageServerName nodeName rank)
  | .confidenceInterval statName fieldName value =>
      some (messageConfidenceInterval statName fieldName value)
  | .simuData timeStamp simuId clientRank vectSize nbVect fieldName dataPtr =>
      messageSimuData timeStamp simuId clientRank vectSize nbVect fieldName
        ((List.range nbVect.toNat).map fun i => (List.range vectSize.toNat).map (dataPtr i))

theorem arrayBytes_eq (array : Nat → BitVec 64) (count : Nat) :
    arrayBytes array count = ((List.range count).map array).flatMap doubleBytes := by
  rw [arrayBytes, List.flatMap_map]

theorem contents_writeVectors (vectSize : BitVec 32) (dataPtr : Nat → Nat → BitVec 64)
    (block : Block UInt8) (n : Nat) :
    (writeVectors vectSize dataPtr block n).contents = block.contents ++
      (((List.range n).map fun i => (List.range vectSize.toNat).map (dataPtr i)).map
        fun vect => vect.flatMap doubleBytes).flatten := by
  induction n with
  | zero => simp [writeVectors]
  | succ n ih =>
      have step : (writeVectors vectSize dataPtr block (n + 1)).contents =
          (writeVectors vectSize dataPtr block n).contents ++
            arrayBytes (dataPtr n) vectSize.toNat := by
        simp only [writeVectors, Block.contents_advance, Block.contents_write]
      rw [step, ih, arrayBytes_eq, List.range_succ]
      simp

theorem contents_simuData (timeStamp simuId clientRank vectSize nbVect : BitVec 32)
    (fieldName : FieldName) (dataPtr : Nat → Nat → BitVec 64) :
    (MessageCall.build (.simuData timeStamp simuId clientRank vectSize nbVect fieldName
      dataPtr)).contents =
      intBytes timeStamp ++ (intBytes simuId ++ (intBytes clientRank ++ (intBytes vectSize ++
        (fieldName.bytes ++ (((List.range nbVect.toNat).map fun i =>
          (List.range vectSize.toNat).map (dataPtr i)).map
            fun vect => vect.flatMap doubleBytes).flatten)))) := by
  rw [MessageCall.build, contents_writeVectors]
  simp [zmqMsgInitSize]

/-- The bytes are those of the layout, which is written without any size in the types of C: what is
shown of a layout holds of the message that was built. -/
theorem layout_eq {call : MessageCall} (natural : call.Natural)
    (small : call.exactLength < 2 ^ 63) (right : call.SizedRight) :
    call.layout = some call.bytes := by
  have size := (build_size_iff natural small).mpr right
  have length : call.build.contents.length = call.exactLength :=
    (packed_build call).length_flatMap
  have whole : call.bytes = call.build.contents := by
    rw [MessageCall.bytes, zmqMsg_eq (length.trans size.symm)]
  rw [whole]
  cases call with
  | hello | alive | stop | simuStatus simuId status => rfl
  | timeout simuId => exact right.elim
  | job simuId jobId nbParam paramSet =>
      have contents : (MessageCall.build (.job simuId jobId nbParam paramSet)).contents =
          intBytes MessageType.job ++ (intBytes simuId ++ (stringBytes jobId ++
            ((List.range nbParam.toNat).map paramSet).flatMap doubleBytes)) := by
        simp [MessageCall.build, zmqMsgInitSize, arrayBytes_eq]
      rw [MessageCall.layout, messageJob, ← contents, zmqMsg_eq]
      rw [length, MessageCall.exactLength, List.length_map, List.length_range]
      omega
  | drop simuId jobId =>
      have contents : (MessageCall.build (.drop simuId jobId)).contents =
          intBytes MessageType.drop ++ (intBytes simuId ++ stringBytes jobId) := by
        simp [MessageCall.build, zmqMsgInitSize]
      rw [MessageCall.layout, messageDrop, ← contents, zmqMsg_eq]
      rw [length, MessageCall.exactLength]
      omega
  | serverName nodeName rank =>
      have contents : (MessageCall.build (.serverName nodeName rank)).contents =
          intBytes MessageType.server ++ (intBytes rank ++ stringBytes nodeName) := by
        simp [MessageCall.build, zmqMsgInitSize]
      rw [MessageCall.layout, messageServerName, ← contents, zmqMsg_eq]
      rw [length, MessageCall.exactLength]
      omega
  | confidenceInterval statName fieldName value =>
      have contents : (MessageCall.build (.confidenceInterval statName fieldName value)).contents =
          intBytes MessageType.confidenceInterval ++ (stringBytes statName ++
            (stringBytes fieldName ++ doubleBytes value)) := by
        simp [MessageCall.build, zmqMsgInitSize]
      rw [MessageCall.layout, messageConfidenceInterval, ← contents, zmqMsg_eq]
      rw [length, MessageCall.exactLength]
      omega
  | simuData timeStamp simuId clientRank vectSize nbVect fieldName dataPtr =>
      have sized : ∀ vect ∈ (List.range nbVect.toNat).map
          (fun i => (List.range vectSize.toNat).map (dataPtr i)), vect.length = vectSize.toNat := by
        intro vect member
        obtain ⟨i, _, rfl⟩ := List.mem_map.mp member
        rw [List.length_map, List.length_range]
      have values := mapM_copyDoubles sized
      rw [List.length_map, List.length_range] at values
      have contents :=
        contents_simuData timeStamp simuId clientRank vectSize nbVect fieldName dataPtr
      rw [MessageCall.layout, messageSimuData, if_pos ⟨natural.1, natural.2, right⟩, values,
        Option.bind_eq_bind, Option.bind_some, ← contents, zmqMsg_eq]
      rw [length, MessageCall.exactLength, Nat.mul_assoc]

end Contents

end Melissa
