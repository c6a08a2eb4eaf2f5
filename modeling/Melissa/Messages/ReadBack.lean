import Melissa.Messages.Control

/-! The readers of `melissa_messages.c`: `msg_buffer` points behind the type of the message, and
what they read outside of the message is nothing. -/

namespace Melissa

section Readers

def readMessageJob (msg : Bytes) (nbParam : Nat) :
    Option (BitVec 32 × Bytes × List (BitVec 64)) := do
  let simuId ← readInt msg 4
  let jobId ← readString msg 8
  let paramSet ← readDoubles msg (8 + (jobId.length + 1)) nbParam
  some (simuId, jobId, paramSet)

def readMessageDrop (msg : Bytes) : Option (BitVec 32 × Bytes) := do
  let simuId ← readInt msg 4
  let jobId ← readString msg 8
  some (simuId, jobId)

def readMessageTimeout (msg : Bytes) : Option (BitVec 32) := readInt msg 4

/-- The int in memory after `strcpy` has written a string over its first bytes. -/
def overwrittenInt (before : BitVec 32) (text : Bytes) : BitVec 32 :=
  BitVec.ofNat 32 (rawNat (text ++ 0 :: (intBytes before).drop (text.length + 1)))

/-- The status is copied by `strcpy`: up to its first zero byte, the others stay as they were. -/
def readMessageSimuStatus (msg : Bytes) (before : BitVec 32) : Option (BitVec 32 × BitVec 32) := do
  let simuId ← readInt msg 4
  let text ← readString msg 8
  some (simuId, overwrittenInt before text)

def readMessageServerName (msg : Bytes) : Option (Bytes × BitVec 32) := do
  let rank ← readInt msg 4
  let nodeName ← readString msg 8
  some (nodeName, rank)

/-- The pointer is moved to the NUL of each string, not behind it. -/
def readMessageConfidenceInterval (msg : Bytes) : Option (Bytes × Bytes × BitVec 64) := do
  let msgPtr := 4
  let statName ← readString msg msgPtr
  let msgPtr := msgPtr + statName.length
  let fieldName ← readString msg msgPtr
  let msgPtr := msgPtr + fieldName.length
  let value ← readDouble msg msgPtr
  some (statName, fieldName, value)

end Readers

section RoundTrip

/-- A message and, for a status, the `int` its reader is given to write to. -/
inductive ControlMessage where
  | job (simuId : BitVec 32) (jobId : CString) (paramSet : List (BitVec 64))
  | drop (simuId : BitVec 32) (jobId : CString)
  | timeout (simuId : BitVec 32)
  | simuStatus (simuId status before : BitVec 32)
  | serverName (nodeName : CString) (rank : BitVec 32)
  | confidenceInterval (statName fieldName : CString) (value : BitVec 64)

/-- The reader finds the arguments of the builder. -/
def ControlMessage.ReadBack : ControlMessage → Prop
  | .job simuId jobId paramSet =>
      readMessageJob (messageJob simuId jobId paramSet) paramSet.length =
        some (simuId, jobId.bytes, paramSet)
  | .drop simuId jobId =>
      readMessageDrop (messageDrop simuId jobId) = some (simuId, jobId.bytes)
  | .timeout simuId => readMessageTimeout (messageTimeout simuId) = some simuId
  | .simuStatus simuId status before =>
      readMessageSimuStatus (messageSimuStatus simuId status) before = some (simuId, status)
  | .serverName nodeName rank =>
      readMessageServerName (messageServerName nodeName rank) = some (nodeName.bytes, rank)
  | .confidenceInterval statName fieldName value =>
      readMessageConfidenceInterval (messageConfidenceInterval statName fieldName value) =
        some (statName.bytes, fieldName.bytes, value)

/-- Behind the first zero byte of the status there is nothing new. -/
def ControlMessage.Readable : ControlMessage → Prop
  | .job .. | .drop .. | .serverName .. => True
  | .timeout _ => False
  | .simuStatus _ status before => ∃ front : Bytes, 0 ∉ front ∧
      intBytes status = front ++ 0 :: (intBytes before).drop (front.length + 1)
  | .confidenceInterval _ fieldName value => fieldName.bytes = [] ∧ value = 0

end RoundTrip

section Values

theorem littleEndian_littleEndianOf (bytes : List (BitVec 8)) :
    littleEndian bytes.length (littleEndianOf bytes) = bytes := by
  induction bytes with
  | nil => rfl
  | cons byte bytes ih =>
      have bound := byte.isLt
      have quotient : (byte.toNat + 256 * littleEndianOf bytes) / 256 = littleEndianOf bytes := by
        omega
      have low : BitVec.ofNat 8 (byte.toNat + 256 * littleEndianOf bytes) = byte := by
        apply BitVec.eq_of_toNat_eq
        rw [BitVec.toNat_ofNat]
        omega
      rw [List.length_cons, littleEndianOf, littleEndian, quotient, low, ih]

theorem littleEndianOf_lt (bytes : List (BitVec 8)) :
    littleEndianOf bytes < 256 ^ bytes.length := by
  induction bytes with
  | nil => exact Nat.one_pos
  | cons byte bytes ih =>
      have bound := byte.isLt
      rw [littleEndianOf, List.length_cons, Nat.pow_succ]
      omega

theorem rawBytes_rawNat {bytes : Bytes} {size : Nat} (sized : bytes.length = size) :
    rawBytes size (rawNat bytes) = bytes := by
  have back := littleEndian_littleEndianOf (bytes.map UInt8.toBitVec)
  rw [List.length_map, sized] at back
  rw [rawBytes, rawNat, back, List.map_map]
  exact List.map_id _

/-- Bytes that are read as a number are the bytes of that number. -/
theorem number_eq_iff {width size : Nat} (wide : 2 ^ width = 256 ^ size) {bytes : Bytes}
    (sized : bytes.length = size) (i : BitVec width) :
    BitVec.ofNat width (rawNat bytes) = i ↔ bytes = rawBytes size i.toNat := by
  constructor
  · rintro rfl
    have bound : rawNat bytes < 256 ^ (bytes.map UInt8.toBitVec).length := littleEndianOf_lt _
    rw [List.length_map, sized, ← wide] at bound
    rw [BitVec.toNat_ofNat, Nat.mod_eq_of_lt bound, rawBytes_rawNat sized]
  · rintro rfl
    have bound := i.isLt
    rw [wide] at bound
    rw [rawNat_rawBytes bound, BitVec.ofNat_toNat, BitVec.setWidth_eq]

end Values

section Strings

variable {front : Bytes} {position : Nat}

/-- The string that is read ends before the first zero byte. -/
theorem readString_iff (starts : front.length = position) (bytes text : Bytes) :
    readString (front ++ bytes) position = some text ↔
      0 ∉ text ∧ ∃ back, bytes = text ++ 0 :: back := by
  constructor
  · intro found
    by_cases zero : (0 : UInt8) ∈ bytes
    · obtain ⟨first, back, rfl, clean⟩ := List.eq_append_cons_of_mem zero
      have whole := readString_at ⟨first, clean⟩ back starts
      rw [stringBytes, List.append_assoc] at whole
      cases whole.symm.trans found
      exact ⟨clean, back, rfl⟩
    · subst starts
      rw [readString, List.drop_left, if_neg zero] at found
      cases found
  · rintro ⟨clean, back, rfl⟩
    have whole := readString_at ⟨text, clean⟩ back starts
    rw [stringBytes, List.append_assoc] at whole
    exact whole

end Strings

section Each

theorem readBack_job (simuId : BitVec 32) (jobId : CString) (paramSet : List (BitVec 64)) :
    readMessageJob (messageJob simuId jobId paramSet) paramSet.length =
      some (simuId, jobId.bytes, paramSet) := by
  have message : messageJob simuId jobId paramSet =
      intBytes MessageType.job ++ (intBytes simuId ++
        (stringBytes jobId ++ paramSet.flatMap doubleBytes)) := by
    rw [messageJob, zmqMsg_eq]
    simp only [List.length_append, intBytes_length, stringBytes_length,
      flatMap_doubleBytes_length]
    omega
  have number := readInt_at simuId (stringBytes jobId ++ paramSet.flatMap doubleBytes)
    (intBytes_length MessageType.job)
  have name := @readString_at (intBytes MessageType.job ++ intBytes simuId) jobId
    (paramSet.flatMap doubleBytes) 8 (by simp)
  have values := @readDoubles_at (intBytes MessageType.job ++ intBytes simuId ++ stringBytes jobId)
    paramSet (8 + (jobId.bytes.length + 1)) paramSet.length (by simp; omega) (Nat.le_refl _)
  simp only [List.append_assoc] at name values
  simp only [readMessageJob, message, number, name, values, List.take_length,
    Option.bind_eq_bind, Option.bind_some]

theorem readBack_drop (simuId : BitVec 32) (jobId : CString) :
    readMessageDrop (messageDrop simuId jobId) = some (simuId, jobId.bytes) := by
  have message : messageDrop simuId jobId =
      intBytes MessageType.drop ++ (intBytes simuId ++ (stringBytes jobId ++ [])) := by
    rw [messageDrop, zmqMsg_eq, List.append_nil]
    simp only [List.length_append, intBytes_length, stringBytes_length]
    omega
  have number := readInt_at simuId (stringBytes jobId ++ []) (intBytes_length MessageType.drop)
  have name := @readString_at (intBytes MessageType.drop ++ intBytes simuId) jobId [] 8 (by simp)
  rw [List.append_assoc] at name
  simp only [readMessageDrop, message, number, name, Option.bind_eq_bind, Option.bind_some]

theorem readBack_serverName (nodeName : CString) (rank : BitVec 32) :
    readMessageServerName (messageServerName nodeName rank) = some (nodeName.bytes, rank) := by
  have message : messageServerName nodeName rank =
      intBytes MessageType.server ++ (intBytes rank ++ (stringBytes nodeName ++ [])) := by
    rw [messageServerName, zmqMsg_eq, List.append_nil]
    simp only [List.length_append, intBytes_length, stringBytes_length]
    omega
  have number := readInt_at rank (stringBytes nodeName ++ []) (intBytes_length MessageType.server)
  have name := @readString_at (intBytes MessageType.server ++ intBytes rank) nodeName [] 8 (by simp)
  rw [List.append_assoc] at name
  simp only [readMessageServerName, message, number, name, Option.bind_eq_bind, Option.bind_some]

/-- The message ends where its reader begins. -/
theorem readMessageTimeout_none (simuId : BitVec 32) :
    readMessageTimeout (messageTimeout simuId) = none := by
  have short : (messageTimeout simuId).length = 4 := by
    rw [messageTimeout, zmqMsg, List.length_take]
    simp
  rw [readMessageTimeout, readInt, readBytes, if_neg (by omega)]
  rfl

theorem readBack_simuStatus_iff (simuId status before : BitVec 32) :
    readMessageSimuStatus (messageSimuStatus simuId status) before = some (simuId, status) ↔
      ∃ front : Bytes, 0 ∉ front ∧
        intBytes status = front ++ 0 :: (intBytes before).drop (front.length + 1) := by
  have message : messageSimuStatus simuId status =
      intBytes MessageType.simuStatus ++ (intBytes simuId ++ intBytes status) := by
    rw [messageSimuStatus, zmqMsg_eq]
    simp
  have number := readInt_at simuId (intBytes status) (intBytes_length MessageType.simuStatus)
  have text := @readString_iff (intBytes MessageType.simuStatus ++ intBytes simuId) 8 (by simp)
    (intBytes status)
  simp only [List.append_assoc] at text
  simp only [readMessageSimuStatus, message, number, Option.bind_eq_bind, Option.bind_some,
    Option.bind_eq_some_iff, Option.some.injEq, Prod.mk.injEq, true_and, text]
  have whole (front : Bytes) (inside : front.length + 1 ≤ 4) :
      overwrittenInt before front = status ↔
        intBytes status = front ++ 0 :: (intBytes before).drop (front.length + 1) := by
    have four : (front ++ 0 :: (intBytes before).drop (front.length + 1)).length = 4 := by
      rw [List.length_append, List.length_cons, List.length_drop, intBytes_length]
      omega
    exact (number_eq_iff (by norm_num) four status).trans eq_comm
  constructor
  · rintro ⟨front, ⟨clean, back, split⟩, same⟩
    have length := congrArg List.length split
    rw [intBytes_length, List.length_append, List.length_cons] at length
    exact ⟨front, clean, (whole front (by omega)).mp same⟩
  · rintro ⟨front, clean, split⟩
    have length := congrArg List.length split
    rw [intBytes_length, List.length_append, List.length_cons] at length
    exact ⟨front, ⟨clean, _, split⟩, (whole front (by omega)).mpr split⟩

/-- Only a zero survives when its bytes are read two places too early. -/
theorem shiftedDouble_iff (value : BitVec 64) :
    0 :: 0 :: (doubleBytes value).take 6 = doubleBytes value ↔ value = 0 := by
  constructor
  · intro same
    have zeros : ∀ bytes : Bytes, bytes.length = 8 → 0 :: 0 :: bytes.take 6 = bytes →
        bytes = doubleBytes 0 := by
      intro bytes eight shifted
      match bytes, eight with
      | [a, b, c, d, e, f, g, h], _ =>
          simp only [List.take_succ_cons, List.take_zero, List.cons.injEq] at shifted
          obtain ⟨rfl, rfl, rfl, rfl, rfl, rfl, rfl, rfl, _⟩ := shifted
          decide
    have zero := zeros _ (doubleBytes_length value) same
    exact ((number_eq_iff (by norm_num) (doubleBytes_length value) value).mpr rfl).symm.trans
      ((number_eq_iff (by norm_num) (doubleBytes_length value) 0).mpr zero)
  · rintro rfl
    decide

theorem earlyBytes_length (fieldName : CString) (value : BitVec 64) :
    ((0 :: (stringBytes fieldName ++ doubleBytes value)).take 8).length = 8 := by
  simp only [List.length_take, List.length_cons, List.length_append, stringBytes_length,
    doubleBytes_length]
  omega

/-- The reader leaves its pointer on the NUL of the first string: the second one is empty, and the
value begins with this NUL. -/
theorem readMessageConfidenceInterval_eq (statName fieldName : CString) (value : BitVec 64) :
    readMessageConfidenceInterval (messageConfidenceInterval statName fieldName value) =
      some (statName.bytes, [],
        BitVec.ofNat 64 (rawNat ((0 :: (stringBytes fieldName ++ doubleBytes value)).take 8))) := by
  have message : messageConfidenceInterval statName fieldName value =
      intBytes MessageType.confidenceInterval ++ (stringBytes statName ++
        (stringBytes fieldName ++ doubleBytes value)) := by
    rw [messageConfidenceInterval, zmqMsg_eq]
    simp only [List.length_append, intBytes_length, stringBytes_length, doubleBytes_length]
    omega
  have name := readString_at statName (stringBytes fieldName ++ doubleBytes value)
    (intBytes_length MessageType.confidenceInterval)
  have starts : (intBytes MessageType.confidenceInterval ++ statName.bytes).length =
      4 + statName.bytes.length := by
    rw [List.length_append, intBytes_length]
  have late : intBytes MessageType.confidenceInterval ++ (stringBytes statName ++
      (stringBytes fieldName ++ doubleBytes value)) =
        (intBytes MessageType.confidenceInterval ++ statName.bytes) ++
          (0 :: (stringBytes fieldName ++ doubleBytes value)) := by
    simp [stringBytes]
  have empty := (readString_iff starts (0 :: (stringBytes fieldName ++ doubleBytes value)) []).mpr
    ⟨List.not_mem_nil, _, rfl⟩
  have eight := readBytes_at ((0 :: (stringBytes fieldName ++ doubleBytes value)).drop 8) starts
    (earlyBytes_length fieldName value)
  rw [List.take_append_drop] at eight
  rw [← late] at empty eight
  rw [message, readMessageConfidenceInterval]
  simp only [name, empty, readDouble, List.length_nil, Nat.add_zero, eight, Option.map_some,
    Option.bind_eq_bind, Option.bind_some]

theorem readBack_confidenceInterval_iff (statName fieldName : CString) (value : BitVec 64) :
    readMessageConfidenceInterval (messageConfidenceInterval statName fieldName value) =
        some (statName.bytes, fieldName.bytes, value) ↔
      fieldName.bytes = [] ∧ value = 0 := by
  rw [readMessageConfidenceInterval_eq, Option.some.injEq, Prod.mk.injEq, Prod.mk.injEq,
    number_eq_iff (by norm_num) (earlyBytes_length fieldName value) value]
  constructor
  · rintro ⟨_, noField, same⟩
    rw [stringBytes, ← noField] at same
    exact ⟨noField.symm, (shiftedDouble_iff value).mp same⟩
  · rintro ⟨noField, zero⟩
    have same := (shiftedDouble_iff value).mpr zero
    rw [stringBytes, noField]
    exact ⟨rfl, rfl, same⟩

/-- Which control messages come back as they were sent. -/
theorem readBack_iff (message : ControlMessage) : message.ReadBack ↔ message.Readable := by
  cases message with
  | job simuId jobId paramSet => exact iff_of_true (readBack_job simuId jobId paramSet) trivial
  | drop simuId jobId => exact iff_of_true (readBack_drop simuId jobId) trivial
  | timeout simuId =>
      refine iff_of_false ?_ not_false
      rw [ControlMessage.ReadBack, readMessageTimeout_none]
      intro found
      cases found
  | simuStatus simuId status before => exact readBack_simuStatus_iff simuId status before
  | serverName nodeName rank => exact iff_of_true (readBack_serverName nodeName rank) trivial
  | confidenceInterval statName fieldName value =>
      exact readBack_confidenceInterval_iff statName fieldName value

/-- The status 1 has its first zero byte behind the one that says so: what the caller had in the
other bytes stays. -/
theorem not_readBack_status : ¬ (ControlMessage.simuStatus 0 1 0xffffffff).ReadBack := by
  rw [ControlMessage.ReadBack]
  decide

end Each

end Melissa
