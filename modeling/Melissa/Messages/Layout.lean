import Melissa.Base.Utf8
import Melissa.Io.Codec

/-! The messages of `melissa_messages.c` as bytes: how they are built, and how the values in them
are read. -/

namespace Melissa

abbrev Bytes := List UInt8

section Values

def rawBytes (size n : Nat) : Bytes := (littleEndian size n).map UInt8.ofBitVec

def rawNat (bytes : Bytes) : Nat := littleEndianOf (bytes.map UInt8.toBitVec)

def intBytes (i : BitVec 32) : Bytes := rawBytes 4 i.toNat

def doubleBytes (d : BitVec 64) : Bytes := rawBytes 8 d.toNat

/-- A string without its final NUL. -/
structure CString where
  bytes : Bytes
  clean : (0 : UInt8) ∉ bytes
  deriving DecidableEq

/-- `strcpy`. -/
def stringBytes (text : CString) : Bytes := text.bytes ++ [0]

end Values

section Types

namespace MessageType

def hello : BitVec 32 := 10

def job : BitVec 32 := 1

def drop : BitVec 32 := 2

def stop : BitVec 32 := 3

def timeout : BitVec 32 := 4

def simuStatus : BitVec 32 := 5

def server : BitVec 32 := 6

def alive : BitVec 32 := 7

def confidenceInterval : BitVec 32 := 8

def options : BitVec 32 := 9

end MessageType

end Types

section Build

/-- `zmq_msg_init_size` and the bytes written one after the other. What is written past the
allocated size is not part of the message. -/
def zmqMsg (size : Nat) (written : Bytes) : Bytes := written.take size

def messageAlive : Bytes := zmqMsg 4 (intBytes MessageType.alive)

def messageJob (simuId : BitVec 32) (jobId : CString) (paramSet : List (BitVec 64)) : Bytes :=
  zmqMsg (2 * 4 + paramSet.length * 8 + jobId.bytes.length + 1)
    (intBytes MessageType.job ++ (intBytes simuId ++
      (stringBytes jobId ++ paramSet.flatMap doubleBytes)))

def messageDrop (simuId : BitVec 32) (jobId : CString) : Bytes :=
  zmqMsg (2 * 4 + jobId.bytes.length + 1)
    (intBytes MessageType.drop ++ (intBytes simuId ++ stringBytes jobId))

def messageStop : Bytes := zmqMsg 4 (intBytes MessageType.stop)

/-- Two numbers are written to a message of one. -/
def messageTimeout (simuId : BitVec 32) : Bytes :=
  zmqMsg 4 (intBytes MessageType.timeout ++ intBytes simuId)

def messageSimuStatus (simuId status : BitVec 32) : Bytes :=
  zmqMsg (3 * 4) (intBytes MessageType.simuStatus ++ (intBytes simuId ++ intBytes status))

def messageServerName (nodeName : CString) (rank : BitVec 32) : Bytes :=
  zmqMsg (2 * 4 + nodeName.bytes.length + 1)
    (intBytes MessageType.server ++ (intBytes rank ++ stringBytes nodeName))

def messageConfidenceInterval (statName fieldName : CString) (value : BitVec 64) : Bytes :=
  zmqMsg (4 + 8 + statName.bytes.length + fieldName.bytes.length + 2)
    (intBytes MessageType.confidenceInterval ++ (stringBytes statName ++
      (stringBytes fieldName ++ doubleBytes value)))

end Build

section Read

/-- The `size` bytes at a position; none if some of them are not part of the message. -/
def readBytes (msg : Bytes) (position size : Nat) : Option Bytes :=
  if position + size ≤ msg.length then some ((msg.drop position).take size) else none

def readInt (msg : Bytes) (position : Nat) : Option (BitVec 32) :=
  (readBytes msg position 4).map fun bytes => BitVec.ofNat 32 (rawNat bytes)

def readDouble (msg : Bytes) (position : Nat) : Option (BitVec 64) :=
  (readBytes msg position 8).map fun bytes => BitVec.ofNat 64 (rawNat bytes)

/-- The string at a position; none if it does not end inside the message. -/
def readString (msg : Bytes) (position : Nat) : Option Bytes :=
  let rest := msg.drop position
  if 0 ∈ rest then some (rest.takeWhile (· != 0)) else none

end Read

section Lemmas

theorem rawBytes_length (size n : Nat) : (rawBytes size n).length = size := by
  rw [rawBytes, List.length_map, littleEndian_length]

theorem rawNat_rawBytes {size n : Nat} (small : n < 256 ^ size) :
    rawNat (rawBytes size n) = n := by
  have bytes : (rawBytes size n).map UInt8.toBitVec = littleEndian size n := by
    rw [rawBytes, List.map_map]
    exact List.map_id _
  rw [rawNat, bytes, littleEndianOf_littleEndian small]

@[simp] theorem intBytes_length (i : BitVec 32) : (intBytes i).length = 4 := rawBytes_length 4 _

@[simp] theorem doubleBytes_length (d : BitVec 64) : (doubleBytes d).length = 8 :=
  rawBytes_length 8 _

@[simp] theorem stringBytes_length (text : CString) :
    (stringBytes text).length = text.bytes.length + 1 := by
  rw [stringBytes, List.length_append, List.length_singleton]

theorem zmqMsg_eq {size : Nat} {written : Bytes} (fits : written.length = size) :
    zmqMsg size written = written := by
  rw [zmqMsg, ← fits, List.take_length]

theorem readBytes_at {front piece : Bytes} (back : Bytes) {position size : Nat}
    (starts : front.length = position) (fits : piece.length = size) :
    readBytes (front ++ (piece ++ back)) position size = some piece := by
  subst starts fits
  rw [readBytes, List.drop_left, List.take_left, if_pos]
  rw [List.length_append, List.length_append]
  omega

theorem readInt_at {front : Bytes} (i : BitVec 32) (back : Bytes) {position : Nat}
    (starts : front.length = position) :
    readInt (front ++ (intBytes i ++ back)) position = some i := by
  rw [readInt, readBytes_at back starts (intBytes_length i), Option.map_some, intBytes,
    rawNat_rawBytes (by have := i.isLt; omega), BitVec.ofNat_toNat, BitVec.setWidth_eq]

theorem readDouble_at {front : Bytes} (d : BitVec 64) (back : Bytes) {position : Nat}
    (starts : front.length = position) :
    readDouble (front ++ (doubleBytes d ++ back)) position = some d := by
  rw [readDouble, readBytes_at back starts (doubleBytes_length d), Option.map_some, doubleBytes,
    rawNat_rawBytes (by have := d.isLt; omega), BitVec.ofNat_toNat, BitVec.setWidth_eq]

theorem readString_at {front : Bytes} (text : CString) (back : Bytes) {position : Nat}
    (starts : front.length = position) :
    readString (front ++ (stringBytes text ++ back)) position = some text.bytes := by
  subst starts
  have ended : (0 : UInt8) ∈ stringBytes text ++ back := by
    rw [stringBytes]
    simp
  have own : (stringBytes text ++ back).takeWhile (· != 0) = text.bytes := by
    have kept : ∀ byte ∈ text.bytes, (byte != 0) = true := by
      intro byte member
      rw [bne_iff_ne]
      rintro rfl
      exact text.clean member
    rw [stringBytes, List.append_assoc, List.takeWhile_append_of_pos kept]
    simp
  rw [readString, List.drop_left, if_pos ended, own]

end Lemmas

end Melissa
