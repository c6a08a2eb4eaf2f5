import Melissa.Ints
import Melissa.Messages.SimuData

/-! The reply to a connection request: how rank 0 of the server builds it, and what
`melissa_init_internal` of the client takes from it. -/

namespace Melissa

section Build

/-- The value that `melissa_utils.h` and `melissa_api.c` give it when `mpi.h` does not. -/
def mpiMaxProcessorName : Nat := 256

/-- `txt_buffer` of `melissa_server_init`, with whatever it holds before the port name. -/
structure TxtBuffer where
  bytes : Bytes
  size : bytes.length = mpiMaxProcessorName + 50

/-- The integers of a reply; `comm_size` comes before them. -/
structure ServerInts where
  sobolOp : BitVec 32
  learning : BitVec 32
  nbParameters : BitVec 32
  verboseLvl : BitVec 32
  deriving DecidableEq

def intsBytes (commSize : BitVec 32) (ints : ServerInts) : Bytes :=
  intBytes commSize ++ (intBytes ints.sobolOp ++ (intBytes ints.learning ++
    (intBytes ints.nbParameters ++ intBytes ints.verboseLvl)))

/-- What a rank contributes to `MPI_Gather`: the first bytes of `txt_buffer` after `sprintf`. -/
def gatheredName (name : CString) (txtBuffer : TxtBuffer) : Bytes :=
  (stringBytes name ++ txtBuffer.bytes.drop (name.bytes.length + 1)).take mpiMaxProcessorName

/-- The reply of `melissa_server_run` with the port names of all ranks; none where its size
overflows. -/
def connectionReply (ints : ServerInts) (ranks : List (CString × TxtBuffer)) : Option Bytes := do
  let commSize := BitVec.ofNat 32 ranks.length
  let portNames := ranks.flatMap fun rank => gatheredName rank.1 rank.2
  let size ← mulInt commSize.toInt mpiMaxProcessorName
  if 0 ≤ size ∧ size.toNat ≤ portNames.length then
    some (zmqMsg (5 * 4 + size.toNat) (intsBytes commSize ints ++ portNames.take size.toNat))
  else none

end Build

section Read

/-- What `melissa_init_internal` keeps: `rinit_tab` and `port_names`. -/
structure ClientTables where
  rinitTab : List (BitVec 32)
  portNames : Bytes
  deriving DecidableEq

/-- `melissa_init_internal` on the reply; none if it reads a byte outside of the message. -/
def melissaInitInternal (msg : Bytes) : Option ClientTables := do
  let rinitTab ← (List.range 5).mapM fun i => readInt msg (4 * i)
  let nbProcServer := (rinitTab.getD 0 0).toInt
  let size ← mulInt nbProcServer mpiMaxProcessorName
  if 0 ≤ size then do
    let portNames ← readBytes msg (5 * 4) size.toNat
    some { rinitTab := rinitTab, portNames := portNames }
  else none

/-- The name that `melissa_connect` gets for a server rank. -/
def ClientTables.portName (tables : ClientTables) (rank : Nat) : Option Bytes :=
  readString tables.portNames (mpiMaxProcessorName * rank)

end Read

section Lemmas

theorem intsBytes_length (commSize : BitVec 32) (ints : ServerInts) :
    (intsBytes commSize ints).length = 20 := by
  simp only [intsBytes, List.length_append, intBytes_length]

theorem readInts_at (commSize : BitVec 32) (ints : ServerInts) (back : Bytes) :
    ((List.range 5).mapM fun i => readInt (intsBytes commSize ints ++ back) (4 * i)) =
      some [commSize, ints.sobolOp, ints.learning, ints.nbParameters, ints.verboseLvl] := by
  obtain ⟨a, b, c, d⟩ := ints
  have first := @readInt_at [] commSize (intBytes a ++ (intBytes b ++ (intBytes c ++
    (intBytes d ++ back)))) (4 * 0) rfl
  have second := @readInt_at (intBytes commSize) a (intBytes b ++ (intBytes c ++
    (intBytes d ++ back))) (4 * 1) (by simp)
  have third := @readInt_at (intBytes commSize ++ intBytes a) b (intBytes c ++
    (intBytes d ++ back)) (4 * 2) (by simp)
  have fourth := @readInt_at (intBytes commSize ++ intBytes a ++ intBytes b) c
    (intBytes d ++ back) (4 * 3) (by simp)
  have fifth := @readInt_at (intBytes commSize ++ intBytes a ++ intBytes b ++ intBytes c) d
    back (4 * 4) (by simp)
  simp only [List.nil_append, List.append_assoc] at first second third fourth fifth
  have indices : List.range 5 = [0, 1, 2, 3, 4] := rfl
  rw [indices]
  simp only [intsBytes, List.append_assoc, List.mapM_cons, List.mapM_nil, first, second, third,
    fourth, fifth, Option.bind_eq_bind, Option.bind_some, Option.pure_def]

theorem gatheredName_length (name : CString) (txtBuffer : TxtBuffer)
    (short : name.bytes.length < mpiMaxProcessorName) :
    (gatheredName name txtBuffer).length = mpiMaxProcessorName := by
  have size := txtBuffer.size
  simp only [gatheredName, List.length_take, List.length_append, stringBytes_length,
    List.length_drop, size]
  omega

/-- The slot starts with the name and its NUL. -/
theorem gatheredName_eq (name : CString) (txtBuffer : TxtBuffer)
    (short : name.bytes.length < mpiMaxProcessorName) :
    ∃ rest, gatheredName name txtBuffer = stringBytes name ++ rest := by
  refine ⟨(txtBuffer.bytes.drop (name.bytes.length + 1)).take
    (mpiMaxProcessorName - (stringBytes name).length), ?_⟩
  rw [gatheredName, List.take_append, List.take_of_length_le]
  rw [stringBytes_length]
  omega

end Lemmas

end Melissa
