import Melissa.Messages.Connection

/-! `ConnectionResponse` of melissa4py, and whether a client understands the reply it gets: the
three sources disagree on the width of a port name. -/

namespace Melissa

open Utf8

namespace Melissa4py

/-- `MPI_MAX_PROCESSOR_NAME` of `message.py`. -/
def mpiMaxProcessorName : Nat := 128

/-- `port.ljust(MPI_MAX_PROCESSOR_NAME, '\\x00').encode('utf-8')`. -/
def encodedPort (port : List Char) : Bytes :=
  encode (port ++ List.replicate (mpiMaxProcessorName - port.length) (Char.ofNat 0))

/-- `ConnectionResponse.encode`. -/
def connectionResponse (ints : ServerInts) (portNames : List (List Char)) : Bytes :=
  intsBytes (BitVec.ofNat 32 portNames.length) ints ++ portNames.flatMap encodedPort

end Melissa4py

/-- A reply of one of the two servers, with the port names of its ranks. -/
inductive ConnectionReply where
  | melissaServer (ranks : List (CString × TxtBuffer))
  | melissa4py (portNames : List (List Char))

namespace ConnectionReply

def portNames : ConnectionReply → List Bytes
  | melissaServer ranks => ranks.map fun rank => rank.1.bytes
  | melissa4py portNames => portNames.map encode

def message (ints : ServerInts) : ConnectionReply → Option Bytes
  | melissaServer ranks => connectionReply ints ranks
  | melissa4py portNames => some (Melissa4py.connectionResponse ints portNames)

/-- The client finds the number of ranks, the other integers and every port name, in the bytes of
the message. -/
def Understood (ints : ServerInts) (reply : ConnectionReply) : Prop :=
  ∃ msg tables, reply.message ints = some msg ∧ melissaInitInternal msg = some tables ∧
    (∃ nbProcServer, nbProcServer.toInt = (reply.portNames.length : Int) ∧
      tables.rinitTab = [nbProcServer, ints.sobolOp, ints.learning, ints.nbParameters,
        ints.verboseLvl]) ∧
    ∀ (i : Nat) name, reply.portNames[i]? = some name → tables.portName i = some name

/-- It comes from the C server, and the bytes of its port names can be counted by an `int`. -/
def FromMelissaServer : ConnectionReply → Prop
  | melissaServer ranks => ranks.length * Melissa.mpiMaxProcessorName < 2 ^ 31
  | melissa4py _ => False

end ConnectionReply

section Lemmas

open Melissa4py (encodedPort connectionResponse)

theorem encodedPort_short {port : List Char} (short : (encode port).length < 128) :
    (encodedPort port).length < Melissa.mpiMaxProcessorName := by
  have nul : ∀ c ∈ List.replicate (128 - port.length) (Char.ofNat 0), c.toNat < 128 := by
    intro c member
    rw [(List.mem_replicate.mp member).2]
    decide
  have padding := encode_ascii_length nul
  have split : encode (port ++ List.replicate (128 - port.length) (Char.ofNat 0)) =
      encode port ++ encode (List.replicate (128 - port.length) (Char.ofNat 0)) :=
    List.flatMap_append
  rw [encodedPort, Melissa4py.mpiMaxProcessorName, split, List.length_append, padding,
    List.length_replicate, Melissa.mpiMaxProcessorName]
  omega

theorem flatMap_length_lt {α : Type} {items : List α} {f : α → Bytes} {bound : Nat}
    (each : ∀ item ∈ items, (f item).length < bound) (filled : items ≠ []) :
    (items.flatMap f).length < items.length * bound := by
  induction items with
  | nil => exact absurd rfl filled
  | cons item rest ih =>
      rw [List.forall_mem_cons] at each
      rw [List.flatMap_cons, List.length_append, List.length_cons, Nat.succ_mul]
      rcases rest.eq_nil_or_concat' with rfl | ⟨_, _, more⟩
      · simpa using each.1
      · have later := ih each.2 (by rw [more]; simp)
        omega

/-- The client asks for 256 bytes for each rank it was told of. -/
theorem melissaInitInternal_size {msg : Bytes} {tables : ClientTables}
    {nbProcServer a b c d : BitVec 32} (read : melissaInitInternal msg = some tables)
    (ints : tables.rinitTab = [nbProcServer, a, b, c, d]) {n : Nat}
    (number : nbProcServer.toInt = n) : 5 * 4 + n * Melissa.mpiMaxProcessorName ≤ msg.length := by
  unfold melissaInitInternal at read
  simp only [Option.bind_eq_bind, Option.bind_eq_some_iff] at read
  obtain ⟨rinitTab, _, size, product, read⟩ := read
  split at read
  · simp only [Option.bind_eq_some_iff] at read
    obtain ⟨portNames, found, same⟩ := read
    rw [← Option.some.inj same] at ints
    change rinitTab = _ at ints
    rw [ints, List.getD_cons_zero, number, mulInt] at product
    split at product
    · rw [readBytes] at found
      split at found
      · rename_i inside
        rw [← Option.some.inj product] at inside
        have count : ((n : Int) * (Melissa.mpiMaxProcessorName : Int)).toNat =
            n * Melissa.mpiMaxProcessorName := by
          rw [← Nat.cast_mul, Int.toNat_natCast]
        rwa [count] at inside
      · cases found
    · cases product
  · cases read

/-- The reply of melissa4py is too short for the client. -/
theorem not_understood_melissa4py {ints : ServerInts} {portNames : List (List Char)}
    (filled : 1 ≤ portNames.length) (short : ∀ port ∈ portNames, (encode port).length < 128) :
    ¬ (ConnectionReply.melissa4py portNames).Understood ints := by
  rintro ⟨msg, tables, sent, read, ⟨nbProcServer, number, rinitTab⟩, _⟩
  rw [ConnectionReply.portNames, List.length_map] at number
  have size := melissaInitInternal_size read rinitTab number
  have slots : (portNames.flatMap encodedPort).length <
      portNames.length * Melissa.mpiMaxProcessorName :=
    flatMap_length_lt (fun port member => encodedPort_short (short port member))
      (List.ne_nil_of_length_pos filled)
  rw [← Option.some.inj sent, connectionResponse, List.length_append, intsBytes_length] at size
  omega

theorem toInt_ofNat_small {n : Nat} (small : n < 2 ^ 31) : (BitVec.ofNat 32 n).toInt = n := by
  have value : (BitVec.ofNat 32 n).toNat = n := by
    rw [BitVec.toNat_ofNat, Nat.mod_eq_of_lt (by omega)]
  rw [BitVec.toInt_eq_toNat_cond, value, if_pos (by omega)]

/-- The slot of a rank, as a C string, is the name it gathered. -/
theorem readString_gathered {ranks : List (CString × TxtBuffer)}
    (short : ∀ rank ∈ ranks, rank.1.bytes.length < Melissa.mpiMaxProcessorName) {i : Nat}
    {rank : CString × TxtBuffer} (here : ranks[i]? = some rank) :
    readString (ranks.flatMap fun rank => gatheredName rank.1 rank.2)
      (Melissa.mpiMaxProcessorName * i) = some rank.1.bytes := by
  have split : ranks = ranks.take i ++ rank :: ranks.drop (i + 1) := by
    obtain ⟨inside, same⟩ := List.getElem?_eq_some_iff.mp here
    rw [← same, ← List.drop_eq_getElem_cons inside, List.take_append_drop]
  have inside := (List.getElem?_eq_some_iff.mp here).1
  have before : ((ranks.take i).flatMap fun rank => gatheredName rank.1 rank.2).length =
      Melissa.mpiMaxProcessorName * i := by
    rw [Arrays.flatMap_length_eq fun rank member =>
        gatheredName_length _ _ (short rank (List.mem_of_mem_take member)),
      List.length_take, Nat.min_eq_left (Nat.le_of_lt inside), Nat.mul_comm]
  obtain ⟨rest, slot⟩ := gatheredName_eq rank.1 rank.2 (short rank (List.mem_of_getElem? here))
  rw [split, List.flatMap_append, List.flatMap_cons, slot, List.append_assoc,
    readString_at _ _ before]

theorem understood_melissaServer {ints : ServerInts} {ranks : List (CString × TxtBuffer)}
    (short : ∀ rank ∈ ranks, rank.1.bytes.length < Melissa.mpiMaxProcessorName)
    (counted : ranks.length * Melissa.mpiMaxProcessorName < 2 ^ 31) :
    (ConnectionReply.melissaServer ranks).Understood ints := by
  let gathered := ranks.flatMap fun rank => gatheredName rank.1 rank.2
  have size : gathered.length = ranks.length * Melissa.mpiMaxProcessorName :=
    Arrays.flatMap_length_eq fun rank member => gatheredName_length _ _ (short rank member)
  have number : (BitVec.ofNat 32 ranks.length).toInt = (ranks.length : Int) := by
    apply toInt_ofNat_small
    rw [Melissa.mpiMaxProcessorName] at counted
    omega
  have product := mulInt_natCast counted
  have sent : connectionReply ints ranks =
      some (intsBytes (BitVec.ofNat 32 ranks.length) ints ++ gathered) := by
    rw [connectionReply]
    simp only [number, product, Option.bind_eq_bind, Option.bind_some, Int.toNat_natCast]
    rw [if_pos ⟨Int.natCast_nonneg _, Nat.le_of_eq size.symm⟩, ← size, List.take_length, zmqMsg_eq]
    rw [List.length_append, intsBytes_length]
  have rinitTab := readInts_at (BitVec.ofNat 32 ranks.length) ints gathered
  have names := @readBytes_at (intsBytes (BitVec.ofNat 32 ranks.length) ints) gathered [] 20 _
    (intsBytes_length _ _) size
  rw [List.append_nil] at names
  refine ⟨_, ⟨_, gathered⟩, sent, ?_, ⟨BitVec.ofNat 32 ranks.length, ?_, rfl⟩, ?_⟩
  · rw [melissaInitInternal, rinitTab]
    simp only [Option.bind_eq_bind, Option.bind_some, List.getD_cons_zero, number, product,
      Int.toNat_natCast]
    rw [if_pos (Int.natCast_nonneg _), names, Option.bind_some]
  · rw [number, ConnectionReply.portNames, List.length_map]
  · intro i name here
    rw [ConnectionReply.portNames, List.getElem?_map, Option.map_eq_some_iff] at here
    obtain ⟨rank, found, rfl⟩ := here
    exact readString_gathered short found

theorem counted_of_connectionReply {ints : ServerInts} {ranks : List (CString × TxtBuffer)}
    {msg : Bytes} (small : ranks.length < 2 ^ 31) (sent : connectionReply ints ranks = some msg) :
    ranks.length * Melissa.mpiMaxProcessorName < 2 ^ 31 := by
  unfold connectionReply at sent
  simp only [toInt_ofNat_small small, Option.bind_eq_bind, Option.bind_eq_some_iff] at sent
  obtain ⟨size, product, _⟩ := sent
  exact lt_of_mulInt product

/-- A client understands the reply exactly when it comes from the C server (with a number of
ranks whose port names an `int` can count). -/
theorem understood_iff {ints : ServerInts} {reply : ConnectionReply}
    (filled : 1 ≤ reply.portNames.length)
    (short : ∀ name ∈ reply.portNames, name.length < 128) :
    reply.Understood ints ↔ reply.FromMelissaServer := by
  cases reply with
  | melissa4py portNames =>
      rw [ConnectionReply.portNames, List.length_map] at filled
      rw [ConnectionReply.portNames, List.forall_mem_map] at short
      exact iff_of_false (not_understood_melissa4py filled short) id
  | melissaServer ranks =>
      rw [ConnectionReply.portNames, List.forall_mem_map] at short
      constructor
      · rintro ⟨msg, tables, sent, _, ⟨nbProcServer, number, _⟩, _⟩
        rw [ConnectionReply.portNames, List.length_map] at number
        have bound := nbProcServer.toInt_lt
        exact counted_of_connectionReply (by omega) sent
      · intro counted
        apply understood_melissaServer _ counted
        intro rank member
        exact Nat.lt_trans (short rank member) (by decide)

end Lemmas

section Examples

/-- The port name "tcp://a:20050". -/
def portA : CString := ⟨encode "tcp://a:20050".toList, by decide⟩

def zeroBuffer : TxtBuffer := ⟨List.replicate 306 0, by rw [List.length_replicate]; rfl⟩

/-- Two ranks of the C server. -/
theorem understood_iff_twoRanks :
    1 ≤ (ConnectionReply.melissaServer
        [(portA, zeroBuffer), (portA, zeroBuffer)]).portNames.length ∧
      (ConnectionReply.melissaServer [(portA, zeroBuffer), (portA, zeroBuffer)]).Understood
        ⟨0, 1, 2, 0⟩ := by
  refine ⟨by decide, (understood_iff (by decide) ?_).mpr ?_⟩
  · intro name member
    have same : name = portA.bytes := by
      rw [ConnectionReply.portNames, List.map_cons, List.map_singleton] at member
      simpa using member
    rw [same]
    decide
  · change 2 * 256 < 2 ^ 31
    decide

/-- One rank of melissa4py: the client copies 256 bytes, the message holds 128. -/
theorem not_understood_oneRank :
    ¬ (ConnectionReply.melissa4py ["tcp://a:20050".toList]).Understood ⟨0, 1, 2, 0⟩ := by
  apply not_understood_melissa4py (by decide)
  intro port member
  rw [List.mem_singleton.mp member]
  decide

end Examples

end Melissa
