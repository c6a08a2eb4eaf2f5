import Melissa.Base.Text
import Melissa.Messages.Connection

/-! The port numbers of the masters of two Sobol groups on one host: whether they are ports, and
whether they are all different. -/

namespace Melissa

open Text

section Sockets

/-- `sample_id * comm_size * (nb_parameters+1) + rank * (nb_parameters+1)`. -/
def requesterIndex (nbParameters commSize sampleId rank : Nat) : Option Int := do
  let requesters ← addInt nbParameters 1
  let group ← mulInt sampleId commSize
  let group ← mulInt group requesters
  let process ← mulInt rank requesters
  addInt group process

/-- The port the master binds for requester `i`. -/
def masterPort (nbParameters commSize sampleId rank i : Nat) : Option (List Char) := do
  let index ← requesterIndex nbParameters commSize sampleId rank
  let index ← addInt index i
  let port ← addInt 100 index
  some ('4' :: decimal port)

/-- The port a simulation that is not the master connects to. -/
def memberPort (nbParameters commSize sampleId rank sobolRank : Nat) : Option (List Char) := do
  let index ← requesterIndex nbParameters commSize sampleId rank
  let index ← addInt index sobolRank
  let index ← addInt index (-1)
  let port ← addInt 100 index
  some ('4' :: decimal port)

/-- The port rank 0 of the master tells its name on. -/
def namingPort (sampleId : Nat) : Option (List Char) := (addInt 3004 sampleId).map decimal

/-- A socket that the master simulation of a group binds. -/
inductive GroupSocket where
  | naming (sampleId : Nat)
  | data (sampleId rank slot : Nat)
  deriving DecidableEq, Repr

namespace GroupSocket

def port (nbParameters commSize : Nat) : GroupSocket → Option (List Char)
  | .naming sampleId => namingPort sampleId
  | .data sampleId rank slot => masterPort nbParameters commSize sampleId rank slot

/-- The number that the library reads in the text of a port. -/
def number (nbParameters commSize : Nat) (socket : GroupSocket) : Option Nat :=
  (socket.port nbParameters commSize).bind parseNat

def Bound (nbParameters commSize : Nat) (groups : List Nat) : GroupSocket → Prop
  | .naming sampleId => sampleId ∈ groups
  | .data sampleId rank slot => sampleId ∈ groups ∧ rank < commSize ∧ slot ≤ nbParameters

end GroupSocket

/-- The ports of two groups: they are ports, no two sockets share one, and the simulations find
those of their master. -/
structure NeverClash (nbParameters commSize group group' : Nat) : Prop where
  ranged : ∀ socket : GroupSocket, socket.Bound nbParameters commSize [group, group'] →
    ∃ port, socket.number nbParameters commSize = some port ∧ port ≤ 65535
  apart : ∀ socket socket' : GroupSocket,
    socket.Bound nbParameters commSize [group, group'] →
    socket'.Bound nbParameters commSize [group, group'] → socket ≠ socket' →
    socket.number nbParameters commSize ≠ socket'.number nbParameters commSize
  connected : ∀ sampleId ∈ [group, group'], ∀ rank < commSize, ∀ sobolRank,
    1 ≤ sobolRank → sobolRank ≤ nbParameters + 1 →
    memberPort nbParameters commSize sampleId rank sobolRank =
      masterPort nbParameters commSize sampleId rank (sobolRank - 1)

/-- The naming port of a group is a data port of another one. -/
def NamesData (nbParameters commSize group group' : Nat) : Prop :=
  1096 ≤ group ∧ group ≤ 1995 ∧ (group - 1096) / (commSize * (nbParameters + 1)) = group'

end Sockets

section Numbers

variable {nbParameters commSize sampleId rank : Nat}

def requesterNumber (nbParameters commSize sampleId rank : Nat) : Nat :=
  (sampleId * commSize + rank) * (nbParameters + 1)

theorem requesterIndex_eq
    (small : requesterNumber nbParameters commSize sampleId rank + nbParameters + 1 < 2 ^ 31) :
    requesterIndex nbParameters commSize sampleId rank =
      some (requesterNumber nbParameters commSize sampleId rank : Int) := by
  have parts : requesterNumber nbParameters commSize sampleId rank =
      sampleId * commSize * (nbParameters + 1) + rank * (nbParameters + 1) := Nat.add_mul _ _ _
  have group : sampleId * commSize ≤ sampleId * commSize * (nbParameters + 1) :=
    Nat.le_mul_of_pos_right _ (Nat.succ_pos _)
  have requesters : addInt nbParameters 1 = some ((nbParameters + 1 : ℕ) : Int) := by
    rw [addInt, if_pos (by omega), Int.natCast_add, Int.natCast_one]
  have first : mulInt sampleId commSize = some ((sampleId * commSize : ℕ) : Int) :=
    mulInt_natCast (by omega)
  have second : mulInt ((sampleId * commSize : ℕ) : Int) ((nbParameters + 1 : ℕ) : Int) =
      some ((sampleId * commSize * (nbParameters + 1) : ℕ) : Int) := mulInt_natCast (by omega)
  have third : mulInt rank ((nbParameters + 1 : ℕ) : Int) =
      some ((rank * (nbParameters + 1) : ℕ) : Int) := mulInt_natCast (by omega)
  have total := @addInt_natCast (sampleId * commSize * (nbParameters + 1))
    (rank * (nbParameters + 1)) (by omega)
  rw [requesterIndex, parts]
  simp only [Option.bind_eq_bind, Option.bind_eq_some_iff]
  exact ⟨_, requesters, _, first, _, second, _, third, total⟩

theorem requesterIndex_eq_some {index : Int}
    (found : requesterIndex nbParameters commSize sampleId rank = some index) :
    index = (requesterNumber nbParameters commSize sampleId rank : Int) := by
  rw [requesterIndex] at found
  simp only [Option.bind_eq_bind, Option.bind_eq_some_iff] at found
  obtain ⟨requesters, sum, group, first, product, second, process, third, total⟩ := found
  rw [← (addInt_eq_some.mp total).2, ← (mulInt_eq_some.mp third).2,
    ← (mulInt_eq_some.mp second).2, ← (mulInt_eq_some.mp first).2, ← (addInt_eq_some.mp sum).2,
    requesterNumber]
  push_cast
  ring

/-- `%d` behind a `4` is a number with one more digit. -/
theorem parseNat_four (n : Nat) :
    parseNat ('4' :: decimal (n : Int)) = some (4 * 10 ^ (Nat.toDigits 10 n).length + n) := by
  change parseNat ('4' :: Nat.toDigits 10 n) = _
  have digits : ('4' :: Nat.toDigits 10 n).all Char.isDigit = true := by
    rw [List.all_cons, Bool.and_eq_true, List.all_eq_true]
    exact ⟨rfl, fun c member => isDigit_toDigits member⟩
  have four : 10 * 0 + ('4'.toNat - '0'.toNat) = 4 := rfl
  rw [parseNat, if_pos ⟨List.cons_ne_nil _ _, digits⟩, Nat.ofDigitChars_cons, four,
    Nat.ofDigitChars_eq_ofDigitChars_zero, Nat.ofDigitChars_ten_toDigits, Nat.mul_comm]

theorem length_toDigits_of_lt {n : Nat} (low : 100 ≤ n) (high : n < 1000) :
    (Nat.toDigits 10 n).length = 3 := by
  have upper := (@Nat.length_toDigits_le_iff 10 n 3 (by decide) (by decide)).mpr high
  have lower := mt (@Nat.length_toDigits_le_iff 10 n 2 (by decide) (by decide)).mp (by omega)
  omega

theorem length_toDigits_of_le {n : Nat} (low : 1000 ≤ n) (high : n < 10000) :
    (Nat.toDigits 10 n).length = 4 := by
  have upper := (@Nat.length_toDigits_le_iff 10 n 4 (by decide) (by decide)).mpr high
  have lower := mt (@Nat.length_toDigits_le_iff 10 n 3 (by decide) (by decide)).mp (by omega)
  omega

/-- The members of a group use the formula of their master. -/
theorem memberPort_eq {sobolRank : Nat} (member : 1 ≤ sobolRank) :
    memberPort nbParameters commSize sampleId rank sobolRank =
      masterPort nbParameters commSize sampleId rank (sobolRank - 1) := by
  have slot : ((sobolRank - 1 : ℕ) : Int) = sobolRank - 1 := by omega
  rw [memberPort, masterPort]
  refine Option.bind_congr fun index found => ?_
  have natural := requesterIndex_eq_some found
  have same : 100 + (index + (sobolRank : Int) + -1) = 100 + (index + ((sobolRank : Int) - 1)) := by
    omega
  ext text
  simp only [Option.bind_eq_bind, Option.bind_eq_some_iff, addInt_eq_some, slot]
  constructor
  · rintro ⟨_, ⟨_, rfl⟩, _, ⟨_, rfl⟩, _, ⟨bounds, rfl⟩, written⟩
    refine ⟨_, ⟨by omega, rfl⟩, _, ⟨by omega, rfl⟩, ?_⟩
    rw [← written, same]
  · rintro ⟨_, ⟨_, rfl⟩, _, ⟨bounds, rfl⟩, written⟩
    refine ⟨_, ⟨by omega, rfl⟩, _, ⟨by omega, rfl⟩, _, ⟨by omega, rfl⟩, ?_⟩
    rw [← written, same]

/-- Where the socket of a requester stands among all sockets of the host. -/
def socketIndex (nbParameters commSize sampleId rank slot : Nat) : Nat :=
  requesterNumber nbParameters commSize sampleId rank + slot

variable {slot : Nat}

theorem number_data_eq_some {port : Nat}
    (found : (GroupSocket.data sampleId rank slot).number nbParameters commSize = some port) :
    port = 4 * 10 ^ (Nat.toDigits 10
        (100 + socketIndex nbParameters commSize sampleId rank slot)).length +
      (100 + socketIndex nbParameters commSize sampleId rank slot) := by
  rw [GroupSocket.number, GroupSocket.port, masterPort] at found
  simp only [Option.bind_eq_bind, Option.bind_eq_some_iff, addInt_eq_some] at found
  obtain ⟨text, ⟨index, first, _, ⟨_, rfl⟩, _, ⟨_, rfl⟩, written⟩, read⟩ := found
  rw [requesterIndex_eq_some first] at written
  cases written
  have whole : (100 : Int) + ((requesterNumber nbParameters commSize sampleId rank : Int) + slot) =
      ((100 + socketIndex nbParameters commSize sampleId rank slot : ℕ) : Int) := by
    rw [socketIndex]
    push_cast
    rfl
  rw [whole, parseNat_four, Option.some.injEq] at read
  exact read.symm

theorem number_data (parameters : nbParameters < 2 ^ 30) (small :
    socketIndex nbParameters commSize sampleId rank slot < 9900) :
    (GroupSocket.data sampleId rank slot).number nbParameters commSize =
      some (if socketIndex nbParameters commSize sampleId rank slot < 900
        then 4100 + socketIndex nbParameters commSize sampleId rank slot
        else 40100 + socketIndex nbParameters commSize sampleId rank slot) := by
  have first : requesterIndex nbParameters commSize sampleId rank =
      some (requesterNumber nbParameters commSize sampleId rank : Int) := by
    apply requesterIndex_eq
    rw [socketIndex] at small
    omega
  have second := @addInt_natCast (requesterNumber nbParameters commSize sampleId rank) slot
    (Nat.lt_trans small (by decide))
  have third :=
    @addInt_natCast 100 (socketIndex nbParameters commSize sampleId rank slot) (by omega)
  rw [GroupSocket.number, GroupSocket.port, masterPort]
  simp only [Option.bind_eq_bind, Option.bind_eq_some_iff]
  refine ⟨_, ⟨_, first, _, second, _, third, rfl⟩, ?_⟩
  rw [parseNat_four]
  split
  · rw [length_toDigits_of_lt (by omega) (by omega), Option.some.injEq]
    omega
  · rw [length_toDigits_of_le (by omega) (by omega), Option.some.injEq]
    omega

theorem number_naming (small : sampleId < 2 ^ 30) :
    (GroupSocket.naming sampleId).number nbParameters commSize = some (3004 + sampleId) := by
  have sum := @addInt_natCast 3004 sampleId (by omega)
  rw [GroupSocket.number, GroupSocket.port, namingPort]
  simp only [Option.bind_eq_some_iff, Option.map_eq_some_iff]
  exact ⟨_, ⟨_, sum, rfl⟩, parseNat_toDigits _⟩

end Numbers

section Clash

theorem pair_unique {n a b i j : Nat} (left : i < n) (right : j < n)
    (same : a * n + i = b * n + j) : a = b ∧ i = j := by
  have positive : 0 < n := Nat.zero_lt_of_lt left
  have first := (Nat.div_mod_unique (a := a * n + i) (c := i) (d := a) positive).mpr
    ⟨by rw [Nat.mul_comm n a, Nat.add_comm], left⟩
  have second := (Nat.div_mod_unique (a := a * n + i) (c := j) (d := b) positive).mpr
    ⟨by rw [same, Nat.mul_comm n b, Nat.add_comm], right⟩
  exact ⟨first.1.symm.trans second.1, first.2.symm.trans second.2⟩

variable {nbParameters commSize group group' sampleId rank slot : Nat}

theorem socketIndex_lt (known : rank < commSize) (inside : slot ≤ nbParameters) :
    socketIndex nbParameters commSize sampleId rank slot <
      (sampleId + 1) * (commSize * (nbParameters + 1)) := by
  calc
    _ < (sampleId * commSize + rank + 1) * (nbParameters + 1) := by
      rw [socketIndex, requesterNumber, Nat.add_mul _ 1, Nat.one_mul]
      omega
    _ ≤ (sampleId * commSize + commSize) * (nbParameters + 1) :=
      Nat.mul_le_mul_right _ (by omega)
    _ = _ := by ring

theorem le_socketIndex :
    sampleId * (commSize * (nbParameters + 1)) ≤
      socketIndex nbParameters commSize sampleId rank slot := by
  calc
    _ = sampleId * commSize * (nbParameters + 1) := by ring
    _ ≤ (sampleId * commSize + rank) * (nbParameters + 1) :=
      Nat.mul_le_mul_right _ (Nat.le_add_right _ _)
    _ ≤ _ := Nat.le_add_right _ _

theorem socketIndex_last (ranks : 1 ≤ commSize) :
    socketIndex nbParameters commSize sampleId (commSize - 1) nbParameters + 1 =
      (sampleId + 1) * (commSize * (nbParameters + 1)) := by
  obtain ⟨last, rfl⟩ := Nat.exists_eq_add_of_le' ranks
  rw [socketIndex, requesterNumber, Nat.add_sub_cancel]
  ring

theorem socketIndex_injective {rank' slot' : Nat} (known : rank < commSize)
    (known' : rank' < commSize) (inside : slot ≤ nbParameters) (inside' : slot' ≤ nbParameters)
    (same : socketIndex nbParameters commSize group rank slot =
      socketIndex nbParameters commSize group' rank' slot') :
    group = group' ∧ rank = rank' ∧ slot = slot' := by
  obtain ⟨process, requester⟩ :=
    pair_unique (Nat.lt_succ_of_le inside) (Nat.lt_succ_of_le inside') same
  obtain ⟨sameGroup, sameRank⟩ := pair_unique known known' process
  exact ⟨sameGroup, sameRank, requester⟩

/-- Every position belongs to a socket of some group. -/
theorem exists_socketIndex (ranks : 1 ≤ commSize) (position : Nat) :
    ∃ rank < commSize, ∃ slot ≤ nbParameters,
      socketIndex nbParameters commSize (position / (commSize * (nbParameters + 1))) rank slot =
        position := by
  refine ⟨position / (nbParameters + 1) % commSize, Nat.mod_lt _ ranks,
    position % (nbParameters + 1), Nat.le_of_lt_succ (Nat.mod_lt _ (Nat.succ_pos _)), ?_⟩
  rw [socketIndex, requesterNumber, Nat.mul_comm commSize, ← Nat.div_div_eq_div_mul,
    Nat.div_add_mod', Nat.div_add_mod']

/-- A data port is a port number exactly when it has at most four digits behind the 4. -/
theorem socketIndex_of_ranged {port : Nat}
    (found : (GroupSocket.data sampleId rank slot).number nbParameters commSize = some port)
    (ranged : port ≤ 65535) : socketIndex nbParameters commSize sampleId rank slot < 9900 := by
  have value := number_data_eq_some found
  by_contra large
  have digits := mt (@Nat.length_toDigits_le_iff 10
    (100 + socketIndex nbParameters commSize sampleId rank slot) 4 (by decide) (by decide)).mp
    (by omega)
  have power : 10 ^ 5 ≤ 10 ^ (Nat.toDigits 10
      (100 + socketIndex nbParameters commSize sampleId rank slot)).length :=
    Nat.pow_le_pow_right (by decide) (Nat.lt_of_not_le digits)
  omega

theorem namesData_clash (ranks : 1 ≤ commSize) (parameters : nbParameters < 2 ^ 30)
    (names : NamesData nbParameters commSize group group') :
    ∃ rank < commSize, ∃ slot ≤ nbParameters,
      (GroupSocket.data group' rank slot).number nbParameters commSize =
        (GroupSocket.naming group).number nbParameters commSize := by
  obtain ⟨low, high, quotient⟩ := names
  obtain ⟨rank, known, slot, inside, position⟩ :=
    @exists_socketIndex nbParameters commSize ranks (group - 1096)
  rw [quotient] at position
  refine ⟨rank, known, slot, inside, ?_⟩
  rw [number_data parameters (by omega), number_naming (by omega), if_pos (by omega),
    Option.some.injEq]
  omega

/-- A naming port below 9900 is a data port only in this way. -/
theorem namesData_of_clash (small : group < 9900) (parameters : nbParameters < 2 ^ 30)
    (known : rank < commSize) (inside : slot ≤ nbParameters)
    (below : socketIndex nbParameters commSize group' rank slot < 9900)
    (same : (GroupSocket.data group' rank slot).number nbParameters commSize =
      (GroupSocket.naming group).number nbParameters commSize) :
    NamesData nbParameters commSize group group' := by
  have low := @le_socketIndex nbParameters commSize group' rank slot
  have high := @socketIndex_lt nbParameters commSize group' rank slot known inside
  rw [number_data parameters below, number_naming (by omega), Option.some.injEq] at same
  split at same
  · have position : group - 1096 = socketIndex nbParameters commSize group' rank slot := by omega
    refine ⟨by omega, by omega, ?_⟩
    rw [position]
    exact Nat.div_eq_of_lt_le low high
  · omega

theorem not_namesData_self (ranks : 1 ≤ commSize) :
    ¬ NamesData nbParameters commSize group group := by
  rintro ⟨low, _, quotient⟩
  have positive : 0 < commSize * (nbParameters + 1) := Nat.mul_pos ranks (Nat.succ_pos _)
  have smaller : (group - 1096) / (commSize * (nbParameters + 1)) ≤ group - 1096 :=
    Nat.div_le_self _ _
  omega

end Clash

section Small

variable {nbParameters commSize sampleId rank slot : Nat} {groups : List Nat}

theorem parameters_of_small (ranks : 1 ≤ commSize)
    (small : (sampleId + 1) * (commSize * (nbParameters + 1)) ≤ 9900) :
    nbParameters < 2 ^ 30 := by
  have one : nbParameters + 1 ≤ (sampleId + 1) * (commSize * (nbParameters + 1)) :=
    le_trans (Nat.le_mul_of_pos_left _ ranks) (Nat.le_mul_of_pos_left _ (Nat.succ_pos _))
  omega

theorem group_of_small (ranks : 1 ≤ commSize)
    (small : (sampleId + 1) * (commSize * (nbParameters + 1)) ≤ 9900) : sampleId < 9900 := by
  have factor : 0 < commSize * (nbParameters + 1) := Nat.mul_pos ranks (Nat.succ_pos _)
  have := Nat.le_mul_of_pos_right (sampleId + 1) factor
  omega

theorem socketIndex_of_small (known : rank < commSize) (inside : slot ≤ nbParameters)
    (small : (sampleId + 1) * (commSize * (nbParameters + 1)) ≤ 9900) :
    socketIndex nbParameters commSize sampleId rank slot < 9900 :=
  Nat.lt_of_lt_of_le (socketIndex_lt known inside) small

theorem ranged_of_small (ranks : 1 ≤ commSize) {socket : GroupSocket}
    (small : ∀ sampleId ∈ groups, (sampleId + 1) * (commSize * (nbParameters + 1)) ≤ 9900)
    (bound : socket.Bound nbParameters commSize groups) :
    ∃ port, socket.number nbParameters commSize = some port ∧ port ≤ 65535 := by
  cases socket with
  | naming sampleId =>
      have := group_of_small ranks (small sampleId bound)
      exact ⟨_, number_naming (by omega), by omega⟩
  | data sampleId rank slot =>
      have below := socketIndex_of_small bound.2.1 bound.2.2 (small sampleId bound.1)
      refine ⟨_, number_data (parameters_of_small ranks (small sampleId bound.1)) below, ?_⟩
      split <;> omega

theorem naming_apart {sampleId' : Nat} (ranks : 1 ≤ commSize)
    (small : (sampleId + 1) * (commSize * (nbParameters + 1)) ≤ 9900)
    (small' : (sampleId' + 1) * (commSize * (nbParameters + 1)) ≤ 9900)
    (same : (GroupSocket.naming sampleId).number nbParameters commSize =
      (GroupSocket.naming sampleId').number nbParameters commSize) : sampleId = sampleId' := by
  have := group_of_small ranks small
  have := group_of_small ranks small'
  rw [number_naming (by omega), number_naming (by omega), Option.some.injEq] at same
  omega

theorem data_apart {sampleId' rank' slot' : Nat} (parameters : nbParameters < 2 ^ 30)
    (known : rank < commSize) (known' : rank' < commSize) (inside : slot ≤ nbParameters)
    (inside' : slot' ≤ nbParameters)
    (small : (sampleId + 1) * (commSize * (nbParameters + 1)) ≤ 9900)
    (small' : (sampleId' + 1) * (commSize * (nbParameters + 1)) ≤ 9900)
    (same : (GroupSocket.data sampleId rank slot).number nbParameters commSize =
      (GroupSocket.data sampleId' rank' slot').number nbParameters commSize) :
    GroupSocket.data sampleId rank slot = GroupSocket.data sampleId' rank' slot' := by
  have below := socketIndex_of_small known inside small
  have below' := socketIndex_of_small known' inside' small'
  rw [number_data parameters below, number_data parameters below', Option.some.injEq] at same
  have position : socketIndex nbParameters commSize sampleId rank slot =
      socketIndex nbParameters commSize sampleId' rank' slot' := by
    split at same <;> split at same <;> omega
  obtain ⟨rfl, rfl, rfl⟩ := socketIndex_injective known known' inside inside' position
  rfl

/-- A naming port is no data port, when no group's naming port is one in its own way. -/
theorem naming_data_apart {sampleId' : Nat} (ranks : 1 ≤ commSize) (known : rank < commSize)
    (inside : slot ≤ nbParameters)
    (small : (sampleId + 1) * (commSize * (nbParameters + 1)) ≤ 9900)
    (small' : (sampleId' + 1) * (commSize * (nbParameters + 1)) ≤ 9900)
    (noName : ¬ NamesData nbParameters commSize sampleId' sampleId) :
    (GroupSocket.data sampleId rank slot).number nbParameters commSize ≠
      (GroupSocket.naming sampleId').number nbParameters commSize := fun same =>
  noName (namesData_of_clash (group_of_small ranks small') (parameters_of_small ranks small) known
    inside (socketIndex_of_small known inside small) same)

theorem apart_of_small (ranks : 1 ≤ commSize) {socket socket' : GroupSocket}
    (small : ∀ sampleId ∈ groups, (sampleId + 1) * (commSize * (nbParameters + 1)) ≤ 9900)
    (noNames : ∀ sampleId ∈ groups, ∀ sampleId' ∈ groups,
      ¬ NamesData nbParameters commSize sampleId sampleId')
    (bound : socket.Bound nbParameters commSize groups)
    (bound' : socket'.Bound nbParameters commSize groups)
    (same : socket.number nbParameters commSize = socket'.number nbParameters commSize) :
    socket = socket' := by
  cases socket with
  | naming sampleId =>
      cases socket' with
      | naming sampleId' =>
          rw [naming_apart ranks (small sampleId bound) (small sampleId' bound') same]
      | data sampleId' rank' slot' =>
          exact absurd same.symm (naming_data_apart ranks bound'.2.1 bound'.2.2
            (small sampleId' bound'.1) (small sampleId bound)
            (noNames sampleId bound sampleId' bound'.1))
  | data sampleId rank slot =>
      cases socket' with
      | naming sampleId' =>
          exact absurd same (naming_data_apart ranks bound.2.1 bound.2.2
            (small sampleId bound.1) (small sampleId' bound')
            (noNames sampleId' bound' sampleId bound.1))
      | data sampleId' rank' slot' =>
          exact data_apart (parameters_of_small ranks (small sampleId bound.1)) bound.2.1
            bound'.2.1 bound.2.2 bound'.2.2 (small sampleId bound.1) (small sampleId' bound'.1) same

end Small

section Iff

variable {nbParameters commSize group group' : Nat}

/-- What holds of both groups when the larger one is small enough. -/
theorem both_small (small : (max group group' + 1) * (commSize * (nbParameters + 1)) ≤ 9900)
    {sampleId : Nat} (member : sampleId ∈ [group, group']) :
    (sampleId + 1) * (commSize * (nbParameters + 1)) ≤ 9900 := by
  refine le_trans (Nat.mul_le_mul_right _ (Nat.succ_le_succ ?_)) small
  simp only [List.mem_cons, List.not_mem_nil, or_false] at member
  rcases member with rfl | rfl
  · exact le_max_left _ _
  · exact le_max_right _ _

/-- The last data socket of a group has a port. -/
theorem small_of_ranged (ranks : 1 ≤ commSize)
    (never : NeverClash nbParameters commSize group group') {sampleId : Nat}
    (member : sampleId ∈ [group, group']) :
    (sampleId + 1) * (commSize * (nbParameters + 1)) ≤ 9900 := by
  obtain ⟨port, found, bounded⟩ := never.ranged (.data sampleId (commSize - 1) nbParameters)
    ⟨member, by omega, le_refl _⟩
  rw [← socketIndex_last ranks]
  exact socketIndex_of_ranged found bounded

theorem not_namesData_of_apart (ranks : 1 ≤ commSize)
    (never : NeverClash nbParameters commSize group group') {sampleId sampleId' : Nat}
    (member : sampleId ∈ [group, group']) (member' : sampleId' ∈ [group, group']) :
    ¬ NamesData nbParameters commSize sampleId sampleId' := by
  intro names
  have parameters := parameters_of_small ranks (small_of_ranged ranks never member)
  obtain ⟨rank, known, slot, inside, same⟩ := namesData_clash ranks parameters names
  exact never.apart (.data sampleId' rank slot) (.naming sampleId) ⟨member', known, inside⟩ member
    (by simp) same

theorem neverClash_of_small (ranks : 1 ≤ commSize)
    (small : (max group group' + 1) * (commSize * (nbParameters + 1)) ≤ 9900)
    (names : ¬ NamesData nbParameters commSize group group')
    (names' : ¬ NamesData nbParameters commSize group' group) :
    NeverClash nbParameters commSize group group' := by
  have ended := fun sampleId => @both_small nbParameters commSize group group' small sampleId
  have noNames : ∀ sampleId ∈ [group, group'], ∀ sampleId' ∈ [group, group'],
      ¬ NamesData nbParameters commSize sampleId sampleId' := by
    simp only [List.forall_mem_cons, List.not_mem_nil, false_implies, implies_true, and_true]
    exact ⟨⟨not_namesData_self ranks, names⟩, names', not_namesData_self ranks⟩
  exact ⟨fun socket bound => ranged_of_small ranks ended bound,
    fun socket socket' bound bound' different same =>
      different (apart_of_small ranks ended noNames bound bound' same),
    fun _ _ _ _ _ low _ => memberPort_eq low⟩

/-- The ports of two groups are ports and all different exactly when the larger of the two groups
ends below position 9900 and neither group's naming port is a data port of the other. -/
theorem neverClash_iff (ranks : 1 ≤ commSize) :
    NeverClash nbParameters commSize group group' ↔
      (max group group' + 1) * (commSize * (nbParameters + 1)) ≤ 9900 ∧
        ¬ NamesData nbParameters commSize group group' ∧
        ¬ NamesData nbParameters commSize group' group := by
  have first : group ∈ [group, group'] := List.mem_cons_self
  have second : group' ∈ [group, group'] := List.mem_cons_of_mem _ List.mem_cons_self
  constructor
  · intro never
    have largest : max group group' ∈ [group, group'] := by
      rcases max_choice group group' with same | same
      · rw [same]
        exact first
      · rw [same]
        exact second
    exact ⟨small_of_ranged ranks never largest, not_namesData_of_apart ranks never first second,
      not_namesData_of_apart ranks never second first⟩
  · rintro ⟨small, names, names'⟩
    exact neverClash_of_small ranks small names names'

/-- Two groups of a study with five parameters on one core each. -/
theorem neverClash_iff_small : NeverClash 5 1 0 1 ↔
    (max 0 1 + 1) * (1 * (5 + 1)) ≤ 9900 ∧ ¬ NamesData 5 1 0 1 ∧ ¬ NamesData 5 1 1 0 :=
  neverClash_iff (by decide)

/-- The naming port of group 1100 is 4104, the port of requester 4 of group 0. -/
theorem not_neverClash_naming : ¬ NeverClash 5 1 1100 0 := by
  intro never
  have named := @number_naming 5 1 1100 (by decide)
  have bound := @number_data 5 1 0 0 4 (by decide) (by decide)
  refine never.apart (.naming 1100) (.data 0 0 4) (show 1100 ∈ [1100, 0] by decide)
    ⟨by decide, by decide, by decide⟩ (by decide) ?_
  rw [named, bound]
  rfl

end Iff

end Melissa
