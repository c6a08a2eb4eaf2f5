import Melissa.Sobol.Group

/-! Which processes of a Sobol study meet on a port. -/

namespace Melissa

open Text

section Ports

variable {nbParameters group k : Nat}

theorem sobolRank_member (known : k < nbParameters + 2) :
    sobolRank nbParameters (group * (nbParameters + 2) + k) = k := by
  rw [sobolRank, Nat.mul_add_mod', Nat.mod_eq_of_lt known]

theorem sampleId_member (known : k < nbParameters + 2) :
    sampleId nbParameters (group * (nbParameters + 2) + k) = group := by
  rw [sampleId, Nat.mul_comm, Nat.mul_add_div (Nat.succ_pos _), Nat.div_eq_of_lt known,
    Nat.add_zero]

theorem simuId_of_roles (nbParameters simuId : Nat) :
    sampleId nbParameters simuId * (nbParameters + 2) + sobolRank nbParameters simuId =
      simuId := Nat.div_add_mod' simuId (nbParameters + 2)

theorem connectedPort_member {commSize rank i : Nat} (inside : i < nbParameters + 1) :
    connectedPort nbParameters commSize ⟨group * (nbParameters + 2) + (i + 1), rank⟩ =
      masterPort nbParameters commSize group rank i := by
  have known : i + 1 < nbParameters + 2 := Nat.succ_lt_succ inside
  have slave : ¬ i + 1 = 0 := Nat.succ_ne_zero i
  rw [connectedPort, sobolRank_member known, sampleId_member known]
  simp only [slave, if_false]
  rw [memberPort_eq (Nat.le_add_left 1 i), Nat.add_sub_cancel]

/-- Only the process with the same client rank of simulation `i + 1` of a group connects to
requester `i`. -/
theorem eq_of_connectedPort {commSize rank i : Nat} {process : ClientProcess} {port : List Char}
    (never : NeverClash nbParameters commSize (sampleId nbParameters process.simuId) group)
    (known : rank < commSize) (known' : process.rank < commSize) (inside : i < nbParameters + 1)
    (bound : masterPort nbParameters commSize group rank i = some port)
    (connected : connectedPort nbParameters commSize process = some port) :
    process = ⟨group * (nbParameters + 2) + (i + 1), rank⟩ := by
  have role : sobolRank nbParameters process.simuId < nbParameters + 2 :=
    Nat.mod_lt _ (Nat.succ_pos _)
  rw [connectedPort] at connected
  split at connected
  · cases connected
  · rename_i slave
    have positive : 1 ≤ sobolRank nbParameters process.simuId := Nat.pos_of_ne_zero slave
    rw [memberPort_eq positive] at connected
    have same : GroupSocket.data (sampleId nbParameters process.simuId) process.rank
        (sobolRank nbParameters process.simuId - 1) = GroupSocket.data group rank i := by
      by_contra different
      refine never.apart (.data _ _ _) (.data _ _ _) ⟨List.mem_cons_self, known', by omega⟩
        ⟨List.mem_cons_of_mem _ List.mem_cons_self, known, by omega⟩ different ?_
      rw [GroupSocket.number, GroupSocket.port, connected, GroupSocket.number, GroupSocket.port,
        bound]
    obtain ⟨sameGroup, sameRank, requester⟩ := GroupSocket.data.inj same
    have simulation := simuId_of_roles nbParameters process.simuId
    have shifted : sobolRank nbParameters process.simuId = i + 1 := by omega
    rw [sameGroup, shifted] at simulation
    rw [simulation, ← sameRank]

/-- The ports of a running group can be bound. -/
theorem masterPort_valid {commSize rank i : Nat}
    (never : NeverClash nbParameters commSize group group) (known : rank < commSize)
    (inside : i < nbParameters + 1) :
    ∃ port, masterPort nbParameters commSize group rank i = some port ∧ validPort port = true := by
  obtain ⟨number, found, low⟩ := never.ranged (.data group rank i)
    ⟨List.mem_cons_self, known, by omega⟩
  obtain ⟨port, bound, read⟩ := Option.bind_eq_some_iff.mp found
  refine ⟨port, bound, ?_⟩
  rw [validPort, read, Option.any_some, decide_eq_true_eq]
  exact low

end Ports

namespace SobolStudy

variable {D : Type} (study : SobolStudy D)

theorem mem_processes {process : ClientProcess} :
    process ∈ study.processes ↔ process.simuId ∈ study.running ∧ process.rank < study.commSize := by
  obtain ⟨simuId, rank⟩ := process
  simp only [processes, List.mem_flatMap, List.mem_map, List.mem_range, ClientProcess.mk.injEq]
  constructor
  · rintro ⟨_, started, _, known, rfl, rfl⟩
    exact ⟨started, known⟩
  · rintro ⟨started, known⟩
    exact ⟨simuId, started, rank, known, rfl, rfl⟩

/-- Requester `i` of the master of a group receives from simulation `i + 1` of the group. -/
theorem sender_eq {group rank i : Nat}
    (ports : PortsValid study.nbParameters study.commSize study.running)
    (known : rank < study.commSize) (inside : i < study.nbParameters + 1)
    (started : group * (study.nbParameters + 2) + (i + 1) ∈ study.running) :
    study.sender ⟨group * (study.nbParameters + 2), rank⟩ i =
      some ⟨group * (study.nbParameters + 2) + (i + 1), rank⟩ := by
  have master : sampleId study.nbParameters (group * (study.nbParameters + 2)) = group :=
    sampleId_member (Nat.succ_pos _)
  have slave : sampleId study.nbParameters (group * (study.nbParameters + 2) + (i + 1)) = group :=
    sampleId_member (Nat.succ_lt_succ inside)
  have never := ports _ started _ started
  rw [slave] at never
  obtain ⟨port, bound, valid⟩ := masterPort_valid never known inside
  have member : (⟨group * (study.nbParameters + 2) + (i + 1), rank⟩ : ClientProcess) ∈
      study.processes := study.mem_processes.mpr ⟨started, known⟩
  rw [sender, master, bound, Option.bind_eq_bind, Option.bind_some, if_pos valid]
  cases found : study.processes.find? _ with
  | none =>
      have apart := List.find?_eq_none.mp found _ member
      simp only [connectedPort_member inside, bound, beq_self_eq_true, not_true_eq_false] at apart
  | some process =>
      have matched := List.find?_some found
      have running := study.mem_processes.mp (List.mem_of_find?_eq_some found)
      have other := ports _ running.1 _ started
      rw [slave] at other
      rw [beq_iff_eq] at matched
      rw [eq_of_connectedPort other known running.2 inside bound matched]

end SobolStudy

end Melissa
