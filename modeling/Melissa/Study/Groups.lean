import Melissa.Sobol.Roles
import Melissa.Study.Campaign

/-! The study of Sobol groups: the messages of the master simulations, put together from what the
simulations of their groups have sent them, are those of an ensemble of groups. -/

namespace Melissa

open Arrays Blocks Runs

/-- The groups of a study. `value` is what a simulation computes, and `running` are the simulations
on the host when a group sends a time step: those of the group are among them (`started`), and their
ports are ports and all different (`ports`). The size of a field and the elements of a buffer of the
group are `int` (`small`), rank 0 has an element of every field (`first`), and no rank without one
stands before a rank with one (`steady`). -/
structure GroupCampaign (D : Type) where
  options : Options D
  sobolOp : options.sobolOp = true
  names : List String
  nbGroups : Nat
  nbClients : Nat
  localVectSizes : String → List Nat
  value : Nat → Nat → String → Nat → Nat → D
  fresh : ClientProcess → Nat → D
  running : Nat → Nat → List Nat
  distinct : names.Nodup
  ranks : ∀ name ∈ names, (localVectSizes name).length = nbClients
  small : ∀ name ∈ names, (localVectSizes name).sum < 2 ^ 31 ∧
    ∀ rank < nbClients, (options.nbParameters + 2) * (localVectSizes name).getD rank 0 < 2 ^ 31
  first : ∀ name ∈ names, 0 < (localVectSizes name).getD 0 0
  steady : ∀ name ∈ names, Steady (localVectSizes name)
  started : ∀ group < nbGroups, ∀ timeStep, ∀ k < options.nbParameters + 2,
    group * (options.nbParameters + 2) + k ∈ running group timeStep
  ports : ∀ group < nbGroups, ∀ timeStep,
    PortsValid options.nbParameters nbClients (running group timeStep)

namespace GroupCampaign

variable {D : Type} (groups : GroupCampaign D) (nbServers : Nat)

/-- A group that sends a field of a time step. -/
def study (group timeStep : Nat) (name : String) : SobolStudy D where
  options := groups.options
  sobolOp := groups.sobolOp
  learning := false
  nbProcServer := nbServers
  localVectSizes := groups.localVectSizes name
  value := fun simuId rank => groups.value simuId timeStep name rank
  fresh := groups.fresh
  running := groups.running group timeStep

/-- `melissa_send` on client rank `rank` of the master of a group. -/
def melissaSend (group timeStep : Nat) (name : String) (rank : Nat) :
    Option (List (Nat × SimuData D)) :=
  (groups.study nbServers group timeStep name).sobolMessages timeStep name
    ⟨group * (groups.options.nbParameters + 2), rank⟩

/-- The messages to a server rank. -/
def Sends (nbTimeSteps server : Nat) (m : SimuData D) : Prop :=
  ∃ group timeStep name rank, group < groups.nbGroups ∧ timeStep < nbTimeSteps ∧
    name ∈ groups.names ∧ rank < groups.nbClients ∧ ∃ messages,
      groups.melissaSend nbServers group timeStep name rank = some messages ∧
        (server, m) ∈ messages

/-- The whole field of a simulation at a time step. -/
def whole (simuId timeStep : Nat) (name : String) : List D :=
  (List.range (groups.localVectSizes name).length).flatMap fun rank =>
    (List.range ((groups.localVectSizes name).getD rank 0)).map
      (groups.value simuId timeStep name rank)

theorem clients_flatten (group simuId timeStep : Nat) (name : String) :
    ((groups.study nbServers group timeStep name).clients simuId).flatten =
      groups.whole simuId timeStep name := by
  rw [SobolStudy.clients, whole, List.flatMap_def]
  rfl

theorem length_whole (simuId timeStep : Nat) (name : String) :
    (groups.whole simuId timeStep name).length = (groups.localVectSizes name).sum := by
  rw [← groups.clients_flatten 0 0, SobolStudy.clients_flatten_length]
  rfl

/-- The groups as an ensemble: the vectors of a message are those of the simulations of a group. -/
def ensemble : Ensemble D where
  names := groups.names
  nbSimu := groups.nbGroups
  nbClients := groups.nbClients
  nbVect := groups.options.nbParameters + 2
  localVectSizes := groups.localVectSizes
  vectors := fun group timeStep name =>
    (List.range (groups.options.nbParameters + 2)).map fun k =>
      groups.whole (group * (groups.options.nbParameters + 2) + k) timeStep name
  distinct := groups.distinct
  ranks := groups.ranks
  first := groups.first
  steady := groups.steady
  count := by
    intro group timeStep name
    rw [List.length_map, List.length_range]
  sized := by
    intro group timeStep name vector member
    obtain ⟨k, _, rfl⟩ := List.mem_map.mp member
    exact groups.length_whole _ timeStep name

variable {groups nbServers} {name : String}

/-- What the master takes of one simulation for a message is the piece of the two ranks. -/
theorem block_eq {group timeStep rank : Nat} {push : Push}
    (right : (groups.study nbServers group timeStep name).RightBlock rank push) (k : Nat) :
    (groups.study nbServers group timeStep name).block group rank push k =
      (groups.ensemble.piece nbServers name push.pullRank rank).take
        (groups.whole (group * (groups.options.nbParameters + 2) + k) timeStep name) := by
  rw [SobolStudy.block, right.carries, clients_flatten]
  exact (Piece.take_eq_pick (groups.ensemble.piece nbServers name push.pullRank rank)
    (groups.length_whole _ timeStep name)).symm

theorem sentMessage_eq {group timeStep rank : Nat} {push : Push}
    (right : (groups.study nbServers group timeStep name).RightBlock rank push) :
    (groups.study nbServers group timeStep name).sentMessage timeStep name group rank push =
      (push.pullRank,
        groups.ensemble.message nbServers push.pullRank group timeStep name rank) := by
  have count : push.count = (groups.ensemble.piece nbServers name push.pullRank rank).count := by
    rw [right.counted]
    exact List.length_range'
  have blocks : (List.range (groups.options.nbParameters + 2)).map
        ((groups.study nbServers group timeStep name).block group rank push) =
      (groups.ensemble.vectors group timeStep name).map
        (groups.ensemble.piece nbServers name push.pullRank rank).take := by
    change _ = ((List.range (groups.options.nbParameters + 2)).map _).map _
    rw [List.map_map]
    exact List.map_congr_left fun k _ => block_eq right k
  have parameters : (groups.study nbServers group timeStep name).nbParameters =
      groups.options.nbParameters := rfl
  simp only [SobolStudy.sentMessage, Ensemble.message, count, parameters, blocks]

theorem sizesFit (known : name ∈ groups.names) (group timeStep : Nat) :
    SizesFit (groups.study nbServers group timeStep name) := by
  obtain ⟨total, buffers⟩ := groups.small name known
  refine ⟨total, ?_⟩
  intro rank inside
  exact buffers rank (Nat.lt_of_lt_of_eq inside (groups.ranks name known))

theorem melissaSend_eq (servers : 0 < nbServers) (known : name ∈ groups.names) {group : Nat}
    (inside : group < groups.nbGroups) (timeStep : Nat) {rank : Nat}
    (client : rank < groups.nbClients) :
    groups.melissaSend nbServers group timeStep name rank =
      some ((dataPushers (commNToMInit (groups.localVectSizes name)
          (serverVectSize (groups.localVectSizes name).sum nbServers) rank) rank).map fun server =>
        (server, groups.ensemble.message nbServers server group timeStep name rank)) := by
  have ranks : (groups.study nbServers group timeStep name).commSize = groups.nbClients :=
    groups.ranks name known
  have place : rank < (groups.study nbServers group timeStep name).commSize := by
    rw [ranks]
    exact client
  have fits := @sizesFit _ groups nbServers _ known group timeStep
  have ports : PortsValid (groups.study nbServers group timeStep name).nbParameters
      (groups.study nbServers group timeStep name).commSize
      (groups.study nbServers group timeStep name).running := by
    rw [ranks]
    exact groups.ports group inside timeStep
  have right : ∀ push ∈ Melissa.melissaSend
      ((groups.study nbServers group timeStep name).plan rank) rank,
      (groups.study nbServers group timeStep name).RightBlock rank push := fun push sent =>
    SobolStudy.rightBlock_steady _ rfl servers (groups.steady name known) sent
  -- The loop over the requesters fills the whole buffer.
  obtain ⟨bufferData, received, filled⟩ :=
    SobolStudy.filled_receiveGroup (groups.study nbServers group timeStep name) place
      (fits.2 rank place) ports (groups.started group inside timeStep) (le_refl _)
  have full := SobolStudy.slots_flatten_length (groups.study nbServers group timeStep name) group
    rank ((groups.study nbServers group timeStep name).nbParameters + 1)
  rw [filled.eq_of_full full] at received
  have messages := SobolStudy.sobolMessages_eq fits.1 right received timeStep name
  have plan : (groups.study nbServers group timeStep name).plan rank =
      commNToMInit (groups.localVectSizes name)
        (serverVectSize (groups.localVectSizes name).sum nbServers) rank := rfl
  refine messages.trans ?_
  rw [← plan, ← melissaSend_pullRanks, List.map_map]
  congr 1
  exact List.map_congr_left fun push sent => sentMessage_eq (right push sent)

/-- The messages of the ensemble are those that the masters send. -/
theorem sends_eq (servers : 0 < nbServers) (nbTimeSteps server : Nat) :
    groups.ensemble.Sends nbServers nbTimeSteps server =
      groups.Sends nbServers nbTimeSteps server := by
  funext m
  apply propext
  constructor
  · intro sent
    obtain ⟨group, timeStep, name, rank, simu, step, known, client, some_count, rfl⟩ := sent
    refine ⟨group, timeStep, name, rank, simu, step, known, client, _,
      melissaSend_eq servers known simu timeStep client, ?_⟩
    exact List.mem_map.mpr
      ⟨server, (Ensemble.mem_dataPushers_iff servers known).mpr some_count, rfl⟩
  · intro sent
    obtain ⟨group, timeStep, name, rank, simu, step, known, client, messages, done, member⟩ :=
      sent
    rw [melissaSend_eq servers known simu timeStep client] at done
    cases done
    obtain ⟨server', pushed, here⟩ := List.mem_map.mp member
    cases here
    exact ⟨group, timeStep, name, rank, simu, step, known, client,
      (Ensemble.mem_dataPushers_iff servers known).mp pushed, rfl⟩

theorem nbVect_eq : groups.ensemble.nbVect = groups.options.nbVect := by
  rw [Options.nbVect, groups.sobolOp]
  rfl

end GroupCampaign

section Statement

variable {D : Type} [Zero D] [Add D] [Sub D] [Mul D] [Div D] [NatCast D] [IntCast D]
  [Pow D ℕ] [LT D] [DecidableLT D] [LE D] [DecidableLE D] [DecidableEq D] [Libm D]

end Statement

/-- Two groups of two parameters on one client rank, to evaluate the definitions on. -/
def flowGroups : GroupCampaign ℚ where
  options := { twoByTwo with nbTimeSteps := 1, nbParameters := 2, sobolOp := true }
  sobolOp := rfl
  names := ["flow"]
  nbGroups := 2
  nbClients := 1
  localVectSizes := fun _ => [2]
  value := fun simuId _ _ _ i => simuId * simuId + i
  fresh := fun _ _ => 0
  running := fun _ _ => List.range 8
  distinct := by decide
  ranks := by
    intro _ _
    rfl
  small := by
    intro _ _
    decide
  first := by
    intro _ _
    decide
  steady := by
    intro _ _
    exact steady_of_pos (by decide)
  started := by
    intro group inside _ k member
    have role : k < 4 := member
    exact List.mem_range.mpr (by
      change group * 4 + k < 8
      omega)
  ports := by
    intro _ _ _
    exact coupledPorts (by decide)

/-- An answer of the launcher about group 0. -/
def flowReply : Job ℚ := ⟨0, "1", [7, 8]⟩

end Melissa
