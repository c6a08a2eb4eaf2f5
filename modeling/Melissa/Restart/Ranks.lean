import Melissa.Restart.Life
import Melissa.Server.Ready
import Melissa.Server.Statuses

/-! The restart of all server ranks from the files of one checkpoint. -/

namespace Melissa

open Arrays Files Runs

section Reduce

/-- What the `MPI_Allreduce` calls of `read_simu_states` compute from the statuses of all ranks. -/
def allreduce : List (List Nat) → List Nat
  | [] => []
  | own :: others => reduceStatuses own others

private theorem le_foldl_min {α : Type} (f : α → Nat) (items : List α) (k start : Nat) :
    k ≤ items.foldl (fun least item => min least (f item)) start ↔
      k ≤ start ∧ ∀ item ∈ items, k ≤ f item := by
  induction items generalizing start with
  | nil => simp
  | cons item items ih =>
      rw [List.foldl_cons, ih, Nat.le_min, List.forall_mem_cons, and_assoc]

private theorem foldl_max_le {α : Type} (f : α → Nat) (items : List α) (k start : Nat) :
    items.foldl (fun most item => max most (f item)) start ≤ k ↔
      start ≤ k ∧ ∀ item ∈ items, f item ≤ k := by
  induction items generalizing start with
  | nil => simp
  | cons item items ih =>
      rw [List.foldl_cons, ih, Nat.max_le, List.forall_mem_cons, and_assoc]

theorem length_reduceStatuses_le {own : List Nat} {others : List (List Nat)} {k : Nat} :
    (reduceStatuses own others).length ≤ k ↔
      ∀ statuses ∈ own :: others, statuses.length ≤ k := by
  rw [reduceStatuses, List.length_map, List.length_range, foldl_max_le, List.forall_mem_cons]

/-- A simulation is as advanced as every rank knows it; a rank that does not know it says 0. -/
theorem le_getD_reduceStatuses {own : List Nat} {others : List (List Nat)} {k s : Nat}
    (positive : 0 < k) :
    k ≤ (reduceStatuses own others).getD s 0 ↔ ∀ statuses ∈ own :: others,
      k ≤ statuses.getD s 0 := by
  constructor
  · intro advanced
    have inside : s < (reduceStatuses own others).length := by
      by_contra outside
      rw [List.getD_eq_default _ _ (by omega)] at advanced
      omega
    rw [List.getD_eq_getElem _ _ inside] at advanced
    simp only [reduceStatuses, List.getElem_map, List.getElem_range, le_foldl_min] at advanced
    exact List.forall_mem_cons.mpr advanced
  · intro everywhere
    have inside : s < (reduceStatuses own others).length := by
      by_contra outside
      have short := length_reduceStatuses_le.mp (Nat.le_of_not_lt outside) own
        List.mem_cons_self
      have known := everywhere own List.mem_cons_self
      rw [List.getD_eq_default _ _ short] at known
      omega
    rw [List.getD_eq_getElem _ _ inside]
    simp only [reduceStatuses, List.getElem_map, List.getElem_range, le_foldl_min]
    exact List.forall_mem_cons.mp everywhere

/-- The reduction does not depend on which rank looks at it. -/
theorem reduceStatuses_perm {own own' : List Nat} {others others' : List (List Nat)}
    (same : (own :: others).Perm (own' :: others')) :
    reduceStatuses own others = reduceStatuses own' others' := by
  have length : (reduceStatuses own others).length = (reduceStatuses own' others').length := by
    apply Nat.le_antisymm
    · rw [length_reduceStatuses_le]
      intro statuses member
      exact length_reduceStatuses_le.mp (Nat.le_refl _) statuses (same.mem_iff.mp member)
    · rw [length_reduceStatuses_le]
      intro statuses member
      exact length_reduceStatuses_le.mp (Nat.le_refl _) statuses (same.mem_iff.mpr member)
  have bounds (k s : Nat) (positive : 0 < k) :
      k ≤ (reduceStatuses own others).getD s 0 ↔ k ≤ (reduceStatuses own' others').getD s 0 := by
    rw [le_getD_reduceStatuses positive, le_getD_reduceStatuses positive]
    exact forall_congr' fun statuses => by rw [same.mem_iff]
  apply List.ext_getElem length
  intro s inside inside'
  rw [← List.getD_eq_getElem _ 0 inside, ← List.getD_eq_getElem _ 0 inside']
  have here := bounds ((reduceStatuses own others).getD s 0) s
  have there := bounds ((reduceStatuses own' others').getD s 0) s
  omega

theorem reduceStatuses_eraseIdx {read : List (List Nat)} {rank : Nat} {own : List Nat}
    (present : read[rank]? = some own) :
    reduceStatuses own (read.eraseIdx rank) = allreduce read := by
  obtain ⟨inside, here⟩ := List.getElem?_eq_some_iff.mp present
  cases read with
  | nil => cases present
  | cons first others =>
      apply reduceStatuses_perm
      rw [← here]
      exact List.getElem_cons_eraseIdx_perm inside

end Reduce

section Ranks

variable {D B : Type}

/-- `save_simu_states` on every rank. -/
def saveAllSimuStates (codec : Codec D B) (family : List (List (Simulation D)))
    (disk : Disk B) : Disk B :=
  applyOps disk ((family.mapIdx fun rank simulations =>
    (simuFileName rank, saveSimuStates codec simulations)).flatMap writeFile)

/-- What every rank has read from its file when the `MPI_Allreduce` calls begin. -/
def readAllStatuses (codec : Codec D B) (tempSize nbRanks : Nat) (disk : Disk B) :
    Option (List (List Nat)) :=
  (List.range nbRanks).mapM fun rank => do
    let file ← disk (simuFileName rank)
    let (own, _) ← readStatuses codec tempSize file
    some own

/-- The study as the server rank `rank` of `nbRanks` sees it. -/
def Study.onRank (study : Study D) (nbRanks rank : Nat) : Study D :=
  { study with commData := { study.commData with rank := rank, commSize := nbRanks } }

/-- `melissa_server_init` with `-r .` on every rank. -/
def restartRanks (codec : Codec D B) (tempSize : Nat) (study : Study D) (nbRanks : Nat)
    (disk : Disk B) : Option (List (Server D)) := do
  let read ← readAllStatuses codec tempSize nbRanks disk
  (List.range nbRanks).mapM fun rank =>
    restartServer codec tempSize (study.onRank nbRanks rank) (read.eraseIdx rank) disk

/-- The statuses in the files. -/
def savedStatuses (family : List (List (Simulation D))) : List (List Nat) :=
  family.map fun simulations => simulations.map Simulation.status

theorem saveAllSimuStates_file (codec : Codec D B) {family : List (List (Simulation D))}
    {rank : Nat} {simulations : List (Simulation D)} (present : family[rank]? = some simulations)
    (disk : Disk B) :
    saveAllSimuStates codec family disk (simuFileName rank) =
      some (saveSimuStates codec simulations).flatten := by
  let file (rank : Nat) (simulations : List (Simulation D)) :=
    (simuFileName rank, saveSimuStates codec simulations)
  have distinct : ((family.mapIdx file).map Prod.fst).Nodup := by
    rw [List.nodup_iff_injective_getElem]
    intro i j same
    simp only [List.getElem_map, List.getElem_mapIdx, file] at same
    exact Fin.ext (simuFileName_injective same)
  have member : file rank simulations ∈ family.mapIdx file := by
    rw [List.mem_iff_getElem?]
    exact ⟨rank, by simp [present]⟩
  exact applyOps_files_mem distinct member

/-- Every number of the files fits into an `int`. -/
def FitsAll (codec : Codec D B) (family : List (List (Simulation D))) : Prop :=
  ∀ simulations ∈ family, codec.Fits simulations.length ∧
    ∀ simu ∈ simulations, codec.Fits simu.status

theorem readAllStatuses_saved {codec : Codec D B} {family : List (List (Simulation D))}
    (fits : FitsAll codec family) (tempSize : Nat) (disk : Disk B) :
    readAllStatuses codec tempSize family.length (saveAllSimuStates codec family disk) =
      some (savedStatuses family) := by
  have each (rank : Nat) (member : rank ∈ List.range family.length) :
      (do let file ← saveAllSimuStates codec family disk (simuFileName rank)
          let (own, _) ← readStatuses codec tempSize file
          some own) = some ((savedStatuses family).getD rank []) := by
    have inside := List.mem_range.mp member
    have present : family[rank]? = some family[rank] := List.getElem?_eq_getElem inside
    obtain ⟨sizeFits, statusFits⟩ := fits family[rank] (List.getElem_mem inside)
    have read := (reads_simuStates sizeFits statusFits tempSize).all
    rw [ReadsAll] at read
    simp [saveAllSimuStates_file codec present, read, savedStatuses, present]
  have length : family.length = (savedStatuses family).length := by
    rw [savedStatuses, List.length_map]
  rw [readAllStatuses, mapM_eq_some each, length, map_getD_range]

/-- The simulations every rank starts with. -/
def restoredSimulations (family : List (List (Simulation D))) : List (Simulation D) :=
  (allreduce (savedStatuses family)).map fun status =>
    resetRunning { addSimulation with status := status }

theorem restartServer_saved {codec : Codec D B} {family : List (List (Simulation D))}
    (fits : FitsAll codec family) (tempSize : Nat) (study : Study D) {rank : Nat}
    (inside : rank < family.length) (disk : Disk B) :
    ∃ server, restartServer codec tempSize (study.onRank family.length rank)
        ((savedStatuses family).eraseIdx rank) (saveAllSimuStates codec family disk) =
          some server ∧
      server.simulations = restoredSimulations family ∧
      server.nbFinishedSimulations = (allreduce (savedStatuses family)).count 2 := by
  have present : family[rank]? = some family[rank] := List.getElem?_eq_getElem inside
  obtain ⟨sizeFits, statusFits⟩ := fits family[rank] (List.getElem_mem inside)
  have own : (savedStatuses family)[rank]? = some (family[rank].map Simulation.status) := by
    rw [savedStatuses, List.getElem?_map, present, Option.map_some]
  have read := readSimuStates_saved sizeFits statusFits
    (saveAllSimuStates_file codec present disk) tempSize ((savedStatuses family).eraseIdx rank)
  rw [reduceStatuses_eraseIdx own] at read
  simp only [restartServer, Study.onRank, read, Option.bind_eq_bind, Option.bind_some]
  refine ⟨_, rfl, ?_, ?_⟩
  · rw [restoredSimulations, startServer, List.map_map]
    rfl
  · rw [startServer, List.countP_map]
    rfl

theorem restartRanks_saved {codec : Codec D B} {family : List (List (Simulation D))}
    (fits : FitsAll codec family) (tempSize : Nat) (study : Study D) (disk : Disk B) :
    ∃ servers, restartRanks codec tempSize study family.length
        (saveAllSimuStates codec family disk) = some servers ∧
      servers.length = family.length ∧
      ∀ server ∈ servers, server.simulations = restoredSimulations family ∧
        server.nbFinishedSimulations = (allreduce (savedStatuses family)).count 2 := by
  rw [restartRanks, readAllStatuses_saved fits, Option.bind_eq_bind, Option.bind_some]
  obtain ⟨servers, started, length, each⟩ := mapM_total fun rank member =>
    restartServer_saved fits tempSize study (List.mem_range.mp member) disk
  exact ⟨servers, started, by rw [length, List.length_range], each⟩

end Ranks

section Statuses

variable {D : Type} [Zero D] [Add D] [Sub D] [Mul D] [Div D] [NatCast D] [IntCast D]
  [Pow D ℕ] [LT D] [DecidableLT D] [LE D] [DecidableLE D] [Libm D]

/-- The states of a server rank: some time after its first start, or after a restart from a
checkpoint of an earlier state. -/
inductive Reachable {B : Type} (codec : Codec D B) : Server D → Prop where
  | first (options : Options D) (commData : CommData) (names : List String) :
      Reachable codec (freshServer options commData names)
  | pass {restore : Restore D} {server server' : Server D} {event : Event D}
      (before : Reachable codec server) (taken : step restore server event = some server') :
      Reachable codec server'
  | restart {tempSize : Nat} {study : Study D} {others : List (List Nat)} {disk : Disk B}
      {saved server : Server D} (before : Reachable codec saved)
      (rank : saved.commData.rank = study.commData.rank)
      (fits : codec.Fits saved.simulations.length ∧
        ∀ simu ∈ saved.simulations, codec.Fits simu.status)
      (file : disk (simuFileName study.commData.rank) =
        some (saveSimuStates codec saved.simulations).flatten)
      (started : restartServer codec tempSize study others disk = some server) :
      Reachable codec server

theorem statusesBounded_of_reachable {B : Type} {codec : Codec D B} {server : Server D}
    (reachable : Reachable codec server) : StatusesBounded server := by
  induction reachable with
  | first options commData names => exact statusesBounded_freshServer options commData names
  | pass before taken bounded => exact statusesBounded_step bounded taken
  | restart before rank fits file started bounded =>
      exact statusesBounded_restart (statusesBounded_iff.mp bounded) fits file started

end Statuses

section Restored

variable {D B : Type}

/-- Every rank has saved the simulation as finished. -/
def finishedEverywhere (family : List (List (Simulation D))) (s : Nat) : Bool :=
  family.all fun simulations => simulations[s]?.any fun simu => decide (2 ≤ simu.status)

/-- What the restart makes of a family of saved simulations. -/
structure FinishedRestored (family : List (List (Simulation D))) (servers : List (Server D)) :
    Prop where
  ranks : servers.length = family.length
  same : ∀ server ∈ servers, ∀ server' ∈ servers, server.simulations = server'.simulations
  known : ∀ server ∈ servers, ∀ simulations ∈ family,
    simulations.length ≤ server.simulations.length
  counted : ∀ server ∈ servers, server.nbFinishedSimulations =
    (List.range server.simulations.length).countP (finishedEverywhere family)
  finished : ∀ server ∈ servers, ∀ s simu, server.simulations[s]? = some simu →
    finishedEverywhere family s = true → 2 ≤ simu.status
  waiting : ∀ server ∈ servers, ∀ s simu, server.simulations[s]? = some simu →
    finishedEverywhere family s = false → simu.status = 0

private theorem le_getD_allreduce {family : List (List (Simulation D))} (ranks : family ≠ [])
    {k : Nat} (positive : 0 < k) (s : Nat) :
    k ≤ (allreduce (savedStatuses family)).getD s 0 ↔
      ∀ simulations ∈ family, k ≤ (simulations.map Simulation.status).getD s 0 := by
  cases family with
  | nil => exact absurd rfl ranks
  | cons own others =>
      change k ≤ (reduceStatuses _ (savedStatuses others)).getD s 0 ↔ _
      rw [le_getD_reduceStatuses positive, List.forall_mem_cons, List.forall_mem_cons,
        savedStatuses, List.forall_mem_map]

private theorem length_le_allreduce {family : List (List (Simulation D))}
    {simulations : List (Simulation D)} (member : simulations ∈ family) :
    simulations.length ≤ (allreduce (savedStatuses family)).length := by
  cases family with
  | nil => cases member
  | cons own others =>
      have inside : simulations.map Simulation.status ∈ savedStatuses (own :: others) :=
        List.mem_map_of_mem member
      have short := length_reduceStatuses_le.mp (Nat.le_refl _) _ inside
      rwa [List.length_map] at short

private theorem finishedEverywhere_eq {family : List (List (Simulation D))} (ranks : family ≠ [])
    (s : Nat) : finishedEverywhere family s =
      decide (2 ≤ (allreduce (savedStatuses family)).getD s 0) := by
  rw [Bool.eq_iff_iff, decide_eq_true_eq, le_getD_allreduce ranks (by omega), finishedEverywhere,
    List.all_eq_true]
  refine forall₂_congr fun simulations _ => ?_
  rw [List.getD_eq_getElem?_getD, List.getElem?_map]
  cases simulations[s]? with
  | none => simp
  | some simu => simp

/-- The simulations that are finished everywhere come back with status 2. -/
private theorem countP_finishedEverywhere {family : List (List (Simulation D))}
    (ranks : family ≠ [])
    (bounded : ∀ status ∈ allreduce (savedStatuses family), status ≤ 2) :
    (List.range (restoredSimulations family).length).countP (finishedEverywhere family) =
      (allreduce (savedStatuses family)).count 2 := by
  have two : (allreduce (savedStatuses family)).count 2 =
      (allreduce (savedStatuses family)).countP fun status => decide (2 ≤ status) := by
    apply List.countP_congr
    intro status member
    have := bounded status member
    simp only [beq_iff_eq, decide_eq_true_eq]
    omega
  rw [two, restoredSimulations, List.length_map,
    ← map_getD_range (allreduce (savedStatuses family)) 0, List.countP_map, map_getD_range]
  apply List.countP_congr
  intro s _
  rw [finishedEverywhere_eq ranks, Function.comp_apply]

private theorem status_restoredSimulations {family : List (List (Simulation D))} {s : Nat}
    {simu : Simulation D} (present : (restoredSimulations family)[s]? = some simu) :
    simu.status = if (allreduce (savedStatuses family)).getD s 0 = 1 then 0
      else (allreduce (savedStatuses family)).getD s 0 := by
  rw [restoredSimulations, List.getElem?_map, Option.map_eq_some_iff] at present
  obtain ⟨saved, found, rfl⟩ := present
  rw [List.getD_eq_getElem?_getD, found, Option.getD_some]
  unfold resetRunning
  split
  · rfl
  · rfl

private theorem finishedRestored_of_restarted {family : List (List (Simulation D))}
    {servers : List (Server D)} (ranks : family ≠ []) (length : servers.length = family.length)
    (bounded : ∀ status ∈ allreduce (savedStatuses family), status ≤ 2)
    (restarted : ∀ server ∈ servers, server.simulations = restoredSimulations family ∧
      server.nbFinishedSimulations = (allreduce (savedStatuses family)).count 2) :
    FinishedRestored family servers := by
  have number := countP_finishedEverywhere ranks bounded
  refine
    { ranks := length
      same := ?_
      known := ?_
      counted := ?_
      finished := ?_
      waiting := ?_ }
  · intro server member server' member'
    rw [(restarted server member).1, (restarted server' member').1]
  · intro server member simulations inFamily
    rw [(restarted server member).1, restoredSimulations, List.length_map]
    exact length_le_allreduce inFamily
  · intro server member
    rw [(restarted server member).1, (restarted server member).2, number]
  · intro server member s simu present finished
    rw [(restarted server member).1] at present
    rw [finishedEverywhere_eq ranks, decide_eq_true_eq] at finished
    rw [status_restoredSimulations present]
    split
    · omega
    · exact finished
  · intro server member s simu present unfinished
    rw [(restarted server member).1] at present
    rw [finishedEverywhere_eq ranks, decide_eq_false_iff_not] at unfinished
    rw [status_restoredSimulations present]
    split
    · rfl
    · omega

private theorem allreduce_le {family : List (List (Simulation D))} (ranks : family ≠ [])
    (bounded : ∀ simulations ∈ family, ∀ simu ∈ simulations, simu.status ≤ 2) :
    ∀ status ∈ allreduce (savedStatuses family), status ≤ 2 := by
  intro status member
  obtain ⟨s, inside, rfl⟩ := List.mem_iff_getElem.mp member
  by_contra tooLarge
  have advanced : 3 ≤ (allreduce (savedStatuses family)).getD s 0 := by
    rw [List.getD_eq_getElem _ _ inside]
    omega
  obtain ⟨own, others, rfl⟩ := List.exists_cons_of_ne_nil ranks
  have here := (le_getD_allreduce ranks (by omega) s).mp advanced own List.mem_cons_self
  rw [List.getD_eq_getElem?_getD, List.getElem?_map] at here
  cases found : own[s]? with
  | none => simp [found] at here
  | some simu =>
      have low := bounded own List.mem_cons_self simu (List.mem_of_getElem? found)
      simp only [found, Option.map_some, Option.getD_some] at here
      omega

variable [Zero D] [Add D] [Sub D] [Mul D] [Div D] [NatCast D] [IntCast D]
  [Pow D ℕ] [LT D] [DecidableLT D] [LE D] [DecidableLE D] [Libm D]

/-- All ranks restart with the simulations counted that every rank has saved as finished. -/
theorem finishedRestored (codec : Codec D B) (tempSize : Nat) (study : Study D)
    (disk : Disk B) {family : List (List (Simulation D))} (ranks : family ≠ [])
    (reachable : ∀ rank simulations, family[rank]? = some simulations →
      ∃ server, Reachable codec server ∧ server.commData.rank = rank ∧
        server.simulations = simulations)
    (fits : FitsAll codec family) :
    ∃ servers, restartRanks codec tempSize study family.length
        (saveAllSimuStates codec family disk) = some servers ∧
      FinishedRestored family servers := by
  have bounded : ∀ simulations ∈ family, ∀ simu ∈ simulations, simu.status ≤ 2 := by
    intro simulations inFamily simu member
    obtain ⟨rank, present⟩ := List.mem_iff_getElem?.mp inFamily
    obtain ⟨server, reached, rfl, rfl⟩ := reachable rank simulations present
    exact statusesBounded_of_reachable reached simu.status (List.mem_map_of_mem member)
  obtain ⟨servers, started, length, restarted⟩ := restartRanks_saved fits tempSize study disk
  exact ⟨servers, started,
    finishedRestored_of_restarted ranks length (allreduce_le ranks bounded) restarted⟩

end Restored

section Example

/-- Client rank 0 alone sends to a server rank, of a study of `samplingSize` simulations. -/
private def alone (samplingSize : Int) (rank : Nat) : Server ℚ :=
  freshServer { twoByTwo with samplingSize := samplingSize } ⟨rank, 2, 1⟩ ["heat"]

private def sends (timeStamp : Int) (simuId : Nat) : Event ℚ :=
  .data 1 ⟨timeStamp, simuId, 0, 1, "heat", [3]⟩ ⟨simuId, "job", [1]⟩

/-- Server rank 0 knows two simulations, and all time steps of both have arrived there. -/
private def fullRank : Option (Server ℚ) :=
  run (step noRestore) (alone 2 0) [sends 0 0, sends 1 0, sends 0 1, sends 1 1]

/-- Server rank 1 knows three, and the last time step of simulation 1 has not arrived there. -/
private def lateRank : Option (Server ℚ) :=
  run (step noRestore) (alone 3 1) [sends 0 0, sends 1 0, sends 0 1]

private def unequalFamily : List (List (Simulation ℚ)) :=
  [fullRank, lateRank].filterMap (Option.map Server.simulations)

private theorem reachable_run {samplingSize : Int} {rank : Nat} {server : Server ℚ}
    {events : List (Event ℚ)}
    (reached : run (step noRestore) (alone samplingSize rank) events = some server) :
    Reachable (exactCodec ℚ) server :=
  run_invariant (fun _ _ _ before taken => before.pass taken) (.first _ _ _) reached

/-- Simulation 0 is finished on both ranks, simulation 1 only on rank 0, and simulation 2 is not
known there. -/
theorem finishedRestored_unequalRanks :
    ∃ servers, restartRanks (exactCodec ℚ) 0 ⟨twoByTwo, ⟨0, 2, 1⟩, ["heat"]⟩ unequalFamily.length
        (saveAllSimuStates (exactCodec ℚ) unequalFamily fun _ => none) = some servers ∧
      FinishedRestored unequalFamily servers := by
  have places : (fullRank.map fun server => server.commData.rank) = some 0 ∧
      (lateRank.map fun server => server.commData.rank) = some 1 := by decide +kernel
  obtain ⟨full, fullReached, fullPlace⟩ := Option.map_eq_some_iff.mp places.1
  obtain ⟨late, lateReached, latePlace⟩ := Option.map_eq_some_iff.mp places.2
  have family : unequalFamily = [full.simulations, late.simulations] := by
    simp [unequalFamily, fullReached, lateReached]
  refine finishedRestored (exactCodec ℚ) 0 _ (fun _ => none) (by simp [family]) ?_
    fun _ _ => ⟨trivial, fun _ _ => trivial⟩
  intro rank simulations present
  rw [family] at present
  match rank with
  | 0 =>
      cases present
      exact ⟨full, reachable_run fullReached, fullPlace, rfl⟩
  | 1 =>
      cases present
      exact ⟨late, reachable_run lateReached, latePlace, rfl⟩

end Example

end Melissa
