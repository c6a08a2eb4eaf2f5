import Melissa.Io.Checkpoint
import Melissa.Server.Statuses

/-! A server rank and the files it leaves: it saves its state from time to time, dies between
two passes of the main loop and is started again with `-r .` in the same directory. -/

namespace Melissa

open Files Runs

section SimuStates

variable {D B : Type}

/-- `save_simu_states`. -/
def saveSimuStates (codec : Codec D B) (simulations : List (Simulation D)) : List (List B) :=
  [fwriteInt codec simulations.length] ++
    simulations.flatMap fun simu => [fwriteInt codec simu.status]

/-- What `read_simu_states` takes from the file of its rank: a size, and a status for each new
simulation. `tempSize` is what the local variable holds before it is read. -/
def readStatuses (codec : Codec D B) (tempSize : Nat) : Reader B (List Nat) := do
  let size ← freadInt codec tempSize
  (List.replicate size 0).mapM (freadInt codec)

/-- The `MPI_Allreduce` calls: the largest size, and for each simulation the smallest status. A
rank that has not saved a simulation contributes the status of a new one. -/
def reduceStatuses (own : List Nat) (others : List (List Nat)) : List Nat :=
  (List.range (others.foldl (fun size statuses => max size statuses.length) own.length)).map
    fun i => others.foldl (fun status statuses => min status (statuses.getD i 0)) (own.getD i 0)

/-- `read_simu_states`, with the statuses the other ranks have read. Without a file the vector of
simulations stays as `malloc` has left it. -/
def readSimuStates (codec : Codec D B) (tempSize : Nat) (others : List (List Nat)) (rank : Nat)
    (disk : Disk B) : Option (List (Simulation D)) := do
  let file ← disk (simuFileName rank)
  let (own, _) ← readStatuses codec tempSize file
  some ((reduceStatuses own others).map fun status => { addSimulation with status := status })

theorem reads_simuStates {codec : Codec D B} {simulations : List (Simulation D)}
    (fits : codec.Fits simulations.length)
    (statusFits : ∀ simu ∈ simulations, codec.Fits simu.status) (tempSize : Nat) :
    Reads (readStatuses codec tempSize) (saveSimuStates codec simulations)
      (simulations.map Simulation.status) := by
  refine reads_bind (reads_int fits tempSize) ?_
  apply reads_mapM
  · rw [List.length_replicate]
  · intro old _ simu member
    exact reads_int (statusFits simu member) old

/-- The statuses of a complete file. -/
theorem readSimuStates_saved {codec : Codec D B} {simulations : List (Simulation D)} {rank : Nat}
    {disk : Disk B} (fits : codec.Fits simulations.length)
    (statusFits : ∀ simu ∈ simulations, codec.Fits simu.status)
    (saved : disk (simuFileName rank) = some (saveSimuStates codec simulations).flatten)
    (tempSize : Nat) (others : List (List Nat)) :
    readSimuStates codec tempSize others rank disk =
      some ((reduceStatuses (simulations.map Simulation.status) others).map
        fun status => { addSimulation with status := status }) := by
  have read := (reads_simuStates fits statusFits tempSize).all
  rw [ReadsAll] at read
  simp only [readSimuStates, saved, Option.bind_eq_bind, Option.bind_some, read]

theorem length_reduceStatuses {own : List Nat} {others : List (List Nat)} {nbSimu : Nat}
    (size : own.length = nbSimu) (sizes : ∀ statuses ∈ others, statuses.length = nbSimu) :
    (reduceStatuses own others).length = nbSimu := by
  have reduced :
      others.foldl (fun size statuses => max size statuses.length) nbSimu = nbSimu := by
    induction others with
    | nil => rfl
    | cons statuses others ih =>
        rw [List.forall_mem_cons] at sizes
        rw [List.foldl_cons, sizes.1, Nat.max_self]
        exact ih sizes.2
  rw [reduceStatuses, List.length_map, List.length_range, size, reduced]

/-- No rank can make a simulation look more advanced than another one knows it. -/
theorem getD_reduceStatuses_le (own : List Nat) (others : List (List Nat)) (s : Nat) :
    (reduceStatuses own others).getD s 0 ≤ own.getD s 0 := by
  have smaller (status : Nat) :
      others.foldl (fun status statuses => min status (statuses.getD s 0)) status ≤ status := by
    induction others generalizing status with
    | nil => exact Nat.le_refl _
    | cons statuses others ih =>
        rw [List.foldl_cons]
        calc
          others.foldl (fun status statuses => min status (statuses.getD s 0))
              (min status (statuses.getD s 0)) ≤ min status (statuses.getD s 0) := ih _
          _ ≤ status := Nat.min_le_left _ _
  rw [reduceStatuses, List.getD_eq_getElem?_getD, List.getElem?_map]
  by_cases inside : s < others.foldl (fun size statuses => max size statuses.length) own.length
  · rw [List.getElem?_range inside]
    exact smaller _
  · rw [List.getElem?_eq_none (by simpa using inside)]
    exact Nat.zero_le _

private theorem getD_zeros (n s : Nat) : (List.replicate n 0).getD s 0 = 0 := by
  rw [List.getD_eq_getElem?_getD, List.getElem?_replicate]
  split
  · rfl
  · rfl

/-- A file that was not written to its end gives no simulation a later status. -/
theorem readStatuses_front {codec : Codec D B} (unbounded : ∀ n, codec.Fits n)
    (simulations : List (Simulation D)) (tempSize j : Nat) :
    ∃ own, readStatuses codec tempSize ((saveSimuStates codec simulations).take j).flatten =
        some (own, []) ∧
      ∀ s, own.getD s 0 ≤ (simulations.map Simulation.status).getD s 0 := by
  have unchanged (old : Nat) : freadInt codec old [] = some (old, []) := rfl
  cases j with
  | zero =>
      refine ⟨List.replicate tempSize 0, mapM_end unchanged (List.replicate tempSize 0), ?_⟩
      intro s
      rw [getD_zeros]
      exact Nat.zero_le _
  | succ j =>
      have front : (saveSimuStates codec simulations).take (j + 1) =
          [fwriteInt codec simulations.length] ++
            (simulations.take j).flatMap fun simu => [fwriteInt codec simu.status] := by
        simp only [saveSimuStates, List.singleton_append, List.take_succ_cons,
          ← List.map_eq_flatMap, List.map_take]
      have read : ReadsAll (readStatuses codec tempSize)
          ((saveSimuStates codec simulations).take (j + 1))
          ((simulations.take j).map Simulation.status ++
            (List.replicate simulations.length 0).drop (simulations.take j).length) := by
        rw [front]
        refine readsAll_bind (reads_int (unbounded simulations.length) tempSize) ?_
        apply readsAll_mapM_front
        · simp
        · intro old _ simu _
          exact reads_int (unbounded simu.status) old
        · exact unchanged
      refine ⟨_, read, ?_⟩
      intro s
      rw [List.map_take, List.drop_replicate]
      by_cases inside : s < ((simulations.map Simulation.status).take j).length
      · have bound : s < (simulations.map Simulation.status).length :=
          Nat.lt_of_lt_of_le inside (List.length_take_le' _ _)
        rw [List.getD_append _ _ _ _ inside, List.getD_eq_getElem _ _ inside, List.getElem_take,
          List.getD_eq_getElem _ _ bound]
      · rw [List.getD_append_right _ _ _ _ (Nat.le_of_not_lt inside), getD_zeros]
        exact Nat.zero_le _

/-- No simulation comes back with a later status than the file of the rank has. -/
theorem readSimuStates_le {codec : Codec D B} {tempSize rank : Nat} {others : List (List Nat)}
    {disk : Disk B} {file left : List B} {own : List Nat} {simulations : List (Simulation D)}
    (bytes : disk (simuFileName rank) = some file)
    (read : readStatuses codec tempSize file = some (own, left))
    (states : readSimuStates codec tempSize others rank disk = some simulations) (s : Nat) :
    (simulations.map Simulation.status).getD s 0 ≤ own.getD s 0 := by
  simp only [readSimuStates, bytes, Option.bind_eq_bind, Option.bind_some, read,
    Option.some.injEq] at states
  rw [← states, List.map_map]
  have same : (reduceStatuses own others).map
      (Simulation.status ∘ fun status => ({ addSimulation with status := status } : Simulation D)) =
        reduceStatuses own others := List.map_id _
  rw [same]
  exact getD_reduceStatuses_le own others s

end SimuStates

section Life

variable {D B : Type}

/-- What the command line fixes for all lives of a server rank. -/
structure Study (D : Type) where
  options : Options D
  commData : CommData
  names : List String
  deriving DecidableEq, Repr

/-- A server rank and its working directory. -/
structure Life (D B : Type) where
  server : Server D
  disk : Disk B

/-- The files of a checkpoint in the order in which they are written. -/
def checkpointFiles (codec : Codec D B) (server : Server D) : List (String × List (List B)) :=
  server.fields.flatMap (saveStats codec server.options server.commData.rank) ++
    [(simuFileName server.commData.rank, saveSimuStates codec server.simulations)]

def checkpointOps (codec : Codec D B) (server : Server D) : List (FileOp B) :=
  (checkpointFiles codec server).flatMap writeFile

/-- The checkpoint at the top of the main loop. -/
def checkpointRound (codec : Codec D B) (life : Life D B) (now : ℚ) : Life D B :=
  if checkpointDue life.server now then
    { server := { life.server with lastCheckpointTime := now }
      disk := applyOps life.disk (checkpointOps codec life.server) }
  else life

/-- A simulation that was running is started again by the launcher. -/
def resetRunning (simu : Simulation D) : Simulation D :=
  if simu.status = 1 then { simu with status := 0 } else simu

/-- `melissa_server_init` with `-r .`. -/
def restartServer (codec : Codec D B) (tempSize : Nat) (study : Study D)
    (others : List (List Nat)) (disk : Disk B) : Option (Server D) := do
  let simulations ← readSimuStates codec tempSize others study.commData.rank disk
  let waiting := simulations.map resetRunning
  let options := { study.options.restarted with samplingSize := (waiting.length : Int) }
  let nbFinishedSimulations := simulations.countP fun simu => simu.status == 2
  some { startServer options study.commData study.names waiting nbFinishedSimulations with
    outbox := if study.commData.rank = 0
      then waiting.mapIdx fun i simu => .simuStatus i simu.status else [] }

/-- The simulations that a restart reads have no later statuses than the file of the rank. -/
theorem statusesBounded_restart {codec : Codec D B} {tempSize : Nat} {study : Study D}
    {others : List (List Nat)} {disk : Disk B} {simulations : List (Simulation D)}
    {server : Server D} (bounded : ∀ simu ∈ simulations, simu.status ≤ 2)
    (fits : codec.Fits simulations.length ∧ ∀ simu ∈ simulations, codec.Fits simu.status)
    (file : disk (simuFileName study.commData.rank) =
      some (saveSimuStates codec simulations).flatten)
    (started : restartServer codec tempSize study others disk = some server) :
    StatusesBounded server := by
  have read := readSimuStates_saved fits.1 fits.2 file tempSize others
  simp only [restartServer, read, Option.bind_eq_bind, Option.bind_some] at started
  cases started
  intro status member
  simp only [statuses, startServer, List.map_map, List.mem_map, Function.comp_apply] at member
  obtain ⟨reduced, inReduced, rfl⟩ := member
  obtain ⟨s, inside, rfl⟩ := List.mem_iff_getElem.mp inReduced
  have own := getD_reduceStatuses_le (simulations.map Simulation.status) others s
  rw [List.getD_eq_getElem _ _ inside] at own
  have each : ∀ status ∈ simulations.map Simulation.status, status ≤ 2 :=
    List.forall_mem_map.mpr bounded
  have allowed : (simulations.map Simulation.status).getD s 0 ≤ 2 := by
    by_cases known : s < (simulations.map Simulation.status).length
    · rw [List.getD_eq_getElem _ _ known]
      exact each _ (List.getElem_mem known)
    · rw [List.getD_eq_default _ _ (Nat.le_of_not_lt known)]
      exact Nat.zero_le _
  change (resetRunning _).status ≤ 2
  unfold resetRunning
  split
  · exact Nat.zero_le _
  · exact own.trans allowed

/-- A pass of the main loop, its checkpoint, and the death of the process followed by a restart
at which the other ranks have read the statuses `others`. -/
inductive LifeEvent (D : Type) where
  | pass (event : Event D)
  | checkpoint (now : ℚ)
  | restart (others : List (List Nat))
  deriving DecidableEq, Repr

/-- The first start, in a directory without checkpoint files. -/
def firstLife (study : Study D) : Life D B :=
  { server := freshServer study.options study.commData study.names, disk := fun _ => none }

variable [Zero D] [Add D] [Sub D] [Mul D] [Div D] [NatCast D] [IntCast D]
  [Pow D ℕ] [LT D] [DecidableLT D] [LE D] [DecidableLE D] [Libm D]

def lifeStep (codec : Codec D B) (tempSize : Nat) (study : Study D) (life : Life D B) :
    LifeEvent D → Option (Life D B)
  | .pass event =>
      let restore := readSavedStats codec tempSize life.server.options life.server.commData.rank
        life.disk
      (step restore life.server event).map fun server => { life with server := server }
  | .checkpoint now => some (checkpointRound codec life now)
  | .restart others =>
      (restartServer codec tempSize study others life.disk).map fun server =>
        { life with server := server }

end Life

end Melissa
