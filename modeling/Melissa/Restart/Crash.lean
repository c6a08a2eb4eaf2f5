import Melissa.Restart.NeverLost
import Melissa.Server.Finished

/-! The death of a server rank in the middle of a checkpoint. The files are rewritten in place,
one after the other, the simulation states last. -/

namespace Melissa

open Files Runs

section Interrupted

variable {D B : Type}

/-- A state of the server that a checkpoint can save and a restart can read. -/
structure Saveable (codec : Codec D B) (study : Study D) (server : Server D) : Prop where
  options : server.options = { study.options with
    restart := server.options.restart
    samplingSize := server.options.samplingSize }
  commData : server.commData = study.commData
  places : ∀ fieldName ∈ study.names, ∀ clientRank < study.commData.clientCommSize,
    ∃ data, IsEntry server.fields fieldName clientRank data
  sized : ∀ fieldName ∈ study.names, ∀ clientRank < study.commData.clientCommSize, ∀ data,
    IsEntry server.fields fieldName clientRank data →
      0 < data.vectSize → WellSized codec study.options data

/-- The files when the process dies after `k` operations of a checkpoint. -/
def interrupted (codec : Codec D B) (server : Server D) (disk : Disk B) (k : Nat) : Disk B :=
  applyOps disk ((checkpointOps codec server).take k)

/-- The file of a structure of `server`. -/
def IsFileOf (codec : Codec D B) (study : Study D) (server : Server D) (fieldName : String)
    (clientRank : Nat) (data : MelissaData D) (file : Option (List B)) : Prop :=
  IsEntry server.fields fieldName clientRank data ∧
    file = some (saveData codec study.options data).flatten

/-- The files of a complete checkpoint. -/
structure Holds (codec : Codec D B) (study : Study D) (server : Server D) (disk : Disk B) :
    Prop where
  structures : ∀ fieldName ∈ study.names, ∀ clientRank < study.commData.clientCommSize, ∃ data,
    IsFileOf codec study server fieldName clientRank data
      (disk (fileName fieldName study.commData.rank clientRank))
  simulations : disk (simuFileName study.commData.rank) =
    some (saveSimuStates codec server.simulations).flatten

variable {codec : Codec D B} {study : Study D} {previous next : Server D} {disk : Disk B}

theorem holds_checkpoint (saveable : Saveable codec study next) (disk : Disk B) :
    Holds codec study next (applyOps disk (checkpointOps codec next)) := by
  constructor
  · intro fieldName known clientRank inside
    obtain ⟨data, entry⟩ := saveable.places fieldName known clientRank inside
    obtain ⟨data', written⟩ := writtenEntry_isSome entry
    have bytes := checkpoint_entry codec next disk fieldName clientRank
    rw [written, saveable.commData, saveable.options] at bytes
    exact ⟨data', writtenEntry_mem written, bytes⟩
  · rw [← saveable.commData]
    exact checkpoint_simulations codec next disk

/-- A file that is not cut off is that of the previous or of the next checkpoint. -/
theorem interrupted_file (saveable : Saveable codec study next)
    (holds : Holds codec study previous disk) {k clientRank : Nat} {fieldName : String}
    (known : fieldName ∈ study.names) (inside : clientRank < study.commData.clientCommSize)
    (uncut : cutFile (checkpointFiles codec next) k ≠
      some (fileName fieldName study.commData.rank clientRank)) :
    ∃ data,
      IsFileOf codec study previous fieldName clientRank data
          (interrupted codec next disk k
            (fileName fieldName study.commData.rank clientRank)) ∨
        IsFileOf codec study next fieldName clientRank data
          (interrupted codec next disk k
            (fileName fieldName study.commData.rank clientRank)) := by
  rcases applyOps_take_files disk uncut with same | ⟨file, member, named, bytes⟩
  · obtain ⟨data, entry, old⟩ := holds.structures fieldName known clientRank inside
    exact ⟨data, Or.inl ⟨entry, same.trans old⟩⟩
  · rcases List.mem_append.mp member with structures | last
    · obtain ⟨field, own, written⟩ := List.mem_flatMap.mp structures
      obtain ⟨i, bound, rfl⟩ := List.mem_mapIdx.mp written
      rw [saveable.commData] at named
      obtain ⟨rfl, rfl⟩ := fileName_injective named
      rw [saveable.options] at bytes
      exact ⟨field.statsData[i], Or.inr ⟨isEntry_of_mem own (List.getElem?_eq_getElem bound),
        bytes⟩⟩
    · rw [List.mem_singleton.mp last] at named
      exact absurd named.symm (fileName_ne_simuFileName _ _ _ _)

/-- The simulation states are written last: they are the old ones, or all structures are in their
files and no simulation has a later status than in the new states. -/
theorem interrupted_simulations (unbounded : ∀ n, codec.Fits n)
    (saveable : Saveable codec study next) (holds : Holds codec study previous disk)
    (tempSize k : Nat) :
    ∃ file own, interrupted codec next disk k (simuFileName study.commData.rank) = some file ∧
      readStatuses codec tempSize file = some (own, []) ∧
      ((∀ s, own.getD s 0 ≤ simuStatus previous s) ∨
        (∀ s, own.getD s 0 ≤ simuStatus next s) ∧
          ∀ fieldName clientRank,
            interrupted codec next disk k (fileName fieldName study.commData.rank clientRank) =
              applyOps disk (checkpointOps codec next)
                (fileName fieldName study.commData.rank clientRank)) := by
  rcases take_files_concat (next.fields.flatMap (saveStats codec next.options next.commData.rank))
    (simuFileName next.commData.rank, saveSimuStates codec next.simulations) k with
    early | ⟨j, late⟩
  · refine ⟨_, previous.simulations.map Simulation.status, ?_,
      (reads_simuStates (unbounded _) (fun _ _ => unbounded _) tempSize).all,
      Or.inl fun s => Nat.le_refl _⟩
    rw [interrupted, checkpointOps, checkpointFiles, early, ← holds.simulations]
    apply applyOps_other
    intro op member
    obtain ⟨file, written, part⟩ := List.mem_flatMap.mp (List.mem_of_mem_take member)
    obtain ⟨field, _, own⟩ := List.mem_flatMap.mp written
    obtain ⟨i, _, rfl⟩ := List.mem_mapIdx.mp own
    rw [name_of_mem_writeFile part]
    exact fileName_ne_simuFileName _ _ _ _
  · obtain ⟨own, read, small⟩ := readStatuses_front unbounded next.simulations tempSize j
    have part : interrupted codec next disk k =
        Function.update (applyOps disk ((next.fields.flatMap
          (saveStats codec next.options next.commData.rank)).flatMap writeFile))
          (simuFileName study.commData.rank)
          (some ((saveSimuStates codec next.simulations).take j).flatten) := by
      rw [interrupted, checkpointOps, checkpointFiles, late, applyOps_append, applyOps_writeFile,
        saveable.commData]
    refine ⟨_, own, by rw [part, Function.update_self], read, Or.inr ⟨small, ?_⟩⟩
    intro fieldName clientRank
    have other := fileName_ne_simuFileName fieldName study.commData.rank clientRank
      study.commData.rank
    rw [part, Function.update_of_ne other, checkpointOps, checkpointFiles, List.flatMap_append,
      applyOps_append, List.flatMap_singleton, applyOps_writeFile, saveable.commData,
      Function.update_of_ne other]

end Interrupted

section Survives

variable {D B : Type} [Zero D] [NatCast D]

/-- What `read_saved_stats` makes of a new structure is the saved one: its values and its bits, or
no room for values where it had none. -/
def GivesBack (codec : Codec D B) (tempSize : Nat) (study : Study D) (disk : Disk B)
    (fieldName : String) (clientRank : Nat) (data : MelissaData D) : Prop :=
  (0 < data.vectSize →
    readSavedStats codec tempSize study.options.restarted study.commData.rank disk fieldName
      clientRank (melissaInitData study.options emptyData data.vectSize) =
        some (restored study.options data)) ∧
  (data.vectSize = 0 → ∀ new,
    readSavedStats codec tempSize study.options.restarted study.commData.rank disk fieldName
      clientRank new = some { new with vectSize := 0 })

/-- A time step of the simulation has not been received. -/
def Misses (study : Study D) (data : MelissaData D) (simuId : Nat) : Prop :=
  ∃ t < study.options.nbTimeSteps, bitOf data simuId t = false

/-- A restart takes the simulation for finished, and a time step of it is missing in the bits that
it reads for a structure. -/
def FinishedButMissing (codec : Codec D B) (tempSize : Nat) (study : Study D)
    (others : List (List Nat)) (disk : Disk B) (fieldName : String) (clientRank simuId : Nat) :
    Prop :=
  let size := savedVectSize codec disk (fileName fieldName study.commData.rank clientRank)
  (∃ simulations : List (Simulation D),
    readSimuStates codec tempSize others study.commData.rank disk = some simulations ∧
      2 ≤ (simulations.map Simulation.status).getD simuId 0) ∧
  0 < size ∧
  ∃ back, readSavedStats codec tempSize study.options.restarted study.commData.rank disk fieldName
    clientRank (melissaInitData study.options emptyData size) = some back ∧
      Misses study back simuId

/-- The server itself takes the simulation for finished when it saves its state, without all time
steps in the structure. -/
def SavedButMissing (study : Study D) (server : Server D) (fieldName : String)
    (clientRank simuId : Nat) : Prop :=
  2 ≤ simuStatus server simuId ∧
    ∃ data, IsEntry server.fields fieldName clientRank data ∧
      (data.vectSize = 0 ∨ Misses study data simuId)

/-- What a restart finds after a checkpoint of `next` that was interrupted and cut off the file
`cut`, when the last complete checkpoint was one of `previous`. -/
structure Survives (codec : Codec D B) (tempSize : Nat) (study : Study D)
    (previous next : Server D) (disk : Disk B) (cut : Option String) : Prop where
  statistics : ∀ fieldName ∈ study.names, ∀ clientRank < study.commData.clientCommSize,
    cut ≠ some (fileName fieldName study.commData.rank clientRank) →
    ∃ data, (IsEntry previous.fields fieldName clientRank data ∨
        IsEntry next.fields fieldName clientRank data) ∧
      GivesBack codec tempSize study disk fieldName clientRank data
  statuses : ∀ fieldName ∈ study.names, ∀ clientRank < study.commData.clientCommSize,
    cut ≠ some (fileName fieldName study.commData.rank clientRank) →
    ∀ others simuId,
      FinishedButMissing codec tempSize study others disk fieldName clientRank simuId →
        SavedButMissing study previous fieldName clientRank simuId ∨
          SavedButMissing study next fieldName clientRank simuId

/-- The bits saved by the previous checkpoint are in the structures of the next one. -/
def Grown (study : Study D) (previous next : Server D) : Prop :=
  ∀ fieldName ∈ study.names, ∀ clientRank < study.commData.clientCommSize, ∀ new,
    IsEntry next.fields fieldName clientRank new → 0 < new.vectSize →
    ∃ old, IsEntry previous.fields fieldName clientRank old ∧
      (0 < old.vectSize → ∀ s, ∀ t < study.options.nbTimeSteps,
        bitOf old s t = true → bitOf new s t = true)

variable {codec : Codec D B} {study : Study D}

theorem givesBack_of_file {disk : Disk B} {fieldName : String} {clientRank : Nat}
    {data : MelissaData D} (zero : codec.Fits 0)
    (file : disk (fileName fieldName study.commData.rank clientRank) =
      some (saveData codec study.options data).flatten)
    (sized : 0 < data.vectSize → WellSized codec study.options data) (tempSize : Nat) :
    GivesBack codec tempSize study disk fieldName clientRank data := by
  constructor
  · intro positive
    exact readSavedStats_of_file file (sized positive) positive tempSize
  · intro none_saved new
    exact readSavedStats_of_emptyFile zero file none_saved tempSize new

/-- The bits that a restart reads for a structure are those of the structure whose file it is. -/
theorem misses_of_file (unbounded : ∀ n, codec.Fits n) {tempSize : Nat}
    {others : List (List Nat)} {disk : Disk B} {fieldName : String} {clientRank simuId : Nat}
    {data : MelissaData D}
    (file : disk (fileName fieldName study.commData.rank clientRank) =
      some (saveData codec study.options data).flatten)
    (sized : 0 < data.vectSize → WellSized codec study.options data)
    (missing : FinishedButMissing codec tempSize study others disk fieldName clientRank simuId) :
    0 < data.vectSize ∧ Misses study data simuId := by
  obtain ⟨_, positive, back, read, t, below, unset⟩ := missing
  rw [savedVectSize_eq unbounded file] at positive read
  have whole := (givesBack_of_file (unbounded 0) file sized tempSize).1 positive
  rw [whole, Option.some.injEq] at read
  rw [← read, bitOf_restored] at unset
  exact ⟨positive, t, below, unset⟩

variable {previous next : Server D} {disk : Disk B}

theorem survives_interrupted (unbounded : ∀ n, codec.Fits n)
    (saveable : Saveable codec study previous) (saveable' : Saveable codec study next)
    (holds : Holds codec study previous disk) (grown : Grown study previous next)
    (tempSize k : Nat) :
    Survives codec tempSize study previous next (interrupted codec next disk k)
      (cutFile (checkpointFiles codec next) k) := by
  constructor
  · intro fieldName known clientRank inside uncut
    obtain ⟨data, ⟨entry, file⟩ | ⟨entry, file⟩⟩ :=
      interrupted_file saveable' holds known inside uncut
    · have sized := saveable.sized fieldName known clientRank inside data entry
      exact ⟨data, Or.inl entry, givesBack_of_file (unbounded 0) file sized tempSize⟩
    · have sized := saveable'.sized fieldName known clientRank inside data entry
      exact ⟨data, Or.inr entry, givesBack_of_file (unbounded 0) file sized tempSize⟩
  · intro fieldName known clientRank inside uncut others simuId missing
    obtain ⟨file, own, bytes, read, cases⟩ :=
      interrupted_simulations unbounded saveable' holds tempSize k
    obtain ⟨simulations, states, finished⟩ := missing.1
    have status : 2 ≤ own.getD simuId 0 := by
      calc
        2 ≤ (simulations.map Simulation.status).getD simuId 0 := finished
        _ ≤ own.getD simuId 0 := readSimuStates_le bytes read states simuId
    rcases cases with early | ⟨late, written⟩
    · -- the old states, with the old or the new structure
      refine Or.inl ⟨Nat.le_trans status (early simuId), ?_⟩
      obtain ⟨data, ⟨entry, file⟩ | ⟨entry, file⟩⟩ :=
        interrupted_file saveable' holds known inside uncut
      · have sized := saveable.sized fieldName known clientRank inside data entry
        exact ⟨data, entry, Or.inr (misses_of_file unbounded file sized missing).2⟩
      · have sized := saveable'.sized fieldName known clientRank inside data entry
        obtain ⟨positive, t, below, unset⟩ := misses_of_file unbounded file sized missing
        obtain ⟨old, entry', kept⟩ := grown fieldName known clientRank inside data entry positive
        refine ⟨old, entry', ?_⟩
        rcases Nat.eq_zero_or_pos old.vectSize with none_saved | some_saved
        · exact Or.inl none_saved
        · refine Or.inr ⟨t, below, Bool.eq_false_of_not_eq_true ?_⟩
          intro set
          rw [kept some_saved simuId t below set] at unset
          cases unset
    · obtain ⟨data, entry, file⟩ :=
        (holds_checkpoint saveable' disk).structures fieldName known clientRank inside
      have sized := saveable'.sized fieldName known clientRank inside data entry
      rw [← written] at file
      exact Or.inr ⟨Nat.le_trans status (late simuId), data, entry,
        Or.inr (misses_of_file unbounded file sized missing).2⟩

end Survives

section Lives

variable {D B : Type} [Zero D] [Add D] [Sub D] [Mul D] [Div D] [NatCast D] [IntCast D]
  [Pow D ℕ] [LT D] [DecidableLT D] [LE D] [DecidableLE D] [Libm D]

/-- All structures of a rank as records of the messages of a run. -/
structure AllTracked (codec : Codec D B) (study : Study D) (vectSize : String → Nat → Nat)
    (events : List (LifeEvent D)) (life : Life D B) : Prop where
  sound : Sound codec study life
  tracked : ∀ fieldName ∈ study.names, ∀ clientRank < study.commData.clientCommSize,
    IsTracked codec study (vectSize fieldName clientRank) fieldName clientRank
      (messagesTo fieldName clientRank events) life

variable {codec : Codec D B} {study : Study D} {vectSize : String → Nat → Nat}
  {events : List (LifeEvent D)} {life life' : Life D B}

theorem allTracked_firstLife (codec : Codec D B) (study : Study D)
    (vectSize : String → Nat → Nat) (events : List (LifeEvent D)) :
    AllTracked codec study vectSize events (firstLife study) :=
  ⟨sound_firstLife codec study, fun fieldName known clientRank inside =>
    ⟨_, _, _, _, tracked_firstLife codec (vectSize fieldName clientRank)
      (messagesTo fieldName clientRank events) known inside⟩⟩

theorem allTracked_step (unbounded : ∀ n, codec.Fits n) {tempSize : Nat} {event : LifeEvent D}
    (consistent : ∀ fieldName clientRank,
      Consistent study (vectSize fieldName clientRank) fieldName clientRank events)
    (member : event ∈ events) (inv : AllTracked codec study vectSize events life)
    (taken : lifeStep codec tempSize study life event = some life') :
    AllTracked codec study vectSize events life' := by
  have sizes (others : List (List Nat)) (here : event = .restart others) :=
    (consistent "" 0).others others (here ▸ member)
  refine ⟨sound_step unbounded inv.sound sizes taken, ?_⟩
  intro fieldName known clientRank inside
  exact tracked_step unbounded known inside inv.sound
    (inv.tracked fieldName known clientRank inside)
    (arrives_of_mem (consistent fieldName clientRank) member) sizes taken

/-- A structure with values is the record of its messages. -/
theorem replay_of_isEntry {fieldName : String} {clientRank : Nat} {data : MelissaData D}
    (inv : AllTracked codec study vectSize events life) (known : fieldName ∈ study.names)
    (inside : clientRank < study.commData.clientCommSize)
    (entry : IsEntry life.server.fields fieldName clientRank data) (positive : 0 < data.vectSize) :
    entryAt life.server fieldName clientRank = some data ∧
      ∃ past, Replay codec study.options study.options.samplingSize.toNat
        (vectSize fieldName clientRank) past data := by
  rcases isEntry_cases inv.sound entry with rfl | here
  · exact absurd positive (Nat.lt_irrefl 0)
  · obtain ⟨data', _, past, _, tracked⟩ := inv.tracked fieldName known clientRank inside
    have same : data' = data := Option.some.inj (tracked.entry.symm.trans here)
    subst same
    exact ⟨here, past, tracked.memory.replay positive⟩

theorem saveable_of_tracked (inv : AllTracked codec study vectSize events life) :
    Saveable codec study life.server := by
  refine ⟨inv.sound.options, inv.sound.commData, ?_, ?_⟩
  · intro fieldName known clientRank inside
    obtain ⟨data, _, _, _, tracked⟩ := inv.tracked fieldName known clientRank inside
    exact ⟨data, isEntry_of_entryAt tracked.entry⟩
  · intro fieldName known clientRank inside data entry positive
    obtain ⟨_, past, replay⟩ := replay_of_isEntry inv known inside entry positive
    exact replay.sized

/-- As long as the files are those of `previous`, what they record is in memory. -/
theorem grown_of_tracked (unbounded : ∀ n, codec.Fits n) {previous : Server D}
    (saveable : Saveable codec study previous)
    (holds : Holds codec study previous life.disk)
    (inv : AllTracked codec study vectSize events life) :
    Grown study previous life.server := by
  intro fieldName known clientRank inside new entry positive
  obtain ⟨old, entry', file⟩ := holds.structures fieldName known clientRank inside
  refine ⟨old, entry', ?_⟩
  intro some_saved s t below set
  have recorded : Recorded codec 0 study life.disk fieldName clientRank s t := by
    have sized := saveable.sized fieldName known clientRank inside old entry'
    have back := (givesBack_of_file (unbounded 0) file sized 0).1 some_saved
    rw [Recorded, savedVectSize_eq unbounded file]
    exact ⟨some_saved, _, back, by rw [bitOf_restored, set]⟩
  obtain ⟨here, _, replay⟩ := replay_of_isEntry inv known inside entry positive
  have keeps := (keeps_iff_recorded unbounded 0 below
    (inv.tracked fieldName known clientRank inside)).mpr recorded
  exact (keeps.2 new here replay.statsInit).1

/-- Only a checkpoint changes the files. -/
theorem disk_step {tempSize : Nat} {event : LifeEvent D} (other : ∀ now, event ≠ .checkpoint now)
    (taken : lifeStep codec tempSize study life event = some life') : life'.disk = life.disk := by
  cases event with
  | pass event =>
      obtain ⟨server, _, rfl⟩ := Option.map_eq_some_iff.mp taken
      rfl
  | checkpoint now => exact absurd rfl (other now)
  | restart others =>
      obtain ⟨server, _, rfl⟩ := Option.map_eq_some_iff.mp taken
      rfl

/-- A run up to a checkpoint of `previous`, and on to a state `next` without another one. -/
structure LastCheckpoint (tempSize : Nat) (study : Study D) (vectSize : String → Nat → Nat)
    (before between : List (LifeEvent D)) (now : ℚ) (previous next : Life D (Cell D)) : Prop where
  consistent : ∀ fieldName clientRank, Consistent study (vectSize fieldName clientRank)
    fieldName clientRank (before ++ .checkpoint now :: between)
  reached : run (lifeStep (exactCodec D) tempSize study) (firstLife study) before = some previous
  due : checkpointDue previous.server now = true
  onward : run (lifeStep (exactCodec D) tempSize study)
    (checkpointRound (exactCodec D) previous now) between = some next
  last : ∀ later, .checkpoint later ∉ between

/-- Whatever a rank has lived through: when it dies in the middle of a checkpoint, a restart finds
the previous or the new state of every structure whose file was not cut off. -/
theorem checkpointSurvives (tempSize : Nat) (study : Study D) (vectSize : String → Nat → Nat)
    (before between : List (LifeEvent D)) (now : ℚ) (previous next : Life D (Cell D)) (k : Nat)
    (between_checkpoints :
      LastCheckpoint tempSize study vectSize before between now previous next) :
    Survives (exactCodec D) tempSize study previous.server next.server
      (interrupted (exactCodec D) next.server next.disk k)
      (cutFile (checkpointFiles (exactCodec D) next.server) k) := by
  obtain ⟨consistent, reached, due, onward, last⟩ := between_checkpoints
  have unbounded : ∀ n, (exactCodec D).Fits n := fun _ => trivial
  have preserved (life : Life D (Cell D)) (event : LifeEvent D)
      (member : event ∈ before ++ .checkpoint now :: between) (life' : Life D (Cell D))
      (inv : AllTracked (exactCodec D) study vectSize (before ++ .checkpoint now :: between) life)
      (taken : lifeStep (exactCodec D) tempSize study life event = some life') :=
    allTracked_step unbounded consistent member inv taken
  have inv : AllTracked (exactCodec D) study vectSize (before ++ .checkpoint now :: between)
      previous := by
    refine run_invariant_of_mem ?_ (allTracked_firstLife _ study vectSize _) reached
    intro life event member
    exact preserved life event (List.mem_append_left _ member)
  have saved := preserved previous (.checkpoint now)
    (List.mem_append_right _ List.mem_cons_self) _ inv rfl
  have inv' : AllTracked (exactCodec D) study vectSize (before ++ .checkpoint now :: between)
      next := by
    refine run_invariant_of_mem ?_ saved onward
    intro life event member
    exact preserved life event (List.mem_append_right _ (List.mem_cons_of_mem _ member))
  have unchanged (life : Life D (Cell D)) (event : LifeEvent D) (member : event ∈ between)
      (life' : Life D (Cell D))
      (same : life.disk = (checkpointRound (exactCodec D) previous now).disk)
      (taken : lifeStep (exactCodec D) tempSize study life event = some life') :
      life'.disk = (checkpointRound (exactCodec D) previous now).disk :=
    (disk_step (fun later here => last later (here ▸ member)) taken).trans same
  have files := run_invariant_of_mem unchanged rfl onward
  have saveable := saveable_of_tracked inv
  have holds : Holds (exactCodec D) study previous.server next.disk := by
    rw [files, checkpointRound, if_pos due]
    exact holds_checkpoint saveable previous.disk
  exact survives_interrupted unbounded saveable (saveable_of_tracked inv') holds
    (grown_of_tracked unbounded saveable holds inv') tempSize k

end Lives

section Example

private def twoClientStudy : Study ℚ := ⟨twoByTwo, ⟨0, 1, 2⟩, ["heat"]⟩

private def rankMessage (now : ℚ) (clientRank simuId timeStep : Nat) : LifeEvent ℚ :=
  .pass (.data now ⟨timeStep, simuId, clientRank, 1, "heat", [3]⟩ ⟨simuId, "job", [1]⟩)

/-- Client rank 0 has sent all of simulation 0 before client rank 1 starts, with simulation 1. -/
private def oneDay : List (LifeEvent ℚ) :=
  [rankMessage 1 0 0 0, rankMessage 2 0 0 1, rankMessage 3 1 1 0]

/-- The names of the fields, and the first structure of the first one. -/
private def heatBit (server : Server ℚ) : List String × Option (Nat × Bool) :=
  (server.fields.map MelissaField.name,
    (entryOf server.fields 0 0).map fun data => (data.vectSize, bitOf data 0 0))

private theorem heatBit_of_isEntry {server : Server ℚ} {data : MelissaData ℚ} {size : Nat}
    {bit : Bool} (shown : heatBit server = (["heat"], some (size, bit)))
    (entry : IsEntry server.fields "heat" 0 data) :
    data.vectSize = size ∧ bitOf data 0 0 = bit := by
  obtain ⟨names, first⟩ := Prod.mk.inj shown
  obtain ⟨fieldId, named, here⟩ := entry
  rw [names] at named
  obtain ⟨inside, _⟩ := List.getElem?_eq_some_iff.mp named
  have zero : fieldId = 0 := by simpa using inside
  subst zero
  rw [here] at first
  simpa using first

private theorem lastCheckpoint_oneDay : ∃ previous next : Life ℚ (Cell ℚ),
    LastCheckpoint 0 twoClientStudy (fun _ _ => 1) oneDay [rankMessage 11 1 1 1] 10 previous
      next := by
  have due : ((run (lifeStep (exactCodec ℚ) 0 twoClientStudy) (firstLife twoClientStudy)
      oneDay).map fun previous => checkpointDue previous.server 10) = some true := by
    decide +kernel
  have further : ((run (lifeStep (exactCodec ℚ) 0 twoClientStudy) (firstLife twoClientStudy)
      oneDay).bind fun previous => run (lifeStep (exactCodec ℚ) 0 twoClientStudy)
        (checkpointRound (exactCodec ℚ) previous 10) [rankMessage 11 1 1 1]).isSome = true := by
    decide +kernel
  obtain ⟨previous, reached, due⟩ := Option.map_eq_some_iff.mp due
  rw [reached, Option.bind_some] at further
  obtain ⟨next, onward⟩ := Option.isSome_iff_exists.mp further
  refine ⟨previous, next, ?_, reached, due, onward, by simp [rankMessage]⟩
  apply consistent_of_sizes
  · intro now m reply sent
    simp only [oneDay, rankMessage, List.cons_append, List.nil_append, List.mem_cons,
      List.not_mem_nil, or_false, reduceCtorEq, false_or, LifeEvent.pass.injEq,
      Event.data.injEq] at sent
    rcases sent with ⟨_, rfl, _⟩ | ⟨_, rfl, _⟩ | ⟨_, rfl, _⟩ | ⟨_, rfl, _⟩
    · rfl
    · rfl
    · rfl
    · rfl
  · intro others sent
    simp [oneDay, rankMessage] at sent

/-- The file is truncated and not written yet. -/
private theorem lost_oneDay {previous next : Life ℚ (Cell ℚ)} {data : MelissaData ℚ}
    (last : LastCheckpoint 0 twoClientStudy (fun _ _ => 1) oneDay [rankMessage 11 1 1 1] 10 previous
      next)
    (entry : IsEntry previous.server.fields "heat" 0 data ∨
      IsEntry next.server.fields "heat" 0 data) :
    ¬ GivesBack (exactCodec ℚ) 0 twoClientStudy
      (interrupted (exactCodec ℚ) next.server next.disk 1) "heat" 0 data := by
  rintro ⟨back, _⟩
  have reached := last.reached
  have onward := last.onward
  have saved : ((run (lifeStep (exactCodec ℚ) 0 twoClientStudy) (firstLife twoClientStudy)
      oneDay).bind fun previous => (run (lifeStep (exactCodec ℚ) 0 twoClientStudy)
        (checkpointRound (exactCodec ℚ) previous 10) [rankMessage 11 1 1 1]).map fun next =>
          (heatBit previous.server, heatBit next.server)) =
      some ((["heat"], some (1, true)), (["heat"], some (1, true))) := by
    decide +kernel
  have lost : ((run (lifeStep (exactCodec ℚ) 0 twoClientStudy) (firstLife twoClientStudy)
      oneDay).bind fun previous => (run (lifeStep (exactCodec ℚ) 0 twoClientStudy)
        (checkpointRound (exactCodec ℚ) previous 10) [rankMessage 11 1 1 1]).bind fun next =>
          (readSavedStats (exactCodec ℚ) 0 twoClientStudy.options.restarted 0
            (interrupted (exactCodec ℚ) next.server next.disk 1) "heat" 0
            (melissaInitData twoByTwo emptyData 1)).map fun back => bitOf back 0 0) =
      some false := by
    decide +kernel
  rw [reached, Option.bind_some, onward] at saved lost
  obtain ⟨old, new⟩ := Prod.mk.inj (Option.some.inj saved)
  have known : data.vectSize = 1 ∧ bitOf data 0 0 = true := by
    rcases entry with entry | entry
    · exact heatBit_of_isEntry old entry
    · exact heatBit_of_isEntry new entry
  have whole := back (by rw [known.1]; decide)
  rw [known.1] at whole
  rw [Option.bind_some] at lost
  have none_left : (some (restored twoClientStudy.options data)).map (fun back => bitOf back 0 0) =
      some false := by
    rw [← whole]
    exact lost
  rw [Option.map_some, bitOf_restored, known.2] at none_left
  cases none_left

/-- Simulation 0 was finished before client rank 1 sent anything of it. -/
private theorem missing_oneDay {previous next : Life ℚ (Cell ℚ)}
    (last : LastCheckpoint 0 twoClientStudy (fun _ _ => 1) oneDay [rankMessage 11 1 1 1] 10 previous
      next) :
    FinishedButMissing (exactCodec ℚ) 0 twoClientStudy []
      (interrupted (exactCodec ℚ) next.server next.disk 0) "heat" 1 0 := by
  have reached := last.reached
  have onward := last.onward
  have files : ((run (lifeStep (exactCodec ℚ) 0 twoClientStudy) (firstLife twoClientStudy)
      oneDay).bind fun previous => (run (lifeStep (exactCodec ℚ) 0 twoClientStudy)
        (checkpointRound (exactCodec ℚ) previous 10) [rankMessage 11 1 1 1]).bind fun next =>
          let disk := interrupted (exactCodec ℚ) next.server next.disk 0
          (readSimuStates (D := ℚ) (exactCodec ℚ) 0 [] 0 disk).bind fun simulations =>
            (readSavedStats (exactCodec ℚ) 0 twoClientStudy.options.restarted 0 disk "heat" 1
              (melissaInitData twoByTwo emptyData 1)).map fun back =>
                ((simulations.map Simulation.status).getD 0 0,
                  savedVectSize (exactCodec ℚ) disk (fileName "heat" 0 1), bitOf back 0 1)) =
      some (2, 1, false) := by
    decide +kernel
  rw [reached, Option.bind_some, onward, Option.bind_some] at files
  obtain ⟨simulations, states, files⟩ := Option.bind_eq_some_iff.mp files
  obtain ⟨back, read, shown⟩ := Option.map_eq_some_iff.mp files
  simp only [Prod.mk.injEq] at shown
  obtain ⟨finished, size, unset⟩ := shown
  refine ⟨⟨simulations, states, by rw [finished]⟩, ?_⟩
  simp only [twoClientStudy] at size ⊢
  rw [size]
  exact ⟨by decide, back, read, 1, by decide, unset⟩

/-- A file that has been truncated gives back neither state, and a simulation is finished without
the data of the client rank that started late. -/
theorem not_checkpointSurvives_oneDay :
    (¬ ∀ (tempSize : Nat) (study : Study ℚ) (vectSize : String → Nat → Nat)
      (before between : List (LifeEvent ℚ)) (now : ℚ) (previous next : Life ℚ (Cell ℚ)) (k : Nat),
      LastCheckpoint tempSize study vectSize before between now previous next →
      ∀ fieldName ∈ study.names, ∀ clientRank < study.commData.clientCommSize,
        ∃ data, (IsEntry previous.server.fields fieldName clientRank data ∨
            IsEntry next.server.fields fieldName clientRank data) ∧
          GivesBack (exactCodec ℚ) tempSize study
            (interrupted (exactCodec ℚ) next.server next.disk k) fieldName clientRank data) ∧
    ¬ ∀ (tempSize : Nat) (study : Study ℚ) (vectSize : String → Nat → Nat)
      (before between : List (LifeEvent ℚ)) (now : ℚ) (previous next : Life ℚ (Cell ℚ)) (k : Nat),
      LastCheckpoint tempSize study vectSize before between now previous next →
      ∀ fieldName ∈ study.names, ∀ clientRank < study.commData.clientCommSize,
        ∀ others simuId,
          ¬ FinishedButMissing (exactCodec ℚ) tempSize study others
            (interrupted (exactCodec ℚ) next.server next.disk k) fieldName clientRank simuId := by
  obtain ⟨previous, next, last⟩ := lastCheckpoint_oneDay
  constructor
  · intro always
    obtain ⟨data, entry, back⟩ := always 0 twoClientStudy (fun _ _ => 1) oneDay
      [rankMessage 11 1 1 1] 10 previous next 1 last "heat" (by decide) 0 (by decide)
    exact lost_oneDay last entry back
  · intro never
    exact never 0 twoClientStudy (fun _ _ => 1) oneDay [rankMessage 11 1 1 1] 10 previous next 0
      last "heat" (by decide) 1 (by decide) [] 0 (missing_oneDay last)

/-- The file of client rank 0 is cut off, the one of client rank 1 is the previous one. -/
theorem checkpointSurvives_oneDay : ∃ previous next : Life ℚ (Cell ℚ),
    Survives (exactCodec ℚ) 0 twoClientStudy previous.server next.server
      (interrupted (exactCodec ℚ) next.server next.disk 3)
      (cutFile (checkpointFiles (exactCodec ℚ) next.server) 3) ∧
    cutFile (checkpointFiles (exactCodec ℚ) next.server) 3 = some (fileName "heat" 0 0) := by
  obtain ⟨previous, next, last⟩ := lastCheckpoint_oneDay
  refine ⟨previous, next, checkpointSurvives 0 twoClientStudy (fun _ _ => 1) oneDay
    [rankMessage 11 1 1 1] 10 previous next 3 last, ?_⟩
  have cut : ((run (lifeStep (exactCodec ℚ) 0 twoClientStudy) (firstLife twoClientStudy)
      oneDay).bind fun previous => (run (lifeStep (exactCodec ℚ) 0 twoClientStudy)
        (checkpointRound (exactCodec ℚ) previous 10) [rankMessage 11 1 1 1]).map fun next =>
          cutFile (checkpointFiles (exactCodec ℚ) next.server) 3) =
      some (some (fileName "heat" 0 0)) := by
    decide +kernel
  rw [last.reached, Option.bind_some, last.onward] at cut
  exact Option.some.inj cut

end Example

end Melissa
