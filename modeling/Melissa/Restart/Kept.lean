import Melissa.Io.RoundTrip
import Melissa.Restart.Life
import Melissa.Restart.Replay
import Melissa.Server.Ready

/-! What survives the deaths of a server rank: the messages recorded in a checkpoint, followed
through the structure in memory and its file. -/

namespace Melissa

open Files Runs

section Address

variable {D B : Type}

/-- The structure that the messages of a field and a client rank are computed in. -/
def entryAt (server : Server D) (fieldName : String) (clientRank : Nat) : Option (MelissaData D) :=
  (getFieldId server.fields fieldName).bind fun fieldId => entryOf server.fields fieldId clientRank

/-- The structure whose values a checkpoint leaves in a file. Two fields of one name share their
files, and the last one is written last. -/
def writtenEntry (fields : List (MelissaField D)) (fieldName : String) (clientRank : Nat) :
    Option (MelissaData D) :=
  fields.reverse.findSome? fun field =>
    if field.name = fieldName then field.statsData[clientRank]? else none

/-- A structure of a field of this name. -/
def IsEntry (fields : List (MelissaField D)) (fieldName : String) (clientRank : Nat)
    (data : MelissaData D) : Prop :=
  ∃ fieldId, (fields.map MelissaField.name)[fieldId]? = some fieldName ∧
    entryOf fields fieldId clientRank = some data

/-- `vect_size` as the file of a structure begins with it. -/
def savedVectSize (codec : Codec D B) (disk : Disk B) (name : String) : Nat :=
  (((disk name).bind (freadInt codec 0)).map Prod.fst).getD 0

theorem getFieldId_spec {fields : List (MelissaField D)} {fieldName : String} {fieldId : Nat}
    (known : getFieldId fields fieldName = some fieldId) :
    (fields.map MelissaField.name)[fieldId]? = some fieldName := by
  obtain ⟨inside, here, _⟩ := List.findIdx?_eq_some_iff_getElem.mp known
  simpa [inside] using here

theorem getFieldId_injective {fields : List (MelissaField D)} {fieldName fieldName' : String}
    {fieldId : Nat} (known : getFieldId fields fieldName = some fieldId)
    (known' : getFieldId fields fieldName' = some fieldId) : fieldName = fieldName' := by
  have same := (getFieldId_spec known).symm.trans (getFieldId_spec known')
  exact Option.some.inj same

theorem entryAt_emptyFields {study : Study D} {fieldName : String} {clientRank : Nat}
    (known : fieldName ∈ study.names)
    (inside : clientRank < study.commData.clientCommSize) {server : Server D}
    (fields : server.fields = study.names.map (emptyField study.commData.clientCommSize)) :
    entryAt server fieldName clientRank = some emptyData := by
  have found : ∃ fieldId, getFieldId server.fields fieldName = some fieldId := by
    rw [← Option.isSome_iff_exists, getFieldId, List.findIdx?_isSome, fields, List.any_map]
    simpa [emptyField] using known
  obtain ⟨fieldId, found⟩ := found
  have place := getFieldId_spec found
  obtain ⟨bound, _⟩ := List.getElem?_eq_some_iff.mp place
  rw [entryAt, found, Option.bind_some, fields, entryOf_emptyFields, if_pos]
  refine ⟨?_, inside⟩
  rw [fields] at bound
  simpa using bound

theorem isEntry_of_entryAt {server : Server D} {fieldName : String} {clientRank : Nat}
    {data : MelissaData D} (entry : entryAt server fieldName clientRank = some data) :
    IsEntry server.fields fieldName clientRank data := by
  obtain ⟨fieldId, known, present⟩ := Option.bind_eq_some_iff.mp entry
  exact ⟨fieldId, getFieldId_spec known, present⟩

theorem isEntry_of_mem {fields : List (MelissaField D)} {field : MelissaField D} {clientRank : Nat}
    {data : MelissaData D} (member : field ∈ fields)
    (here : field.statsData[clientRank]? = some data) :
    IsEntry fields field.name clientRank data := by
  obtain ⟨fieldId, found⟩ := List.mem_iff_getElem?.mp member
  exact ⟨fieldId, by rw [List.getElem?_map, found]; rfl, by rw [entryOf, found]; exact here⟩

theorem writtenEntry_mem {fields : List (MelissaField D)} {fieldName : String} {clientRank : Nat}
    {data : MelissaData D} (written : writtenEntry fields fieldName clientRank = some data) :
    IsEntry fields fieldName clientRank data := by
  obtain ⟨field, member, here⟩ := List.exists_of_findSome?_eq_some written
  split at here
  · rename_i named
    rw [← named]
    exact isEntry_of_mem (List.mem_reverse.mp member) here
  · cases here

theorem writtenEntry_isSome {fields : List (MelissaField D)} {fieldName : String}
    {clientRank : Nat} {data : MelissaData D}
    (entry : IsEntry fields fieldName clientRank data) :
    ∃ data', writtenEntry fields fieldName clientRank = some data' := by
  obtain ⟨fieldId, place, present⟩ := entry
  obtain ⟨field, found, here⟩ := Option.bind_eq_some_iff.mp present
  have named : field.name = fieldName := by
    rw [List.getElem?_map, found] at place
    exact Option.some.inj place
  rw [← Option.isSome_iff_exists, writtenEntry, List.findSome?_isSome_iff]
  refine ⟨field, List.mem_reverse.mpr (List.mem_of_getElem? found), ?_⟩
  rw [if_pos named, here]
  rfl

/-- The file of a structure after all files have been written. -/
theorem applyOps_saveStats (codec : Codec D B) (options : Options D) (rank : Nat) (disk : Disk B)
    (fields : List (MelissaField D)) (fieldName : String) (clientRank : Nat) :
    applyOps disk ((fields.flatMap (saveStats codec options rank)).flatMap writeFile)
        (fileName fieldName rank clientRank) =
      match writtenEntry fields fieldName clientRank with
      | some data => some (saveData codec options data).flatten
      | none => disk (fileName fieldName rank clientRank) := by
  induction fields using List.reverseRecOn with
  | nil => rfl
  | append_singleton fields field ih =>
      rw [List.flatMap_append, List.flatMap_append, applyOps_append, List.flatMap_singleton,
        writtenEntry, List.reverse_append, List.reverse_singleton, List.singleton_append,
        List.findSome?_cons]
      by_cases own : field.name = fieldName ∧ clientRank < field.statsData.length
      · obtain ⟨rfl, inside⟩ := own
        have entry : field.statsData[clientRank]? = some (field.statsData.get ⟨_, inside⟩) := by
          simp [inside]
        rw [if_pos rfl, entry]
        exact applyOps_files_mem (saveStats_nodup codec options rank field) (mem_saveStats entry)
      · have other : fileName fieldName rank clientRank ∉
            (saveStats codec options rank field).map Prod.fst := by
          rw [saveStats_names]
          intro member
          obtain ⟨i, inside, same⟩ := List.mem_map.mp member
          obtain ⟨named, rfl⟩ := fileName_injective same
          exact own ⟨named, List.mem_range.mp inside⟩
        have skipped : (if field.name = fieldName then field.statsData[clientRank]? else none) =
            none := by
          split
          · rename_i named
            exact List.getElem?_eq_none (Nat.le_of_not_lt fun inside => own ⟨named, inside⟩)
          · rfl
        rw [applyOps_files_other other, ih, skipped]
        rfl

theorem checkpoint_entry (codec : Codec D B) (server : Server D) (disk : Disk B)
    (fieldName : String) (clientRank : Nat) :
    applyOps disk (checkpointOps codec server)
        (fileName fieldName server.commData.rank clientRank) =
      match writtenEntry server.fields fieldName clientRank with
      | some data => some (saveData codec server.options data).flatten
      | none => disk (fileName fieldName server.commData.rank clientRank) := by
  rw [checkpointOps, checkpointFiles, List.flatMap_append, applyOps_append,
    applyOps_files_other (by simpa using fileName_ne_simuFileName _ _ _ _), applyOps_saveStats]

theorem checkpoint_simulations (codec : Codec D B) (server : Server D) (disk : Disk B) :
    applyOps disk (checkpointOps codec server) (simuFileName server.commData.rank) =
      some (saveSimuStates codec server.simulations).flatten := by
  rw [checkpointOps, checkpointFiles, List.flatMap_append, applyOps_append, List.flatMap_singleton,
    applyOps_writeFile, Function.update_self]

end Address

section Memory

variable {D B : Type} [Zero D] [Add D] [Sub D] [Mul D] [Div D] [NatCast D] [IntCast D]
  [Pow D ℕ] [LT D] [DecidableLT D] [LE D] [DecidableLE D] [Libm D]

/-- A structure in memory: with statistics it is the record of the messages `past`, before it is
new. A restart may also leave it without room for values, when its file had none. -/
structure InMemory (codec : Codec D B) (options : Options D) (vectSize : Nat)
    (past : List (SimuData D)) (data : MelissaData D) : Prop where
  replay : 0 < data.vectSize →
    Replay codec options options.samplingSize.toNat vectSize past data
  fresh : data.statsInit = false → data.vectSize = 0 ∧ (0 < vectSize → data = emptyData)
  steps : data.statsInit = true → data.stepsInit = true

/-- What a file holds of a structure. -/
structure InFile (codec : Codec D B) (options : Options D) (vectSize : Nat)
    (saved : MelissaData D) (savedPast : List (SimuData D)) (file : Option (List B)) : Prop where
  bytes : file = some (saveData codec options saved).flatten ∨ file = none ∧ saved.vectSize = 0
  replay : 0 < saved.vectSize →
    Replay codec options options.samplingSize.toNat vectSize savedPast saved

variable {codec : Codec D B} {options : Options D} {vectSize : Nat}

theorem inMemory_emptyData (codec : Codec D B) (options : Options D) (vectSize : Nat) :
    InMemory codec options vectSize [] emptyData :=
  ⟨fun positive => absurd positive (Nat.lt_irrefl 0), fun _ => ⟨rfl, fun _ => rfl⟩,
    fun initialised => by cases initialised⟩

/-- `read_saved_stats` on a new structure gives back what its file holds. -/
theorem readSavedStats_saved {saved : MelissaData D} {savedPast : List (SimuData D)}
    {disk : Disk B} {fieldName : String} {rank clientRank : Nat}
    (file : InFile codec options vectSize saved savedPast
      (disk (fileName fieldName rank clientRank))) (some_saved : 0 < saved.vectSize)
    (tempSize : Nat) :
    readSavedStats codec tempSize options.restarted rank disk fieldName clientRank
      (melissaInitData options emptyData vectSize) = some (restored options saved) := by
  have replay := file.replay some_saved
  rcases file.bytes with bytes | ⟨_, none_saved⟩
  · rw [← replay.size]
    exact readSavedStats_of_file bytes replay.sized some_saved tempSize
  · omega

/-- Without statistics in the file, or without a file, there is nothing to give back. -/
theorem readSavedStats_empty (unbounded : ∀ n, codec.Fits n) {data saved loaded : MelissaData D}
    {savedPast : List (SimuData D)} {disk : Disk B} {fieldName : String}
    {rank clientRank tempSize : Nat}
    (file : InFile codec options vectSize saved savedPast
      (disk (fileName fieldName rank clientRank))) (none_saved : saved.vectSize = 0)
    (read : readSavedStats codec tempSize options.restarted rank disk fieldName clientRank data =
      some loaded) : loaded = { data with vectSize := 0 } ∨ loaded = data := by
  rcases file.bytes with bytes | ⟨missing, _⟩
  · have empty := readSavedStats_of_emptyFile (unbounded 0) bytes none_saved tempSize data
    exact Or.inl (Option.some.inj (read.symm.trans empty))
  · rw [readSavedStats, missing] at read
    exact Or.inr (Option.some.inj read).symm

theorem inMemory_new (unbounded : ∀ n, codec.Fits n) (positive : 0 < vectSize) :
    InMemory codec options vectSize [] (melissaInitData options emptyData vectSize) := by
  have replay := replay_melissaInitData unbounded options rfl positive
  refine ⟨fun _ => replay, ?_, fun _ => replay.stepsInit⟩
  intro absent
  rw [replay.statsInit] at absent
  cases absent

theorem inMemory_emptyFile (unbounded : ∀ n, codec.Fits n) (positive : 0 < vectSize)
    {loaded saved : MelissaData D} {savedPast : List (SimuData D)} {disk : Disk B}
    {rank clientRank tempSize : Nat} {fieldName : String}
    (file : InFile codec options vectSize saved savedPast
      (disk (fileName fieldName rank clientRank))) (noneSaved : saved.vectSize = 0)
    (read : readSavedStats codec tempSize options.restarted rank disk fieldName clientRank
      (melissaInitData options emptyData vectSize) = some loaded) :
    InMemory codec options vectSize [] loaded ∧ loaded.statsInit = true := by
  have start := melissaInitData_eq options positive
  rcases readSavedStats_empty unbounded file noneSaved read with rfl | rfl
  · refine ⟨⟨fun room => absurd room (Nat.lt_irrefl 0), ?_, ?_⟩, ?_⟩
    · intro absent
      rw [start] at absent
      cases absent
    · exact fun _ => by rw [start]
    · rw [start]
  · exact ⟨inMemory_new unbounded positive, by rw [start]⟩

/-- An empty message makes room for bits only. -/
theorem inMemory_silent {past : List (SimuData D)} {data loaded : MelissaData D}
    (memory : InMemory codec options 0 past data) (initialised : data.statsInit = false)
    {restored : MelissaData D → Option (MelissaData D)} {given : Options D}
    (load : lazyInit restored given data 0 = some loaded) :
    InMemory codec options 0 past loaded := by
  obtain ⟨none_yet, _⟩ := memory.fresh initialised
  have same := lazyInit_silent initialised none_yet load
  refine ⟨?_, ?_, ?_⟩
  · intro positive
    rw [same.1] at positive
    exact absurd positive (Nat.lt_irrefl 0)
  · exact fun _ => ⟨same.1, fun positive => absurd positive (Nat.lt_irrefl 0)⟩
  · intro absent
    rw [same.2] at absent
    cases absent

/-- After a restart memory holds what the file has. -/
theorem inMemory_restarted (unbounded : ∀ n, codec.Fits n) (positive : 0 < vectSize)
    {loaded saved : MelissaData D} {savedPast : List (SimuData D)} {disk : Disk B}
    {rank clientRank tempSize : Nat} {fieldName : String}
    (file : InFile codec options vectSize saved savedPast
      (disk (fileName fieldName rank clientRank)))
    (read : readSavedStats codec tempSize options.restarted rank disk fieldName clientRank
      (melissaInitData options emptyData vectSize) = some loaded) :
    ∃ past', InMemory codec options vectSize past' loaded ∧ loaded.statsInit = true ∧
      (∀ m ∈ past', m ∈ savedPast) ∧
      (0 < saved.vectSize → 0 < loaded.vectSize ∧ ∀ m ∈ savedPast, m ∈ past') := by
  rcases Nat.eq_zero_or_pos saved.vectSize with none_saved | some_saved
  · have memory := inMemory_emptyFile unbounded positive file none_saved read
    exact ⟨[], memory.1, memory.2, by simp, fun some_saved => by omega⟩
  · have whole := readSavedStats_saved file some_saved tempSize
    cases Option.some.inj (whole.symm.trans read)
    have replay := replay_restored unbounded rfl (file.replay some_saved)
    refine ⟨savedPast, ⟨fun _ => replay, ?_, fun _ => rfl⟩, rfl, fun m member => member,
      fun _ => ⟨some_saved, fun m member => member⟩⟩
    intro absent
    cases absent

/-- Initialisation by a message: what the file holds is in memory afterwards. -/
theorem load_cases (unbounded : ∀ n, codec.Fits n) {restart : Nat} (start : restart ≤ 1)
    {data loaded saved : MelissaData D} {past savedPast : List (SimuData D)} {disk : Disk B}
    {rank clientRank tempSize : Nat} {fieldName : String}
    (memory : InMemory codec options vectSize past data)
    (file : InFile codec options vectSize saved savedPast
      (disk (fileName fieldName rank clientRank)))
    (kept : 0 < saved.vectSize → data.statsInit = true →
      0 < data.vectSize ∧ ∀ m ∈ savedPast, m ∈ past)
    (resident : restart = 0 → 0 < saved.vectSize → data.statsInit = true)
    (load : lazyInit
      (readSavedStats codec tempSize { options with restart := restart } rank disk fieldName
        clientRank) { options with restart := restart } data vectSize = some loaded) :
    ∃ past', InMemory codec options vectSize past' loaded ∧
      (0 < vectSize → loaded.statsInit = true) ∧
      (∀ m ∈ past', m ∈ past ∨ m ∈ savedPast) ∧
      (0 < saved.vectSize → 0 < loaded.vectSize ∧ ∀ m ∈ savedPast, m ∈ past') := by
  cases initialised : data.statsInit with
  | true =>
      have unchanged : loaded = data := by
        simp only [lazyInit, initialised, memory.steps initialised, Bool.true_eq_false, false_and,
          if_false, Option.some.injEq] at load
        exact load.symm
      subst unchanged
      exact ⟨past, memory, fun _ => initialised, fun m member => Or.inl member,
        fun some_saved => kept some_saved initialised⟩
  | false =>
      rcases Nat.eq_zero_or_pos vectSize with silent | positive
      · -- the file holds no values either
        subst silent
        refine ⟨past, inMemory_silent memory initialised load,
          fun positive => absurd positive (Nat.lt_irrefl 0), fun m member => Or.inl member, ?_⟩
        intro some_saved
        rw [(file.replay some_saved).size] at some_saved
        exact absurd some_saved (Nat.lt_irrefl 0)
      · have empty := (memory.fresh initialised).2 positive
        subst empty
        replace load := lazyInit_passed load
        rw [if_pos ⟨initialised, positive⟩] at load
        by_cases first : restart = 0
        · -- in the first life there is nothing to read
          subst first
          cases load
          refine ⟨[], inMemory_new unbounded positive, fun _ => ?_, by simp, ?_⟩
          · exact (replay_melissaInitData unbounded _ rfl positive).statsInit
          · intro some_saved
            have contradiction := resident rfl some_saved
            rw [initialised] at contradiction
            cases contradiction
        · have again : restart = 1 := by omega
          subst again
          change readSavedStats codec tempSize options.restarted rank disk fieldName clientRank
            (melissaInitData options emptyData vectSize) = some loaded at load
          obtain ⟨past', memory', present, known, whole⟩ :=
            inMemory_restarted unbounded positive file load
          exact ⟨past', memory', fun _ => present, fun m member => Or.inr (known m member), whole⟩

end Memory

section Sound

variable {D B : Type}

/-- What every state that lives of one study reach has in common. -/
structure Sound (codec : Codec D B) (study : Study D) (life : Life D B) : Prop where
  options : life.server.options = { study.options with
    restart := life.server.options.restart
    samplingSize := life.server.options.samplingSize }
  restart : life.server.options.restart ≤ 1
  sample : life.server.options.samplingSize.toNat = study.options.samplingSize.toNat
  simulations : life.server.simulations.length = study.options.samplingSize.toNat
  commData : life.server.commData = study.commData
  names : life.server.fields.map MelissaField.name = study.names
  places : ∀ fieldId clientRank, fieldId < study.names.length →
    clientRank < study.commData.clientCommSize →
    (entryOf life.server.fields fieldId clientRank).isSome = true
  idle : ∀ fieldId clientRank data, entryOf life.server.fields fieldId clientRank = some data →
    data = emptyData ∨
      ∃ fieldName, getFieldId life.server.fields fieldName = some fieldId
  bounded : StatusesBounded life.server
  saved : life.disk (simuFileName study.commData.rank) = none ∨
    ∃ simulations : List (Simulation D),
      simulations.length = study.options.samplingSize.toNat ∧
      (∀ simu ∈ simulations, simu.status ≤ 2) ∧
      life.disk (simuFileName study.commData.rank) =
        some (saveSimuStates codec simulations).flatten

theorem sound_firstLife (codec : Codec D B) (study : Study D) :
    Sound codec study (firstLife study) := by
  refine ⟨rfl, Nat.zero_le 1, rfl, by simp [firstLife, freshServer, startServer], rfl, ?_, ?_, ?_,
    statusesBounded_freshServer study.options study.commData study.names, Or.inl rfl⟩
  · simp [firstLife, freshServer, startServer, emptyField, Function.comp_def]
  · intro fieldId clientRank known inside
    rw [firstLife, entryOf_freshServer, if_pos ⟨known, inside⟩]
    rfl
  · intro fieldId clientRank data present
    rw [firstLife, entryOf_freshServer] at present
    split at present
    · cases present
      exact Or.inl rfl
    · cases present

/-- Of the fields of one name only the first is used. -/
theorem isEntry_cases {codec : Codec D B} {study : Study D} {life : Life D B}
    {fieldName : String} {clientRank : Nat} {data : MelissaData D}
    (sound : Sound codec study life)
    (entry : IsEntry life.server.fields fieldName clientRank data) :
    data = emptyData ∨ entryAt life.server fieldName clientRank = some data := by
  obtain ⟨fieldId, named, present⟩ := entry
  rcases sound.idle fieldId clientRank data present with unused | ⟨fieldName', known⟩
  · exact Or.inl unused
  · have same : fieldName' = fieldName :=
      Option.some.inj ((getFieldId_spec known).symm.trans named)
    subst same
    exact Or.inr (by rw [entryAt, known, Option.bind_some, present])

/-- What a checkpoint writes for a structure: the structure itself, or a new one that shares its
name. -/
theorem writtenEntry_cases {codec : Codec D B} {study : Study D} {life : Life D B}
    {fieldName : String} {clientRank : Nat} {data data' : MelissaData D}
    (sound : Sound codec study life)
    (entry : entryAt life.server fieldName clientRank = some data)
    (written : writtenEntry life.server.fields fieldName clientRank = some data') :
    data' = data ∨ data' = emptyData := by
  rcases isEntry_cases sound (writtenEntry_mem written) with unused | same
  · exact Or.inr unused
  · exact Or.inl (Option.some.inj (same.symm.trans entry))

theorem options_eq {codec : Codec D B} {study : Study D} {life : Life D B}
    (sound : Sound codec study life)
    (some_simulation : 0 < study.options.samplingSize.toNat) :
    life.server.options =
      { study.options with restart := life.server.options.restart } := by
  have sample := sound.sample
  have same : life.server.options.samplingSize = study.options.samplingSize := by omega
  have options := sound.options
  rw [same] at options
  exact options

theorem restartServer_parts {codec : Codec D B} (unbounded : ∀ n, codec.Fits n) {tempSize : Nat}
    {study : Study D} {others : List (List Nat)} {life : Life D B} {server : Server D}
    (sound : Sound codec study life)
    (sizes : ∀ statuses ∈ others, statuses.length = study.options.samplingSize.toNat)
    (started : restartServer codec tempSize study others life.disk = some server) :
    server.options = { study.options.restarted with
        samplingSize := (server.simulations.length : Int) } ∧
      server.commData = study.commData ∧
      server.fields = study.names.map (emptyField study.commData.clientCommSize) ∧
      server.simulations.length = study.options.samplingSize.toNat := by
  obtain ⟨read, states, rest⟩ := Option.bind_eq_some_iff.mp started
  cases rest
  refine ⟨rfl, rfl, rfl, ?_⟩
  rcases sound.saved with missing | ⟨simulations, number, _, saved⟩
  · rw [readSimuStates, missing] at states
    cases states
  · rw [readSimuStates_saved (unbounded _) (fun _ _ => unbounded _) saved] at states
    cases states
    simp only [startServer, List.length_map]
    exact length_reduceStatuses (by rw [List.length_map, number]) sizes

theorem statusesBounded_restarted {codec : Codec D B} (unbounded : ∀ n, codec.Fits n)
    {tempSize : Nat} {study : Study D} {others : List (List Nat)} {life : Life D B}
    {server : Server D} (sound : Sound codec study life)
    (started : restartServer codec tempSize study others life.disk = some server) :
    StatusesBounded server := by
  rcases sound.saved with missing | ⟨simulations, _, bounded, saved⟩
  · obtain ⟨read, states, _⟩ := Option.bind_eq_some_iff.mp started
    rw [readSimuStates, missing] at states
    cases states
  · exact statusesBounded_restart bounded ⟨unbounded _, fun _ _ => unbounded _⟩ saved started

variable [Zero D] [Add D] [Sub D] [Mul D] [Div D] [NatCast D] [IntCast D]
  [Pow D ℕ] [LT D] [DecidableLT D] [LE D] [DecidableLE D] [Libm D]

variable {codec : Codec D B}

theorem sound_pass {restore : Restore D} {study : Study D} {life : Life D B}
    {event : Event D} {server : Server D} (sound : Sound codec study life)
    (taken : step restore life.server event = some server) :
    Sound codec study { life with server := server } := by
  have same := step_sameStudy taken
  obtain ⟨length, sample⟩ := step_sizes taken
  have restart : server.options.restart = life.server.options.restart := by rw [same.options]
  have samplingSize : server.options.samplingSize.toNat =
      study.options.samplingSize.toNat := by
    rcases sample with kept | counted
    · rw [kept, sound.sample]
    · rw [counted, Int.toNat_natCast, sound.simulations]
  refine ⟨?_, restart ▸ sound.restart, samplingSize, length.trans sound.simulations,
    same.commData.trans sound.commData, same.names.trans sound.names, ?_, ?_,
    statusesBounded_step sound.bounded taken, sound.saved⟩
  · rw [same.options, sound.options]
  · intro fieldId clientRank known inside
    rw [same.entries]
    exact sound.places fieldId clientRank known inside
  · intro fieldId clientRank data present
    have known (fieldName : String) :
        getFieldId server.fields fieldName = getFieldId life.server.fields fieldName :=
      getFieldId_sameStudy same fieldName
    simp only [known]
    rcases step_fields taken with unchanged | ⟨now, m, reply, fieldId', simu, before, loaded,
      updated, status, rfl, admitted, accepted⟩
    · rw [unchanged] at present
      exact sound.idle fieldId clientRank data present
    · rw [accepted.fields] at present
      rcases entryOf_setEntry_cases accepted.entry present with ⟨rfl, rfl, _⟩ | ⟨_, present⟩
      · exact Or.inr ⟨m.fieldName, admitted.2.2⟩
      · exact sound.idle fieldId clientRank data present

theorem sound_step (unbounded : ∀ n, codec.Fits n) {tempSize : Nat} {study : Study D}
    {life life' : Life D B} {event : LifeEvent D} (sound : Sound codec study life)
    (sizes : ∀ others, event = .restart others →
      ∀ statuses ∈ others, statuses.length = study.options.samplingSize.toNat)
    (taken : lifeStep codec tempSize study life event = some life') : Sound codec study life' := by
  cases event with
  | pass event =>
      obtain ⟨server, stepped, rfl⟩ := Option.map_eq_some_iff.mp taken
      exact sound_pass sound stepped
  | checkpoint now =>
      cases taken
      unfold checkpointRound
      split
      · refine ⟨sound.options, sound.restart, sound.sample, sound.simulations, sound.commData,
          sound.names, sound.places, sound.idle, sound.bounded,
          Or.inr ⟨_, sound.simulations, statusesBounded_iff.mp sound.bounded, ?_⟩⟩
        rw [← sound.commData]
        exact checkpoint_simulations codec life.server life.disk
      · exact sound
  | restart others =>
      obtain ⟨server, started, rfl⟩ := Option.map_eq_some_iff.mp taken
      obtain ⟨options, commData, fields, number⟩ :=
        restartServer_parts unbounded sound (sizes others rfl) started
      have places (fieldId clientRank : Nat) :=
        entryOf_emptyFields (D := D) study.commData.clientCommSize study.names fieldId clientRank
      refine ⟨by rw [options]; rfl, by rw [options]; exact Nat.le_refl 1, ?_, number, commData, ?_,
        ?_, ?_, statusesBounded_restarted unbounded sound started, sound.saved⟩
      · rw [options, ← number]
        rfl
      · simp [fields, emptyField, Function.comp_def]
      · intro fieldId clientRank known inside
        rw [fields, places, if_pos ⟨known, inside⟩]
        rfl
      · intro fieldId clientRank data present
        rw [fields, places] at present
        split at present
        · cases present
          exact Or.inl rfl
        · cases present

end Sound

section Tracked

variable {D B : Type} [Zero D] [Add D] [Sub D] [Mul D] [Div D] [NatCast D] [IntCast D]
  [Pow D ℕ] [LT D] [DecidableLT D] [LE D] [DecidableLE D] [Libm D]

/-- A structure and its file as records of messages: what the file holds is in memory as soon as
the structure has statistics, and in the first life it never was elsewhere. -/
structure Tracked (codec : Codec D B) (study : Study D) (vectSize : Nat) (fieldName : String)
    (clientRank : Nat) (messages : List (SimuData D)) (life : Life D B) (data saved : MelissaData D)
    (past savedPast : List (SimuData D)) : Prop where
  entry : entryAt life.server fieldName clientRank = some data
  memory : InMemory codec study.options vectSize past data
  file : InFile codec study.options vectSize saved savedPast
    (life.disk (fileName fieldName study.commData.rank clientRank))
  received : ∀ m ∈ past, m ∈ messages
  savedReceived : ∀ m ∈ savedPast, m ∈ messages
  kept : 0 < saved.vectSize → data.statsInit = true →
    0 < data.vectSize ∧ ∀ m ∈ savedPast, m ∈ past
  resident : life.server.options.restart = 0 → 0 < saved.vectSize → data.statsInit = true

variable {codec : Codec D B} {study : Study D} {vectSize clientRank : Nat} {fieldName : String}
  {messages : List (SimuData D)} {life : Life D B} {data saved : MelissaData D}
  {past savedPast : List (SimuData D)}

theorem tracked_firstLife (codec : Codec D B) (vectSize : Nat) (messages : List (SimuData D))
    (known : fieldName ∈ study.names) (inside : clientRank < study.commData.clientCommSize) :
    Tracked codec study vectSize fieldName clientRank messages (firstLife study) emptyData emptyData
      [] [] := by
  have nothing : ¬ 0 < (emptyData : MelissaData D).vectSize := Nat.lt_irrefl 0
  exact ⟨entryAt_emptyFields known inside rfl, inMemory_emptyData codec study.options vectSize,
    ⟨Or.inr ⟨rfl, rfl⟩, fun positive => absurd positive nothing⟩, by simp, by simp,
    fun positive => absurd positive nothing, fun _ positive => absurd positive nothing⟩

/-- A message goes to the record of what is in memory. -/
theorem inMemory_accumulate (unbounded : ∀ n, codec.Fits n) {options : Options D}
    {loaded updated : MelissaData D} {m : SimuData D}
    (memory : InMemory codec options m.vectSize past loaded)
    (statsInit : 0 < m.vectSize → loaded.statsInit = true) (valid : 0 ≤ m.timeStamp)
    (below : m.timeStamp.toNat < options.nbTimeSteps)
    (update : accumulate options loaded m = some updated) :
    InMemory codec options m.vectSize (past ++ [m]) updated := by
  obtain ⟨size', statsInit', stepsInit'⟩ := accumulate_frame update
  refine ⟨?_, ?_, ?_⟩
  · intro positive
    have replay := memory.replay (by rw [← size']; exact positive)
    refine replay_accumulate unbounded replay ?_ valid below update
    rw [← replay.size, ← size']
    exact positive
  · intro absent
    rw [statsInit'] at absent
    have silent : ¬ 0 < m.vectSize := by
      intro positive
      rw [statsInit positive] at absent
      cases absent
    exact ⟨by rw [size', (memory.fresh absent).1], fun positive => absurd positive silent⟩
  · rw [statsInit', stepsInit']
    exact memory.steps

/-- A message of the structure itself. -/
theorem tracked_accepted (unbounded : ∀ n, codec.Fits n) {tempSize status fieldId : Nat}
    {server : Server D} {m : SimuData D} {reply : Job D} {simu : Simulation D}
    {loaded updated : MelissaData D} (sound : Sound codec study life)
    (tracked : Tracked codec study vectSize m.fieldName m.clientRank messages life data saved past
      savedPast)
    (size : m.vectSize = vectSize) (sent : m ∈ messages)
    (admitted : Admitted life.server m fieldId)
    (accepted : Accepted (readSavedStats codec tempSize life.server.options
      life.server.commData.rank life.disk) life.server m reply fieldId server simu data loaded
        updated status) :
    ∃ past', Tracked codec study vectSize m.fieldName m.clientRank messages
      { life with server := server } updated saved past' savedPast := by
  obtain ⟨entry, memory, file, received, savedReceived, kept, resident⟩ := tracked
  obtain ⟨valid, below, known⟩ := admitted
  obtain ⟨inside, _⟩ := List.getElem?_eq_some_iff.mp accepted.simulation
  have options := options_eq sound (by rw [← sound.simulations]; omega)
  have sameFields : server.fields.map MelissaField.name =
      life.server.fields.map MelissaField.name := by rw [accepted.fields, map_name_setEntry]
  have load := accepted.load
  have update := accepted.update
  rw [options, size, sound.commData] at load
  rw [options] at update below
  obtain ⟨past', memory', statsInit, fromWhere, some_kept⟩ :=
    load_cases unbounded sound.restart memory file kept resident load
  obtain ⟨size', statsInit', _⟩ := accumulate_frame update
  have grown : InMemory codec study.options vectSize (past' ++ [m]) updated := by
    subst size
    exact inMemory_accumulate unbounded memory' statsInit valid below update
  refine ⟨past' ++ [m], ?_, grown, file, ?_, savedReceived, ?_, ?_⟩
  · rw [entryAt, getFieldId_eq_of_names sameFields, known, Option.bind_some, accepted.fields]
    exact entryOf_setEntry_same accepted.entry updated
  · intro m' member
    rcases List.mem_append.mp member with earlier | last
    · rcases fromWhere m' earlier with before | restored
      · exact received m' before
      · exact savedReceived m' restored
    · rw [List.mem_singleton.mp last]
      exact sent
  · intro some_saved _
    obtain ⟨room, all⟩ := some_kept some_saved
    exact ⟨by rw [size']; exact room, fun m' member => List.mem_append_left _ (all m' member)⟩
  · intro _ some_saved
    have positive : 0 < vectSize := by
      rw [← (file.replay some_saved).size]
      exact some_saved
    rw [statsInit', statsInit positive]

/-- The structure is followed by some messages. -/
def IsTracked (codec : Codec D B) (study : Study D) (vectSize : Nat) (fieldName : String)
    (clientRank : Nat) (messages : List (SimuData D)) (life : Life D B) : Prop :=
  ∃ data saved past savedPast,
    Tracked codec study vectSize fieldName clientRank messages life data saved past savedPast

/-- What a message of the structure has to be. -/
def Arrives (vectSize : Nat) (fieldName : String) (clientRank : Nat)
    (messages : List (SimuData D)) : LifeEvent D → Prop
  | .pass (.data _ m _) => m.fieldName = fieldName → m.clientRank = clientRank →
      m.vectSize = vectSize ∧ m ∈ messages
  | _ => True

theorem tracked_pass (unbounded : ∀ n, codec.Fits n) {tempSize : Nat} {event : Event D}
    {server : Server D} (sound : Sound codec study life)
    (tracked : IsTracked codec study vectSize fieldName clientRank messages life)
    (arrives : Arrives vectSize fieldName clientRank messages (.pass event))
    (taken : step (readSavedStats codec tempSize life.server.options life.server.commData.rank
      life.disk) life.server event = some server) :
    IsTracked codec study vectSize fieldName clientRank messages
      { life with server := server } := by
  obtain ⟨data, saved, past, savedPast, tracked⟩ := tracked
  have same := step_sameStudy taken
  have known := getFieldId_sameStudy same fieldName
  have restart : server.options.restart = life.server.options.restart := by rw [same.options]
  -- a structure that the step leaves alone
  have other (unchanged : entryAt server fieldName clientRank =
      entryAt life.server fieldName clientRank) :
      IsTracked codec study vectSize fieldName clientRank messages { life with server := server } :=
    ⟨data, saved, past, savedPast, unchanged.trans tracked.entry, tracked.memory, tracked.file,
      tracked.received, tracked.savedReceived, tracked.kept, restart ▸ tracked.resident⟩
  rcases step_fields taken with unchanged | ⟨now, m, reply, fieldId, simu, before, loaded, updated,
    status, rfl, admitted, accepted⟩
  · exact other (by rw [entryAt, entryAt, unchanged])
  · by_cases own : m.fieldName = fieldName ∧ m.clientRank = clientRank
    · obtain ⟨rfl, rfl⟩ := own
      obtain ⟨size, sent⟩ := arrives rfl rfl
      have entry := tracked.entry
      rw [entryAt, admitted.2.2, Option.bind_some, accepted.entry] at entry
      cases entry
      obtain ⟨past', tracked'⟩ :=
        tracked_accepted unbounded sound tracked size sent admitted accepted
      exact ⟨_, saved, past', savedPast, tracked'⟩
    · apply other
      rw [entryAt, entryAt, known]
      cases found : getFieldId life.server.fields fieldName with
      | none => rfl
      | some fieldId' =>
          rw [Option.bind_some, Option.bind_some, accepted.fields]
          apply entryOf_setEntry_other
          intro here
          obtain ⟨rfl, rfl⟩ := here
          exact own ⟨getFieldId_injective admitted.2.2 found, rfl⟩

/-- A checkpoint writes the structure in memory, or one that shares its name. -/
theorem tracked_checkpoint {data' : MelissaData D} {now : ℚ} (sound : Sound codec study life)
    (tracked : Tracked codec study vectSize fieldName clientRank messages life data saved past
      savedPast)
    (due : checkpointDue life.server now = true)
    (written : writtenEntry life.server.fields fieldName clientRank = some data') :
    Tracked codec study vectSize fieldName clientRank messages
      (checkpointRound codec life now) data data' past past := by
  have same : 0 < data'.vectSize → data' = data := by
    intro positive
    rcases writtenEntry_cases sound tracked.entry written with same | rfl
    · exact same
    · exact absurd positive (Nat.lt_irrefl 0)
  rw [checkpointRound, if_pos due]
  refine ⟨tracked.entry, tracked.memory, ⟨Or.inl ?_, ?_⟩, tracked.received, tracked.received,
    ?_, ?_⟩
  · have bytes := checkpoint_entry codec life.server life.disk fieldName clientRank
    rw [written, sound.commData, sound.options] at bytes
    exact bytes
  · intro positive
    have own := same positive
    subst own
    exact tracked.memory.replay positive
  · intro positive _
    have own := same positive
    subst own
    exact ⟨positive, fun m member => member⟩
  · intro _ positive
    have own := same positive
    subst own
    exact (tracked.memory.replay positive).statsInit

theorem tracked_step (unbounded : ∀ n, codec.Fits n) {tempSize : Nat} {event : LifeEvent D}
    {life' : Life D B} (known : fieldName ∈ study.names)
    (inside : clientRank < study.commData.clientCommSize) (sound : Sound codec study life)
    (tracked : IsTracked codec study vectSize fieldName clientRank messages life)
    (arrives : Arrives vectSize fieldName clientRank messages event)
    (sizes : ∀ others, event = .restart others →
      ∀ statuses ∈ others, statuses.length = study.options.samplingSize.toNat)
    (taken : lifeStep codec tempSize study life event = some life') :
    IsTracked codec study vectSize fieldName clientRank messages life' := by
  cases event with
  | pass event =>
      obtain ⟨server, stepped, rfl⟩ := Option.map_eq_some_iff.mp taken
      exact tracked_pass unbounded sound tracked arrives stepped
  | checkpoint now =>
      cases taken
      obtain ⟨data, saved, past, savedPast, tracked⟩ := tracked
      by_cases due : checkpointDue life.server now = true
      · obtain ⟨data', written⟩ := writtenEntry_isSome (isEntry_of_entryAt tracked.entry)
        exact ⟨data, data', past, past, tracked_checkpoint sound tracked due written⟩
      · rw [checkpointRound, if_neg due]
        exact ⟨data, saved, past, savedPast, tracked⟩
  | restart others =>
      obtain ⟨server, started, rfl⟩ := Option.map_eq_some_iff.mp taken
      obtain ⟨options, _, fields, _⟩ :=
        restartServer_parts unbounded sound (sizes others rfl) started
      obtain ⟨_, saved, _, savedPast, tracked⟩ := tracked
      refine ⟨emptyData, saved, [], savedPast, entryAt_emptyFields known inside fields,
        inMemory_emptyData codec study.options vectSize, tracked.file, by simp,
        tracked.savedReceived, ?_, ?_⟩
      · intro _ initialised
        cases initialised
      · intro first
        rw [options] at first
        cases first

end Tracked

end Melissa
