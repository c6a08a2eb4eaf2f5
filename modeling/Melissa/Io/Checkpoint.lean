import Melissa.Io.SaveStats
import Melissa.Server.Loop

/-! `save_stats` and `read_saved_stats` of `melissa_io.c`: one file per field, server rank and
client rank. -/

namespace Melissa

open Files

section Names

/-- `"%s%d_%d.data"`. -/
def fileName (fieldName : String) (rank clientRank : Nat) : String :=
  fieldName ++ toString rank ++ "_" ++ toString clientRank ++ ".data"

/-- `"simu_%d.data"`. -/
def simuFileName (rank : Nat) : String := "simu_" ++ toString rank ++ ".data"

/-- The part before the last underscore, and the digits after it. -/
private theorem split_at_underscore {front front' digits digits' : List Char}
    (clean : '_' ∉ digits) (clean' : '_' ∉ digits')
    (same : front ++ '_' :: digits = front' ++ '_' :: digits') :
    front = front' ∧ digits = digits' := by
  rcases List.append_eq_append_iff.mp same with ⟨rest, rfl, tail⟩ | ⟨rest, rfl, tail⟩
  · cases rest with
    | nil => simpa using tail
    | cons c rest =>
        simp only [List.cons_append, List.cons.injEq] at tail
        exact absurd (by simp [tail.2] : '_' ∈ digits) clean
  · cases rest with
    | nil => simpa [eq_comm] using tail
    | cons c rest =>
        simp only [List.cons_append, List.cons.injEq] at tail
        exact absurd (by simp [tail.2] : '_' ∈ digits') clean'

private theorem toList_fileName (fieldName : String) (rank clientRank : Nat) :
    (fileName fieldName rank clientRank).toList =
      (fieldName.toList ++ Nat.toDigits 10 rank ++ '_' :: Nat.toDigits 10 clientRank) ++
        ".data".toList := by
  simp [fileName, ← Nat.toList_repr]

private theorem toList_simuFileName (rank : Nat) :
    (simuFileName rank).toList =
      ("simu".toList ++ '_' :: Nat.toDigits 10 rank) ++ ".data".toList := by
  simp [simuFileName, ← Nat.toList_repr]

/-- The files of one server rank do not collide. -/
theorem fileName_injective {fieldName fieldName' : String} {rank clientRank clientRank' : Nat}
    (same : fileName fieldName rank clientRank = fileName fieldName' rank clientRank') :
    fieldName = fieldName' ∧ clientRank = clientRank' := by
  have chars := congrArg String.toList same
  rw [toList_fileName, toList_fileName, List.append_left_inj] at chars
  obtain ⟨front, digits⟩ := split_at_underscore Nat.underscore_not_in_toDigits
    Nat.underscore_not_in_toDigits chars
  rw [List.append_left_inj] at front
  have number := congrArg (fun digits => Nat.ofDigitChars 10 digits 0) digits
  simp only [Nat.ofDigitChars_ten_toDigits] at number
  exact ⟨String.toList_inj.mp front, number⟩

theorem simuFileName_injective {rank rank' : Nat} (same : simuFileName rank = simuFileName rank') :
    rank = rank' := by
  have chars := congrArg String.toList same
  rw [toList_simuFileName, toList_simuFileName, List.append_left_inj] at chars
  obtain ⟨_, digits⟩ := split_at_underscore Nat.underscore_not_in_toDigits
    Nat.underscore_not_in_toDigits chars
  have number := congrArg (fun digits => Nat.ofDigitChars 10 digits 0) digits
  simpa only [Nat.ofDigitChars_ten_toDigits] using number

theorem fileName_ne_simuFileName (fieldName : String) (rank clientRank rank' : Nat) :
    fileName fieldName rank clientRank ≠ simuFileName rank' := by
  intro same
  have chars := congrArg String.toList same
  rw [toList_fileName, toList_simuFileName, List.append_left_inj] at chars
  obtain ⟨front, _⟩ := split_at_underscore Nat.underscore_not_in_toDigits
    Nat.underscore_not_in_toDigits chars
  have last := congrArg List.getLast? front
  rw [List.getLast?_append_of_ne_nil _ Nat.toDigits_ne_nil] at last
  have member : 'u' ∈ Nat.toDigits 10 rank := List.mem_of_getLast? last
  have digit := Nat.isDigit_of_mem_toDigits (by decide) (by decide) member
  exact absurd digit (by decide)

end Names

section Save

variable {D B : Type}

/-- What `save_stats` writes into the file of one structure. -/
def saveData (codec : Codec D B) (options : Options D) (data : MelissaData D) :
    List (List B) :=
  [fwriteInt codec data.vectSize] ++
  if data.vectSize > 0 then
    data.moments.flatMap (saveMoments codec data.vectSize) ++
    (if options.minAndMaxOp then data.minMax.flatMap (saveMinMax codec data.vectSize) else []) ++
    (if options.thresholdOp then
      data.thresholds.flatMap fun row => row.flatMap (saveThreshold codec data.vectSize)
      else []) ++
    (if options.quantileOp then
      data.quantiles.flatMap fun row => row.flatMap (saveQuantile codec data.vectSize)
      else []) ++
    (if options.sobolOp then
      data.sobolIndices.flatMap (saveSobolMartinez codec data.vectSize) else []) ++
    ([fwriteInt codec data.stepSimu.length] ++
      data.stepSimu.flatMap fun bits => [fwriteWords codec (nbWords options.nbTimeSteps) bits])
  else []

/-- `save_stats`: the files it writes, in order. -/
def saveStats (codec : Codec D B) (options : Options D) (rank : Nat) (field : MelissaField D) :
    List (String × List (List B)) :=
  field.statsData.mapIdx fun i data => (fileName field.name rank i, saveData codec options data)

end Save

section Read

variable {D B : Type}

/-- The end of `read_saved_stats`, with `restart` equal to 1. `tempSize` is what the local
variable holds before it is read. -/
def readSteps (codec : Codec D B) (nbTimeSteps tempSize : Nat) (stepSimu : List (List Word)) :
    Reader B (List (List Word)) := do
  let tempSize ← freadInt codec tempSize
  (stepSimu ++ List.replicate (tempSize - stepSimu.length)
    (List.replicate (nbWords nbTimeSteps) 0#32)).mapM (freadWords codec (nbWords nbTimeSteps))

def readData [Zero D] (codec : Codec D B) (tempSize : Nat) (options : Options D)
    (data : MelissaData D) : Reader B (MelissaData D) := do
  let vectSize ← freadInt codec data.vectSize
  if vectSize > 0 then
    let moments ← data.moments.mapM (readMoments codec vectSize)
    let minMax ← readIf (options.minAndMaxOp = true)
      (data.minMax.mapM (readMinMax codec vectSize)) data.minMax
    let thresholds ← readIf (options.thresholdOp = true)
      (data.thresholds.mapM fun row => row.mapM (readThreshold codec vectSize)) data.thresholds
    let quantiles ← readIf (options.quantileOp = true)
      (data.quantiles.mapM fun row => row.mapM (readQuantile codec vectSize)) data.quantiles
    let sobolIndices ← readIf (options.sobolOp = true)
      (data.sobolIndices.mapM (readSobolMartinez codec vectSize)) data.sobolIndices
    let stepSimu ← readIf (options.restart = 1)
      (readSteps codec options.nbTimeSteps tempSize data.stepSimu) data.stepSimu
    pure { data with
      vectSize := vectSize, moments := moments, minMax := minMax, thresholds := thresholds
      quantiles := quantiles, sobolIndices := sobolIndices, stepSimu := stepSimu }
  else pure { data with vectSize := vectSize }

/-- `read_saved_stats`. Without a file the structure stays as it is. -/
def readSavedStats [Zero D] (codec : Codec D B) (tempSize : Nat) (options : Options D)
    (rank : Nat) (disk : Disk B) : Restore D :=
  fun fieldName clientRank data =>
    match disk (fileName fieldName rank clientRank) with
    | none => some data
    | some file => (readData codec tempSize options data file).map Prod.fst

end Read

section RoundTrip

variable {D B : Type}

/-- The sizes of all arrays of a structure, and the numbers in it within the range of `int`. -/
structure WellSized (codec : Codec D B) (options : Options D) (data : MelissaData D) : Prop where
  fits : codec.Fits data.vectSize
  moments : data.moments.length = options.nbTimeSteps
  momentsSized : ∀ moments ∈ data.moments, moments.Sized codec data.vectSize options.maxOrder
  minMax : data.minMax.length = if options.minAndMaxOp then options.nbTimeSteps else 0
  minMaxSized : ∀ minMax ∈ data.minMax, minMax.Sized codec data.vectSize
  thresholds : data.thresholds.length = if options.thresholdOp then options.nbTimeSteps else 0
  thresholdsSized : ∀ row ∈ data.thresholds, row.length = options.threshold.length ∧
    ∀ threshold ∈ row, threshold.Sized codec data.vectSize
  quantiles : data.quantiles.length = if options.quantileOp then options.nbTimeSteps else 0
  quantilesSized : ∀ row ∈ data.quantiles, row.length = options.quantileOrder.length ∧
    ∀ quantile ∈ row, quantile.Sized codec data.vectSize
  sobolIndices : data.sobolIndices.length = if options.sobolOp then options.nbTimeSteps else 0
  sobolSized : ∀ sobolArray ∈ data.sobolIndices,
    sobolArray.Sized codec options.nbParameters data.vectSize
  steps : ∀ bits ∈ data.stepSimu, bits.length = nbWords options.nbTimeSteps
  stepsFit : codec.Fits data.stepSimu.length

theorem wellSized_restarted {codec : Codec D B} {options : Options D} {data : MelissaData D}
    (sized : WellSized codec options data) : WellSized codec options.restarted data :=
  ⟨sized.fits, sized.moments, sized.momentsSized, sized.minMax, sized.minMaxSized,
    sized.thresholds, sized.thresholdsSized, sized.quantiles, sized.quantilesSized,
    sized.sobolIndices, sized.sobolSized, sized.steps, sized.stepsFit⟩

/-- Saved rows of bits come back, rows beyond them stay as they are. -/
theorem readsAll_rows {codec : Codec D B} {words : Nat} {old saved : List (List Word)}
    (oldSized : ∀ bits ∈ old, bits.length = words) (sized : ∀ bits ∈ saved, bits.length = words)
    (room : saved.length ≤ old.length) :
    ReadsAll (old.mapM (freadWords codec words))
      (saved.flatMap fun bits => [fwriteWords codec words bits])
      (saved ++ old.drop saved.length) := by
  have row (before : List Word) (member : before ∈ old) (bits : List Word)
      (member' : bits ∈ saved) :
      Reads (freadWords codec words before) [fwriteWords codec words bits] bits :=
    reads_words (oldSized before member) (sized bits member')
  have front := readsAll_mapM_front room row fun bits => fread_end (by decide) _ _ bits
  rwa [List.map_id'] at front

/-- `step_simu` grows to the saved size. -/
theorem readsAll_steps {codec : Codec D B} {options : Options D} {saved : List (List Word)}
    (sized : ∀ bits ∈ saved, bits.length = nbWords options.nbTimeSteps)
    (fits : codec.Fits saved.length) (tempSize nbSimu : Nat) :
    ReadsAll (readSteps codec options.nbTimeSteps tempSize
        (List.replicate nbSimu (noSteps options)))
      ([fwriteInt codec saved.length] ++
        saved.flatMap fun bits => [fwriteWords codec (nbWords options.nbTimeSteps) bits])
      (saved ++ List.replicate (nbSimu - saved.length) (noSteps options)) := by
  have grown : List.replicate nbSimu (noSteps options) ++
      List.replicate (saved.length - (List.replicate nbSimu (noSteps options)).length)
        (List.replicate (nbWords options.nbTimeSteps) 0#32) =
      List.replicate (max nbSimu saved.length) (noSteps options) := by
    rw [List.length_replicate, noSteps, List.replicate_append_replicate]
    congr 1
    omega
  have rest : (List.replicate (max nbSimu saved.length) (noSteps options)).drop saved.length =
      List.replicate (nbSimu - saved.length) (noSteps options) := by
    rw [List.drop_replicate]
    congr 1
    omega
  refine readsAll_bind (reads_int fits tempSize) ?_
  rw [grown, ← rest]
  apply readsAll_rows
  · intro bits member
    rw [List.eq_of_mem_replicate member]
    simp [noSteps]
  · exact sized
  · rw [List.length_replicate]
    exact Nat.le_max_right _ _

/-- An array with one element per time step that is there on an option. -/
theorem reads_perStep {α : Type} {op : Bool} {nbTimeSteps : Nat} {init : α} {saved : List α}
    {read : α → Reader B α} {write : α → List (List B)}
    (number : saved.length = if op then nbTimeSteps else 0)
    (reads : ∀ item ∈ saved, Reads (read init) (write item) item) :
    Reads (readIf (op = true) ((if op then List.replicate nbTimeSteps init else []).mapM read)
        (if op then List.replicate nbTimeSteps init else []))
      (if op then saved.flatMap write else []) saved := by
  apply reads_if
  · intro enabled
    rw [if_pos enabled] at number ⊢
    have loop : Reads ((List.replicate nbTimeSteps init).mapM read) (saved.flatMap write)
        (saved.map id) := by
      apply reads_mapM
      · rw [List.length_replicate, number]
      · intro before member item member'
        rw [List.eq_of_mem_replicate member]
        exact reads item member'
    rwa [List.map_id] at loop
  · intro disabled
    rw [if_neg disabled] at number ⊢
    exact (List.eq_nil_of_length_eq_zero number).symm

/-- The loop over the thresholds or the quantiles of one time step. -/
theorem reads_row {α β : Type} {values : List β} {saved : List α} {read : α → Reader B α}
    {write : α → List (List B)} (init : β → α) (number : saved.length = values.length)
    (reads : ∀ value, ∀ item ∈ saved, Reads (read (init value)) (write item) item) :
    Reads ((values.map init).mapM read) (saved.flatMap write) saved := by
  have loop : Reads ((values.map init).mapM read) (saved.flatMap write) (saved.map id) := by
    apply reads_mapM
    · rw [List.length_map, number]
    · intro before member item member'
      obtain ⟨value, _, rfl⟩ := List.mem_map.mp member
      exact reads value item member'
  rwa [List.map_id] at loop

/-- A file without statistics leaves a structure without room for values. -/
theorem readData_empty [Zero D] {codec : Codec D B} (options : Options D) {saved : MelissaData D}
    (fits : codec.Fits 0) (none_saved : saved.vectSize = 0) (tempSize : Nat)
    (data : MelissaData D) :
    readData codec tempSize options data (saveData codec options saved).flatten =
      some ({ data with vectSize := 0 }, []) := by
  have reads : Reads (readData codec tempSize options data) (saveData codec options saved)
      { data with vectSize := 0 } := by
    rw [saveData, none_saved, if_neg (Nat.lt_irrefl 0)]
    exact reads_bind (reads_int fits _) (reads_pure _)
  exact reads.all

section

variable [Zero D] [NatCast D]

theorem melissaInitData_eq (options : Options D) {vectSize : Nat} (positive : 0 < vectSize) :
    melissaInitData options emptyData vectSize =
      { vectSize := vectSize, isValid := true, statsInit := true, stepsInit := true
        moments := List.replicate options.nbTimeSteps (initMoments vectSize options.maxOrder)
        minMax := if options.minAndMaxOp
          then List.replicate options.nbTimeSteps (initMinMax vectSize) else []
        thresholds := if options.thresholdOp
          then List.replicate options.nbTimeSteps
            (options.threshold.map (initThreshold vectSize)) else []
        quantiles := if options.quantileOp
          then List.replicate options.nbTimeSteps
            (options.quantileOrder.map (initQuantile vectSize)) else []
        sobolIndices := if options.sobolOp
          then List.replicate options.nbTimeSteps
            (initSobolMartinez options.nbParameters vectSize) else []
        stepSimu := List.replicate options.samplingSize.toNat (noSteps options) } := by
  have some_values : ¬ vectSize = 0 := Nat.ne_of_gt positive
  simp [melissaInitData, melissaAllocData, melissaInitSteps, emptyData, positive,
    some_values]

/-- What a structure is after its file has been read into a new structure. -/
def restored (options : Options D) (data : MelissaData D) : MelissaData D :=
  { data with
    isValid := true, statsInit := true, stepsInit := true
    moments := data.moments.map (Moments.saved data.vectSize)
    stepSimu := data.stepSimu ++
      List.replicate (options.samplingSize.toNat - data.stepSimu.length) (noSteps options) }

/-- The reader takes back what the writer has saved, and takes all of it. -/
theorem readsAll_saveData {codec : Codec D B} {options : Options D} {data : MelissaData D}
    (sized : WellSized codec options data) (positive : 0 < data.vectSize)
    (restart : options.restart = 1) (tempSize : Nat) :
    ReadsAll (readData codec tempSize options (melissaInitData options emptyData data.vectSize))
      (saveData codec options data) (restored options data) := by
  have moments : Reads ((List.replicate options.nbTimeSteps
      (initMoments data.vectSize options.maxOrder)).mapM (readMoments codec data.vectSize))
      (data.moments.flatMap (saveMoments codec data.vectSize))
      (data.moments.map (Moments.saved data.vectSize)) := by
    apply reads_mapM
    · rw [List.length_replicate, sized.moments]
    · intro before member moments member'
      rw [List.eq_of_mem_replicate member]
      exact reads_moments (sized.momentsSized moments member')
  have minMax := reads_perStep sized.minMax fun minMax member =>
    reads_minMax (sized.minMaxSized minMax member)
  have thresholds := reads_perStep sized.thresholds fun row member =>
    reads_row (initThreshold data.vectSize) (sized.thresholdsSized row member).1
      fun value threshold member' =>
        reads_threshold ((sized.thresholdsSized row member).2 threshold member') value
  have quantiles := reads_perStep sized.quantiles fun row member =>
    reads_row (initQuantile data.vectSize) (sized.quantilesSized row member).1
      fun value quantile member' =>
        reads_quantile ((sized.quantilesSized row member).2 quantile member') value
  have sobolIndices := reads_perStep sized.sobolIndices fun sobolArray member =>
    reads_sobol (sized.sobolSized sobolArray member)
  have steps := readsAll_steps sized.steps sized.stepsFit tempSize options.samplingSize.toNat
  rw [melissaInitData_eq options positive, saveData, if_pos positive]
  simp only [List.append_assoc]
  refine readsAll_bind (reads_int sized.fits _) ?_
  rw [if_pos positive]
  refine readsAll_bind moments ?_
  refine readsAll_bind minMax ?_
  refine readsAll_bind thresholds ?_
  refine readsAll_bind quantiles ?_
  refine readsAll_bind sobolIndices ?_
  rw [readIf, if_pos restart]
  exact readsAll_map _ steps

/-- `read_saved_stats` on a new structure, when its file is that of `data`. -/
theorem readSavedStats_of_file {codec : Codec D B} {options : Options D} {data : MelissaData D}
    {disk : Disk B} {fieldName : String} {rank clientRank : Nat}
    (file : disk (fileName fieldName rank clientRank) =
      some (saveData codec options data).flatten)
    (sized : WellSized codec options data) (positive : 0 < data.vectSize) (tempSize : Nat) :
    readSavedStats codec tempSize options.restarted rank disk fieldName clientRank
      (melissaInitData options emptyData data.vectSize) = some (restored options data) := by
  have whole := readsAll_saveData (wellSized_restarted sized) positive rfl tempSize
  rw [readSavedStats, file]
  exact congrArg (Option.map Prod.fst) whole

end

theorem readSavedStats_of_emptyFile [Zero D] {codec : Codec D B} {options : Options D}
    {data : MelissaData D} {disk : Disk B} {fieldName : String} {rank clientRank : Nat}
    (fits : codec.Fits 0)
    (file : disk (fileName fieldName rank clientRank) =
      some (saveData codec options data).flatten)
    (none_saved : data.vectSize = 0) (tempSize : Nat) (new : MelissaData D) :
    readSavedStats codec tempSize options.restarted rank disk fieldName clientRank new =
      some { new with vectSize := 0 } := by
  have empty := readData_empty options.restarted fits none_saved tempSize new
  rw [readSavedStats, file]
  exact congrArg (Option.map Prod.fst) empty

end RoundTrip

end Melissa
