import Melissa.Base.Text
import Melissa.Study.Distributed

/-! The names of the files that `melissa_write_stats_seq` writes, and the text that
`melissa_output_txt.c` writes in them. -/

namespace Melissa

open Arrays Files

section Lists

/-- What stands before the last separator, and what behind it. -/
theorem append_sep_injective {α : Type} {sep : α} {front front' last last' : List α}
    (clean : sep ∉ last) (clean' : sep ∉ last')
    (same : front ++ sep :: last = front' ++ sep :: last') : front = front' ∧ last = last' := by
  rcases List.append_eq_append_iff.mp same with ⟨rest, rfl, tail⟩ | ⟨rest, rfl, tail⟩
  · cases rest with
    | nil => simpa using tail
    | cons c rest =>
        simp only [List.cons_append, List.cons.injEq] at tail
        exact absurd (by simp [tail.2] : sep ∈ last) clean
  · cases rest with
    | nil => simpa [eq_comm] using tail
    | cons c rest =>
        simp only [List.cons_append, List.cons.injEq] at tail
        exact absurd (by simp [tail.2] : sep ∈ last') clean'

/-- Blocks whose elements tell the block they are in share none. -/
theorem nodup_flatten_iff {α : Type} (kind : α → Nat) {blocks : List (List α)}
    (kinds : ∀ block ∈ blocks.zipIdx, ∀ a ∈ block.1, kind a = block.2) :
    blocks.flatten.Nodup ↔ ∀ block ∈ blocks, block.Nodup := by
  have own {i : Nat} (inside : i < blocks.length) {a : α} (member : a ∈ blocks[i]) : kind a = i :=
    kinds (blocks[i], i) (List.mem_zipIdx_iff_getElem?.mpr (by simp [inside])) a member
  rw [List.nodup_flatten, and_iff_left]
  refine List.pairwise_iff_getElem.mpr fun i j first second before => ?_
  intro a here there
  have same := (own first here).symm.trans (own second there)
  omega

theorem nodup_of_product {α β : Type} {front : List α} {back : List β} (some_front : front ≠ [])
    (some_back : back ≠ []) (distinct : (front.product back).Nodup) :
    front.Nodup ∧ back.Nodup := by
  obtain ⟨blocks, apart⟩ := List.nodup_flatMap.mp distinct
  obtain ⟨a, member⟩ := List.exists_mem_of_ne_nil front some_front
  obtain ⟨b, member'⟩ := List.exists_mem_of_ne_nil back some_back
  refine ⟨apart.imp fun {first second} disjoint same => ?_, (blocks a member).of_map⟩
  refine disjoint (a := (first, b)) (List.mem_map.mpr ⟨b, member', rfl⟩) ?_
  rw [same]
  exact List.mem_map.mpr ⟨b, member', rfl⟩

theorem mapM_map {α β γ : Type} {f : α → Option β} {g : β → γ} {h : α → γ} {items : List α}
    {results : List β} (all : items.mapM f = some results)
    (each : ∀ item result, f item = some result → g result = h item) :
    results.map g = items.map h := by
  have length := mapM_length all
  apply List.ext_getElem?
  intro i
  rw [List.getElem?_map, List.getElem?_map, mapM_getElem? all]
  rcases Nat.lt_or_ge i items.length with inside | outside
  · have there : i < results.length := by omega
    have found := mapM_getElem? all i
    rw [List.getElem?_eq_getElem there, List.getElem?_eq_getElem inside, Option.bind_some] at found
    rw [List.getElem?_eq_getElem inside, Option.bind_some, ← found, Option.map_some,
      Option.map_some, each _ _ found.symm]
  · rw [List.getElem?_eq_none outside]
    rfl

end Lists

section Names

/-- A statistic as the names of its files tell it. -/
inductive StatFile where
  | mean
  | variance
  | skewness
  | kurtosis
  | min
  | minId
  | max
  | maxId
  | threshold (text : String)
  | quantile (text : String)
  | sobol (p : Nat)
  | sobolTot (p : Nat)

namespace StatFile

/-- What stands in the name of the file, as `OutputStat.file`. -/
def text : StatFile → String
  | mean => "mean"
  | variance => "variance"
  | skewness => "skewness"
  | kurtosis => "kurtosis"
  | min => "min"
  | minId => "min_id"
  | max => "max"
  | maxId => "max_id"
  | threshold text => "threshold" ++ text
  | quantile text => "quantile" ++ text
  | sobol p => "sobol" ++ toString p
  | sobolTot p => "sobol_tot" ++ toString p

/-- The text behind the last underscore. -/
def last : StatFile → List Char
  | minId => "id".toList
  | maxId => "id".toList
  | sobolTot p => "tot".toList ++ Nat.toDigits 10 p
  | file => file.text.toList

/-- The text before it, if there is one. -/
def front : StatFile → Option (List Char)
  | minId => some "min".toList
  | maxId => some "max".toList
  | sobolTot _ => some "sobol".toList
  | _ => none

/-- `%g` prints no underscore. -/
def Clean : StatFile → Prop
  | threshold text => '_' ∉ text.toList
  | quantile text => '_' ∉ text.toList
  | _ => True

theorem toList_text (file : StatFile) : file.text.toList =
    match file.front with
    | some front => front ++ '_' :: file.last
    | none => file.last := by
  cases file with
  | sobolTot p =>
      simp [text, front, last, ← Nat.toList_repr]
  | _ => rfl

theorem last_clean {file : StatFile} (clean : file.Clean) : '_' ∉ file.last := by
  have digits (p : Nat) : '_' ∉ Nat.toDigits 10 p := Nat.underscore_not_in_toDigits
  cases file with
  | threshold text =>
      have own : '_' ∉ text.toList := clean
      simp [last, StatFile.text, own]
  | quantile text =>
      have own : '_' ∉ text.toList := clean
      simp [last, StatFile.text, own]
  | sobol p => simp [last, text, Nat.toList_repr, digits]
  | sobolTot p => simp [last, digits]
  | _ => decide

theorem front_clean {file : StatFile} {front : List Char} (there : file.front = some front) :
    '_' ∉ front := by
  cases file with
  | minId => cases there; decide
  | maxId => cases there; decide
  | sobolTot p => cases there; decide
  | _ => cases there

/-- The text behind the last underscore tells whether there is a text before it. -/
theorem front_isSome (file : StatFile) :
    file.front.isSome = (file.last.take 2 == "id".toList || file.last.take 2 == "to".toList) := by
  cases file with
  | threshold text => simp [front, last, StatFile.text]
  | quantile text => simp [front, last, StatFile.text]
  | sobol p => simp [front, last, text]
  | sobolTot p => simp [front, last]
  | _ => decide

theorem toDigits_injective {p p' : Nat} (same : Nat.toDigits 10 p = Nat.toDigits 10 p') :
    p = p' := by
  have numbers := congrArg (fun digits => Nat.ofDigitChars 10 digits 0) same
  simpa only [Nat.ofDigitChars_ten_toDigits] using numbers

/-- The two texts tell the statistic. -/
theorem parts_injective {file file' : StatFile} (fronts : file.front = file'.front)
    (lasts : file.last = file'.last) : file = file' := by
  cases file <;> cases file' <;>
    simp [front, last, text, Nat.toList_repr, -List.cons_append] at fronts lasts ⊢
  · exact String.toList_inj.mp lasts
  · exact String.toList_inj.mp lasts
  · exact toDigits_injective lasts
  · exact toDigits_injective lasts

/-- Which field a file is about can be read in its name, whatever the name of the field. -/
theorem named_injective {field field' : String} {file file' : StatFile} (clean : file.Clean)
    (clean' : file'.Clean) (same : field ++ "_" ++ file.text = field' ++ "_" ++ file'.text) :
    field = field' ∧ file = file' := by
  have chars : field.toList ++ '_' :: file.text.toList =
      field'.toList ++ '_' :: file'.text.toList := by
    simpa using congrArg String.toList same
  have shape := front_isSome file
  have shape' := front_isSome file'
  rw [toList_text, toList_text] at chars
  cases here : file.front with
  | none =>
      cases here' : file'.front with
      | none =>
          simp only [here, here'] at chars
          obtain ⟨fields, lasts⟩ :=
            append_sep_injective (last_clean clean) (last_clean clean') chars
          exact ⟨String.toList_inj.mp fields, parts_injective (here.trans here'.symm) lasts⟩
      | some front' =>
          simp only [here, here'] at chars
          rw [← List.cons_append, ← List.append_assoc] at chars
          obtain ⟨_, lasts⟩ := append_sep_injective (last_clean clean) (last_clean clean') chars
          rw [lasts, ← shape', here, here'] at shape
          cases shape
  | some front =>
      cases here' : file'.front with
      | none =>
          simp only [here, here'] at chars
          rw [← List.cons_append, ← List.append_assoc] at chars
          obtain ⟨_, lasts⟩ := append_sep_injective (last_clean clean) (last_clean clean') chars
          rw [lasts, ← shape', here, here'] at shape
          cases shape
      | some front' =>
          simp only [here, here'] at chars
          rw [← List.cons_append, ← List.append_assoc, ← List.cons_append, ← List.append_assoc]
            at chars
          obtain ⟨both, lasts⟩ := append_sep_injective (last_clean clean) (last_clean clean') chars
          obtain ⟨fields, fronts⟩ :=
            append_sep_injective (front_clean here) (front_clean here') both
          refine ⟨String.toList_inj.mp fields, parts_injective ?_ lasts⟩
          rw [here, here', fronts]

end StatFile

theorem formatPadded_digits {size n : Nat} {c : Char}
    (member : c ∈ (formatPadded size n).toList) : c.isDigit = true := by
  rw [formatPadded, String.toList_ofList, List.leftpad, List.mem_append] at member
  rcases member with zeros | digits
  · rw [List.eq_of_mem_replicate zeros]
    rfl
  · have shown : (toString n).toList = Nat.toDigits 10 n := Nat.toList_repr
    rw [shown] at digits
    exact Text.isDigit_toDigits digits

theorem formatPadded_injective {size n n' : Nat}
    (same : formatPadded size n = formatPadded size n') : n = n' := by
  have numbers := congrArg (fun text => Nat.ofDigitChars 10 text.toList 0) same
  simp only [formatPadded, String.toList_ofList, List.leftpad, Nat.ofDigitChars_append,
    Nat.ofDigitChars_replicate_zero, Nat.mul_zero] at numbers
  have shown (n : Nat) : (toString n).toList = Nat.toDigits 10 n := Nat.toList_repr
  simpa only [shown, Nat.ofDigitChars_ten_toDigits] using numbers

/-- The name of a file. -/
def outputName (options : Options D) (field file : String) (t : Nat) : String :=
  "results." ++ field ++ "_" ++ file ++ "." ++
    formatPadded (Nat.log 10 options.nbTimeSteps + 1) (t + 1)

theorem outputName_injective {options : Options D} {field field' : String} {file file' : StatFile}
    {t t' : Nat} (clean : file.Clean) (clean' : file'.Clean)
    (same : outputName options field file.text t = outputName options field' file'.text t') :
    field = field' ∧ file = file' ∧ t = t' := by
  have no_dot (size n : Nat) : '.' ∉ (formatPadded size n).toList := by
    intro member
    exact absurd (formatPadded_digits member) (by decide)
  have chars : ("results." ++ field ++ "_" ++ file.text).toList ++ '.' ::
        (formatPadded (Nat.log 10 options.nbTimeSteps + 1) (t + 1)).toList =
      ("results." ++ field' ++ "_" ++ file'.text).toList ++ '.' ::
        (formatPadded (Nat.log 10 options.nbTimeSteps + 1) (t' + 1)).toList := by
    simpa [outputName] using congrArg String.toList same
  obtain ⟨names, steps⟩ := append_sep_injective (no_dot _ _) (no_dot _ _) chars
  have named : field ++ "_" ++ file.text = field' ++ "_" ++ file'.text := by
    apply String.toList_inj.mp
    simpa using names
  obtain ⟨fields, files⟩ := StatFile.named_injective clean clean' named
  have times := formatPadded_injective (String.toList_inj.mp steps)
  exact ⟨fields, files, by omega⟩

/-- The files of a study, loop after loop in the order of `outputStats`. -/
def statBlocks (formatG : D → String) (options : Options D) : List (List StatFile) :=
  [if options.meanOp then [.mean] else [],
    if options.varianceOp then [.variance] else [],
    if options.skewnessOp then [.skewness] else [],
    if options.kurtosisOp then [.kurtosis] else [],
    if options.minAndMaxOp then [.min, .minId, .max, .maxId] else [],
    if options.thresholdOp then options.threshold.map fun value => .threshold (formatG value)
      else [],
    if options.quantileOp then options.quantileOrder.map fun value => .quantile (formatG value)
      else [],
    if options.sobolOp then (List.range options.nbParameters).map .sobol else [],
    if options.sobolOp then (List.range options.nbParameters).map .sobolTot else []]

def statFiles (formatG : D → String) (options : Options D) : List StatFile :=
  (statBlocks formatG options).flatten

/-- The loop that writes a file. -/
def StatFile.loop : StatFile → Nat
  | mean => 0
  | variance => 1
  | skewness => 2
  | kurtosis => 3
  | min => 4
  | minId => 4
  | max => 4
  | maxId => 4
  | threshold _ => 5
  | quantile _ => 6
  | sobol _ => 7
  | sobolTot _ => 8

theorem statFiles_clean {formatG : D → String} (clean : ∀ value, '_' ∉ (formatG value).toList)
    (options : Options D) : ∀ file ∈ statFiles formatG options, file.Clean := by
  intro file member
  cases file with
  | threshold text =>
      have printed : options.thresholdOp = true ∧ ∃ value ∈ options.threshold,
          formatG value = text := by simpa [statFiles, statBlocks] using member
      obtain ⟨_, value, _, rfl⟩ := printed
      exact clean value
  | quantile text =>
      have printed : options.quantileOp = true ∧ ∃ value ∈ options.quantileOrder,
          formatG value = text := by simpa [statFiles, statBlocks] using member
      obtain ⟨_, value, _, rfl⟩ := printed
      exact clean value
  | _ => trivial

/-- No two thresholds, and no two quantile orders, are printed alike. -/
def TextsDistinct (formatG : D → String) (options : Options D) : Prop :=
  (options.thresholdOp = true → (options.threshold.map formatG).Nodup) ∧
    (options.quantileOp = true → (options.quantileOrder.map formatG).Nodup)

theorem statFiles_nodup_iff (formatG : D → String) (options : Options D) :
    (statFiles formatG options).Nodup ↔ TextsDistinct formatG options := by
  have thresholds : (options.threshold.map fun value => StatFile.threshold (formatG value)).Nodup ↔
      (options.threshold.map formatG).Nodup := by
    rw [← List.nodup_map_iff (f := StatFile.threshold) fun _ _ same => by cases same; rfl,
      List.map_map]
    rfl
  have quantiles :
      (options.quantileOrder.map fun value => StatFile.quantile (formatG value)).Nodup ↔
        (options.quantileOrder.map formatG).Nodup := by
    rw [← List.nodup_map_iff (f := StatFile.quantile) fun _ _ same => by cases same; rfl,
      List.map_map]
    rfl
  have single (op : Bool) (files : List StatFile) :
      (if op then files else []).Nodup ↔ (op = true → files.Nodup) := by
    cases op with
    | true => simp
    | false => simp
  have sobols : ((List.range options.nbParameters).map StatFile.sobol).Nodup ∧
      ((List.range options.nbParameters).map StatFile.sobolTot).Nodup :=
    ⟨List.nodup_range.map fun _ _ same => by cases same; rfl,
      List.nodup_range.map fun _ _ same => by cases same; rfl⟩
  rw [statFiles, nodup_flatten_iff StatFile.loop]
  · simp [statBlocks, single, sobols, thresholds, quantiles, TextsDistinct]
  · simp only [statBlocks, List.zipIdx_cons, List.zipIdx_nil, List.forall_mem_cons, zero_add]
    refine ⟨?_, ?_, ?_, ?_, ?_, ?_, ?_, ?_, ?_, by simp⟩
    · intro file member
      rw [List.mem_singleton.mp (mem_of_mem_if member).2]
      rfl
    · intro file member
      rw [List.mem_singleton.mp (mem_of_mem_if member).2]
      rfl
    · intro file member
      rw [List.mem_singleton.mp (mem_of_mem_if member).2]
      rfl
    · intro file member
      rw [List.mem_singleton.mp (mem_of_mem_if member).2]
      rfl
    · intro file member
      have listed := (mem_of_mem_if member).2
      simp only [List.mem_cons, List.not_mem_nil, or_false] at listed
      rcases listed with rfl | rfl | rfl | rfl <;> rfl
    · intro file member
      obtain ⟨value, _, rfl⟩ := List.mem_map.mp (mem_of_mem_if member).2
      rfl
    · intro file member
      obtain ⟨value, _, rfl⟩ := List.mem_map.mp (mem_of_mem_if member).2
      rfl
    · intro file member
      obtain ⟨p, _, rfl⟩ := List.mem_map.mp (mem_of_mem_if member).2
      rfl
    · intro file member
      obtain ⟨p, _, rfl⟩ := List.mem_map.mp (mem_of_mem_if member).2
      rfl

variable [Zero D] [Div D] [NatCast D] [Pow D ℕ] [LT D] [DecidableLT D] [DecidableEq D] [Libm D]

theorem outputStats_files (formatG : D → String) (options : Options D) :
    (outputStats formatG options).map OutputStat.file =
      (statFiles formatG options).map StatFile.text := by
  have thresholds (values : List D) : (values.mapIdx (thresholdStat formatG)).map OutputStat.file =
      values.map fun value => "threshold" ++ formatG value := by
    apply List.ext_getElem?
    intro i
    simp only [List.getElem?_map, List.getElem?_mapIdx, Option.map_map]
    rfl
  have quantiles (values : List D) : (values.mapIdx (quantileStat formatG)).map OutputStat.file =
      values.map fun value => "quantile" ++ formatG value := by
    apply List.ext_getElem?
    intro i
    simp only [List.getElem?_map, List.getElem?_mapIdx, Option.map_map]
    rfl
  have sobols : (if options.sobolOp then (List.range options.nbParameters).map StatFile.sobol
        else []) ++ (if options.sobolOp
          then (List.range options.nbParameters).map StatFile.sobolTot else []) =
      if options.sobolOp then (List.range options.nbParameters).map StatFile.sobol ++
        (List.range options.nbParameters).map StatFile.sobolTot else [] := by
    split
    · rfl
    · rfl
  simp only [outputStats, statFiles, statBlocks, List.flatten_cons, List.flatten_nil,
    List.append_nil, sobols, ← List.append_assoc]
  simp only [List.map_append, apply_ite (List.map _), List.map_nil, List.map_map, thresholds,
    quantiles]
  rfl

end Names

section Text

variable {D : Type}

/-- The lines that `write_output_d` and `write_output_i` print, with `%.*e` given by `formatE`. -/
def outputLines (formatE : Extended D → String) : OutputVector D → List String
  | .doubles values => values.map formatE
  | .ints values => values.map toString

/-- The file of a call, line after line. -/
def writeOutputTxt (formatE : Extended D → String) (call : WriteCall D) :
    String × List (List Char) :=
  (call.fileName, ((outputLines formatE call.vect).take call.vectSize).map fun line =>
    (line ++ "\n").toList)

variable [Zero D] [Div D] [NatCast D] [Pow D ℕ] [LT D] [DecidableLT D] [DecidableEq D] [Libm D]

/-- The loop of `finalize_field_data` over the fields, each with its structures on all server
ranks: the calls rank 0 makes. -/
def finalizeFieldData (formatG : D → String) (stale : Nat → StaleBuffer D) (options : Options D)
    (fields : List (String × List (List (MelissaData D)))) : Option (List (WriteCall D)) :=
  (fields.flatMap fun field => (outputStats formatG options).flatMap fun stat =>
    (List.range options.nbTimeSteps).map fun t => (field, stat, t)).mapM fun (field, stat, t) =>
      writeStatRanks stale options field.1 field.2 stat t

variable {formatG : D → String} {stale : Nat → StaleBuffer D} {options : Options D}
  {fields : List (String × List (List (MelissaData D)))} {calls : List (WriteCall D)}

omit [Zero D] [Div D] [NatCast D] [Pow D ℕ] [LT D] [DecidableLT D] [DecidableEq D] [Libm D] in
theorem writeStatRanks_fileName {field : String} {ranks : List (List (MelissaData D))}
    {stat : OutputStat D} {t : Nat} {call : WriteCall D}
    (made : writeStatRanks stale options field ranks stat t = some call) :
    call.fileName = outputName options field stat.file t := by
  obtain ⟨vect, _, rfl⟩ := Option.map_eq_some_iff.mp made
  rfl

/-- The files of all fields, statistics and time steps. -/
def studyFiles (formatG : D → String) (options : Options D) (fields : List String) :
    List (String × StatFile × Nat) :=
  fields.product ((statFiles formatG options).product (List.range options.nbTimeSteps))

theorem fileNames_eq (made : finalizeFieldData formatG stale options fields = some calls) :
    calls.map WriteCall.fileName = (studyFiles formatG options (fields.map Prod.fst)).map
      fun (field, file, t) => outputName options field file.text t := by
  rw [mapM_map made fun _ _ call => writeStatRanks_fileName call]
  simp only [studyFiles, List.product, List.map_flatMap, List.map_map, List.flatMap_map]
  refine List.flatMap_congr fun field _ => ?_
  have blocks := congrArg (List.flatMap fun file => (List.range options.nbTimeSteps).map
    (outputName options field.1 file)) (outputStats_files formatG options)
  simpa only [List.flatMap_map, Function.comp_def] using blocks

theorem fileNames_nodup_iff (clean : ∀ value, '_' ∉ (formatG value).toList)
    (some_call : calls ≠ [])
    (made : finalizeFieldData formatG stale options fields = some calls) :
    (calls.map WriteCall.fileName).Nodup ↔
      (fields.map Prod.fst).Nodup ∧ TextsDistinct formatG options := by
  have names := fileNames_eq made
  have some_file : studyFiles formatG options (fields.map Prod.fst) ≠ [] := by
    intro none
    rw [none, List.map_nil, List.map_eq_nil_iff] at names
    exact some_call names
  rw [names, ← statFiles_nodup_iff]
  constructor
  · intro distinct
    obtain ⟨⟨field, file, t⟩, member⟩ := List.exists_mem_of_ne_nil _ some_file
    obtain ⟨field_member, pair_member⟩ := List.pair_mem_product.mp member
    have some_field := List.ne_nil_of_mem field_member
    have some_pair := List.ne_nil_of_mem pair_member
    have some_stat := List.ne_nil_of_mem (List.pair_mem_product.mp pair_member).1
    have some_time := List.ne_nil_of_mem (List.pair_mem_product.mp pair_member).2
    obtain ⟨fields_distinct, pairs⟩ := nodup_of_product some_field some_pair distinct.of_map
    exact ⟨fields_distinct, (nodup_of_product some_stat some_time pairs).1⟩
  · rintro ⟨fields_distinct, files_distinct⟩
    refine List.Nodup.map_on ?_ (fields_distinct.product (files_distinct.product List.nodup_range))
    rintro ⟨field, file, t⟩ member ⟨field', file', t'⟩ member' same
    have file_clean := statFiles_clean clean options file
      (List.pair_mem_product.mp (List.pair_mem_product.mp member).2).1
    have file_clean' := statFiles_clean clean options file'
      (List.pair_mem_product.mp (List.pair_mem_product.mp member').2).1
    obtain ⟨rfl, rfl, rfl⟩ := outputName_injective file_clean file_clean' same
    rfl

omit [Zero D] [Div D] [NatCast D] [Pow D ℕ] [LT D] [DecidableLT D] [DecidableEq D] [Libm D] in
/-- With different names each file holds the vector of its own call. -/
theorem writeOutputTxt_mem (formatE : Extended D → String) (disk : Disk Char)
    (distinct : (calls.map WriteCall.fileName).Nodup) {call : WriteCall D} (member : call ∈ calls) :
    applyOps disk ((calls.map (writeOutputTxt formatE)).flatMap writeFile) call.fileName =
      some (writeOutputTxt formatE call).2.flatten := by
  have files : ((calls.map (writeOutputTxt formatE)).map Prod.fst).Nodup := by
    rw [List.map_map]
    exact distinct
  exact applyOps_files_mem files (List.mem_map_of_mem member)

end Text

end Melissa
