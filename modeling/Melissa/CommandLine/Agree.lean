import Melissa.CommandLine.Sent
import Melissa.Launcher.Groups
import Mathlib.Algebra.Ring.Int.Defs

/-! The server reads from `cmd_opt` what the study asks for, or it does not: which studies are on
which side. -/

namespace Melissa

open Getopt Runs Text

section Command

variable {D : Type}

def quantileParts (numerals : Numerals D) (checked : LauncherStudy D) : List (List Char) :=
  sentParts numerals (checked.mlStats.isOn numerals "quantiles") checked.stdyOpt.quantileValues

def thresholdParts (numerals : Numerals D) (checked : LauncherStudy D) : List (List Char) :=
  sentParts numerals (checked.mlStats.isOn numerals "threshold_exceedances")
    checked.stdyOpt.thresholdValues

def serverPairs (numerals : Numerals D) (nodeName : List Char) (checked : LauncherStudy D) :
    List ((String × OptVal) × Arg) :=
  commandPairs numerals nodeName checked (colons checked.stdyOpt.fieldNames)
    (colons (quantileParts numerals checked)) (colons (thresholdParts numerals checked))

/-- What holds when `create_options` gets to its end. -/
structure Created (numerals : Numerals D) (nodeName : List Char) (checked : LauncherStudy D)
    (cmdOpt : List Char) : Prop where
  fields : checked.stdyOpt.fieldNames ≠ []
  operation : checked.stdyOpt.learning ≠ some true → opStr numerals checked.mlStats ≠ []
  quantiles : quantileParts numerals checked ≠ []
  thresholds : thresholdParts numerals checked ≠ []
  words : words isSpace cmdOpt =
    (pairWords (serverPairs numerals nodeName checked)).flatMap (words isSpace) ++
      learnWords checked.stdyOpt ++ faultWords checked.stdyOpt

theorem created_of_createOptions {numerals : Numerals D} {nodeName cmdOpt : List Char}
    {checked : LauncherStudy D} (created : createOptions numerals nodeName checked = some cmdOpt) :
    Created numerals nodeName checked cmdOpt := by
  obtain ⟨filled, operation, quantileStr, thresholdStr, quantiles, thresholds, written⟩ :=
    createOptions_words created
  obtain ⟨rfl, someQuantile⟩ := valueStr_parts quantiles
  obtain ⟨rfl, someThreshold⟩ := valueStr_parts thresholds
  refine ⟨?_, operation, someQuantile, someThreshold, written⟩
  intro empty
  rw [empty] at filled
  exact filled rfl

theorem serverPairs_written (numerals : Numerals D) (nodeName : List Char)
    (checked : LauncherStudy D) :
    ∀ pair ∈ serverPairs numerals nodeName checked, pair.1 ∈ writtenOptions := by
  have names : (serverPairs numerals nodeName checked).map Prod.fst = writtenOptions.take 15 := rfl
  intro pair member
  have inside : pair.1 ∈ writtenOptions.take 15 := by
    rw [← names]
    exact List.mem_map_of_mem member
  exact List.mem_of_mem_take inside

theorem isWord_written : ∀ option ∈ writtenOptions, IsWord isSpace option.1.toList := by
  have all : ∀ option ∈ writtenOptions,
      option.1.toList ≠ [] ∧
        (option.1.toList.all fun c => decide (isSpace c = false)) = true := by
    decide
  intro option member
  obtain ⟨filled, noSpace⟩ := all option member
  exact ⟨filled, List.all_iff_forall_prop.mp noSpace⟩

/-- Words with words as their arguments stay as they are. -/
theorem flatMap_pairWords {pairs : List ((String × OptVal) × Arg)}
    (written : ∀ pair ∈ pairs, pair.1 ∈ writtenOptions)
    (args : ∀ pair ∈ pairs, IsWord isSpace pair.2) :
    (pairWords pairs).flatMap (words isSpace) = pairWords pairs := by
  apply flatMap_words
  intro word member
  obtain ⟨pair, inside, here⟩ := List.mem_flatMap.mp member
  rcases List.mem_cons.mp here with rfl | here
  · exact isWord_written pair.1 (written pair inside)
  · rw [List.mem_singleton.mp here]
    exact args pair inside

end Command

section Parse

variable {D : Type} [Zero D] [One D] {numerals : Numerals D} {numbers : CNumbers D}
  {nodeName cmdOpt : List Char} {checked : LauncherStudy D}

theorem serverPairs_args (laws : NumeralLaws numerals numbers) (host : HostName nodeName)
    (plain : PlainFields checked) (created : Created numerals nodeName checked cmdOpt)
    (named : AllNamed numerals checked.mlStats) {key : String}
    (on : SwitchedOn numerals checked.mlStats key) :
    ∀ pair ∈ serverPairs numerals nodeName checked, IsWord isSpace pair.2 := by
  have operations : IsWord isSpace (opStr numerals checked.mlStats) :=
    isWord_colons (fun part member => (onKeys_isPart named part member).1)
      (List.ne_nil_of_mem (mem_onKeys.mpr ⟨key, on, rfl⟩))
  have quantiles := isWord_colons (sentParts_isPart laws _ _) created.quantiles
  have thresholds := isWord_colons (sentParts_isPart laws _ _) created.thresholds
  have fields := isWord_colons (fun field member => (plain field member).1) created.fields
  have number := fun x => (laws.isPart x).isWord
  simp only [serverPairs, commandPairs, List.forall_mem_cons, List.not_mem_nil, false_implies,
    implies_true, and_true]
  exact ⟨operations, isWord_decimal_space _, isWord_decimal_space _, isWord_decimal_space _,
    quantiles, thresholds, number _, number _, fields, isWord_decimal_space _,
    isWord_decimal_space _, isWord_decimal_space _, isWord_decimal_space _,
    isWord_decimal_space _, host.isWord⟩

variable [NatCast D] [LT D] [DecidableLT D]

/-- The parse of `cmd_opt` when all its words are where they should be. -/
theorem melissaGetOptions_created (laws : NumeralLaws numerals numbers) (host : HostName nodeName)
    (plain : PlainFields checked) (created : Created numerals nodeName checked cmdOpt)
    (named : AllNamed numerals checked.mlStats) {key : String}
    (on : SwitchedOn numerals checked.mlStats key) :
    melissaGetOptions numbers (words isSpace cmdOpt) =
      (run (readOption numbers) initOptions
        (foundPairs (serverPairs numerals nodeName checked))).bind fun base =>
          (run (readOption numbers) base (getoptLong serverSpec
            (learnWords checked.stdyOpt ++ faultWords checked.stdyOpt))).bind checkParsed := by
  have written := serverPairs_written numerals nodeName checked
  have args := serverPairs_args laws host plain created named on
  have nonempty : pairWords (serverPairs numerals nodeName checked) ++
      (learnWords checked.stdyOpt ++ faultWords checked.stdyOpt) ≠ [] := List.cons_ne_nil _ _
  rw [created.words, flatMap_pairWords written args, List.append_assoc, melissaGetOptions,
    if_neg nonempty, getoptLong_pairs written, run_append, Option.bind_assoc]

omit [One D] in
/-- Without an operation the option `-o` takes the next option as its argument. -/
theorem melissaGetOptions_noOperation (created : Created numerals nodeName checked cmdOpt)
    (empty : opStr numerals checked.mlStats = []) :
    melissaGetOptions numbers (words isSpace cmdOpt) = none := by
  have option : ("-o", OptVal.letter 'o') ∈ writtenOptions := by decide
  obtain ⟨rest, front⟩ : ∃ rest, words isSpace cmdOpt = "-o".toList :: "-p".toList :: rest := by
    have dashO : words isSpace "-o".toList = ["-o".toList] :=
      words_word (isWord_written _ option)
    have dashP : words isSpace "-p".toList = ["-p".toList] :=
      words_word (isWord_written ("-p", .letter 'p') (by decide))
    rw [created.words]
    unfold pairWords serverPairs commandPairs
    dsimp only
    rw [List.flatMap_cons, empty]
    simp only [List.cons_append, List.nil_append, List.flatMap_cons, dashO, dashP, words_nil]
    exact ⟨_, rfl⟩
  have refused : getOperations initOptions "-p".toList = (none : Option (ParsedOptions D)) := by
    have token : words isColon "-p".toList = ["-p".toList] := by decide
    have unknown : operationOf ("-p".toList.map Char.toLower) = none := by decide
    rw [getOperations, if_neg (by decide), token, run_cons, readOperation, unknown]
    rfl
  have scanned := getoptLong_written option "-p".toList rest
  rw [melissaGetOptions, front, if_neg (List.cons_ne_nil _ _), scanned, run_cons, readOption,
    refused]
  rfl

end Parse

section Tail

variable {D : Type} [Zero D] {numbers : CNumbers D} {stdyOpt : StudyOptions D}
  {base parsed : ParsedOptions D}

/-- `-l` with its path. -/
def learnt (options : ParsedOptions D) (path : List Char) : ParsedOptions D :=
  { options with
    learning := if options.learning < 1 then 1 else options.learning
    nnPath := path }

theorem run_tail_plain (off : stdyOpt.learning ≠ some true) :
    run (readOption numbers) base
        (getoptLong serverSpec (learnWords stdyOpt ++ faultWords stdyOpt)) = some parsed ↔
      stdyOpt.disableFaultTolerance ≠ some true ∧ parsed = base := by
  rw [learnWords, if_neg off, List.nil_append, getoptLong_tail]
  split
  · rename_i disabled
    rw [run_cons]
    constructor
    · intro read
      cases read
    · intro both
      exact absurd disabled both.1
  · rename_i tolerant
    rw [run_nil, Option.some.injEq]
    exact ⟨fun same => ⟨tolerant, same.symm⟩, fun both => both.2.symm⟩

theorem run_tail_learn {path : List Char} {rest : List Arg}
    (learning : stdyOpt.learning = some true)
    (written : words isSpace (stdyOpt.nnPath.getD []) = path :: rest)
    (operands : ∀ word ∈ rest, IsOperand word) :
    run (readOption numbers) base
        (getoptLong serverSpec (learnWords stdyOpt ++ faultWords stdyOpt)) = some parsed ↔
      stdyOpt.disableFaultTolerance ≠ some true ∧ (Utf8.encode path).length < 256 ∧
        parsed = learnt base path := by
  have reads : readOption numbers base (.option (.letter 'l') (some path)) =
      (copyArg path).map (learnt base) := rfl
  rw [getoptLong_learn learning written operands, getoptLong_tail, run_cons, reads, copyArg]
  by_cases short : (Utf8.encode path).length < 256
  · rw [if_pos short, Option.map_some, Option.bind_some]
    split
    · rename_i disabled
      rw [run_cons]
      exact ⟨fun read => (nomatch read), fun both => absurd disabled both.1⟩
    · rename_i tolerant
      rw [run_nil, Option.some.injEq]
      exact ⟨fun same => ⟨tolerant, short, same.symm⟩, fun both => both.2.2.symm⟩
  · rw [if_neg short]
    exact ⟨fun read => (nomatch read), fun both => absurd both.2.1 short⟩

/-- With an empty path, `-l` has no argument or takes the next option as its path. -/
theorem run_tail_noPath (learning : stdyOpt.learning = some true)
    (written : words isSpace (stdyOpt.nnPath.getD []) = [])
    (read : run (readOption numbers) base
      (getoptLong serverSpec (learnWords stdyOpt ++ faultWords stdyOpt)) = some parsed) :
    stdyOpt.disableFaultTolerance = some true ∧
      parsed.disableFaultTolerance = base.disableFaultTolerance := by
  have option : ("-l", OptVal.letter 'l') ∈ writtenOptions := by decide
  rw [learnWords, if_pos learning, written, faultWords] at read
  split at read
  · rename_i disabled
    refine ⟨disabled, ?_⟩
    have scanned := getoptLong_written option "--disable_fault_tolerancel".toList []
    rw [List.singleton_append, scanned, run_cons, readOption] at read
    obtain ⟨next, copied, read⟩ := Option.bind_eq_some_iff.mp read
    obtain ⟨path, _, rfl⟩ := Option.map_eq_some_iff.mp copied
    cases read
    rfl
  · have alone : getoptLong serverSpec ["-l".toList] = [.unknown] :=
      getoptLong_shortAlone serverSpec (by decide) (by decide)
    rw [List.append_nil, alone, run_cons] at read
    cases read

end Tail

section Check

variable {D : Type} {options : ParsedOptions D}

theorem has_commandResult (numerals : Numerals D) (numbers : CNumbers D) (nodeName : List Char)
    (checked : LauncherStudy D) (quantiles thresholds : List (List Char)) (timeout : Int)
    (options : ParsedOptions D) (op : Operation) :
    (commandResult numerals numbers nodeName checked quantiles thresholds timeout options).has op =
      options.has op := by
  cases op <;> rfl

theorem has_learnt (options : ParsedOptions D) (path : List Char) (op : Operation) :
    (learnt options path).has op = options.has op := by
  cases op <;> rfl

theorem withDefaultOperations_of_has {op : Operation} (on : options.has op = true) :
    withDefaultOperations options = options := by
  unfold withDefaultOperations
  rw [if_neg]
  rintro ⟨mean, variance, kurtosis, skewness, minAndMax, threshold, quantile, sobol, _⟩
  have off : options.has op = false := by
    cases op with
    | mean => exact mean
    | variance => exact variance
    | skewness => exact skewness
    | kurtosis => exact kurtosis
    | minAndMax => exact minAndMax
    | threshold => exact threshold
    | quantile => exact quantile
    | sobol => exact sobol
  rw [off] at on
  exact Bool.false_ne_true on

theorem withDefaultOperations_flag (options : ParsedOptions D) :
    (withDefaultOperations options).disableFaultTolerance = options.disableFaultTolerance := by
  unfold withDefaultOperations
  split <;> rfl

/-- The options that `melissa_check_options` accepts, when they have values for the lists. -/
theorem refused_eq_false (threshold : options.threshold ≠ [])
    (quantile : options.quantileOrder ≠ []) :
    refused options = false ↔
      1 ≤ options.samplingSize ∧ 1 ≤ options.nbTimeSteps ∧
        if options.sobolOp = true then 2 ≤ options.nbParameters
        else 2 ≤ options.samplingSize ∧ 1 ≤ options.nbParameters := by
  have noThreshold : options.threshold.isEmpty = false := List.isEmpty_eq_false_iff.mpr threshold
  have noQuantile : options.quantileOrder.isEmpty = false :=
    List.isEmpty_eq_false_iff.mpr quantile
  unfold refused
  rw [noThreshold, noQuantile]
  cases options.sobolOp with
  | true =>
      simp only [Bool.and_false, Bool.or_false, Bool.false_or, if_true, Bool.or_eq_false_iff,
        decide_eq_false_iff_not]
      omega
  | false =>
      simp only [Bool.and_false, Bool.or_false, Bool.false_or, Bool.false_eq_true, if_false,
        Bool.or_eq_false_iff, decide_eq_false_iff_not]
      omega

variable [NatCast D] [LT D] [DecidableLT D]

theorem has_correctValues (options : ParsedOptions D) (op : Operation) :
    (correctValues options).has op = options.has op := by
  cases op <;> rfl

theorem checkParsed_flag {checked : ParsedOptions D}
    (accepted : checkParsed options = some checked) :
    checked.disableFaultTolerance = options.disableFaultTolerance :=
  checkParsed_kept ParsedOptions.disableFaultTolerance (withDefaultOperations_flag options)
    (fun _ => rfl) accepted

theorem checkParsed_of_has {checked : ParsedOptions D} {op : Operation}
    (on : options.has op = true) :
    checkParsed options = some checked ↔
      refused options = false ∧ checked = correctValues options := by
  unfold checkParsed
  rw [withDefaultOperations_of_has on]
  dsimp only
  cases refused options with
  | true => exact ⟨fun accepted => (nomatch accepted), fun both => (nomatch both.1)⟩
  | false =>
      exact ⟨fun accepted => ⟨rfl, (Option.some.inj accepted).symm⟩,
        fun both => congrArg some both.2.symm⟩

end Check

section Carried

variable {D : Type}

/-- What the command line carries, whatever the study asks for. -/
structure Carries (numerals : Numerals D) (numbers : CNumbers D) (study checked : LauncherStudy D)
    (options : ParsedOptions D) : Prop where
  has : ∀ op, options.has op = true ↔ Requested numerals checked.mlStats op
  nbParameters : options.nbParameters = study.nbParam
  samplingSize : options.samplingSize = study.stdyOpt.samplingSize
  nbTimeSteps : options.nbTimeSteps = study.stdyOpt.nbTimesteps
  threshold : options.threshold = (thresholdParts numerals checked).map numbers.atof
  quantileOrder : options.quantileOrder = (quantileParts numerals checked).map numbers.atof
  nbFields : options.nbFields = study.stdyOpt.fieldNames.length
  txtPushPort : options.txtPushPort = study.stdyOpt.recvPort.getD 5555
  txtPullPort : options.txtPullPort = study.stdyOpt.sendPort.getD 5556
  txtReqPort : options.txtReqPort = study.stdyOpt.respPort.getD 5554
  dataPort : options.dataPort = study.stdyOpt.dataPort.getD 2006
  learning : options.learning = if study.stdyOpt.learning = some true then 1 else 0
  disableFaultTolerance : options.disableFaultTolerance = false

variable {numerals : Numerals D} {numbers : CNumbers D} {study checked : LauncherStudy D}
  {options base : ParsedOptions D}

theorem carries_correctValues [NatCast D] [LT D] [DecidableLT D]
    (carries : Carries numerals numbers study checked options) :
    Carries numerals numbers study checked (correctValues options) :=
  ⟨fun op => by rw [has_correctValues]; exact carries.has op, carries.nbParameters,
    carries.samplingSize, carries.nbTimeSteps, carries.threshold, carries.quantileOrder,
    carries.nbFields, carries.txtPushPort, carries.txtPullPort, carries.txtReqPort,
    carries.dataPort, carries.learning, carries.disableFaultTolerance⟩

/-- The options behind the command line's own options, with or without `-l`. -/
theorem carries_commandResult [NatCast D] {nodeName : List Char} {timeout : Int}
    {named : ParsedOptions D} (sameParams : checked.nbParam = study.nbParam)
    (defaulted : Defaulted study.stdyOpt checked.stdyOpt)
    (has : ∀ op, named.has op = true ↔ Requested numerals checked.mlStats op)
    (rest : named.withoutOperations = (initOptions : ParsedOptions D).withoutOperations)
    (result : base = commandResult numerals numbers nodeName checked
      (quantileParts numerals checked) (thresholdParts numerals checked) timeout named) :
    (study.stdyOpt.learning ≠ some true → Carries numerals numbers study checked base) ∧
      ∀ path, study.stdyOpt.learning = some true →
        Carries numerals numbers study checked (learnt base path) := by
  subst result
  have noLearning : named.learning = 0 := congrArg ParsedOptions.learning rest
  have tolerant : named.disableFaultTolerance = false :=
    congrArg ParsedOptions.disableFaultTolerance rest
  have fields := congrArg List.length defaulted.fieldNames
  have push : checked.stdyOpt.recvPort.getD 0 = study.stdyOpt.recvPort.getD 5555 := by
    rw [defaulted.recvPort, Option.getD_some]
  have pull : checked.stdyOpt.sendPort.getD 0 = study.stdyOpt.sendPort.getD 5556 := by
    rw [defaulted.sendPort, Option.getD_some]
  have req : checked.stdyOpt.respPort.getD 0 = study.stdyOpt.respPort.getD 5554 := by
    rw [defaulted.respPort, Option.getD_some]
  have data : checked.stdyOpt.dataPort.getD 0 = study.stdyOpt.dataPort.getD 2006 := by
    rw [defaulted.dataPort, Option.getD_some]
  constructor
  · intro off
    refine ⟨fun op => by rw [has_commandResult]; exact has op, congrArg Nat.cast sameParams,
      defaulted.samplingSize, defaulted.nbTimesteps, rfl, rfl, fields, push, pull, req, data, ?_,
      tolerant⟩
    rw [if_neg off]
    exact noLearning
  · intro path learning
    refine ⟨fun op => by rw [has_learnt, has_commandResult]; exact has op,
      congrArg Nat.cast sameParams, defaulted.samplingSize, defaulted.nbTimesteps, rfl, rfl,
      fields, push, pull, req, data, ?_, tolerant⟩
    rw [if_pos learning]
    change (if named.learning < 1 then 1 else named.learning) = 1
    rw [noLearning]
    rfl

/-- The options that carry a study pass the check of the server. -/
theorem accepted_iff {options : ParsedOptions D} {nodeName cmdOpt : List Char}
    (carries : Carries numerals numbers study checked options)
    (created : Created numerals nodeName checked cmdOpt) (someParam : 1 ≤ study.nbParam)
    (someSample : 1 ≤ study.stdyOpt.samplingSize) :
    refused options = false ↔
      (Requested numerals checked.mlStats .sobol ∨ 2 ≤ study.stdyOpt.samplingSize) ∧
        (Requested numerals checked.mlStats .sobol → 2 ≤ study.nbParam) ∧
        1 ≤ study.stdyOpt.nbTimesteps := by
  have threshold : options.threshold ≠ [] := by
    rw [carries.threshold]
    exact fun empty => created.thresholds (List.map_eq_nil_iff.mp empty)
  have quantile : options.quantileOrder ≠ [] := by
    rw [carries.quantileOrder]
    exact fun empty => created.quantiles (List.map_eq_nil_iff.mp empty)
  have sobol : options.sobolOp = true ↔ Requested numerals checked.mlStats .sobol :=
    carries.has .sobol
  rw [refused_eq_false threshold quantile, carries.samplingSize, carries.nbTimeSteps,
    carries.nbParameters]
  by_cases requested : Requested numerals checked.mlStats .sobol
  · rw [if_pos (sobol.mpr requested)]
    constructor
    · rintro ⟨_, steps, params⟩
      exact ⟨Or.inl requested, fun _ => by omega, steps⟩
    · rintro ⟨_, params, steps⟩
      have two := params requested
      exact ⟨someSample, steps, by omega⟩
  · rw [if_neg (fun on => requested (sobol.mp on))]
    constructor
    · rintro ⟨_, steps, sample, _⟩
      exact ⟨Or.inr sample, fun on => absurd on requested, steps⟩
    · rintro ⟨sample, _, steps⟩
      exact ⟨someSample, steps, sample.resolve_left requested, by omega⟩

end Carried

section Agreement

variable {D : Type} [Zero D] [One D]

/-- The server's options are what the study asks for. `checked` is the study after
`check_options`. -/
structure Matches (numerals : Numerals D) (options : ParsedOptions D)
    (study checked : LauncherStudy D) : Prop where
  asked : ∀ key, SwitchedOn numerals checked.mlStats key →
    ∃ op : Operation, op.IsNamed key.toList ∧ options.has op = true
  operations : ∀ op, options.has op = true ↔ Requested numerals study.mlStats op
  nbParameters : options.nbParameters = study.nbParam
  samplingSize : options.samplingSize = study.stdyOpt.samplingSize
  nbTimeSteps : options.nbTimeSteps = study.stdyOpt.nbTimesteps
  thresholds : Requested numerals study.mlStats .threshold →
    ∃ value, checked.stdyOpt.thresholdValues = some value ∧ options.threshold = value.numbers
  quantiles : Requested numerals study.mlStats .quantile →
    ∃ value, checked.stdyOpt.quantileValues = some value ∧ options.quantileOrder = value.numbers
  nbFields : options.nbFields = study.stdyOpt.fieldNames.length
  txtPushPort : options.txtPushPort = study.stdyOpt.recvPort.getD 5555
  txtPullPort : options.txtPullPort = study.stdyOpt.sendPort.getD 5556
  txtReqPort : options.txtReqPort = study.stdyOpt.respPort.getD 5554
  dataPort : options.dataPort = study.stdyOpt.dataPort.getD 2006
  learning : options.learning = if study.stdyOpt.learning = some true then 1 else 0
  disableFaultTolerance :
    options.disableFaultTolerance = study.stdyOpt.disableFaultTolerance.getD false

/-- When an operation is asked for, it has values, they are sent, and they are not `True`. An
operation with another name than `create_options` looks for sends a 0 in their place. -/
def ValuesSent (numbers : CNumbers D) (requested : Prop) (on : Bool)
    (values : Option (StatValue D)) : Prop :=
  requested → ∃ value, values = some value ∧
    if on = true then value ≠ .flag true else value.numbers = [numbers.atof "0".toList]

/-- The values of an operation reach the server: the first of them does not begin with a dash. -/
structure ListSent (numerals : Numerals D) (numbers : CNumbers D) (requested : Prop) (on : Bool)
    (values : Option (StatValue D)) : Prop where
  noDash : ¬ FirstDash (sentParts numerals on values)
  same : ValuesSent numbers requested on values

/-- The studies whose options the server reads as they are meant. -/
structure Conveyable (numerals : Numerals D) (numbers : CNumbers D)
    (study checked : LauncherStudy D) : Prop where
  tolerant : study.stdyOpt.disableFaultTolerance ≠ some true
  named : AllNamed numerals checked.mlStats
  chosen : ∃ key, SwitchedOn numerals checked.mlStats key
  kept : ∀ op, Requested numerals study.mlStats op → Requested numerals checked.mlStats op
  sample : Requested numerals checked.mlStats .sobol ∨ 2 ≤ study.stdyOpt.samplingSize
  parameters : Requested numerals checked.mlStats .sobol → 2 ≤ study.nbParam
  timeSteps : 1 ≤ study.stdyOpt.nbTimesteps
  ints : ∀ i ∈ sentInts checked, IsInt i
  timeout : (numbers.toInt study.stdyOpt.simulationTimeout).isSome
  thresholds : ListSent numerals numbers (Requested numerals study.mlStats .threshold)
    (checked.mlStats.isOn numerals "threshold_exceedances") checked.stdyOpt.thresholdValues
  quantiles : ListSent numerals numbers (Requested numerals study.mlStats .quantile)
    (checked.mlStats.isOn numerals "quantiles") checked.stdyOpt.quantileValues
  path : study.stdyOpt.learning = some true → ∃ path rest,
    words isSpace (checked.stdyOpt.nnPath.getD []) = path :: rest ∧
      (Utf8.encode path).length < 256 ∧ ∀ word ∈ rest, IsOperand word

variable {numerals : Numerals D} {numbers : CNumbers D} {study checked : LauncherStudy D}

/-- The values that are sent are those of the study, unless it has none or one of them is
`True`. -/
theorem sent_same (laws : NumeralLaws numerals numbers) {on : Bool}
    {values : Option (StatValue D)} {value : StatValue D} (present : values = some value) :
    (sentParts numerals on values).map numbers.atof = value.numbers ↔
      if on = true then value ≠ .flag true else value.numbers = [numbers.atof "0".toList] := by
  unfold sentParts
  cases on with
  | true =>
      rw [if_pos rfl, if_pos rfl, present, Option.map_some, Option.getD_some]
      exact atof_strings laws value
  | false =>
      rw [if_neg Bool.false_ne_true, if_neg Bool.false_ne_true]
      exact eq_comm

theorem valuesSent_iff (laws : NumeralLaws numerals numbers) (requested : Prop) {on : Bool}
    {values : Option (StatValue D)} {received : List D}
    (sent : received = (sentParts numerals on values).map numbers.atof) :
    (requested → ∃ value, values = some value ∧ received = value.numbers) ↔
      ValuesSent numbers requested on values := by
  subst sent
  apply forall_congr'
  intro _
  apply exists_congr
  intro value
  apply and_congr_right
  exact fun present => sent_same laws present

theorem matches_iff (laws : NumeralLaws numerals numbers) {options : ParsedOptions D}
    (carries : Carries numerals numbers study checked options)
    (named : AllNamed numerals checked.mlStats)
    (fewer : ∀ op, Requested numerals checked.mlStats op → Requested numerals study.mlStats op) :
    Matches numerals options study checked ↔
      study.stdyOpt.disableFaultTolerance ≠ some true ∧
        (∀ op, Requested numerals study.mlStats op → Requested numerals checked.mlStats op) ∧
        ValuesSent numbers (Requested numerals study.mlStats .threshold)
          (checked.mlStats.isOn numerals "threshold_exceedances")
          checked.stdyOpt.thresholdValues ∧
        ValuesSent numbers (Requested numerals study.mlStats .quantile)
          (checked.mlStats.isOn numerals "quantiles") checked.stdyOpt.quantileValues := by
  have thresholds :=
    valuesSent_iff laws (Requested numerals study.mlStats .threshold) carries.threshold
  have quantiles :=
    valuesSent_iff laws (Requested numerals study.mlStats .quantile) carries.quantileOrder
  constructor
  · intro agrees
    refine ⟨?_, ?_, thresholds.mp agrees.thresholds, quantiles.mp agrees.quantiles⟩
    · intro disabled
      have flag := agrees.disableFaultTolerance
      rw [disabled, carries.disableFaultTolerance] at flag
      exact Bool.false_ne_true flag
    · intro op requested
      exact (carries.has op).mp ((agrees.operations op).mpr requested)
  · rintro ⟨tolerant, kept, sentThresholds, sentQuantiles⟩
    refine ⟨?_, ?_, carries.nbParameters, carries.samplingSize, carries.nbTimeSteps,
      thresholds.mpr sentThresholds, quantiles.mpr sentQuantiles, carries.nbFields,
      carries.txtPushPort, carries.txtPullPort, carries.txtReqPort, carries.dataPort,
      carries.learning, ?_⟩
    · intro key on
      obtain ⟨op, isNamed⟩ := named key on
      exact ⟨op, isNamed, (carries.has op).mpr ⟨key, on, isNamed⟩⟩
    · intro op
      rw [carries.has op]
      exact ⟨fewer op, kept op⟩
    · rw [carries.disableFaultTolerance]
      cases flag : study.stdyOpt.disableFaultTolerance with
      | none => rfl
      | some disabled =>
          cases disabled with
          | false => rfl
          | true => exact absurd flag tolerant

/-- A study after `check_options` without an error, with its command line. -/
structure Launched (numerals : Numerals D) (numbers : CNumbers D) (nodeName : List Char)
    (study checked : LauncherStudy D) (cmdOpt : List Char) : Prop where
  laws : NumeralLaws numerals numbers
  host : HostName nodeName
  plain : PlainFields checked
  created : Created numerals nodeName checked cmdOpt
  nbParam : checked.nbParam = study.nbParam
  defaulted : Defaulted study.stdyOpt checked.stdyOpt
  fewer : ∀ op, Requested numerals checked.mlStats op → Requested numerals study.mlStats op
  someParam : 1 ≤ study.nbParam
  someSample : 1 ≤ study.stdyOpt.samplingSize

theorem flag_iff {flag flag' : Option Bool} (same : flag' = some (flag.getD false)) :
    flag' = some true ↔ flag = some true := by
  rw [same, Option.some.injEq]
  cases flag with
  | none => exact ⟨fun off => (nomatch off), fun on => (nomatch on)⟩
  | some on => exact ⟨congrArg some, Option.some.inj⟩

variable {nodeName cmdOpt : List Char}

theorem launched_of_checked {installPrefix : List Char} (laws : NumeralLaws numerals numbers)
    (host : HostName nodeName) (plain : PlainFields study)
    (passed : (checkOptions numerals installPrefix study).1 = 0)
    (created : createOptions numerals nodeName (checkOptions numerals installPrefix study).2 =
      some cmdOpt) :
    Launched numerals numbers nodeName study (checkOptions numerals installPrefix study).2
      cmdOpt := by
  have defaulted := checkOptions_defaulted numerals installPrefix study
  obtain ⟨someParam, someSample⟩ := checkOptions_passed passed
  have sameFields : PlainFields (checkOptions numerals installPrefix study).2 := by
    intro field member
    rw [defaulted.fieldNames] at member
    exact plain field member
  exact ⟨laws, host, sameFields, created_of_createOptions created,
    checkOptions_nbParam numerals installPrefix study, defaulted,
    fun _ requested => requested_of_checked requested, someParam, someSample⟩

/-- After the first word of the path of the network no word looks like an option. -/
def PlainPath (checked : LauncherStudy D) : Prop :=
  checked.stdyOpt.learning = some true →
    ∀ word ∈ (words isSpace (checked.stdyOpt.nnPath.getD [])).tail, IsOperand word

/-- What the server has read behind the options that always are there, if it keeps the flag of
the study. -/
theorem carries_of_tail (launched : Launched numerals numbers nodeName study checked cmdOpt)
    (plainPath : PlainPath checked) {base parsed : ParsedOptions D}
    (plainly : study.stdyOpt.learning ≠ some true → Carries numerals numbers study checked base)
    (learning : ∀ path, study.stdyOpt.learning = some true →
      Carries numerals numbers study checked (learnt base path))
    (tail : run (readOption numbers) base (getoptLong serverSpec
      (learnWords checked.stdyOpt ++ faultWords checked.stdyOpt)) = some parsed)
    (flag : parsed.disableFaultTolerance = study.stdyOpt.disableFaultTolerance.getD false) :
    Carries numerals numbers study checked parsed ∧
      (study.stdyOpt.learning = some true → ∃ path rest,
        words isSpace (checked.stdyOpt.nnPath.getD []) = path :: rest ∧
          (Utf8.encode path).length < 256 ∧ ∀ word ∈ rest, IsOperand word) := by
  have learns := flag_iff launched.defaulted.learning
  by_cases asked : study.stdyOpt.learning = some true
  · have learns := learns.mpr asked
    cases written : words isSpace (checked.stdyOpt.nnPath.getD []) with
    | nil =>
        obtain ⟨disabled, kept⟩ := run_tail_noPath learns written tail
        have unset : base.disableFaultTolerance = false :=
          (learning [] asked).disableFaultTolerance
        have off := (flag_iff launched.defaulted.disableFaultTolerance).mp disabled
        rw [kept, unset, off] at flag
        exact absurd flag Bool.false_ne_true
    | cons path others =>
        have operands : ∀ word ∈ others, IsOperand word := by
          have later := plainPath learns
          rw [written, List.tail_cons] at later
          exact later
        obtain ⟨_, short, rfl⟩ := (run_tail_learn learns written operands).mp tail
        exact ⟨learning path asked, fun _ => ⟨path, others, rfl, short, operands⟩⟩
  · obtain ⟨_, rfl⟩ := (run_tail_plain fun on => asked (learns.mp on)).mp tail
    exact ⟨plainly asked, fun on => absurd on asked⟩

variable [NatCast D]

/-- The options that the server has read before `-l`. -/
theorem run_serverPairs (launched : Launched numerals numbers nodeName study checked cmdOpt)
    (base : ParsedOptions D) :
    run (readOption numbers) initOptions (foundPairs (serverPairs numerals nodeName checked)) =
        some base ↔
      ∃ operations, getOperations initOptions (opStr numerals checked.mlStats) = some operations ∧
        (∀ i ∈ sentInts checked, IsInt i) ∧ ¬ FirstDash (quantileParts numerals checked) ∧
          ¬ FirstDash (thresholdParts numerals checked) ∧
            ∃ timeout, numbers.toInt study.stdyOpt.simulationTimeout = some timeout ∧
              base = commandResult numerals numbers nodeName checked
                (quantileParts numerals checked) (thresholdParts numerals checked) timeout
                operations := by
  have laws := launched.laws
  have created := launched.created
  have quantiles : ∀ part ∈ quantileParts numerals checked, IsPart part :=
    sentParts_isPart laws _ _
  have thresholds : ∀ part ∈ thresholdParts numerals checked, IsPart part :=
    sentParts_isPart laws _ _
  rw [serverPairs, run_commandPairs launched.host launched.plain created.fields
    ⟨quantiles, created.quantiles⟩ ⟨thresholds, created.thresholds⟩,
    launched.defaulted.simulationTimeout, laws.atof_str]

variable [LT D] [DecidableLT D]

/-- The server accepts the words of `cmd_opt`, with the options that the study asks for. -/
def Agrees (numerals : Numerals D) (numbers : CNumbers D) (study checked : LauncherStudy D)
    (cmdOpt : List Char) : Prop :=
  ∃ options, melissaGetOptions numbers (words isSpace cmdOpt) = some options ∧
    Matches numerals options study checked

theorem agrees_of_conveyable (launched : Launched numerals numbers nodeName study checked cmdOpt)
    (conveyable : Conveyable numerals numbers study checked) :
    Agrees numerals numbers study checked cmdOpt := by
  obtain ⟨key, on⟩ := conveyable.chosen
  obtain ⟨op, isNamed⟩ := conveyable.named key on
  obtain ⟨operations, read, has, rest⟩ := getOperations_opStr conveyable.named on initOptions
  obtain ⟨timeout, waits⟩ := Option.isSome_iff_exists.mp conveyable.timeout
  obtain ⟨base, result⟩ : ∃ base, base = commandResult numerals numbers nodeName checked
      (quantileParts numerals checked) (thresholdParts numerals checked) timeout operations :=
    ⟨_, rfl⟩
  have front := (run_serverPairs launched base).mpr ⟨operations, read, conveyable.ints,
    conveyable.quantiles.noDash, conveyable.thresholds.noDash, timeout, waits, result⟩
  obtain ⟨plainly, learning⟩ :=
    carries_commandResult launched.nbParam launched.defaulted has rest result
  have learns := flag_iff launched.defaulted.learning
  have tolerant : checked.stdyOpt.disableFaultTolerance ≠ some true := fun disabled =>
    conveyable.tolerant ((flag_iff launched.defaulted.disableFaultTolerance).mp disabled)
  obtain ⟨parsed, tail, carries⟩ : ∃ parsed,
      run (readOption numbers) base (getoptLong serverSpec
          (learnWords checked.stdyOpt ++ faultWords checked.stdyOpt)) = some parsed ∧
        Carries numerals numbers study checked parsed := by
    by_cases learnt : study.stdyOpt.learning = some true
    · obtain ⟨path, others, written, short, operands⟩ := conveyable.path learnt
      exact ⟨_, (run_tail_learn (learns.mpr learnt) written operands).mpr ⟨tolerant, short, rfl⟩,
        learning path learnt⟩
    · exact ⟨_, (run_tail_plain fun on => learnt (learns.mp on)).mpr ⟨tolerant, rfl⟩,
        plainly learnt⟩
  have onParsed : parsed.has op = true := (carries.has op).mpr ⟨key, on, isNamed⟩
  have accepted := (accepted_iff carries launched.created launched.someParam
    launched.someSample).mpr ⟨conveyable.sample, conveyable.parameters, conveyable.timeSteps⟩
  refine ⟨correctValues parsed, ?_, ?_⟩
  · rw [melissaGetOptions_created launched.laws launched.host launched.plain launched.created
      conveyable.named on, front, Option.bind_some, tail, Option.bind_some]
    exact (checkParsed_of_has onParsed).mpr ⟨accepted, rfl⟩
  · exact (matches_iff launched.laws (carries_correctValues carries) conveyable.named
      launched.fewer).mpr ⟨conveyable.tolerant, conveyable.kept, conveyable.thresholds.same,
        conveyable.quantiles.same⟩

theorem conveyable_of_agrees (launched : Launched numerals numbers nodeName study checked cmdOpt)
    (plainPath : PlainPath checked) (agrees : Agrees numerals numbers study checked cmdOpt) :
    Conveyable numerals numbers study checked := by
  obtain ⟨options, parse, matching⟩ := agrees
  have named : AllNamed numerals checked.mlStats := by
    intro key on
    obtain ⟨op, isNamed, _⟩ := matching.asked key on
    exact ⟨op, isNamed⟩
  obtain ⟨key, on⟩ : ∃ key, SwitchedOn numerals checked.mlStats key := by
    by_contra off
    rw [not_exists] at off
    have nothing : melissaGetOptions numbers (words isSpace cmdOpt) = none :=
      melissaGetOptions_noOperation launched.created ((opStr_eq_nil named).mpr off)
    rw [nothing] at parse
    exact (nomatch parse)
  rw [melissaGetOptions_created launched.laws launched.host launched.plain launched.created named
    on] at parse
  obtain ⟨base, front, parse⟩ := Option.bind_eq_some_iff.mp parse
  obtain ⟨parsed, tail, parse⟩ := Option.bind_eq_some_iff.mp parse
  obtain ⟨operations, read, ints, quantiles, thresholds, timeout, waits, result⟩ :=
    (run_serverPairs launched base).mp front
  obtain ⟨operations', read', has, rest⟩ := getOperations_opStr named on initOptions
  have sameOperations : operations' = operations := Option.some.inj (read'.symm.trans read)
  subst sameOperations
  obtain ⟨plainly, learning⟩ :=
    carries_commandResult launched.nbParam launched.defaulted has rest result
  have flag : parsed.disableFaultTolerance = study.stdyOpt.disableFaultTolerance.getD false := by
    rw [← checkParsed_flag parse]
    exact matching.disableFaultTolerance
  obtain ⟨carries, path⟩ :=
    carries_of_tail launched plainPath plainly learning tail flag
  obtain ⟨op, isNamed⟩ := named key on
  have onParsed : parsed.has op = true := (carries.has op).mpr ⟨key, on, isNamed⟩
  obtain ⟨accepted, rfl⟩ := (checkParsed_of_has onParsed).mp parse
  obtain ⟨sample, parameters, timeSteps⟩ := (accepted_iff carries launched.created
    launched.someParam launched.someSample).mp accepted
  obtain ⟨asked, kept, sameThresholds, sameQuantiles⟩ := (matches_iff launched.laws
    (carries_correctValues carries) named launched.fewer).mp matching
  exact ⟨asked, named, ⟨key, on⟩, kept, sample, parameters, timeSteps, ints,
    Option.isSome_iff_exists.mpr ⟨timeout, waits⟩, ⟨thresholds, sameThresholds⟩,
    ⟨quantiles, sameQuantiles⟩, path⟩

/-- The command line of a study gets through the server's parser with what the study asks for
exactly when the study can be sent. -/
theorem serverOptions_agree {installPrefix : List Char} (laws : NumeralLaws numerals numbers)
    (host : HostName nodeName) (plain : PlainFields study)
    (passed : (checkOptions numerals installPrefix study).1 = 0)
    (created : createOptions numerals nodeName (checkOptions numerals installPrefix study).2 =
      some cmdOpt) :
    (Conveyable numerals numbers study (checkOptions numerals installPrefix study).2 →
      Agrees numerals numbers study (checkOptions numerals installPrefix study).2 cmdOpt) ∧
    (PlainPath (checkOptions numerals installPrefix study).2 →
      Agrees numerals numbers study (checkOptions numerals installPrefix study).2 cmdOpt →
      Conveyable numerals numbers study (checkOptions numerals installPrefix study).2) := by
  have launched := launched_of_checked laws host plain passed created
  exact ⟨agrees_of_conveyable launched, conveyable_of_agrees launched⟩

end Agreement

section Example

/-- The C library on whole numbers. -/
def intNumbers : CNumbers Int :=
  { atof := atoi, toInt := fun i => if -2 ^ 31 ≤ i ∧ i < 2 ^ 31 then some i else none }

theorem intNumeralLaws : NumeralLaws intNumerals intNumbers := by
  refine ⟨fun i => ⟨decimal_ne_nil i, (isWord_decimal_space i).2, fun colon => ?_⟩,
    atoi_decimal, fun c text letter _ => atoi_letter letter text, by decide⟩
  rcases mem_decimal colon with same | digit
  · exact absurd same (by decide)
  · exact absurd digit (by decide)

/-- Thresholds and quantiles under the names that `check_options` replaces. -/
private def fourOperations : LauncherStudy Int :=
  { stdyOpt :=
      { samplingSize := 30, nbTimesteps := 10, fieldNames := ["heat1".toList, "heat2".toList]
        checkpointInterval := 300, simulationTimeout := 400, verbosity := none
        batchSize := none, sendPort := none, recvPort := none, respPort := none
        dataPort := none, learning := none, nnPath := none, disableFaultTolerance := none
        thresholdValue := some (.values [7, 12]), thresholdValues := none
        quantileValue := none, quantileValues := some (.values [1]) }
    mlStats := [("mean", .flag true), ("min", .flag true), ("threshold_exceedance", .flag true),
      ("quantile", .flag true)]
    usrFunc := ["launch_server", "launch_group", "check_job", "cancel_job"]
    nbParam := 2 }

private def fourOperationsLine : List Char :=
  "-o mean:min:quantiles:threshold_exceedances".toList ++ " -p 2 -s 30 -t 10 -q 1 -e 7:12".toList ++
    " -c 300 -w 400 -f heat1:heat2 -v 2".toList ++
    " --txt_push_port 5555 --txt_pull_port 5556".toList ++
    " --txt_req_port 5554 --data_port 2006 -n node1".toList

/-- The keys that are on, as a list. -/
theorem switchedOn_iff {D : Type} {numerals : Numerals D} {mlStats : Dict (StatValue D)}
    {key : String} : SwitchedOn numerals mlStats key ↔
      key ∈ (mlStats.filter fun entry => entry.2.truthy numerals).map Prod.fst := by
  unfold SwitchedOn
  rw [List.mem_map]
  constructor
  · rintro ⟨value, member, truthy⟩
    exact ⟨(key, value), List.mem_filter.mpr ⟨member, truthy⟩, rfl⟩
  · rintro ⟨⟨name, value⟩, member, rfl⟩
    obtain ⟨present, truthy⟩ := List.mem_filter.mp member
    exact ⟨value, present, truthy⟩

private theorem fourOperations_conveyable :
    Conveyable intNumerals intNumbers fourOperations
      (checkOptions intNumerals [] fourOperations).2 := by
  have after : ∀ key,
      SwitchedOn intNumerals (checkOptions intNumerals [] fourOperations).2.mlStats key ↔
        key ∈ ["mean", "min", "quantiles", "threshold_exceedances"] := by
    have found : (((checkOptions intNumerals [] fourOperations).2.mlStats.filter fun entry =>
        entry.2.truthy intNumerals).map Prod.fst) =
        ["mean", "min", "quantiles", "threshold_exceedances"] := by decide +kernel
    intro key
    rw [switchedOn_iff, found]
  have thresholdsOn : (checkOptions intNumerals [] fourOperations).2.mlStats.isOn intNumerals
      "threshold_exceedances" = true := by decide +kernel
  have quantilesOn : (checkOptions intNumerals [] fourOperations).2.mlStats.isOn intNumerals
      "quantiles" = true := by decide +kernel
  have thresholds : (checkOptions intNumerals [] fourOperations).2.stdyOpt.thresholdValues =
      some (.values [7, 12]) := by decide +kernel
  have quantiles : (checkOptions intNumerals [] fourOperations).2.stdyOpt.quantileValues =
      some (.values [1]) := by decide +kernel
  refine ⟨by decide, ?_, ⟨"mean", (after "mean").mpr (by decide)⟩, ?_, Or.inr (by decide),
    fun _ => by decide, by decide, ?_, rfl, ⟨?_, fun _ => ⟨_, thresholds, ?_⟩⟩,
    ⟨?_, fun _ => ⟨_, quantiles, ?_⟩⟩, fun learning => (nomatch learning)⟩
  · intro key on
    have all : ∀ key ∈ ["mean", "min", "quantiles", "threshold_exceedances"],
        ∃ op ∈ allOperations, op.IsNamed key.toList := by decide
    obtain ⟨op, _, named⟩ := all key ((after key).mp on)
    exact ⟨op, named⟩
  · rintro op ⟨key, on, named⟩
    have all : ∀ key ∈ ["mean", "min", "threshold_exceedance", "quantile"],
        ∀ op ∈ allOperations, op.IsNamed key.toList →
          ∃ other ∈ ["mean", "min", "quantiles", "threshold_exceedances"],
            op.IsNamed other.toList := by decide
    obtain ⟨other, member, isNamed⟩ :=
      all key (switchedOn_iff.mp on) op (mem_allOperations op) named
    exact ⟨other, (after other).mpr member, isNamed⟩
  · unfold IsInt
    decide +kernel
  · rw [thresholdsOn, thresholds]
    rintro ⟨part, first, dash⟩
    cases first
    exact absurd dash (by decide)
  · rw [if_pos thresholdsOn]
    exact fun same => (nomatch same)
  · rw [quantilesOn, quantiles]
    rintro ⟨part, first, dash⟩
    cases first
    exact absurd dash (by decide)
  · rw [if_pos quantilesOn]
    exact fun same => (nomatch same)

private theorem node1 : HostName "node1".toList :=
  ⟨⟨by decide, List.all_iff_forall_prop.mp (by decide)⟩, by decide⟩

private theorem heatFields : PlainFields fourOperations := by
  have all : ∀ field ∈ ["heat1".toList, "heat2".toList],
      field ≠ [] ∧ (field.all fun c => decide (isSpace c = false)) = true ∧ ':' ∉ field ∧
        field.head? ≠ some '-' := by
    decide
  intro field member
  obtain ⟨filled, noSpace, noColon, noDash⟩ := all field member
  exact ⟨⟨filled, List.all_iff_forall_prop.mp noSpace, noColon⟩, noDash⟩

theorem serverOptions_agree_fourOperations :
    (checkOptions intNumerals [] fourOperations).1 = 0 ∧
      createOptions intNumerals "node1".toList (checkOptions intNumerals [] fourOperations).2 =
        some fourOperationsLine ∧
      Agrees intNumerals intNumbers fourOperations (checkOptions intNumerals [] fourOperations).2
        fourOperationsLine := by
  have passed : (checkOptions intNumerals [] fourOperations).1 = 0 := by decide +kernel
  have created : createOptions intNumerals "node1".toList
      (checkOptions intNumerals [] fourOperations).2 = some fourOperationsLine := by
    decide +kernel
  exact ⟨passed, created,
    (serverOptions_agree intNumeralLaws node1 heatFields passed created).1
      fourOperations_conveyable⟩

/-- The same study without fault tolerance. -/
private def noFaultTolerance : LauncherStudy Int :=
  { fourOperations with
    stdyOpt := { fourOperations.stdyOpt with disableFaultTolerance := some true } }

/-- The server does not know `--disable_fault_tolerancel`. -/
theorem not_serverOptions_agree_noFaultTolerance :
    ¬ ∀ (study : LauncherStudy Int) (nodeName cmdOpt installPrefix : List Char),
      HostName nodeName → PlainFields study →
      (checkOptions intNumerals installPrefix study).1 = 0 →
      createOptions intNumerals nodeName (checkOptions intNumerals installPrefix study).2 =
        some cmdOpt →
      Agrees intNumerals intNumbers study (checkOptions intNumerals installPrefix study).2
        cmdOpt := by
  intro always
  have written : (createOptions intNumerals "node1".toList
      (checkOptions intNumerals [] noFaultTolerance).2).isSome = true := by decide +kernel
  have exits : ((createOptions intNumerals "node1".toList
      (checkOptions intNumerals [] noFaultTolerance).2).bind fun cmdOpt =>
        melissaGetOptions intNumbers (words isSpace cmdOpt)) = none := by decide +kernel
  obtain ⟨cmdOpt, created⟩ := Option.isSome_iff_exists.mp written
  obtain ⟨options, accepted, _⟩ := always noFaultTolerance "node1".toList cmdOpt [] node1
    heatFields (by decide +kernel) created
  rw [created, Option.bind_some, accepted] at exits
  exact (nomatch exits)

end Example

end Melissa
