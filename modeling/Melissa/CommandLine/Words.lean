import Melissa.CommandLine.Lists

/-! The words of `cmd_opt`, and what `getopt_long` finds in them. -/

namespace Melissa

open Getopt Text

section Options

variable {D : Type}

/-- The options of `cmd_opt` that always are there, with their arguments. -/
def commandPairs (numerals : Numerals D) (nodeName : List Char) (study : LauncherStudy D)
    (fieldStr quantileStr thresholdStr : List Char) : List ((String × OptVal) × Arg) :=
  let stdyOpt := study.stdyOpt
  [(("-o", .letter 'o'), opStr numerals study.mlStats),
    (("-p", .letter 'p'), decimal study.nbParam),
    (("-s", .letter 's'), decimal stdyOpt.samplingSize),
    (("-t", .letter 't'), decimal stdyOpt.nbTimesteps),
    (("-q", .letter 'q'), quantileStr),
    (("-e", .letter 'e'), thresholdStr),
    (("-c", .letter 'c'), numerals.str stdyOpt.checkpointInterval),
    (("-w", .letter 'w'), numerals.str stdyOpt.simulationTimeout),
    (("-f", .letter 'f'), fieldStr),
    (("-v", .letter 'v'), decimal (stdyOpt.verbosity.getD 0)),
    (("--txt_push_port", .number 1000), decimal (stdyOpt.recvPort.getD 0)),
    (("--txt_pull_port", .number 1001), decimal (stdyOpt.sendPort.getD 0)),
    (("--txt_req_port", .number 1003), decimal (stdyOpt.respPort.getD 0)),
    (("--data_port", .number 1002), decimal (stdyOpt.dataPort.getD 0)),
    (("-n", .letter 'n'), nodeName)]

def pairWords (pairs : List ((String × OptVal) × Arg)) : List Arg :=
  pairs.flatMap fun pair => [pair.1.1.toList, pair.2]

theorem commandWords_eq (numerals : Numerals D) (nodeName : List Char) (study : LauncherStudy D)
    (fieldStr quantileStr thresholdStr : List Char) :
    commandWords numerals nodeName study fieldStr quantileStr thresholdStr =
      pairWords (commandPairs numerals nodeName study fieldStr quantileStr thresholdStr) := rfl

/-- The options with an argument that the launcher writes. -/
def writtenOptions : List (String × OptVal) :=
  [("-o", .letter 'o'), ("-p", .letter 'p'), ("-s", .letter 's'), ("-t", .letter 't'),
    ("-q", .letter 'q'), ("-e", .letter 'e'), ("-c", .letter 'c'), ("-w", .letter 'w'),
    ("-f", .letter 'f'), ("-v", .letter 'v'), ("--txt_push_port", .number 1000),
    ("--txt_pull_port", .number 1001), ("--txt_req_port", .number 1003),
    ("--data_port", .number 1002), ("-n", .letter 'n'), ("-l", .letter 'l')]

theorem getoptLong_written {option : String × OptVal} (written : option ∈ writtenOptions)
    (arg : Arg) (rest : List Arg) :
    getoptLong serverSpec (option.1.toList :: arg :: rest) =
      .option option.2 (some arg) :: getoptLong serverSpec rest := by
  have letter : ∀ c : Char, shortTakesArg serverSpec.opts c = some true → c ≠ '-' →
      getoptLong serverSpec (['-', c] :: arg :: rest) =
        .option (.letter c) (some arg) :: getoptLong serverSpec rest :=
    fun c known notLong => getoptLong_short serverSpec known notLong arg rest
  have long : ∀ (name : String) (number : Nat),
      findLong longOpts name.toList = some ⟨name, true, .number number⟩ →
        '=' ∉ name.toList → name.toList ≠ [] →
          getoptLong serverSpec (('-' :: '-' :: name.toList) :: arg :: rest) =
            .option (.number number) (some arg) :: getoptLong serverSpec rest :=
    fun name number known noValue filled =>
      getoptLong_long serverSpec filled noValue known rfl arg rest
  simp only [writtenOptions, List.mem_cons, List.not_mem_nil, or_false] at written
  rcases written with rfl | rfl | rfl | rfl | rfl | rfl | rfl | rfl | rfl | rfl | rfl | rfl | rfl |
    rfl | rfl | rfl
  · exact letter 'o' (by decide) (by decide)
  · exact letter 'p' (by decide) (by decide)
  · exact letter 's' (by decide) (by decide)
  · exact letter 't' (by decide) (by decide)
  · exact letter 'q' (by decide) (by decide)
  · exact letter 'e' (by decide) (by decide)
  · exact letter 'c' (by decide) (by decide)
  · exact letter 'w' (by decide) (by decide)
  · exact letter 'f' (by decide) (by decide)
  · exact letter 'v' (by decide) (by decide)
  · exact long "txt_push_port" 1000 (by decide) (by decide) (by decide)
  · exact long "txt_pull_port" 1001 (by decide) (by decide) (by decide)
  · exact long "txt_req_port" 1003 (by decide) (by decide) (by decide)
  · exact long "data_port" 1002 (by decide) (by decide) (by decide)
  · exact letter 'n' (by decide) (by decide)
  · exact letter 'l' (by decide) (by decide)

def foundPairs (pairs : List ((String × OptVal) × Arg)) : List (Found OptVal) :=
  pairs.map fun pair => .option pair.1.2 (some pair.2)

theorem getoptLong_pairs {pairs : List ((String × OptVal) × Arg)}
    (written : ∀ pair ∈ pairs, pair.1 ∈ writtenOptions) (rest : List Arg) :
    getoptLong serverSpec (pairWords pairs ++ rest) =
      foundPairs pairs ++ getoptLong serverSpec rest := by
  induction pairs with
  | nil => rfl
  | cons pair pairs ih =>
      rw [List.forall_mem_cons] at written
      have first := getoptLong_written written.1 pair.2 (pairWords pairs ++ rest)
      rw [ih written.2] at first
      exact first

/-- What follows the options that always are there. -/
def learnWords (stdyOpt : StudyOptions D) : List Arg :=
  if stdyOpt.learning = some true then "-l".toList :: words isSpace (stdyOpt.nnPath.getD [])
  else []

def faultWords (stdyOpt : StudyOptions D) : List Arg :=
  if stdyOpt.disableFaultTolerance = some true then ["--disable_fault_tolerancel".toList] else []

theorem words_fault (cmdOpt : List Char) :
    words isSpace (cmdOpt ++ " --disable_fault_tolerancel".toList) =
      words isSpace cmdOpt ++ ["--disable_fault_tolerancel".toList] := by
  have flag : IsWord isSpace "--disable_fault_tolerancel".toList :=
    ⟨by decide, List.all_iff_forall_prop.mp (by decide)⟩
  change words isSpace (cmdOpt ++ ' ' :: "--disable_fault_tolerancel".toList) = _
  rw [words_append_cons rfl, words_word flag]

theorem words_learn (cmdOpt nnPath : List Char) :
    words isSpace (cmdOpt ++ " -l ".toList ++ nnPath) =
      words isSpace cmdOpt ++ "-l".toList :: words isSpace nnPath := by
  have flag : IsWord isSpace "-l".toList :=
    ⟨by decide, List.all_iff_forall_prop.mp (by decide)⟩
  rw [List.append_assoc]
  change words isSpace (cmdOpt ++ ' ' :: ("-l".toList ++ ' ' :: nnPath)) = _
  rw [words_append_cons rfl, words_cons flag rfl]

/-- The words of `cmd_opt`, when `create_options` gets to its end. -/
theorem createOptions_words {numerals : Numerals D} {nodeName cmdOpt : List Char}
    {study : LauncherStudy D} (created : createOptions numerals nodeName study = some cmdOpt) :
    colons study.stdyOpt.fieldNames ≠ [] ∧
      (study.stdyOpt.learning ≠ some true → opStr numerals study.mlStats ≠ []) ∧
      ∃ quantileStr thresholdStr,
        valueStr numerals (study.mlStats.isOn numerals "quantiles") study.stdyOpt.quantileValues =
            some quantileStr ∧
          valueStr numerals (study.mlStats.isOn numerals "threshold_exceedances")
              study.stdyOpt.thresholdValues = some thresholdStr ∧
          words isSpace cmdOpt =
            (pairWords (commandPairs numerals nodeName study (colons study.stdyOpt.fieldNames)
                quantileStr thresholdStr)).flatMap (words isSpace) ++
              learnWords study.stdyOpt ++ faultWords study.stdyOpt := by
  unfold createOptions at created
  dsimp only at created
  split at created
  · cases created
  rename_i filled
  obtain ⟨quantileStr, quantiles, created⟩ := Option.bind_eq_some_iff.mp created
  obtain ⟨thresholdStr, thresholds, created⟩ := Option.bind_eq_some_iff.mp created
  have ended : ∀ joined, some (if study.stdyOpt.disableFaultTolerance = some true
      then joined ++ " --disable_fault_tolerancel".toList else joined) = some cmdOpt →
        words isSpace cmdOpt = words isSpace joined ++ faultWords study.stdyOpt := by
    intro joined finished
    cases finished
    unfold faultWords
    split
    · exact words_fault joined
    · rw [List.append_nil]
  refine ⟨filled, ?_⟩
  rw [← exists_and_left]
  refine ⟨quantileStr, ?_⟩
  rw [← exists_and_left]
  refine ⟨thresholdStr, ?_⟩
  rw [← commandWords_eq, ← words_intercalate_flatMap (c := ' ') rfl, learnWords]
  split at created
  · rename_i learning
    obtain ⟨joined, learnt, created⟩ := Option.bind_eq_some_iff.mp created
    obtain ⟨nnPath, path, rfl⟩ := Option.map_eq_some_iff.mp learnt
    refine ⟨fun off => absurd learning off, quantiles, thresholds, ?_⟩
    rw [if_pos learning, path, Option.getD_some, ended _ created, words_learn]
  · rename_i off
    split at created
    · cases created
    · rename_i chosen
      refine ⟨fun _ => chosen, quantiles, thresholds, ?_⟩
      rw [if_neg off, List.append_nil, ended _ created]

end Options

end Melissa
