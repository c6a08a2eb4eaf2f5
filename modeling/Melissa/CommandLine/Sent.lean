import Melissa.CommandLine.Words

/-! The options that the server reads from the words of `cmd_opt`. -/

namespace Melissa

open Getopt Runs Text

section Sent

variable {D : Type}

/-- The list that `create_options` sends for an operation. -/
def sentParts (numerals : Numerals D) (on : Bool) (values : Option (StatValue D)) :
    List (List Char) :=
  if on then (values.map (StatValue.strings numerals)).getD [] else ["0".toList]

theorem valueStr_parts {numerals : Numerals D} {on : Bool} {values : Option (StatValue D)}
    {text : List Char}
    (written : valueStr numerals on values = some text) :
    text = colons (sentParts numerals on values) ∧ sentParts numerals on values ≠ [] := by
  unfold valueStr at written
  unfold sentParts
  cases on with
  | false =>
      cases written
      exact ⟨rfl, List.cons_ne_nil _ _⟩
  | true =>
      obtain ⟨value, present, written⟩ := Option.bind_eq_some_iff.mp written
      rw [present, if_pos rfl, Option.map_some, Option.getD_some]
      dsimp only at written
      split at written
      · cases written
      · rename_i filled
        cases written
        exact ⟨rfl, fun empty => filled (by rw [empty]; rfl)⟩

end Sent

section Laws

variable {D : Type} [Zero D] [One D]

/-- `str` of a Python number and `atof` of the C library: a number comes back, and a text that
begins with another letter than those of `inf` and `nan` is 0. -/
structure NumeralLaws (numerals : Numerals D) (numbers : CNumbers D) : Prop where
  isPart : ∀ x, IsPart (numerals.str x)
  atof_str : ∀ x, numbers.atof (numerals.str x) = x
  atof_text : ∀ c text, c.isAlpha = true → c ∉ ['i', 'I', 'n', 'N'] → numbers.atof (c :: text) = 0
  zero_ne_one : (0 : D) ≠ 1

/-- The numbers that a value of the study stands for. -/
def StatValue.numbers : StatValue D → List D
  | .flag on => [if on then 1 else 0]
  | .number value => [value]
  | .values list => list

variable {numerals : Numerals D} {numbers : CNumbers D}

theorem strings_isPart (laws : NumeralLaws numerals numbers) (value : StatValue D) :
    ∀ part ∈ value.strings numerals, IsPart part := by
  have yes : IsPart "True".toList :=
    ⟨by decide, List.all_iff_forall_prop.mp (by decide), by decide⟩
  have no : IsPart "False".toList :=
    ⟨by decide, List.all_iff_forall_prop.mp (by decide), by decide⟩
  intro part member
  cases value with
  | flag on =>
      rw [List.mem_singleton.mp member]
      cases on with
      | true => exact yes
      | false => exact no
  | number x =>
      rw [List.mem_singleton.mp member]
      exact laws.isPart x
  | values list =>
      obtain ⟨x, _, rfl⟩ := List.mem_map.mp member
      exact laws.isPart x

theorem sentParts_isPart (laws : NumeralLaws numerals numbers) (on : Bool)
    (values : Option (StatValue D)) : ∀ part ∈ sentParts numerals on values, IsPart part := by
  have zero : IsPart "0".toList :=
    ⟨by decide, List.all_iff_forall_prop.mp (by decide), by decide⟩
  intro part member
  unfold sentParts at member
  split at member
  · cases values with
    | none => exact absurd member List.not_mem_nil
    | some value => exact strings_isPart laws value part member
  · rw [List.mem_singleton.mp member]
    exact zero

/-- The server gets the numbers of a value, unless the value is `True`. -/
theorem atof_strings (laws : NumeralLaws numerals numbers) (value : StatValue D) :
    (value.strings numerals).map numbers.atof = value.numbers ↔ value ≠ .flag true := by
  have yes : numbers.atof "True".toList = 0 := laws.atof_text 'T' _ (by decide) (by decide)
  have no : numbers.atof "False".toList = 0 := laws.atof_text 'F' _ (by decide) (by decide)
  cases value with
  | flag on =>
      cases on with
      | true =>
          change [numbers.atof "True".toList] = [(1 : D)] ↔ _
          rw [yes]
          exact ⟨fun same => absurd (List.cons.inj same).1 laws.zero_ne_one,
            fun other => absurd rfl other⟩
      | false =>
          change [numbers.atof "False".toList] = [(0 : D)] ↔ _
          rw [no]
          exact ⟨fun _ same => (nomatch same), fun _ => rfl⟩
  | number x =>
      change [numbers.atof (numerals.str x)] = [x] ↔ _
      rw [laws.atof_str]
      exact ⟨fun _ same => (nomatch same), fun _ => rfl⟩
  | values list =>
      have back : (list.map numerals.str).map numbers.atof = list := by
        rw [List.map_map]
        exact (List.map_congr_left fun x _ => laws.atof_str x).trans (List.map_id' list)
      exact ⟨fun _ same => (nomatch same), fun _ => back⟩

end Laws

section Keys

variable {D : Type} {numerals : Numerals D}

/-- The keys that `opStr` joins. -/
def onKeys (numerals : Numerals D) (mlStats : Dict (StatValue D)) : List (List Char) :=
  (mlStats.filter fun entry => entry.2.truthy numerals).map fun entry => entry.1.toList

theorem mem_onKeys {mlStats : Dict (StatValue D)} {part : List Char} :
    part ∈ onKeys numerals mlStats ↔
      ∃ key : String, SwitchedOn numerals mlStats key ∧ key.toList = part := by
  unfold onKeys SwitchedOn
  rw [List.mem_map]
  constructor
  · rintro ⟨⟨key, value⟩, member, same⟩
    obtain ⟨present, truthy⟩ := List.mem_filter.mp member
    exact ⟨key, ⟨value, present, truthy⟩, same⟩
  · rintro ⟨key, ⟨value, present, truthy⟩, same⟩
    exact ⟨(key, value), List.mem_filter.mpr ⟨present, truthy⟩, same⟩

/-- Every key that is on names an operation of the server. -/
def AllNamed (numerals : Numerals D) (mlStats : Dict (StatValue D)) : Prop :=
  ∀ key, SwitchedOn numerals mlStats key → ∃ op : Operation, op.IsNamed key.toList

theorem toLower_eq_self {c : Char} (small : c.toNat < 65) : c.toLower = c := by
  have below : ¬ ('A'.val ≤ c.val ∧ c.val ≤ 'Z'.val) := by
    rintro ⟨low, _⟩
    have above : 65 ≤ c.toNat := low
    omega
  unfold Char.toLower
  rw [dif_neg below]

/-- The characters of the names are letters and underscores. -/
theorem names_clean (op : Operation) (name : String) (member : name ∈ op.names) :
    name.toList ≠ [] ∧ ∀ c ∈ name.toList, 65 ≤ c.toNat := by
  have all : ∀ op ∈ allOperations, ∀ name ∈ op.names,
      name.toList ≠ [] ∧ (name.toList.all fun c => decide (65 ≤ c.toNat)) = true := by
    decide
  obtain ⟨filled, letters⟩ := all op (mem_allOperations op) name member
  exact ⟨filled, List.all_iff_forall_prop.mp letters⟩

theorem isNamed_clean {op : Operation} {key : List Char} (named : op.IsNamed key) :
    key ≠ [] ∧ ∀ c ∈ key, 65 ≤ c.toNat := by
  obtain ⟨name, member, same⟩ := named
  obtain ⟨filled, clean⟩ := names_clean op name member
  constructor
  · rintro rfl
    exact filled same
  · intro c inside
    by_contra small
    have lower := clean c (by
      rw [same, List.mem_map]
      exact ⟨c, inside, toLower_eq_self (by omega)⟩)
    exact small lower

theorem isPart_of_isNamed {op : Operation} {key : List Char} (named : op.IsNamed key) :
    IsPart key ∧ key.head? ≠ some '-' := by
  obtain ⟨filled, clean⟩ := isNamed_clean named
  have large : ∀ c : Char, c.toNat < 65 → c ∉ key := fun c small member =>
    absurd (clean c member) (by omega)
  refine ⟨⟨filled, fun c member => ?_, large ':' (by decide)⟩, fun dash => ?_⟩
  · have above := clean c member
    unfold isSpace
    rw [Bool.or_eq_false_iff, Bool.and_eq_false_iff, beq_eq_false_iff_ne,
      decide_eq_false_iff_not, decide_eq_false_iff_not]
    refine ⟨?_, Or.inr (by omega)⟩
    rintro rfl
    exact large ' ' (by decide) member
  · exact large '-' (by decide) (List.mem_of_head? dash)

theorem onKeys_isPart {mlStats : Dict (StatValue D)} (named : AllNamed numerals mlStats) :
    ∀ part ∈ onKeys numerals mlStats, IsPart part ∧ part.head? ≠ some '-' := by
  intro part member
  obtain ⟨key, on, rfl⟩ := mem_onKeys.mp member
  obtain ⟨op, isNamed⟩ := named key on
  exact isPart_of_isNamed isNamed

theorem opStr_eq_nil {mlStats : Dict (StatValue D)} (named : AllNamed numerals mlStats) :
    opStr numerals mlStats = [] ↔ ∀ key, ¬ SwitchedOn numerals mlStats key := by
  change colons (onKeys numerals mlStats) = [] ↔ _
  constructor
  · intro empty key on
    have nonempty : onKeys numerals mlStats ≠ [] :=
      List.ne_nil_of_mem (mem_onKeys.mpr ⟨key, on, rfl⟩)
    exact colons_ne_nil (fun part member => (onKeys_isPart named part member).1) nonempty empty
  · intro off
    have empty : onKeys numerals mlStats = [] := by
      rw [List.eq_nil_iff_forall_not_mem]
      intro part member
      obtain ⟨key, on, _⟩ := mem_onKeys.mp member
      exact off key on
    rw [empty]
    rfl

/-- `get_operations` on the keys that are on. -/
theorem getOperations_opStr {mlStats : Dict (StatValue D)} {key : String}
    (named : AllNamed numerals mlStats) (on : SwitchedOn numerals mlStats key)
    (options : ParsedOptions D) :
    ∃ options', getOperations options (opStr numerals mlStats) = some options' ∧
      (∀ op, options'.has op = true ↔ Requested numerals mlStats op) ∧
      options'.withoutOperations = options.withoutOperations := by
  have parts := onKeys_isPart named
  have tokens : ∀ token ∈ onKeys numerals mlStats, ∃ op : Operation, op.IsNamed token := by
    intro token member
    obtain ⟨key, on, rfl⟩ := mem_onKeys.mp member
    exact named key on
  obtain ⟨options', read⟩ := run_readOperation_isSome tokens options.withoutOperations
  obtain ⟨_, has, rest⟩ := run_readOperation read
  refine ⟨options', ?_, fun op => ?_, rest⟩
  · change getOperations options (colons (onKeys numerals mlStats)) = some options'
    rw [getOperations_colons options (fun part member => (parts part member).1)
      (fun part member => (parts part member).2)
      (List.ne_nil_of_mem (mem_onKeys.mpr ⟨key, on, rfl⟩)), read]
  · rw [has, has_withoutOperations]
    simp only [Bool.false_eq_true, false_or, mem_onKeys]
    constructor
    · rintro ⟨_, ⟨key, on, rfl⟩, isNamed⟩
      exact ⟨key, on, isNamed⟩
    · rintro ⟨key, on, isNamed⟩
      exact ⟨_, ⟨key, on, rfl⟩, isNamed⟩

end Keys

section Parsed

variable {D : Type}

/-- The numbers that an `int` can hold. -/
def IsInt (i : Int) : Prop :=
  -2 ^ 31 ≤ i ∧ i < 2 ^ 31

theorem intArg_decimal {i j : Int} : intArg (decimal i) = some j ↔ IsInt i ∧ j = i := by
  rw [intArg, atoi_decimal]
  unfold IsInt
  split
  · rename_i inside
    rw [Option.some.injEq]
    exact ⟨fun same => ⟨inside, same.symm⟩, fun both => both.2.symm⟩
  · rename_i outside
    exact ⟨fun same => (nomatch same), fun both => absurd both.1 outside⟩

/-- The integers in the command line. -/
def sentInts (study : LauncherStudy D) : List Int :=
  [(study.nbParam : Int), study.stdyOpt.samplingSize, study.stdyOpt.nbTimesteps,
    study.stdyOpt.verbosity.getD 0, study.stdyOpt.recvPort.getD 0,
    study.stdyOpt.sendPort.getD 0, study.stdyOpt.respPort.getD 0,
    study.stdyOpt.dataPort.getD 0]

/-- The name of the launcher's node: a host name or an address. -/
structure HostName (nodeName : List Char) : Prop where
  isWord : IsWord isSpace nodeName
  short : (Utf8.encode nodeName).length < 256

/-- The fields of the study are written without blanks, colons and dashes at the front. -/
def PlainFields (study : LauncherStudy D) : Prop :=
  ∀ field ∈ study.stdyOpt.fieldNames, IsPart field ∧ field.head? ≠ some '-'

/-- The server's options after the options that always are there. -/
def commandResult (numerals : Numerals D) (numbers : CNumbers D) (nodeName : List Char)
    (study : LauncherStudy D) (quantileParts thresholdParts : List (List Char)) (timeout : Int)
    (named : ParsedOptions D) : ParsedOptions D :=
  { named with
    nbParameters := study.nbParam
    samplingSize := study.stdyOpt.samplingSize
    nbTimeSteps := study.stdyOpt.nbTimesteps
    quantileOrder := quantileParts.map numbers.atof
    threshold := thresholdParts.map numbers.atof
    checkInterval := numbers.atof (numerals.str study.stdyOpt.checkpointInterval)
    timeoutSimu := timeout
    nbFields := study.stdyOpt.fieldNames.length
    verboseLvl := study.stdyOpt.verbosity.getD 0
    txtPushPort := study.stdyOpt.recvPort.getD 0
    txtPullPort := study.stdyOpt.sendPort.getD 0
    txtReqPort := study.stdyOpt.respPort.getD 0
    dataPort := study.stdyOpt.dataPort.getD 0
    launcherName := nodeName }

theorem run_commandPairs [Zero D] [NatCast D] {numerals : Numerals D} {numbers : CNumbers D}
    {nodeName : List Char} {study : LauncherStudy D}
    {quantileParts thresholdParts : List (List Char)} {base : ParsedOptions D}
    (host : HostName nodeName) (plain : PlainFields study)
    (someField : study.stdyOpt.fieldNames ≠ [])
    (quantiles : (∀ part ∈ quantileParts, IsPart part) ∧ quantileParts ≠ [])
    (thresholds : (∀ part ∈ thresholdParts, IsPart part) ∧ thresholdParts ≠ []) :
    run (readOption numbers) initOptions
        (foundPairs (commandPairs numerals nodeName study (colons study.stdyOpt.fieldNames)
          (colons quantileParts) (colons thresholdParts))) = some base ↔
      ∃ named, getOperations initOptions (opStr numerals study.mlStats) = some named ∧
        (∀ i ∈ sentInts study, IsInt i) ∧ ¬ FirstDash quantileParts ∧ ¬ FirstDash thresholdParts ∧
          ∃ timeout,
            numbers.toInt (numbers.atof (numerals.str study.stdyOpt.simulationTimeout)) =
                some timeout ∧
              base = commandResult numerals numbers nodeName study quantileParts thresholdParts
                timeout named := by
  have fields := getNbFields_colons (fun field member => (plain field member).1) someField
    fun field member => (plain field member).2
  have node : copyArg nodeName = some nodeName := if_pos host.short
  simp only [foundPairs, commandPairs, List.map_cons, List.map_nil, run_cons, run_nil, readOption,
    Option.bind_eq_some_iff, Option.map_eq_some_iff, intArg_decimal,
    getValues_colons quantiles.1 quantiles.2, getValues_colons thresholds.1 thresholds.2, fields,
    node]
  simp only [and_assoc, exists_eq_left, exists_and_left, exists_exists_and_eq_and,
    exists_eq_left', Option.some.injEq]
  simp only [sentInts, List.forall_mem_cons, List.not_mem_nil, false_implies, implies_true,
    and_true]
  constructor
  · rintro ⟨named, operations, p, s, t, q, e, timeout, waits, v, push, pull, req, data, rfl⟩
    exact ⟨named, operations, ⟨p, s, t, v, push, pull, req, data⟩, q, e, timeout, waits, rfl⟩
  · rintro ⟨named, operations, ⟨p, s, t, v, push, pull, req, data⟩, q, e, timeout, waits, rfl⟩
    exact ⟨named, operations, p, s, t, q, e, timeout, waits, v, push, pull, req, data, rfl⟩

/-- The options behind the others: the learning mode and the end of fault tolerance. -/
theorem getoptLong_tail {stdyOpt : StudyOptions D} :
    getoptLong serverSpec (faultWords stdyOpt) =
      if stdyOpt.disableFaultTolerance = some true then [.unknown] else [] := by
  have unknown : getoptLong serverSpec ["--disable_fault_tolerancel".toList] = [.unknown] :=
    getoptLong_unknown serverSpec (by decide) (by decide) (by decide) []
  unfold faultWords
  split
  · exact unknown
  · rfl

theorem getoptLong_learn {stdyOpt : StudyOptions D} {path : List Char} {rest : List Arg}
    (learning : stdyOpt.learning = some true)
    (written : words isSpace (stdyOpt.nnPath.getD []) = path :: rest)
    (operands : ∀ word ∈ rest, IsOperand word) (back : List Arg) :
    getoptLong serverSpec (learnWords stdyOpt ++ back) =
      .option (.letter 'l') (some path) :: getoptLong serverSpec back := by
  have option : ("-l", OptVal.letter 'l') ∈ writtenOptions := by decide
  rw [learnWords, if_pos learning, written]
  have first := getoptLong_written option path (rest ++ back)
  rw [getoptLong_operands serverSpec operands] at first
  exact first

end Parsed

end Melissa
