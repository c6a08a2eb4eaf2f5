import Melissa.Base.Getopt
import Melissa.Base.Runs
import Melissa.Base.Text
import Melissa.Base.Utf8
import Melissa.Options

/-! `melissa_get_options`: the command line of the server. A step that exits, or whose behaviour
is undefined, has no result. -/

namespace Melissa

open Getopt Runs Text

/-- The operations the server knows. -/
inductive Operation where
  | mean
  | variance
  | skewness
  | kurtosis
  | minAndMax
  | threshold
  | quantile
  | sobol
  deriving DecidableEq, Repr

/-- What `getopt_long` returns: a letter, or a number from 1000 on. -/
inductive OptVal where
  | letter (c : Char)
  | number (n : Nat)
  deriving DecidableEq, Repr

/-- The C library on numbers: `atof`, and the conversion of a `double` to `int`, which is undefined
for numbers that an `int` cannot hold. -/
structure CNumbers (D : Type) where
  atof : List Char → D
  toInt : D → Option Int

/-- `melissa_options_t` while the command line is read. `nb_thresholds` and `nb_quantiles` are
the lengths of the two lists. -/
structure ParsedOptions (D : Type) where
  nbTimeSteps : Int
  nbParameters : Int
  samplingSize : Int
  nbFields : Nat
  meanOp : Bool
  varianceOp : Bool
  skewnessOp : Bool
  kurtosisOp : Bool
  minAndMaxOp : Bool
  thresholdOp : Bool
  quantileOp : Bool
  sobolOp : Bool
  threshold : List D
  quantileOrder : List D
  learning : Nat
  nnPath : List Char
  restart : Nat
  checkInterval : D
  timeoutSimu : Int
  restartDir : List Char
  launcherName : List Char
  txtPullPort : Int
  txtPushPort : Int
  txtReqPort : Int
  dataPort : Int
  verboseLvl : Int
  disableFaultTolerance : Bool
  deriving DecidableEq, Repr

section Values

variable {D : Type}

def initOptions [NatCast D] : ParsedOptions D :=
  { nbTimeSteps := 0, nbParameters := 0, samplingSize := 0, nbFields := 0
    meanOp := false, varianceOp := false, skewnessOp := false, kurtosisOp := false
    minAndMaxOp := false, thresholdOp := false, quantileOp := false, sobolOp := false
    threshold := [], quantileOrder := [], learning := 0, nnPath := [], restart := 0
    checkInterval := ((300 : Nat) : D), timeoutSimu := 300
    restartDir := ".".toList, launcherName := "localhost".toList
    txtPullPort := 5556, txtPushPort := 5555, txtReqPort := 5554, dataPort := 2004
    verboseLvl := 2, disableFaultTolerance := false }

def isColon (c : Char) : Bool := c == ':'

/-- An `int` of the command line. `atoi` is undefined for numbers that an `int` cannot hold. -/
def intArg (arg : List Char) : Option Int :=
  let i := atoi arg
  if -2 ^ 31 ≤ i ∧ i < 2 ^ 31 then some i else none

/-- `sprintf` into one of the arrays of 256 characters. -/
def copyArg (arg : List Char) : Option (List Char) :=
  if (Utf8.encode arg).length < 256 then some arg else none

/-- The texts that the counting functions refuse. -/
def badList (name : List Char) : Bool :=
  name.head? == some '-' || name.head? == some ':'

def countParts (name : List Char) : Nat := name.countP isColon + 1

def getNbFields (name : List Char) : Option Nat :=
  if badList name then none else some (countParts name)

/-- `get_nb_thresholds` and `get_thresholds`, or the same for the quantiles: the array is as long
as the parts are many, and filled by those that are not empty. -/
def getValues [Zero D] (numbers : CNumbers D) (name : List Char) : Option (List D) :=
  if badList name then none
  else
    let values := (words isColon name).map numbers.atof
    some (values ++ List.replicate (countParts name - values.length) 0)

end Values

section Operations

variable {D : Type}

/-- The comparisons of `get_operations` with a token in lower case. -/
def operationOf (token : List Char) : Option Operation :=
  if token = "mean".toList ∨ token = "means".toList then some .mean
  else if token = "variance".toList ∨ token = "variances".toList ∨ token = "var".toList then
    some .variance
  else if token = "skewness".toList then some .skewness
  else if token = "kurtosis".toList then some .kurtosis
  else if token = "min".toList ∨ token = "max".toList ∨ token = "minimum".toList ∨
      token = "maximum".toList then
    some .minAndMax
  else if token = "threshold".toList ∨ token = "threshold_exceedance".toList ∨
      token = "thresholds".toList ∨ token = "threshold_exceedances".toList then
    some .threshold
  else if token = "quantile".toList ∨ token = "quantiles".toList then some .quantile
  else if token = "sobol".toList ∨ token = "sobol_indices".toList then some .sobol
  else none

def ParsedOptions.has (options : ParsedOptions D) : Operation → Bool
  | .mean => options.meanOp
  | .variance => options.varianceOp
  | .skewness => options.skewnessOp
  | .kurtosis => options.kurtosisOp
  | .minAndMax => options.minAndMaxOp
  | .threshold => options.thresholdOp
  | .quantile => options.quantileOp
  | .sobol => options.sobolOp

def ParsedOptions.withOperation (options : ParsedOptions D) : Operation → ParsedOptions D
  | .mean => { options with meanOp := true }
  | .variance => { options with varianceOp := true }
  | .skewness => { options with skewnessOp := true }
  | .kurtosis => { options with kurtosisOp := true }
  | .minAndMax => { options with minAndMaxOp := true }
  | .threshold => { options with thresholdOp := true }
  | .quantile => { options with quantileOp := true }
  | .sobol => { options with sobolOp := true }

def ParsedOptions.withoutOperations (options : ParsedOptions D) : ParsedOptions D :=
  { options with
    meanOp := false, varianceOp := false, skewnessOp := false, kurtosisOp := false
    minAndMaxOp := false, thresholdOp := false, quantileOp := false, sobolOp := false }

/-- One token of the list of operations. -/
def readOperation (options : ParsedOptions D) (token : List Char) : Option (ParsedOptions D) :=
  (operationOf (token.map Char.toLower)).map options.withOperation

def getOperations (options : ParsedOptions D) (name : List Char) : Option (ParsedOptions D) :=
  if name = ['-'] ∨ name = [':'] then some options
  else run readOperation options.withoutOperations (words isColon name)

end Operations

section Options

variable {D : Type}

def longOpts : List (LongOption OptVal) :=
  [⟨"checkintervals", true, .letter 'c'⟩, ⟨"treshold", true, .letter 'e'⟩,
    ⟨"tresholds", true, .letter 'e'⟩, ⟨"fieldnames", true, .letter 'f'⟩,
    ⟨"help", false, .letter 'h'⟩, ⟨"learning", true, .letter 'l'⟩, ⟨"more", true, .letter 'm'⟩,
    ⟨"launchername", true, .letter 'n'⟩, ⟨"operations", true, .letter 'o'⟩,
    ⟨"parameters", true, .letter 'p'⟩, ⟨"quantile", true, .letter 'q'⟩,
    ⟨"quantiles", true, .letter 'q'⟩, ⟨"restart", true, .letter 'r'⟩,
    ⟨"samplingsize", true, .letter 's'⟩, ⟨"timesteps", true, .letter 't'⟩,
    ⟨"verbosity", true, .letter 'v'⟩, ⟨"verbose", true, .letter 'v'⟩,
    ⟨"timeout", true, .letter 'w'⟩, ⟨"txt_push_port", true, .number 1000⟩,
    ⟨"txt_pull_port", true, .number 1001⟩, ⟨"data_port", true, .number 1002⟩,
    ⟨"txt_req_port", true, .number 1003⟩, ⟨"horovod", false, .number 1004⟩,
    ⟨"disable_fault_tolerance", false, .number 1005⟩]

def serverSpec : Spec OptVal :=
  { opts := "c:e:f:hl:m:n:o:p:q:r:s:t:v:w:".toList, val := .letter, longOpts := longOpts }

/-- An empty directory is replaced by the current one. -/
def restartArg (options : ParsedOptions D) (arg : List Char) (restart : Nat) :
    Option (ParsedOptions D) :=
  (copyArg arg).map fun dir =>
    { options with restartDir := if dir = [] then ".".toList else dir, restart := restart }

variable [Zero D]

/-- The `switch` of `melissa_get_options`. -/
def readOption (numbers : CNumbers D) (options : ParsedOptions D) :
    Found OptVal → Option (ParsedOptions D)
  | .option (.letter 'r') (some arg) => restartArg options arg 1
  | .option (.letter 'm') (some arg) => restartArg options arg 2
  | .option (.letter 'p') (some arg) =>
      (intArg arg).map fun i => { options with nbParameters := i }
  | .option (.letter 't') (some arg) =>
      (intArg arg).map fun i => { options with nbTimeSteps := i }
  | .option (.letter 'o') (some arg) => getOperations options arg
  | .option (.letter 'e') (some arg) =>
      (getValues numbers arg).map fun values => { options with threshold := values }
  | .option (.letter 'q') (some arg) =>
      (getValues numbers arg).map fun values => { options with quantileOrder := values }
  | .option (.letter 's') (some arg) =>
      (intArg arg).map fun i => { options with samplingSize := i }
  | .option (.letter 'l') (some arg) =>
      (copyArg arg).map fun path =>
        { options with learning := if options.learning < 1 then 1 else options.learning
                       nnPath := path }
  | .option (.letter 'n') (some arg) =>
      (copyArg arg).map fun name => { options with launcherName := name }
  | .option (.letter 'f') (some arg) =>
      (getNbFields arg).map fun nbFields => { options with nbFields := nbFields }
  | .option (.letter 'c') (some arg) => some { options with checkInterval := numbers.atof arg }
  | .option (.letter 'v') (some arg) =>
      (intArg arg).map fun i => { options with verboseLvl := i }
  | .option (.letter 'w') (some arg) =>
      (numbers.toInt (numbers.atof arg)).map fun i => { options with timeoutSimu := i }
  | .option (.number 1000) (some arg) =>
      (intArg arg).map fun i => { options with txtPushPort := i }
  | .option (.number 1001) (some arg) =>
      (intArg arg).map fun i => { options with txtPullPort := i }
  | .option (.number 1002) (some arg) =>
      (intArg arg).map fun i => { options with dataPort := i }
  | .option (.number 1003) (some arg) =>
      (intArg arg).map fun i => { options with txtReqPort := i }
  | .option (.number 1004) none => some { options with learning := 2 }
  | .option (.number 1005) none => some { options with disableFaultTolerance := true }
  | .option (.letter 'h') _ => none
  | .option _ _ => some options
  | .unknown => none

variable [NatCast D] [LT D] [DecidableLT D]

/-- The exits of `melissa_check_options`. -/
def refused (options : ParsedOptions D) : Bool :=
  (options.thresholdOp && options.threshold.isEmpty) ||
    (options.quantileOp && options.quantileOrder.isEmpty) ||
    decide (options.samplingSize < 1) ||
    (if options.sobolOp then decide (options.nbParameters < 2)
      else decide (options.samplingSize < 2) || decide (options.nbParameters < 1)) ||
    decide (options.nbTimeSteps < 1)

/-- Without an operation, and without learning, the server computes means and variances. -/
def withDefaultOperations (options : ParsedOptions D) : ParsedOptions D :=
  if options.meanOp = false ∧ options.varianceOp = false ∧ options.kurtosisOp = false ∧
      options.skewnessOp = false ∧ options.minAndMaxOp = false ∧ options.thresholdOp = false ∧
      options.quantileOp = false ∧ options.sobolOp = false ∧ options.learning = 0
    then { options with meanOp := true, varianceOp := true } else options

/-- The values that `melissa_check_options` corrects. -/
def correctValues (options : ParsedOptions D) : ParsedOptions D :=
  { options with
    restartDir := if options.restartDir = [] then ".".toList else options.restartDir
    checkInterval := if options.checkInterval < ((5 : Nat) : D) then ((5 : Nat) : D)
      else options.checkInterval
    timeoutSimu := if options.timeoutSimu < 5 then 5 else options.timeoutSimu }

/-- `melissa_check_options`, which `melissa_get_options` ends with. -/
def checkParsed (options : ParsedOptions D) : Option (ParsedOptions D) :=
  let options := withDefaultOperations options
  if refused options then none else some (correctValues options)

/-- `melissa_get_options` on the words behind the name of the program. -/
def melissaGetOptions (numbers : CNumbers D) (args : List Arg) : Option (ParsedOptions D) :=
  if args = [] then none
  else (run (readOption numbers) initOptions (getoptLong serverSpec args)).bind checkParsed

/-- The options that the server works with afterwards. -/
def ParsedOptions.served (seconds : D → ℚ) (options : ParsedOptions D) : Options D :=
  { nbTimeSteps := options.nbTimeSteps.toNat, nbParameters := options.nbParameters.toNat
    samplingSize := options.samplingSize, meanOp := options.meanOp
    varianceOp := options.varianceOp, skewnessOp := options.skewnessOp
    kurtosisOp := options.kurtosisOp, minAndMaxOp := options.minAndMaxOp
    thresholdOp := options.thresholdOp, quantileOp := options.quantileOp
    sobolOp := options.sobolOp, threshold := options.threshold
    quantileOrder := options.quantileOrder, learning := options.learning
    restart := options.restart, checkInterval := seconds options.checkInterval
    timeoutSimu := options.timeoutSimu }

end Options

section Served

variable {D : Type}

theorem refused_served (seconds : D → ℚ) (options : ParsedOptions D) :
    rejected (options.served seconds) = refused options := by
  have steps : options.nbTimeSteps.toNat < 1 ↔ options.nbTimeSteps < 1 := by omega
  have two : options.nbParameters.toNat < 2 ↔ options.nbParameters < 2 := by omega
  have one : options.nbParameters.toNat < 1 ↔ options.nbParameters < 1 := by omega
  rw [Bool.eq_iff_iff]
  cases sobol : options.sobolOp with
  | true =>
      simp only [rejected, refused, ParsedOptions.served, sobol, if_true, Bool.or_eq_true,
        decide_eq_true_eq, steps, two]
  | false =>
      simp only [rejected, refused, ParsedOptions.served, sobol, Bool.false_eq_true, if_false,
        Bool.or_eq_true, decide_eq_true_eq, steps, one]

theorem withDefaultOperations_served (seconds : D → ℚ) (options : ParsedOptions D) :
    (withDefaultOperations options).served seconds =
      if (options.served seconds).noOperation then
        { options.served seconds with meanOp := true, varianceOp := true }
      else options.served seconds := by
  have same : (options.served seconds).noOperation = true ↔
      options.meanOp = false ∧ options.varianceOp = false ∧ options.kurtosisOp = false ∧
        options.skewnessOp = false ∧ options.minAndMaxOp = false ∧ options.thresholdOp = false ∧
        options.quantileOp = false ∧ options.sobolOp = false ∧ options.learning = 0 := by
    simp only [Options.noOperation, ParsedOptions.served, Bool.and_eq_true, Bool.not_eq_true',
      beq_iff_eq, and_assoc]
  unfold withDefaultOperations
  by_cases noneGiven : (options.served seconds).noOperation = true
  · rw [if_pos (same.mp noneGiven), if_pos noneGiven]
    rfl
  · rw [if_neg (fun empty => noneGiven (same.mpr empty)), if_neg noneGiven]

/-- The check of the command line is the check that the main loop's options have passed. -/
theorem melissaCheckOptions_served [NatCast D] [LT D] [DecidableLT D] {seconds : D → ℚ}
    (five : seconds ((5 : Nat) : D) = 5) (order : ∀ x, x < ((5 : Nat) : D) ↔ seconds x < 5)
    (options : ParsedOptions D) :
    melissaCheckOptions (options.served seconds) =
      (checkParsed options).map (ParsedOptions.served seconds) := by
  unfold melissaCheckOptions checkParsed
  dsimp only
  rw [← withDefaultOperations_served, refused_served]
  cases refused (withDefaultOperations options) with
  | true => rfl
  | false =>
      simp only [Bool.false_eq_true, if_false, Option.map_some, Option.some.injEq]
      have interval : atLeastFive (seconds (withDefaultOperations options).checkInterval) =
          seconds (if (withDefaultOperations options).checkInterval < ((5 : Nat) : D)
            then ((5 : Nat) : D) else (withDefaultOperations options).checkInterval) := by
        rw [atLeastFive, apply_ite seconds, five]
        exact if_congr (order _).symm rfl rfl
      have timeout : atLeastFive ((withDefaultOperations options).timeoutSimu : ℚ) =
          ((if (withDefaultOperations options).timeoutSimu < 5 then 5
            else (withDefaultOperations options).timeoutSimu : Int) : ℚ) := by
        rw [atLeastFive, apply_ite (Int.cast : Int → ℚ)]
        exact if_congr (by exact_mod_cast Iff.rfl) rfl rfl
      simp only [ParsedOptions.served, correctValues, interval, timeout]

end Served

end Melissa
