import Melissa.Base.Text

/-! The options of a study in the launcher: the checks of `Study.check_options`, and the command
line that `Server.create_options` writes for the server. -/

namespace Melissa

open Text

section Values

/-- A Python dictionary with its keys in the order of their insertion. -/
abbrev Dict (V : Type) := List (String × V)

variable {V D : Type}

/-- `dict[key] = value`. -/
def Dict.insert (dict : Dict V) (key : String) (value : V) : Dict V :=
  if (dict.lookup key).isSome then
    dict.map fun entry => if entry.1 = key then (key, value) else entry
  else dict ++ [(key, value)]

/-- `if not key in dict: dict[key] = value`. -/
def Dict.setDefault (dict : Dict V) (key : String) (value : V) : Dict V :=
  if (dict.lookup key).isSome then dict else dict ++ [(key, value)]

/-- What a user may store under a key of `ml_stats`, or as threshold and quantile values. -/
inductive StatValue (D : Type) where
  | flag (on : Bool)
  | number (value : D)
  | values (list : List D)
  deriving DecidableEq, Repr

/-- The Python numbers of the options: whether one is true, and `str` of it. -/
structure Numerals (D : Type) where
  truthy : D → Bool
  str : D → List Char

def StatValue.truthy (numerals : Numerals D) : StatValue D → Bool
  | .flag on => on
  | .number value => numerals.truthy value
  | .values list => !list.isEmpty

/-- A value that is no list becomes a list of one element. -/
def StatValue.strings (numerals : Numerals D) : StatValue D → List (List Char)
  | .flag on => [if on then "True".toList else "False".toList]
  | .number value => [numerals.str value]
  | .values list => list.map numerals.str

/-- Whether the value under a key is there and true. -/
def Dict.isOn (numerals : Numerals D) (dict : Dict (StatValue D)) (key : String) : Bool :=
  (dict.lookup key).any (StatValue.truthy numerals)

end Values

section Study

variable {D : Type}

/-- The keys of `stdy_opt` that the server needs. Those with a default may be missing. -/
structure StudyOptions (D : Type) where
  samplingSize : Int
  nbTimesteps : Int
  fieldNames : List (List Char)
  checkpointInterval : D
  simulationTimeout : D
  verbosity : Option Int
  batchSize : Option Int
  sendPort : Option Int
  recvPort : Option Int
  respPort : Option Int
  dataPort : Option Int
  learning : Option Bool
  nnPath : Option (List Char)
  disableFaultTolerance : Option Bool
  thresholdValue : Option (StatValue D)
  thresholdValues : Option (StatValue D)
  quantileValue : Option (StatValue D)
  quantileValues : Option (StatValue D)
  deriving DecidableEq, Repr

/-- `Study`: the two dictionaries, the keys of `USER_FUNCTIONS` and the number of parameters a
drawn parameter set has. -/
structure LauncherStudy (D : Type) where
  stdyOpt : StudyOptions D
  mlStats : Dict (StatValue D)
  usrFunc : List String
  nbParam : Nat
  deriving DecidableEq, Repr

/-- The operations that `check_options` sets to `False` when they are missing. -/
def knownOperations : List String :=
  ["sobol_indices", "mean", "variance", "skewness", "kurtosis", "min", "max",
    "threshold_exceedance", "quantiles"]

def withOperations (mlStats : Dict (StatValue D)) : Dict (StatValue D) :=
  knownOperations.foldl (fun dict key => dict.setDefault key (.flag false)) mlStats

/-- The value under one key is moved to another one. -/
def moveKey (mlStats : Dict (StatValue D)) (key target : String) : Dict (StatValue D) :=
  match mlStats.lookup key with
  | none => mlStats
  | some value => (mlStats.insert target value).insert key (.flag false)

/-- The search for the values of an operation: the singular key of `stdy_opt`, then the two keys
of `ml_stats`, which are switched off. -/
def findValues (single several : String) (own chosen : Option (StatValue D))
    (mlStats : Dict (StatValue D)) : Option (StatValue D) × Dict (StatValue D) :=
  match own with
  | some value => (some value, mlStats)
  | none =>
      match mlStats.lookup single with
      | some value => (some value, mlStats.insert single (.flag false))
      | none =>
          match mlStats.lookup several with
          | some value => (some value, mlStats.insert several (.flag false))
          | none => (chosen, mlStats)

/-- A user function that is missing is replaced by the general one. -/
def fallBack (usrFunc : List String) (key general : String) : List String :=
  if key ∉ usrFunc ∧ general ∈ usrFunc then usrFunc ++ [key] else usrFunc

def withFallBacks (usrFunc : List String) : List String :=
  let usrFunc := fallBack usrFunc "check_server_job" "check_job"
  let usrFunc := fallBack usrFunc "check_group_job" "check_job"
  let usrFunc := fallBack usrFunc "cancel_server_job" "cancel_job"
  fallBack usrFunc "cancel_group_job" "cancel_job"

def mandatoryFunctions : List String :=
  ["launch_server", "launch_group", "check_server_job", "check_group_job", "cancel_server_job",
    "cancel_group_job"]

/-- The defaults of `stdy_opt`. -/
def withDefaults (installPrefix : List Char) (stdyOpt : StudyOptions D) : StudyOptions D :=
  { stdyOpt with
    verbosity := some (stdyOpt.verbosity.getD 2)
    disableFaultTolerance := some (stdyOpt.disableFaultTolerance.getD false)
    batchSize := some (stdyOpt.batchSize.getD 1)
    sendPort := some (stdyOpt.sendPort.getD 5556)
    recvPort := some (stdyOpt.recvPort.getD 5555)
    respPort := some (stdyOpt.respPort.getD 5554)
    dataPort := some (stdyOpt.dataPort.getD 2006)
    learning := some (stdyOpt.learning.getD false)
    nnPath := if stdyOpt.learning.isSome ∧ stdyOpt.nnPath.isNone
      then some (installPrefix ++ "/lib".toList) else stdyOpt.nnPath }

/-- `Study.check_options` of a study without assimilation: the number of errors, and the study
with its defaults. -/
def checkOptions (numerals : Numerals D) (installPrefix : List Char) (study : LauncherStudy D) :
    Nat × LauncherStudy D :=
  let mlStats := withOperations study.mlStats
  let sobol := mlStats.isOn numerals "sobol_indices"
  let stdyOpt := withDefaults installPrefix study.stdyOpt
  let stdyOpt := if sobol then { stdyOpt with batchSize := some 1 } else stdyOpt
  let usrFunc := withFallBacks study.usrFunc
  let errors :=
    (if sobol = false ∧ study.nbParam < 1 then 1 else 0) +
      (if sobol = true ∧ study.nbParam < 2 then 1 else 0) +
      (if stdyOpt.samplingSize < 1 then 1 else 0) +
      (if stdyOpt.sendPort = stdyOpt.recvPort then 1 else 0) +
      mandatoryFunctions.countP fun key => decide (key ∉ usrFunc)
  let mlStats := moveKey mlStats "threshold_exceedance" "threshold_exceedances"
  let (thresholdValues, mlStats) := findValues "threshold_value" "threshold_values"
    stdyOpt.thresholdValue stdyOpt.thresholdValues mlStats
  let mlStats := moveKey mlStats "quantile" "quantiles"
  let (quantileValues, mlStats) := findValues "quantile_value" "quantile_values"
    stdyOpt.quantileValue stdyOpt.quantileValues mlStats
  (errors, { study with
    stdyOpt := { stdyOpt with thresholdValues := thresholdValues, quantileValues := quantileValues }
    mlStats := mlStats
    usrFunc := usrFunc })

end Study

section Create

variable {D : Type}

/-- `':'.join(parts)`. -/
def colons (parts : List (List Char)) : List Char := [':'].intercalate parts

def opStr (numerals : Numerals D) (mlStats : Dict (StatValue D)) : List Char :=
  colons ((mlStats.filter fun entry => entry.2.truthy numerals).map fun entry => entry.1.toList)

/-- The values of an operation: `'0'` when it is off. An operation without values ends
`create_options` early. -/
def valueStr (numerals : Numerals D) (on : Bool) (values : Option (StatValue D)) :
    Option (List Char) :=
  if on then do
    let values ← values
    let text := colons (values.strings numerals)
    if text = [] then none else some text
  else some "0".toList

/-- The words of `cmd_opt` before they are joined. -/
def commandWords (numerals : Numerals D) (nodeName : List Char) (study : LauncherStudy D)
    (fieldStr quantileStr thresholdStr : List Char) : List (List Char) :=
  let stdyOpt := study.stdyOpt
  ["-o".toList, opStr numerals study.mlStats,
    "-p".toList, decimal study.nbParam,
    "-s".toList, decimal stdyOpt.samplingSize,
    "-t".toList, decimal stdyOpt.nbTimesteps,
    "-q".toList, quantileStr,
    "-e".toList, thresholdStr,
    "-c".toList, numerals.str stdyOpt.checkpointInterval,
    "-w".toList, numerals.str stdyOpt.simulationTimeout,
    "-f".toList, fieldStr,
    "-v".toList, decimal (stdyOpt.verbosity.getD 0),
    "--txt_push_port".toList, decimal (stdyOpt.recvPort.getD 0),
    "--txt_pull_port".toList, decimal (stdyOpt.sendPort.getD 0),
    "--txt_req_port".toList, decimal (stdyOpt.respPort.getD 0),
    "--data_port".toList, decimal (stdyOpt.dataPort.getD 0),
    "-n".toList, nodeName]

/-- `Server.create_options` of a study without assimilation, after `check_options`: `cmd_opt`, or
`none` where it returns early or a key is missing. -/
def createOptions (numerals : Numerals D) (nodeName : List Char) (study : LauncherStudy D) :
    Option (List Char) := do
  let fieldStr := colons study.stdyOpt.fieldNames
  if fieldStr = [] then none
  let quantileStr ← valueStr numerals (study.mlStats.isOn numerals "quantiles")
    study.stdyOpt.quantileValues
  let thresholdStr ← valueStr numerals (study.mlStats.isOn numerals "threshold_exceedances")
    study.stdyOpt.thresholdValues
  let cmdOpt := [' '].intercalate
    (commandWords numerals nodeName study fieldStr quantileStr thresholdStr)
  let cmdOpt ← if study.stdyOpt.learning = some true
    then study.stdyOpt.nnPath.map fun nnPath => cmdOpt ++ " -l ".toList ++ nnPath
    else if opStr numerals study.mlStats = [] then none else some cmdOpt
  some (if study.stdyOpt.disableFaultTolerance = some true
    then cmdOpt ++ " --disable_fault_tolerancel".toList else cmdOpt)

end Create

end Melissa
