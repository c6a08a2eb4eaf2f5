import Melissa.CommandLine.Parse
import Melissa.Launcher.Options

/-! The operations that a study asks for, before and after `check_options` has moved some of them
to other keys. -/

namespace Melissa

open Text

section Names

/-- The names of an operation in `ml_stats`. -/
def Operation.names : Operation → List String
  | .mean => ["mean", "means"]
  | .variance => ["variance", "variances", "var"]
  | .skewness => ["skewness"]
  | .kurtosis => ["kurtosis"]
  | .minAndMax => ["min", "max", "minimum", "maximum"]
  | .threshold => ["threshold", "thresholds", "threshold_exceedance", "threshold_exceedances"]
  | .quantile => ["quantile", "quantiles"]
  | .sobol => ["sobol", "sobol_indices"]

def allOperations : List Operation :=
  [.mean, .variance, .skewness, .kurtosis, .minAndMax, .threshold, .quantile, .sobol]

theorem mem_allOperations (op : Operation) : op ∈ allOperations := by
  cases op <;> decide

/-- `key` is a name of the operation, in upper or lower case. -/
def Operation.IsNamed (op : Operation) (key : List Char) : Prop :=
  ∃ name ∈ op.names, name.toList = key.map Char.toLower

instance (op : Operation) (key : List Char) : Decidable (op.IsNamed key) :=
  inferInstanceAs (Decidable (∃ name ∈ op.names, name.toList = key.map Char.toLower))

theorem operationOf_name {op : Operation} {name : String} (member : name ∈ op.names) :
    operationOf name.toList = some op := by
  have all : ∀ op ∈ allOperations, ∀ name ∈ op.names, operationOf name.toList = some op := by
    decide
  exact all op (mem_allOperations op) name member

/-- The server knows the operations by these names and no others. -/
theorem operationOf_eq_some {op : Operation} {token : List Char} :
    operationOf (token.map Char.toLower) = some op ↔ op.IsNamed token := by
  constructor
  · intro known
    have named : ∀ name : String, token.map Char.toLower = name.toList → name ∈ op.names →
        op.IsNamed token := fun name same member => ⟨name, member, same.symm⟩
    unfold operationOf at known
    split at known
    · rename_i same
      cases known
      rcases same with same | same <;> exact named _ same (by decide)
    split at known
    · rename_i same
      cases known
      rcases same with same | same | same <;> exact named _ same (by decide)
    split at known
    · rename_i same
      cases known
      exact named _ same (by decide)
    split at known
    · rename_i same
      cases known
      exact named _ same (by decide)
    split at known
    · rename_i same
      cases known
      rcases same with same | same | same | same <;> exact named _ same (by decide)
    split at known
    · rename_i same
      cases known
      rcases same with same | same | same | same <;> exact named _ same (by decide)
    split at known
    · rename_i same
      cases known
      rcases same with same | same <;> exact named _ same (by decide)
    split at known
    · rename_i same
      cases known
      rcases same with same | same <;> exact named _ same (by decide)
    · cases known
  · rintro ⟨name, member, same⟩
    rw [← same]
    exact operationOf_name member

end Names

section Requests

variable {D : Type} (numerals : Numerals D)

/-- A key of `ml_stats` with a value that is true. -/
def SwitchedOn (mlStats : Dict (StatValue D)) (key : String) : Prop :=
  ∃ value, (key, value) ∈ mlStats ∧ value.truthy numerals = true

def Requested (mlStats : Dict (StatValue D)) (op : Operation) : Prop :=
  ∃ key, SwitchedOn numerals mlStats key ∧ op.IsNamed key.toList

variable {numerals} {mlStats : Dict (StatValue D)} {key target other : String}
  {value : StatValue D}

theorem switchedOn_insert (on : SwitchedOn numerals (mlStats.insert key value) other) :
    SwitchedOn numerals mlStats other ∨ (other = key ∧ value.truthy numerals = true) := by
  obtain ⟨found, member, truthy⟩ := on
  unfold Dict.insert at member
  split at member
  · obtain ⟨entry, old, same⟩ := List.mem_map.mp member
    split at same
    · cases same
      exact Or.inr ⟨rfl, truthy⟩
    · subst same
      exact Or.inl ⟨found, old, truthy⟩
  · rcases List.mem_append.mp member with old | new
    · exact Or.inl ⟨found, old, truthy⟩
    · cases List.mem_singleton.mp new
      exact Or.inr ⟨rfl, truthy⟩

theorem switchedOn_off (on : SwitchedOn numerals (mlStats.insert key (.flag false)) other) :
    SwitchedOn numerals mlStats other :=
  (switchedOn_insert on).resolve_right fun new => Bool.false_ne_true new.2

theorem switchedOn_setDefault
    (on : SwitchedOn numerals (mlStats.setDefault key (.flag false)) other) :
    SwitchedOn numerals mlStats other := by
  obtain ⟨found, member, truthy⟩ := on
  unfold Dict.setDefault at member
  split at member
  · exact ⟨found, member, truthy⟩
  · rcases List.mem_append.mp member with old | new
    · exact ⟨found, old, truthy⟩
    · cases List.mem_singleton.mp new
      exact absurd truthy Bool.false_ne_true

theorem switchedOn_withOperations (on : SwitchedOn numerals (withOperations mlStats) other) :
    SwitchedOn numerals mlStats other := by
  unfold withOperations at on
  generalize knownOperations = keys at on
  induction keys generalizing mlStats with
  | nil => exact on
  | cons key keys ih => exact switchedOn_setDefault (ih on)

theorem mem_of_lookup (found : mlStats.lookup key = some value) : (key, value) ∈ mlStats := by
  obtain ⟨front, back, split, _⟩ := List.lookup_eq_some_iff.mp found
  rw [split]
  exact List.mem_append_right _ List.mem_cons_self

theorem switchedOn_moveKey (on : SwitchedOn numerals (moveKey mlStats key target) other) :
    SwitchedOn numerals mlStats other ∨ (other = target ∧ SwitchedOn numerals mlStats key) := by
  unfold moveKey at on
  cases found : mlStats.lookup key with
  | none =>
      rw [found] at on
      exact Or.inl on
  | some value =>
      rw [found] at on
      rcases switchedOn_insert (switchedOn_off on) with old | ⟨same, truthy⟩
      · exact Or.inl old
      · exact Or.inr ⟨same, value, mem_of_lookup found, truthy⟩

theorem switchedOn_findValues {single several : String} {own chosen : Option (StatValue D)}
    (on : SwitchedOn numerals (findValues single several own chosen mlStats).2 other) :
    SwitchedOn numerals mlStats other := by
  unfold findValues at on
  split at on
  · exact on
  · split at on
    · exact switchedOn_off on
    · split at on
      · exact switchedOn_off on
      · exact on

/-- A key is moved to another name of the same operation. -/
theorem requested_moveKey {op : Operation} (same : op.IsNamed target.toList → op.IsNamed key.toList)
    (requested : Requested numerals (moveKey mlStats key target) op) :
    Requested numerals mlStats op := by
  obtain ⟨found, on, named⟩ := requested
  rcases switchedOn_moveKey on with old | ⟨rfl, moved⟩
  · exact ⟨found, old, named⟩
  · exact ⟨key, moved, same named⟩

theorem requested_findValues {op : Operation} {single several : String}
    {own chosen : Option (StatValue D)}
    (requested : Requested numerals (findValues single several own chosen mlStats).2 op) :
    Requested numerals mlStats op := by
  obtain ⟨found, on, named⟩ := requested
  exact ⟨found, switchedOn_findValues on, named⟩

theorem moved_names (op : Operation) :
    (op.IsNamed "threshold_exceedances".toList → op.IsNamed "threshold_exceedance".toList) ∧
      (op.IsNamed "quantiles".toList → op.IsNamed "quantile".toList) := by
  have all : ∀ op ∈ allOperations,
      (op.IsNamed "threshold_exceedances".toList → op.IsNamed "threshold_exceedance".toList) ∧
        (op.IsNamed "quantiles".toList → op.IsNamed "quantile".toList) := by
    decide
  exact all op (mem_allOperations op)

/-- What `check_options` does to `ml_stats`, after its default values. -/
def movedOperations (thresholdOwn thresholdChosen quantileOwn quantileChosen :
    Option (StatValue D)) (mlStats : Dict (StatValue D)) : Dict (StatValue D) :=
  let mlStats := moveKey mlStats "threshold_exceedance" "threshold_exceedances"
  let mlStats :=
    (findValues "threshold_value" "threshold_values" thresholdOwn thresholdChosen mlStats).2
  let mlStats := moveKey mlStats "quantile" "quantiles"
  (findValues "quantile_value" "quantile_values" quantileOwn quantileChosen mlStats).2

theorem requested_movedOperations {op : Operation}
    {thresholdOwn thresholdChosen quantileOwn quantileChosen : Option (StatValue D)}
    (requested : Requested numerals (movedOperations thresholdOwn thresholdChosen quantileOwn
      quantileChosen mlStats) op) : Requested numerals mlStats op := by
  unfold movedOperations at requested
  have quantiles := requested_moveKey (moved_names op).2 (requested_findValues requested)
  exact requested_moveKey (moved_names op).1 (requested_findValues quantiles)

/-- `stdy_opt` when `check_options` has set its defaults. -/
def readyOptions (numerals : Numerals D) (installPrefix : List Char) (study : LauncherStudy D) :
    StudyOptions D :=
  if (withOperations study.mlStats).isOn numerals "sobol_indices" then
    { withDefaults installPrefix study.stdyOpt with batchSize := some 1 }
  else withDefaults installPrefix study.stdyOpt

theorem checkOptions_mlStats (installPrefix : List Char) (study : LauncherStudy D)
    {ready : StudyOptions D} (defaults : readyOptions numerals installPrefix study = ready) :
    (checkOptions numerals installPrefix study).2.mlStats =
      movedOperations ready.thresholdValue ready.thresholdValues ready.quantileValue
        ready.quantileValues (withOperations study.mlStats) := by
  subst defaults
  unfold checkOptions movedOperations readyOptions
  dsimp only

/-- `check_options` asks for no operation that the user has not asked for. -/
theorem requested_of_checked {installPrefix : List Char} {study : LauncherStudy D}
    {op : Operation}
    (requested : Requested numerals (checkOptions numerals installPrefix study).2.mlStats op) :
    Requested numerals study.mlStats op := by
  rw [checkOptions_mlStats installPrefix study rfl] at requested
  obtain ⟨key, on, named⟩ := requested_movedOperations requested
  exact ⟨key, switchedOn_withOperations on, named⟩

/-- What `check_options` leaves alone, and its default values. -/
structure Defaulted (stdyOpt checked : StudyOptions D) : Prop where
  samplingSize : checked.samplingSize = stdyOpt.samplingSize
  nbTimesteps : checked.nbTimesteps = stdyOpt.nbTimesteps
  fieldNames : checked.fieldNames = stdyOpt.fieldNames
  simulationTimeout : checked.simulationTimeout = stdyOpt.simulationTimeout
  sendPort : checked.sendPort = some (stdyOpt.sendPort.getD 5556)
  recvPort : checked.recvPort = some (stdyOpt.recvPort.getD 5555)
  respPort : checked.respPort = some (stdyOpt.respPort.getD 5554)
  dataPort : checked.dataPort = some (stdyOpt.dataPort.getD 2006)
  learning : checked.learning = some (stdyOpt.learning.getD false)
  disableFaultTolerance :
    checked.disableFaultTolerance = some (stdyOpt.disableFaultTolerance.getD false)

theorem readyOptions_defaulted (numerals : Numerals D) (installPrefix : List Char)
    (study : LauncherStudy D) :
    Defaulted study.stdyOpt (readyOptions numerals installPrefix study) := by
  unfold readyOptions withDefaults
  split
  · exact ⟨rfl, rfl, rfl, rfl, rfl, rfl, rfl, rfl, rfl, rfl⟩
  · exact ⟨rfl, rfl, rfl, rfl, rfl, rfl, rfl, rfl, rfl, rfl⟩

theorem checkOptions_stdyOpt (installPrefix : List Char) (study : LauncherStudy D)
    {ready : StudyOptions D} (defaults : readyOptions numerals installPrefix study = ready) :
    (checkOptions numerals installPrefix study).2.stdyOpt =
      { ready with
        thresholdValues :=
          (checkOptions numerals installPrefix study).2.stdyOpt.thresholdValues
        quantileValues :=
          (checkOptions numerals installPrefix study).2.stdyOpt.quantileValues } := by
  subst defaults
  unfold checkOptions readyOptions
  dsimp only

theorem defaulted_values {stdyOpt ready : StudyOptions D} (defaulted : Defaulted stdyOpt ready)
    (thresholdValues quantileValues : Option (StatValue D)) :
    Defaulted stdyOpt
      { ready with thresholdValues := thresholdValues, quantileValues := quantileValues } :=
  ⟨defaulted.samplingSize, defaulted.nbTimesteps, defaulted.fieldNames,
    defaulted.simulationTimeout, defaulted.sendPort, defaulted.recvPort, defaulted.respPort,
    defaulted.dataPort, defaulted.learning, defaulted.disableFaultTolerance⟩

theorem checkOptions_defaulted (numerals : Numerals D) (installPrefix : List Char)
    (study : LauncherStudy D) :
    Defaulted study.stdyOpt (checkOptions numerals installPrefix study).2.stdyOpt := by
  rw [checkOptions_stdyOpt installPrefix study rfl]
  exact defaulted_values (readyOptions_defaulted numerals installPrefix study) _ _

theorem checkOptions_nbParam (numerals : Numerals D) (installPrefix : List Char)
    (study : LauncherStudy D) :
    (checkOptions numerals installPrefix study).2.nbParam = study.nbParam := by
  unfold checkOptions
  dsimp only

theorem checkOptions_errors (installPrefix : List Char) (study : LauncherStudy D)
    {ready : StudyOptions D} (defaults : readyOptions numerals installPrefix study = ready) :
    (checkOptions numerals installPrefix study).1 =
      (if (withOperations study.mlStats).isOn numerals "sobol_indices" = false ∧
          study.nbParam < 1 then 1 else 0) +
        (if (withOperations study.mlStats).isOn numerals "sobol_indices" = true ∧
          study.nbParam < 2 then 1 else 0) +
        (if ready.samplingSize < 1 then 1 else 0) +
        (if ready.sendPort = ready.recvPort then 1 else 0) +
        mandatoryFunctions.countP fun key => decide (key ∉ withFallBacks study.usrFunc) := by
  subst defaults
  unfold checkOptions readyOptions
  dsimp only

/-- What a check without an error says about the parameters and the sample. -/
theorem checkOptions_passed {installPrefix : List Char} {study : LauncherStudy D}
    (passed : (checkOptions numerals installPrefix study).1 = 0) :
    1 ≤ study.nbParam ∧ 1 ≤ study.stdyOpt.samplingSize := by
  rw [checkOptions_errors installPrefix study rfl,
    (readyOptions_defaulted numerals installPrefix study).samplingSize] at passed
  constructor
  · by_contra none
    cases sobol : (withOperations study.mlStats).isOn numerals "sobol_indices" with
    | true =>
        rw [sobol, if_pos (⟨rfl, by omega⟩ : true = true ∧ study.nbParam < 2)] at passed
        omega
    | false =>
        rw [sobol, if_pos (⟨rfl, by omega⟩ : false = false ∧ study.nbParam < 1)] at passed
        omega
  · by_contra none
    rw [if_pos (by omega : study.stdyOpt.samplingSize < 1)] at passed
    omega

end Requests

end Melissa
