import Melissa.Base.Arrays
import Melissa.Launcher.Options

/-! The groups of simulations of a study: the constructors of `MultiSimuGroup` and `SobolGroup`,
and `Study.create_group_list`. -/

namespace Melissa

open Arrays Text

section Status

/-- The values of `status` and `job_status`. `WAITING` and `PENDING` are the same number. -/
def notSubmitted : Int := -1

def waiting : Int := 0

def running : Int := 1

def finished : Int := 2

def timedOutStatus : Int := 4

end Status

section Create

variable {D : Type}

/-- `Group`. `jobType` is 3 for a `MultiSimuGroup` and 4 for a `SobolGroup`. -/
structure Group (D : Type) where
  groupId : Nat
  jobType : Nat
  size : Nat
  paramSet : List (List D)
  simuId : List Nat
  simuStatus : List Int
  status : Int
  jobStatus : Int
  nbRestarts : Nat
  deriving DecidableEq, Repr

/-- The counters of the classes `Group` and `MultiSimuGroup`. -/
structure Counters where
  nbGroups : Nat
  nbSimu : Nat
  deriving DecidableEq, Repr

/-- `Group.__init__`. -/
def newGroup (counters : Counters) : Group D × Counters :=
  ({ groupId := counters.nbGroups, jobType := 0, size := 0, paramSet := [], simuId := []
     simuStatus := [], status := notSubmitted, jobStatus := notSubmitted, nbRestarts := 0 },
    { counters with nbGroups := counters.nbGroups + 1 })

/-- One turn of the loop in `MultiSimuGroup.__init__`. -/
def addParamSet (state : Group D × Counters) (params : List D) : Group D × Counters :=
  ({ state.1 with
      paramSet := state.1.paramSet ++ [params]
      simuId := state.1.simuId ++ [state.2.nbSimu]
      simuStatus := state.1.simuStatus ++ [0] },
    { state.2 with nbSimu := state.2.nbSimu + 1 })

/-- `MultiSimuGroup.__init__`. -/
def multiSimuGroup (counters : Counters) (paramSets : List (List D)) : Group D × Counters :=
  let (group, counters) := newGroup counters
  paramSets.foldl addParamSet ({ group with size := paramSets.length, jobType := 3 }, counters)

/-- The set A with the component `i` of the set B. -/
def exchanged (paramSetA paramSetB : List D) (i : Nat) : Option (List D) :=
  paramSetB[i]?.map fun component => paramSetA.set i component

/-- `SobolGroup.__init__`; a set B that is shorter than A is an `IndexError`. -/
def sobolGroup (counters : Counters) (paramSetA paramSetB : List D) :
    Option (Group D × Counters) := do
  let (group, counters) : Group D × Counters := newGroup counters
  let nbParam := paramSetA.length
  let mixed ← (List.range nbParam).mapM (exchanged paramSetA paramSetB)
  let paramSet := paramSetA :: paramSetB :: mixed
  some ({ group with
      jobType := 4
      paramSet := paramSet
      simuId := [group.groupId * (nbParam + 2), group.groupId * (nbParam + 2) + 1] ++
        (List.range nbParam).map fun i => group.groupId * (nbParam + 2) + i + 2
      size := paramSet.length }, counters)

/-- The loop variables of `create_group_list`; `nbDraws` counts the calls of
`draw_parameter_set`. -/
structure Creation (D : Type) where
  groups : List (Group D)
  counters : Counters
  nbDraws : Nat
  deriving DecidableEq, Repr

def noGroups : Creation D := { groups := [], counters := ⟨0, 0⟩, nbDraws := 0 }

/-- One turn of the loop over the batches. `draw k` is what the call number `k` returns. -/
def createMultiSimuGroup (draw : Nat → List D) (batchSize : Nat) (state : Creation D) :
    Creation D :=
  let paramSets := (List.range batchSize).map fun j => draw (state.nbDraws + j)
  let (group, counters) := multiSimuGroup state.counters paramSets
  { groups := state.groups ++ [group], counters := counters
    nbDraws := state.nbDraws + batchSize }

/-- One turn of the loop over the groups of a Sobol study. -/
def createSobolGroup (draw : Nat → List D) (state : Creation D) : Option (Creation D) := do
  let (group, counters) ←
    sobolGroup state.counters (draw state.nbDraws) (draw (state.nbDraws + 1))
  some { groups := state.groups ++ [group], counters := counters, nbDraws := state.nbDraws + 2 }

/-- `Study.create_group_list`. -/
def createGroupList (sobol : Bool) (draw : Nat → List D) (samplingSize batchSize : Int) :
    Option (List (Group D)) :=
  if sobol then
    ((List.range samplingSize.toNat).foldlM (fun state _ => createSobolGroup draw state)
      noGroups).map Creation.groups
  else
    some ((List.range (samplingSize / batchSize).toNat).foldl
      (fun state _ => createMultiSimuGroup draw batchSize.toNat state) noGroups).groups

end Create

section Batches

variable {D : Type}

/-- The batch number `i` of a study. -/
def batchGroup (draw : Nat → List D) (batchSize i : Nat) : Group D :=
  { groupId := i
    jobType := 3
    size := batchSize
    paramSet := (List.range batchSize).map fun j => draw (i * batchSize + j)
    simuId := List.range' (i * batchSize) batchSize
    simuStatus := List.replicate batchSize 0
    status := notSubmitted
    jobStatus := notSubmitted
    nbRestarts := 0 }

theorem foldl_addParamSet (paramSets : List (List D)) (group : Group D) (counters : Counters) :
    paramSets.foldl addParamSet (group, counters) =
      ({ group with
          paramSet := group.paramSet ++ paramSets
          simuId := group.simuId ++ List.range' counters.nbSimu paramSets.length
          simuStatus := group.simuStatus ++ List.replicate paramSets.length 0 },
        { counters with nbSimu := counters.nbSimu + paramSets.length }) := by
  induction paramSets generalizing group counters with
  | nil => simp
  | cons params paramSets ih =>
      rw [List.foldl_cons, addParamSet, ih]
      simp only [List.append_assoc, List.singleton_append, List.length_cons, List.range'_succ,
        List.replicate_succ, Nat.add_assoc, Nat.add_comm 1]

theorem foldl_createMultiSimuGroup (draw : Nat → List D) (batchSize count : Nat) :
    (List.range count).foldl (fun state _ => createMultiSimuGroup draw batchSize state) noGroups =
      { groups := (List.range count).map (batchGroup draw batchSize)
        counters := ⟨count, count * batchSize⟩
        nbDraws := count * batchSize } := by
  induction count with
  | zero => simp [noGroups]
  | succ count ih =>
      rw [List.range_succ, List.foldl_append, ih, List.foldl_cons, List.foldl_nil,
        createMultiSimuGroup, multiSimuGroup, newGroup]
      simp only [foldl_addParamSet, List.nil_append, List.length_map, List.length_range,
        List.map_append, List.map_cons, List.map_nil, Nat.add_mul, Nat.one_mul]
      rfl

theorem createGroupList_batches (draw : Nat → List D) {samplingSize batchSize : Int}
    (sample : 0 ≤ samplingSize) (batch : 0 ≤ batchSize) :
    createGroupList false draw samplingSize batchSize =
      some ((List.range (samplingSize.toNat / batchSize.toNat)).map
        (batchGroup draw batchSize.toNat)) := by
  have number : (samplingSize / batchSize).toNat = samplingSize.toNat / batchSize.toNat := by
    obtain ⟨n, rfl⟩ := Int.eq_ofNat_of_zero_le sample
    obtain ⟨b, rfl⟩ := Int.eq_ofNat_of_zero_le batch
    rfl
  rw [createGroupList, if_neg Bool.false_ne_true, number, foldl_createMultiSimuGroup]

/-- Consecutive batches number the simulations without a gap. -/
theorem flatMap_simuId_batches (draw : Nat → List D) (batchSize count : Nat) :
    ((List.range count).map (batchGroup draw batchSize)).flatMap Group.simuId =
      List.range (count * batchSize) := by
  induction count with
  | zero => simp
  | succ count ih =>
      rw [List.range_succ, List.map_append, List.flatMap_append, ih, List.map_singleton,
        List.flatMap_singleton, batchGroup, Nat.add_mul, Nat.one_mul, List.range_add,
        List.range'_eq_map_range]

/-- The lookups of the messenger and the responder. -/
theorem batch_lookup (draw : Nat → List D) {batchSize count id : Nat}
    (created : id < count * batchSize) :
    ∃ group, ((List.range count).map (batchGroup draw batchSize))[id / batchSize]? =
        some group ∧
      group.simuId[id % batchSize]? = some id := by
  have positive : 0 < batchSize := by
    apply Nat.pos_of_ne_zero
    rintro rfl
    omega
  have inside : id / batchSize < count := (Nat.div_lt_iff_lt_mul positive).mpr created
  refine ⟨batchGroup draw batchSize (id / batchSize), ?_, ?_⟩
  · rw [List.getElem?_map, List.getElem?_range inside, Option.map_some]
  · rw [batchGroup, List.getElem?_range' (Nat.mod_lt id positive), Nat.one_mul,
      Nat.div_add_mod']

end Batches

section Sobol

variable {D : Type}

/-- Component `j` of the parameter set with role `k`: that of B for role 1 and for the role of
the component itself. -/
def roleComponent (paramSetA paramSetB : List D) (k j : Nat) : Option D :=
  if k = 1 ∨ k = j + 2 then paramSetB[j]? else paramSetA[j]?

/-- What `SobolGroup.__init__` builds. -/
structure SobolDesign (group : Group D) (paramSetA paramSetB : List D) : Prop where
  simuId : ∀ k < paramSetA.length + 2,
    group.simuId[k]? = some (group.groupId * (paramSetA.length + 2) + k)
  members : ∀ id ∈ group.simuId,
    ∃ k < paramSetA.length + 2, id = group.groupId * (paramSetA.length + 2) + k
  paramSet : ∀ k < paramSetA.length + 2, ∃ params, group.paramSet[k]? = some params ∧
    ∀ j, params[j]? = roleComponent paramSetA paramSetB k j

theorem exchanged_component {paramSetA paramSetB params : List D} {i : Nat}
    (known : i < paramSetA.length) (built : exchanged paramSetA paramSetB i = some params)
    (j : Nat) : params[j]? = roleComponent paramSetA paramSetB (i + 2) j := by
  rw [exchanged, Option.map_eq_some_iff] at built
  obtain ⟨component, found, rfl⟩ := built
  rw [roleComponent, List.getElem?_set]
  by_cases here : i = j
  · rw [if_pos here, if_pos known, if_pos (Or.inr (by omega)), ← here, found]
  · rw [if_neg here, if_neg (by omega)]

theorem sobolGroup_design {counters counters' : Counters} {paramSetA paramSetB : List D}
    {group : Group D}
    (created : sobolGroup counters paramSetA paramSetB = some (group, counters')) :
    SobolDesign group paramSetA paramSetB := by
  simp only [sobolGroup, newGroup, Option.bind_eq_bind, Option.bind_eq_some_iff,
    Option.some.injEq, Prod.mk.injEq] at created
  obtain ⟨mixed, exchanges, rfl, _⟩ := created
  have simuIds : [counters.nbGroups * (paramSetA.length + 2),
        counters.nbGroups * (paramSetA.length + 2) + 1] ++
      (List.range paramSetA.length).map (fun i =>
        counters.nbGroups * (paramSetA.length + 2) + i + 2) =
      (List.range (paramSetA.length + 2)).map fun k =>
        counters.nbGroups * (paramSetA.length + 2) + k := by
    rw [List.range_succ_eq_map, List.range_succ_eq_map, List.map_cons, List.map_cons, List.map_cons,
      List.map_map, List.map_map]
    rfl
  constructor
  · intro k known
    simp only
    rw [simuIds, List.getElem?_map, List.getElem?_range known]
    rfl
  · intro id member
    simp only at member
    rw [simuIds] at member
    obtain ⟨k, known, rfl⟩ := List.mem_map.mp member
    exact ⟨k, List.mem_range.mp known, rfl⟩
  · intro k known
    match k with
    | 0 => exact ⟨paramSetA, rfl, fun j => (if_neg (by omega)).symm⟩
    | 1 => exact ⟨paramSetB, rfl, fun j => (if_pos (Or.inl rfl)).symm⟩
    | i + 2 =>
        have inside : i < paramSetA.length := by omega
        have made := mapM_getElem? exchanges i
        rw [List.getElem?_range inside, Option.bind_some] at made
        cases component : exchanged paramSetA paramSetB i with
        | none =>
            have undefined := mapM_eq_none (List.mem_range.mpr inside) component
            rw [undefined] at exchanges
            cases exchanges
        | some params =>
            refine ⟨params, made.trans component, ?_⟩
            exact exchanged_component inside component

/-- Groups of a Sobol study are numbered in the order of their creation. -/
structure SobolNumbered (state : Creation D) : Prop where
  groupIds : state.groups.map Group.groupId = List.range state.counters.nbGroups
  jobType : ∀ group ∈ state.groups, group.jobType = 4

theorem sobolNumbered_createSobolGroup {draw : Nat → List D} {state state' : Creation D}
    (numbered : SobolNumbered state) (created : createSobolGroup draw state = some state') :
    SobolNumbered state' := by
  simp only [createSobolGroup, sobolGroup, newGroup, Option.bind_eq_bind,
    Option.bind_eq_some_iff, Option.some.injEq] at created
  obtain ⟨_, ⟨mixed, _, rfl⟩, rfl⟩ := created
  constructor
  · rw [List.map_append, numbered.groupIds, List.range_succ]
    rfl
  · intro group member
    rcases List.mem_append.mp member with old | new
    · exact numbered.jobType group old
    · rw [List.mem_singleton.mp new]

theorem sobolNumbered_foldlM {draw : Nat → List D} {items : List Nat} {state state' : Creation D}
    (numbered : SobolNumbered state)
    (created : items.foldlM (fun state _ => createSobolGroup draw state) state = some state') :
    SobolNumbered state' := by
  induction items generalizing state with
  | nil =>
      cases created
      exact numbered
  | cons item items ih =>
      rw [List.foldlM_cons, Option.bind_eq_bind, Option.bind_eq_some_iff] at created
      obtain ⟨next, first, rest⟩ := created
      exact ih (sobolNumbered_createSobolGroup numbered first) rest

end Sobol

section Accepted

variable {D : Type}

theorem samplingSize_of_accepted {numerals : Numerals D} {installPrefix : List Char}
    {study checked : LauncherStudy D}
    (accepted : checkOptions numerals installPrefix study = (0, checked)) :
    1 ≤ checked.stdyOpt.samplingSize := by
  have kept : checked.stdyOpt.samplingSize = study.stdyOpt.samplingSize := by
    rw [← (Prod.mk.inj accepted).2]
    dsimp only
    split
    · rfl
    · rfl
  have none_wrong : (checkOptions numerals installPrefix study).1 = 0 := by rw [accepted]
  simp only [checkOptions, Nat.add_eq_zero_iff] at none_wrong
  obtain ⟨⟨⟨_, large⟩, _⟩, _⟩ := none_wrong
  rw [kept]
  by_contra small
  split at large
  · rw [if_pos (by dsimp only [withDefaults]; omega)] at large
    cases large
  · rw [if_pos (by dsimp only [withDefaults]; omega)] at large
    cases large

/-- The numbers of the simulations in the groups, and the number the server is told. -/
structure Numbered (numerals : Numerals D) (nodeName : List Char) (checked : LauncherStudy D)
    (groups : List (Group D)) (n b : Nat) : Prop where
  ids : groups.flatMap Group.simuId = List.range (n / b * b)
  complete : (groups.flatMap Group.simuId).Perm (List.range n) ↔ b ∣ n
  lookup : ∀ id < n / b * b, ∃ group, groups[id / b]? = some group ∧
    group.simuId[id % b]? = some id
  told : ∀ fieldStr quantileStr thresholdStr, ["-s".toList, decimal n] <:+:
    commandWords numerals nodeName checked fieldStr quantileStr thresholdStr

theorem numbered_batches (numerals : Numerals D) (nodeName : List Char)
    (checked : LauncherStudy D) (draw : Nat → List D) {n b : Nat}
    (sample : checked.stdyOpt.samplingSize = n) :
    Numbered numerals nodeName checked ((List.range (n / b)).map (batchGroup draw b)) n b where
  ids := flatMap_simuId_batches draw b (n / b)
  complete := by
    rw [flatMap_simuId_batches]
    constructor
    · intro same
      have length := same.length_eq
      rw [List.length_range, List.length_range] at length
      exact ⟨n / b, by rw [Nat.mul_comm]; exact length.symm⟩
    · intro divides
      rw [Nat.div_mul_cancel divides]
  lookup := fun _ created => batch_lookup draw created
  told := by
    intro fieldStr quantileStr thresholdStr
    refine ⟨["-o".toList, opStr numerals checked.mlStats, "-p".toList, decimal checked.nbParam],
      (commandWords numerals nodeName checked fieldStr quantileStr thresholdStr).drop 6, ?_⟩
    rw [commandWords, sample]
    rfl

/-- Batches hold the simulations that fill them: all of the sample if the batch size divides it. -/
theorem createdSimulations {numerals : Numerals D} {installPrefix : List Char}
    {study checked : LauncherStudy D}
    (accepted : checkOptions numerals installPrefix study = (0, checked))
    (plain : checked.mlStats.isOn numerals "sobol_indices" = false) {n b : Nat}
    (sample : checked.stdyOpt.samplingSize = n) (batch : checked.stdyOpt.batchSize = some (b : Int))
    (positive : 1 ≤ b) (nodeName : List Char) (draw : Nat → List D) :
    1 ≤ n ∧ ∃ groups, createGroupList (checked.mlStats.isOn numerals "sobol_indices") draw
        checked.stdyOpt.samplingSize (checked.stdyOpt.batchSize.getD 1) = some groups ∧
      Numbered numerals nodeName checked groups n b := by
  have enough := samplingSize_of_accepted accepted
  refine ⟨by omega, _, ?_, numbered_batches numerals nodeName checked draw sample⟩
  rw [plain, batch, Option.getD_some, createGroupList_batches draw (by omega) (by omega), sample]
  rfl

end Accepted

section Example

/-- Python integers: zero is false, `str` is `%d`. -/
def intNumerals : Numerals Int := { truthy := fun i => decide (i ≠ 0), str := decimal }

/-- Three simulations in batches of two. -/
private def threeInTwos : LauncherStudy Int :=
  { stdyOpt :=
      { samplingSize := 3, nbTimesteps := 10, fieldNames := ["heat1".toList]
        checkpointInterval := 300, simulationTimeout := 400, verbosity := none
        batchSize := some 2, sendPort := none, recvPort := none, respPort := none
        dataPort := none, learning := none, nnPath := none, disableFaultTolerance := none
        thresholdValue := none, thresholdValues := none, quantileValue := none
        quantileValues := none }
    mlStats := [("mean", .flag true), ("variance", .flag true)]
    usrFunc := ["launch_server", "launch_group", "check_job", "cancel_job"]
    nbParam := 2 }

private theorem threeInTwos_accepted : checkOptions intNumerals [] threeInTwos =
    (0, (checkOptions intNumerals [] threeInTwos).2) := by decide +kernel

theorem createdSimulations_threeInTwos :
    1 ≤ 3 ∧ ∃ groups, createGroupList false (fun k => [(k : Int), 1]) 3 2 = some groups ∧
      Numbered intNumerals "node1".toList (checkOptions intNumerals [] threeInTwos).2 groups 3 2 :=
  createdSimulations (n := 3) (b := 2) threeInTwos_accepted (by decide +kernel) rfl rfl
    (by decide) "node1".toList fun k => [(k : Int), 1]

/-- The third simulation is in no group. -/
theorem not_allCreated_threeInTwos :
    ¬ ∀ (study checked : LauncherStudy Int) (draw : Nat → List Int) (n b : Nat),
      checkOptions intNumerals [] study = (0, checked) →
      checked.mlStats.isOn intNumerals "sobol_indices" = false →
      checked.stdyOpt.samplingSize = n → checked.stdyOpt.batchSize = some (b : Int) → 1 ≤ b →
      ∃ groups, createGroupList (checked.mlStats.isOn intNumerals "sobol_indices") draw
          checked.stdyOpt.samplingSize (checked.stdyOpt.batchSize.getD 1) = some groups ∧
        (groups.flatMap Group.simuId).Perm (List.range n) := by
  intro always
  obtain ⟨groups, created, all⟩ := always threeInTwos _ (fun k => [(k : Int), 1]) 3 2
    threeInTwos_accepted (by decide +kernel) rfl rfl (by decide)
  have ids : (createGroupList false (fun k => [(k : Int), 1]) 3 2).map
      (fun groups => groups.flatMap Group.simuId) = some [0, 1] := by decide +kernel
  have same : createGroupList false (fun k => [(k : Int), 1]) 3 2 = some groups := created
  rw [same, Option.map_some, Option.some.injEq] at ids
  rw [ids] at all
  exact absurd all.length_eq (by decide)

end Example

end Melissa
