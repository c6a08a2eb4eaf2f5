import Melissa.Io.Checkpoint
import Melissa.OrderFree
import Melissa.Server.EntryHistory
import Mathlib.Data.List.MinMax

/-! `min_and_max` over any sequence of calls: the extrema are right, and the ids are once a call
after the first one has set them. -/

namespace Melissa

open Arrays

section Argmin

variable {α β : Type} [LinearOrder β] {f : α → β} {head best : α} {tail : List α}

theorem argmin_mem_tail (chosen : best ∈ (head :: tail).argmin f)
    (beaten : ∃ item ∈ tail, f item < f head) : best ∈ tail := by
  obtain ⟨item, inside, lower⟩ := beaten
  rcases List.mem_cons.mp (List.argmin_mem chosen) with rfl | later
  · have least := List.le_of_mem_argmin (List.mem_cons_of_mem _ inside) chosen
    exact absurd lower (not_lt_of_ge least)
  · exact later

theorem argmin_eq_head (chosen : best ∈ (head :: tail).argmin f)
    (unbeaten : ¬ ∃ item ∈ tail, f item < f head) : best = head := by
  rw [List.argmin_cons] at chosen
  cases found : tail.argmin f with
  | none =>
      rw [found] at chosen
      exact (Option.mem_some_iff.mp chosen).symm
  | some item =>
      have higher : ¬ f item < f head := fun lower =>
        unbeaten ⟨item, List.argmin_mem found, lower⟩
      rw [found] at chosen
      simp only [if_neg higher] at chosen
      exact (Option.mem_some_iff.mp chosen).symm

end Argmin

section Run

variable {D : Type} [Zero D]

/-- The structure after the given calls; those of a run of `compute_stats` are in
`computeAll_minMax`. -/
def minMaxRun [LT D] [DecidableLT D] (vectSize : Nat) (pairs : List (Nat × List D)) : MinMax D :=
  pairs.foldl (fun minMax pair => minAndMax minMax pair.2 pair.1 vectSize) (initMinMax vectSize)

/-- The numbers of component `i` with the ids the code has for them: the first call leaves the id
that `calloc` has written. -/
def entries (first : List D) (rest : List (Nat × List D)) (i : Nat) : List (D × Nat) :=
  (first.getD i 0, 0) :: rest.map fun pair => (pair.2.getD i 0, pair.1)

def valuesAt (pairs : List (Nat × List D)) (i : Nat) : List D :=
  pairs.map fun pair => pair.2.getD i 0

/-- `id` is a simulation with this value in component `i`. -/
def Attributed (pairs : List (Nat × List D)) (i : Nat) (value : D) (id : Nat) : Prop :=
  ∃ pair ∈ pairs, pair.1 = id ∧ pair.2.getD i 0 = value

instance [DecidableEq D] (pairs : List (Nat × List D)) (i : Nat) (value : D) (id : Nat) :
    Decidable (Attributed pairs i value id) :=
  inferInstanceAs (Decidable (∃ pair ∈ pairs, pair.1 = id ∧ pair.2.getD i 0 = value))

theorem entries_concat (first : List D) (rest : List (Nat × List D)) (pair : Nat × List D)
    (i : Nat) : entries first (rest ++ [pair]) i =
      entries first rest i ++ [(pair.2.getD i 0, pair.1)] := by
  simp [entries]

theorem entries_values (first : Nat × List D) (rest : List (Nat × List D)) (i : Nat) :
    (entries first.2 rest i).map Prod.fst = valuesAt (first :: rest) i := by
  simp [entries, valuesAt, Function.comp_def]

/-- The best entry has a value of the sequence that no other beats, for the least and for the
greatest. -/
theorem best_value {β : Type} [LinearOrder β] {key : D → β} {first : Nat × List D}
    {rest : List (Nat × List D)} {i id : Nat} {value : D}
    (chosen : (value, id) ∈ (entries first.2 rest i).argmin (key ∘ Prod.fst)) :
    value ∈ valuesAt (first :: rest) i ∧
      ∀ other ∈ valuesAt (first :: rest) i, key value ≤ key other := by
  rw [← entries_values]
  constructor
  · exact List.mem_map_of_mem (List.argmin_mem chosen)
  · intro other member
    obtain ⟨entry, here, rfl⟩ := List.mem_map.mp member
    have least := List.le_of_mem_argmin here chosen
    exact least

/-- Whether it carries an id of the sequence. -/
theorem attributed_iff {β : Type} [LinearOrder β] {key : D → β} {first : Nat × List D}
    {rest : List (Nat × List D)} {i id : Nat} {value : D}
    (chosen : (value, id) ∈ (entries first.2 rest i).argmin (key ∘ Prod.fst)) :
    Attributed (first :: rest) i value id ↔
      (∃ pair ∈ rest, key (pair.2.getD i 0) < key (first.2.getD i 0)) ∨
        Attributed (first :: rest) i (first.2.getD i 0) 0 := by
  have beaten : (∃ entry ∈ rest.map fun pair => (pair.2.getD i 0, pair.1),
      (key ∘ Prod.fst) entry < (key ∘ Prod.fst) (first.2.getD i 0, 0)) ↔
        ∃ pair ∈ rest, key (pair.2.getD i 0) < key (first.2.getD i 0) := by
    simp only [List.mem_map, exists_exists_and_eq_and, Function.comp_apply]
  by_cases lower : ∃ pair ∈ rest, key (pair.2.getD i 0) < key (first.2.getD i 0)
  · obtain ⟨pair, inside, same⟩ := List.mem_map.mp (argmin_mem_tail chosen (beaten.mpr lower))
    obtain ⟨rfl, rfl⟩ := Prod.mk.inj same
    exact iff_of_true ⟨pair, List.mem_cons_of_mem _ inside, rfl, rfl⟩ (Or.inl lower)
  · obtain ⟨rfl, rfl⟩ := Prod.mk.inj (argmin_eq_head chosen fun below => lower (beaten.mp below))
    rw [or_iff_right lower]

end Run

section Order

variable {K : Type} [Zero K] [LinearOrder K]

/-- In every component the code holds the first of the best entries. -/
structure MinMaxTracks (vectSize : Nat) (first : List K) (rest : List (Nat × List K))
    (held : MinMax K) : Prop where
  isInit : held.isInit = true
  min : ∀ i < vectSize, (held.min.getD i 0, held.minId.getD i 0) ∈
    (entries first rest i).argmin Prod.fst
  max : ∀ i < vectSize, (held.max.getD i 0, held.maxId.getD i 0) ∈
    (entries first rest i).argmax Prod.fst

theorem minAndMax_first (vectSize : Nat) (first : Nat × List K) :
    MinMaxTracks vectSize first.2 []
      (minAndMax (initMinMax vectSize) first.2 first.1 vectSize) := by
  have zero (i : Nat) : (List.replicate vectSize 0).getD i 0 = 0 := by
    simp only [List.getD_eq_getElem?_getD, List.getElem?_replicate]
    split <;> rfl
  have start : (initMinMax (D := K) vectSize).isInit = false := rfl
  constructor
  · rfl
  · intro i inside
    rw [minAndMax, if_pos start, initMinMax]
    simp only [getD_overwrite inside, zero]
    exact rfl
  · intro i inside
    rw [minAndMax, if_pos start, initMinMax]
    simp only [getD_overwrite inside, zero]
    exact rfl

theorem minAndMax_tracks {vectSize : Nat} {first : List K} {rest : List (Nat × List K)}
    {held : MinMax K} (tracks : MinMaxTracks vectSize first rest held) (pair : Nat × List K) :
    MinMaxTracks vectSize first (rest ++ [pair]) (minAndMax held pair.2 pair.1 vectSize) := by
  obtain ⟨isInit, min, max⟩ := tracks
  have later : ¬ held.isInit = false := by simp [isInit]
  constructor
  · rw [minAndMax, if_neg later]
    exact isInit
  · intro i inside
    rw [minAndMax, if_neg later, entries_concat, List.argmin_concat,
      Option.mem_def.mp (min i inside)]
    simp only [getD_overwrite inside]
    by_cases lower : pair.2.getD i 0 < held.min.getD i 0
    · simp only [gt_iff_lt, lower, if_true, Option.mem_def]
    · simp only [gt_iff_lt, lower, if_false, Option.mem_def]
  · intro i inside
    rw [minAndMax, if_neg later, entries_concat, List.argmax_concat,
      Option.mem_def.mp (max i inside)]
    simp only [getD_overwrite inside]
    by_cases higher : held.max.getD i 0 < pair.2.getD i 0
    · simp only [higher, if_true, Option.mem_def]
    · simp only [higher, if_false, Option.mem_def]

theorem minMaxRun_tracks (vectSize : Nat) (first : Nat × List K) (rest : List (Nat × List K)) :
    MinMaxTracks vectSize first.2 rest (minMaxRun vectSize (first :: rest)) := by
  induction rest using List.reverseRecOn with
  | nil => exact minAndMax_first vectSize first
  | append_singleton rest pair ih =>
      have step : minMaxRun vectSize (first :: (rest ++ [pair])) =
          minAndMax (minMaxRun vectSize (first :: rest)) pair.2 pair.1 vectSize :=
        List.foldl_append (l := first :: rest)
      rw [step]
      exact minAndMax_tracks ih pair

/-- The extrema of the sequence in component `i`, each with a simulation that attains it. -/
structure ExtremaAt (pairs : List (Nat × List K)) (held : MinMax K) (i : Nat) : Prop where
  min : IsLeast {value | value ∈ valuesAt pairs i} (held.min.getD i 0)
  max : IsGreatest {value | value ∈ valuesAt pairs i} (held.max.getD i 0)
  minId : Attributed pairs i (held.min.getD i 0) (held.minId.getD i 0)
  maxId : Attributed pairs i (held.max.getD i 0) (held.maxId.getD i 0)

theorem minMaxRun_min {vectSize i : Nat} (inside : i < vectSize) (first : Nat × List K)
    (rest : List (Nat × List K)) :
    IsLeast {value | value ∈ valuesAt (first :: rest) i}
      ((minMaxRun vectSize (first :: rest)).min.getD i 0) :=
  @best_value K _ K _ id first rest i _ _ ((minMaxRun_tracks vectSize first rest).min i inside)

theorem minMaxRun_max {vectSize i : Nat} (inside : i < vectSize) (first : Nat × List K)
    (rest : List (Nat × List K)) :
    IsGreatest {value | value ∈ valuesAt (first :: rest) i}
      ((minMaxRun vectSize (first :: rest)).max.getD i 0) :=
  @best_value K _ Kᵒᵈ _ OrderDual.toDual first rest i _ _
    ((minMaxRun_tracks vectSize first rest).max i inside)

/-- The first call sets no id: it has to be beaten on both sides, or the 0 that `calloc` has
written has to be the id of a simulation with its value. -/
theorem extrema_iff (vectSize : Nat) (first : Nat × List K) (rest : List (Nat × List K)) :
    (∀ i < vectSize,
      ExtremaAt (first :: rest) (minMaxRun vectSize (first :: rest)) i) ↔
    ∀ i < vectSize,
      ((∃ pair ∈ rest, pair.2.getD i 0 < first.2.getD i 0) ∨
        Attributed (first :: rest) i (first.2.getD i 0) 0) ∧
      ((∃ pair ∈ rest, first.2.getD i 0 < pair.2.getD i 0) ∨
        Attributed (first :: rest) i (first.2.getD i 0) 0) := by
  have tracks := minMaxRun_tracks vectSize first rest
  apply forall₂_congr
  intro i inside
  have least := @attributed_iff K _ K _ id first rest i _ _ (tracks.min i inside)
  have greatest := @attributed_iff K _ Kᵒᵈ _ OrderDual.toDual first rest i _ _
    (tracks.max i inside)
  constructor
  · intro extrema
    exact ⟨least.mp extrema.minId, greatest.mp extrema.maxId⟩
  · intro set
    constructor
    · exact minMaxRun_min inside first rest
    · exact minMaxRun_max inside first rest
    · exact least.mpr set.1
    · exact greatest.mpr set.2

end Order

section Server

variable {D : Type} [Zero D] [Add D] [Sub D] [Mul D] [Div D] [NatCast D] [IntCast D]
  [Pow D ℕ] [LT D] [DecidableLT D] [LE D] [DecidableLE D] [Libm D]

/-- The calls that the messages of one time step lead to. -/
def pairsAt (options : Options D) (messages : List (SimuData D)) (timeStep : Nat) :
    List (Nat × List D) :=
  (messages.filter (atStep timeStep)).flatMap fun m =>
    samples options m.simuId (inVectTab options m)

theorem contribute_minMax {options : Options D} (requested : options.minAndMaxOp = true)
    (vectSize : Nat) (stats : StepStats D) (m : SimuData D) :
    (contribute options vectSize stats m).minMax = stats.minMax.map fun minMax =>
      (samples options m.simuId (inVectTab options m)).foldl
        (fun minMax pair => minAndMax minMax pair.2 pair.1 vectSize) minMax := by
  unfold contribute updateStep samples
  cases options.sobolOp with
  | false =>
      simp only [Bool.false_eq_true, if_false, updateVector, requested, if_true]
      rfl
  | true =>
      simp only [if_true, updateVector, updateSobol, requested, Option.map_map]
      rfl

theorem contributeAll_minMax {options : Options D} (requested : options.minAndMaxOp = true)
    (vectSize : Nat) (messages : List (SimuData D)) (stats : StepStats D) :
    (messages.foldl (contribute options vectSize) stats).minMax = stats.minMax.map fun minMax =>
      (messages.flatMap fun m => samples options m.simuId (inVectTab options m)).foldl
        (fun minMax pair => minAndMax minMax pair.2 pair.1 vectSize) minMax :=
  Runs.foldl_part (contribute_minMax requested vectSize) messages stats

/-- A run of `compute_stats` is such a sequence of calls for every time step. -/
theorem computeAll_minMax {options : Options D} {nbSimu vectSize : Nat}
    {messages : List (SimuData D)} (requested : options.minAndMaxOp = true)
    (positive : 0 < vectSize)
    (sendable : ∀ m ∈ messages, Sendable options nbSimu vectSize m) :
    ∃ data, computeAll options (melissaInitData options emptyData vectSize) messages =
        some data ∧
      ∀ t < options.nbTimeSteps,
        data.minMax[t]? = some (minMaxRun vectSize (pairsAt options messages t)) := by
  have start := melissaInitData_eq options positive
  obtain ⟨data, computed, _, stats⟩ := computeAll_eachStep sendable
    (melissaInitData options emptyData vectSize) (by rw [start]) (by rw [start])
  refine ⟨data, computed, ?_⟩
  intro t below
  have here := congrArg StepStats.minMax (stats t)
  rw [contributeAll_minMax requested] at here
  have fresh : (melissaInitData options emptyData vectSize).minMax[t]? =
      some (initMinMax vectSize) := by
    rw [start]
    simp [requested, below]
  calc data.minMax[t]?
      = (melissaInitData options emptyData vectSize).minMax[t]?.map _ := here
    _ = some (minMaxRun vectSize (pairsAt options messages t)) := by
        rw [fresh]
        rfl

end Server

section Example

/-- One simulation, number 1, with the value 5: the ids are 0. -/
theorem not_extrema_oneSimulation :
    ¬ ∀ (vectSize : Nat) (pairs : List (Nat × List ℚ)), pairs ≠ [] →
      ∀ i < vectSize, ExtremaAt pairs (minMaxRun vectSize pairs) i := by
  intro always
  have attributed := (always 1 [(1, [5])] (by decide) 0 (by decide)).minId
  have missing : ¬ Attributed [(1, [5])] 0 ((minMaxRun 1 [(1, ([5] : List ℚ))]).min.getD 0 0)
      ((minMaxRun 1 [(1, ([5] : List ℚ))]).minId.getD 0 0) := by
    decide +kernel
  exact missing attributed

end Example

end Melissa
