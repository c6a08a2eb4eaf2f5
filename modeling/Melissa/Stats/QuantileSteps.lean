import Melissa.Io.Checkpoint
import Melissa.Server.EntryHistory
import Melissa.Server.State
import Mathlib.Algebra.Order.Field.Basic
import Mathlib.Tactic.Linarith

/-! The exponents of `increment_quantile` in a run of `compute_stats`: the structures count calls,
and a Sobol study makes two of them for each group. -/

namespace Melissa

section Gamma

variable {D : Type} [Add D] [Mul D] [Div D] [NatCast D] [IntCast D]

/-- `gamma` in the call that raises `increment` to the given value; `incrementQuantile_gamma` reads
it off the call. -/
def quantileGamma (increment : Nat) (nmax : Int) : D :=
  ((increment - 1 : ℕ) : D) * (((9 : ℕ) : D) / ((10 : ℕ) : D)) / ((nmax - 1 : ℤ) : D) +
    ((1 : ℕ) : D) / ((10 : ℕ) : D)

variable [Zero D] [Sub D] [LE D] [DecidableLE D] [Libm D]

/-- A later call moves the quantile by a step with this exponent. -/
theorem incrementQuantile_gamma (quantile : Quantile D) (nmax : Int) (inVect : List D)
    {vectSize i : Nat} (later : quantile.increment + 1 > 1) (inside : i < vectSize) :
    (incrementQuantile quantile nmax inVect vectSize).quantile.getD i 0 =
      quantile.quantile.getD i 0 -
        (if quantile.quantile.getD i 0 ≥ inVect.getD i 0 then ((1 : ℕ) : D) - quantile.alpha
          else 0 - quantile.alpha) /
        Libm.pow ((quantile.increment + 1 : ℕ) : D)
          (quantileGamma (quantile.increment + 1) nmax) := by
  rw [incrementQuantile, if_pos later]
  exact Arrays.getD_overwrite inside _ _ _

theorem incrementQuantile_increment (quantile : Quantile D) (nmax : Int) (inVect : List D)
    (vectSize : Nat) :
    (incrementQuantile quantile nmax inVect vectSize).increment = quantile.increment + 1 := by
  rw [incrementQuantile]
  split
  · rfl
  · rfl

end Gamma

section Range

variable (K : Type) [Field K] [LinearOrder K] [IsStrictOrderedRing K]

/-- A step of the Robbins-Monro range. -/
structure GammaInRange (increment : Nat) (nmax : Int) : Prop where
  divisor : nmax - 1 ≠ 0
  least : 1 / 10 ≤ (quantileGamma increment nmax : K)
  greatest : (quantileGamma increment nmax : K) ≤ 1

variable {K}

/-- The range is left after `nmax` calls. -/
theorem gammaInRange_iff {increment : Nat} (later : increment > 1) {nmax : Int} :
    GammaInRange K increment nmax ↔ (increment : Int) ≤ nmax := by
  have calls : (0 : K) < ((increment - 1 : ℕ) : K) * (9 / 10) :=
    mul_pos (Nat.cast_pos.mpr (by omega)) (by norm_num)
  have gamma : (quantileGamma increment nmax : K) =
      ((increment - 1 : ℕ) : K) * (9 / 10) / ((nmax - 1 : ℤ) : K) + 1 / 10 := by
    rw [quantileGamma]
    norm_num
  have bound (positive : (0 : K) < ((nmax - 1 : ℤ) : K)) :
      (quantileGamma increment nmax : K) ≤ 1 ↔ ((increment - 1 : ℕ) : Int) ≤ nmax - 1 := by
    rw [gamma, ← le_sub_iff_add_le, div_le_iff₀ positive, ← Int.cast_le (R := K)]
    push_cast
    constructor
    · intro below
      linarith
    · intro below
      linarith
  constructor
  · intro range
    obtain ⟨divisor, least, greatest⟩ := range
    have sign : (0 : K) ≤ ((increment - 1 : ℕ) : K) * (9 / 10) / ((nmax - 1 : ℤ) : K) := by
      rw [gamma] at least
      linarith
    have nonneg : (0 : K) ≤ ((nmax - 1 : ℤ) : K) := by
      rw [div_eq_mul_inv] at sign
      exact inv_nonneg.mp (nonneg_of_mul_nonneg_right sign calls)
    have positive := lt_of_le_of_ne nonneg (Int.cast_ne_zero.mpr divisor).symm
    have fits := (bound positive).mp greatest
    omega
  · intro fits
    have positive : (0 : K) < ((nmax - 1 : ℤ) : K) := Int.cast_pos.mpr (by omega)
    constructor
    · omega
    · rw [gamma]
      have sign := (div_pos calls positive).le
      linarith
    · exact (bound positive).mpr (by omega)

end Range

section Count

variable {D : Type} [Zero D] [Add D] [Sub D] [Mul D] [Div D] [NatCast D] [IntCast D]
  [Pow D ℕ] [LT D] [DecidableLT D] [LE D] [DecidableLE D] [Libm D]

/-- The calls of `increment_quantile` for one structure that a message leads to. -/
def quantileUpdates (options : Options D) : Nat := if options.sobolOp then 2 else 1

/-- The structures that `compute_stats` hands to `increment_quantile` for a message, each as it is
then. -/
def quantileCalls (options : Options D) (data : MelissaData D) (m : SimuData D) :
    List (Quantile D) :=
  let timeStep := m.timeStamp.toNat
  let inVectTab := inVectTab options m
  let row (data : MelissaData D) : List (Quantile D) := data.quantiles[timeStep]?.getD []
  if options.sobolOp then
    row data ++ row (computeSobol timeStep inVectTab
      (computeVector options timeStep m.simuId (inVectTab.getD 0 []) data))
  else row data

/-- All `count` structures of a time step have seen `calls` calls. -/
def CallsCounted (count calls : Nat) (stats : StepStats D) : Prop :=
  stats.quantiles.map (List.map Quantile.increment) = some (List.replicate count calls)

theorem updateVector_counted {options : Options D} (requested : options.quantileOp = true)
    {count calls : Nat} {stats : StepStats D} (counted : CallsCounted count calls stats)
    (vectSize simuId : Nat) (inVect : List D) :
    CallsCounted count (calls + 1) (updateVector options vectSize simuId inVect stats) := by
  unfold CallsCounted updateVector at *
  obtain ⟨row, found, increments⟩ := Option.map_eq_some_iff.mp counted
  have step : Quantile.increment ∘
      (fun quantile : Quantile D =>
        incrementQuantile quantile options.samplingSize inVect vectSize) =
      (· + 1) ∘ Quantile.increment :=
    funext fun quantile => incrementQuantile_increment quantile _ inVect vectSize
  simp only [requested, if_true, found, Option.map_some, List.map_map, step]
  rw [← List.map_map, increments, List.map_replicate]

theorem contribute_counted {options : Options D} (requested : options.quantileOp = true)
    {count calls : Nat} {stats : StepStats D} (counted : CallsCounted count calls stats)
    (vectSize : Nat) (m : SimuData D) :
    CallsCounted count (calls + quantileUpdates options) (contribute options vectSize stats m) := by
  have first := updateVector_counted requested counted vectSize m.simuId
    ((inVectTab options m).getD 0 [])
  unfold contribute updateStep quantileUpdates
  cases options.sobolOp with
  | false => exact first
  | true =>
      have same : CallsCounted count (calls + 1) (updateSobol vectSize (inVectTab options m)
          (updateVector options vectSize m.simuId ((inVectTab options m).getD 0 []) stats)) := first
      exact updateVector_counted requested same vectSize m.simuId
        ((inVectTab options m).getD 1 [])

theorem contributeAll_counted {options : Options D} (requested : options.quantileOp = true)
    {count calls : Nat} {stats : StepStats D} (counted : CallsCounted count calls stats)
    (vectSize : Nat) (messages : List (SimuData D)) :
    CallsCounted count (calls + quantileUpdates options * messages.length)
      (messages.foldl (contribute options vectSize) stats) := by
  induction messages generalizing calls stats with
  | nil => exact counted
  | cons m rest ih =>
      have step := ih (contribute_counted requested counted vectSize m)
      have total : calls + quantileUpdates options + quantileUpdates options * rest.length =
          calls + quantileUpdates options * (m :: rest).length := by
        rw [List.length_cons]
        ring
      rw [total] at step
      exact step

/-- After a run every structure has counted the calls for the messages of its time step. -/
theorem computeAll_counted {options : Options D} (requested : options.quantileOp = true)
    {nbSimu vectSize : Nat} (positive : 0 < vectSize) {messages : List (SimuData D)}
    (sendable : ∀ m ∈ messages, Sendable options nbSimu vectSize m) :
    ∃ data, computeAll options (melissaInitData options emptyData vectSize) messages =
        some data ∧
      ∀ t < options.nbTimeSteps, CallsCounted options.quantileOrder.length
        (quantileUpdates options * (messages.filter (atStep t)).length) (stepStats data t) := by
  have start := melissaInitData_eq options positive
  obtain ⟨data, computed, _, stats⟩ := computeAll_eachStep sendable
    (melissaInitData options emptyData vectSize) (by rw [start]) (by rw [start])
  refine ⟨data, computed, ?_⟩
  intro t below
  have zeros : (options.quantileOrder.map (initQuantile vectSize)).map Quantile.increment =
      List.replicate options.quantileOrder.length 0 := by
    rw [List.map_map]
    exact List.map_const' ..
  have fresh : CallsCounted options.quantileOrder.length 0
      (stepStats (melissaInitData options emptyData vectSize) t) := by
    rw [CallsCounted, stepStats, start]
    simp only [requested, if_true, List.getElem?_replicate, below, Option.map_some, zeros]
  have after := contributeAll_counted requested fresh vectSize (messages.filter (atStep t))
  rw [Nat.zero_add, ← stats t] at after
  exact after

/-- The counters of the structures in the calls for the next message. -/
theorem quantileCalls_counted {options : Options D} (requested : options.quantileOp = true)
    {count calls : Nat} {data : MelissaData D} {m : SimuData D}
    (counted : CallsCounted count calls (stepStats data m.timeStamp.toNat)) :
    (quantileCalls options data m).map Quantile.increment =
      List.replicate count calls ++
        if options.sobolOp then List.replicate count (calls + 1) else [] := by
  have read (data : MelissaData D) {calls : Nat}
      (counted : CallsCounted count calls (stepStats data m.timeStamp.toNat)) :
      (data.quantiles[m.timeStamp.toNat]?.getD []).map Quantile.increment =
        List.replicate count calls := by
    obtain ⟨row, found, increments⟩ := Option.map_eq_some_iff.mp counted
    have here : data.quantiles[m.timeStamp.toNat]? = some row := found
    rw [here, Option.getD_some, increments]
  unfold quantileCalls
  cases sobol : options.sobolOp with
  | false =>
      simp only [Bool.false_eq_true, if_false, List.append_nil]
      exact read data counted
  | true =>
      have updated := updateVector_counted requested counted data.vectSize m.simuId
        ((inVectTab options m).getD 0 [])
      have vector := stepStats_computeVector options m.timeStamp.toNat m.simuId
        ((inVectTab options m).getD 0 []) data m.timeStamp.toNat
      rw [if_pos rfl] at vector
      rw [← vector] at updated
      simp only [if_true, List.map_append, read data counted]
      exact congrArg _ (read _ updated)

end Count

section Messages

variable {D : Type}

/-- Simulations that send at most once for a time step are not more than there are. -/
theorem messages_le {options : Options D} {nbSimu vectSize : Nat} {messages : List (SimuData D)}
    (sendable : ∀ m ∈ messages, Sendable options nbSimu vectSize m)
    (once : (messages.map fun m => (m.simuId, m.timeStamp)).Nodup) (t : Nat) :
    (messages.filter (atStep t)).length ≤ nbSimu := by
  have distinct : ((messages.filter (atStep t)).map SimuData.simuId).Nodup := by
    have pairs := (List.pairwise_map.mp once).filter (atStep t)
    apply List.pairwise_map.mpr
    apply pairs.imp_of_mem
    intro m m' member member' different same
    have stamp : m.timeStamp = (t : Int) := beq_iff_eq.mp (List.mem_filter.mp member).2
    have stamp' : m'.timeStamp = (t : Int) := beq_iff_eq.mp (List.mem_filter.mp member').2
    exact different (Prod.ext same (stamp.trans stamp'.symm))
  have known : (messages.filter (atStep t)).map SimuData.simuId ⊆ List.range nbSimu := by
    intro simuId member
    obtain ⟨m, here, rfl⟩ := List.mem_map.mp member
    exact List.mem_range.mpr (sendable m (List.mem_filter.mp here).1).inside
  have fits := (distinct.subperm known).length_le
  rwa [List.length_map, List.length_range] at fits

/-- The messages before `m` for its time step are fewer than all of them. -/
theorem earlier_lt {messages front back : List (SimuData D)} {m : SimuData D}
    (split : messages = front ++ m :: back) (valid : 0 ≤ m.timeStamp) :
    (front.filter (atStep m.timeStamp.toNat)).length <
      (messages.filter (atStep m.timeStamp.toNat)).length := by
  have own : atStep m.timeStamp.toNat m = true := by
    rw [atStep, beq_iff_eq]
    omega
  rw [split, List.filter_append, List.filter_cons_of_pos own, List.length_append,
    List.length_cons]
  omega

/-- The last message of a time step comes after all the others. -/
theorem exists_last {messages : List (SimuData D)} {t : Nat}
    (some_message : messages.filter (atStep t) ≠ []) :
    ∃ front m back, messages = front ++ m :: back ∧ m.timeStamp = (t : Int) ∧
      (front.filter (atStep t)).length + 1 = (messages.filter (atStep t)).length := by
  induction messages using List.reverseRecOn with
  | nil => exact absurd rfl some_message
  | append_singleton messages m ih =>
      by_cases own : atStep t m = true
      · exact ⟨messages, m, [], rfl, beq_iff_eq.mp own, by simp [own]⟩
      · have skipped : (messages ++ [m]).filter (atStep t) = messages.filter (atStep t) := by
          simp [own]
        rw [skipped] at some_message ⊢
        obtain ⟨front, last, back, rfl, stamp, number⟩ := ih some_message
        exact ⟨front, last, back ++ [m], by simp, stamp, number⟩

end Messages

section Steps

variable {K : Type} [Field K] [LinearOrder K] [IsStrictOrderedRing K] [Libm K]

/-- In a run over the messages every update after the first has an exponent in the range. -/
def QuantileStepsInRange (options : Options K) (vectSize : Nat) (messages : List (SimuData K)) :
    Prop :=
  ∀ front m back, messages = front ++ m :: back →
    ∀ data, computeAll options (melissaInitData options emptyData vectSize) front = some data →
      ∀ quantile ∈ quantileCalls options data m, quantile.increment + 1 > 1 →
        GammaInRange K (quantile.increment + 1) options.samplingSize

/-- The calls for one message, after `front`. -/
theorem callsInRange_iff {options : Options K} (requested : options.quantileOp = true)
    (orders : options.quantileOrder ≠ []) {calls : Nat} {data : MelissaData K} {m : SimuData K}
    (counted : CallsCounted options.quantileOrder.length calls (stepStats data m.timeStamp.toNat)) :
    (∀ quantile ∈ quantileCalls options data m, quantile.increment + 1 > 1 →
        GammaInRange K (quantile.increment + 1) options.samplingSize) ↔
      (calls ≠ 0 → (calls : Int) + 1 ≤ options.samplingSize) ∧
        (options.sobolOp = true → (calls : Int) + 2 ≤ options.samplingSize) := by
  have increments := quantileCalls_counted requested counted
  have filled : options.quantileOrder.length ≠ 0 := mt List.length_eq_zero_iff.mp orders
  have each : (∀ quantile ∈ quantileCalls options data m, quantile.increment + 1 > 1 →
      GammaInRange K (quantile.increment + 1) options.samplingSize) ↔
      ∀ n ∈ (quantileCalls options data m).map Quantile.increment, n ≠ 0 →
        (n : Int) + 1 ≤ options.samplingSize := by
    rw [List.forall_mem_map]
    apply forall₂_congr
    intro quantile _
    constructor
    · intro inRange later
      exact_mod_cast (gammaInRange_iff (by omega)).mp (inRange (by omega))
    · intro fits later
      exact (gammaInRange_iff later).mpr (by exact_mod_cast fits (by omega))
  rw [each, increments]
  cases options.sobolOp with
  | false => simp [filled]
  | true =>
      simp only [if_true, List.mem_append, List.mem_replicate, forall_const]
      constructor
      · intro all
        have second := all (calls + 1) (Or.inr ⟨filled, rfl⟩) (by omega)
        exact ⟨all calls (Or.inl ⟨filled, rfl⟩), by omega⟩
      · intro both n member positive
        rcases member with ⟨_, rfl⟩ | ⟨_, rfl⟩
        · exact both.1 positive
        · omega

/-- The same for all messages of a run, in terms of the earlier messages of their time steps. -/
theorem runInRange_iff {options : Options K} (requested : options.quantileOp = true)
    (orders : options.quantileOrder ≠ []) {nbSimu vectSize : Nat} (positive : 0 < vectSize)
    {messages : List (SimuData K)}
    (sendable : ∀ m ∈ messages, Sendable options nbSimu vectSize m) :
    QuantileStepsInRange options vectSize messages ↔
      ∀ front m back, messages = front ++ m :: back →
        (quantileUpdates options * (front.filter (atStep m.timeStamp.toNat)).length ≠ 0 →
          ((quantileUpdates options * (front.filter (atStep m.timeStamp.toNat)).length : ℕ) : Int) +
            1 ≤ options.samplingSize) ∧
        (options.sobolOp = true →
          ((quantileUpdates options * (front.filter (atStep m.timeStamp.toNat)).length : ℕ) : Int) +
            2 ≤ options.samplingSize) := by
  apply forall₃_congr
  intro front m back
  apply forall_congr'
  intro split
  have sent : ∀ m ∈ front, Sendable options nbSimu vectSize m := by
    intro m member
    exact sendable m (split ▸ List.mem_append_left _ member)
  have below := (sendable m (split ▸ List.mem_append_right _ List.mem_cons_self)).below
  obtain ⟨data, computed, counted⟩ := computeAll_counted requested positive sent
  rw [← callsInRange_iff requested orders (counted _ below)]
  constructor
  · exact fun inRange => inRange data computed
  · intro inRange data' computed'
    rw [computed] at computed'
    cases computed'
    exact inRange

/-- A study without Sobol indices stays in the range; a Sobol study stays in it when the groups
of every time step are at most half the sampling size. -/
theorem quantileSteps_iff {given options : Options K}
    (passed : melissaCheckOptions given = some options) (requested : options.quantileOp = true)
    {vectSize : Nat} (positive : 0 < vectSize) {messages : List (SimuData K)}
    (sendable : ∀ m ∈ messages, Sendable options options.samplingSize.toNat vectSize m)
    (once : (messages.map fun m => (m.simuId, m.timeStamp)).Nodup) :
    QuantileStepsInRange options vectSize messages ↔
      options.sobolOp = false ∨
        ∀ t : Nat, 2 * ((messages.filter (atStep t)).length : Int) ≤ options.samplingSize := by
  have accepted := accepted_of_passed passed
  have orders : options.quantileOrder ≠ [] := by
    rintro empty
    simp [rejected, requested, empty] at accepted
  have size : 1 ≤ options.samplingSize := by
    by_contra small
    have short : options.samplingSize < 1 := by omega
    simp [rejected, short] at accepted
  have earlier (front : List (SimuData K)) (m : SimuData K) (back : List (SimuData K))
      (split : messages = front ++ m :: back) :=
    earlier_lt split (sendable m (split ▸ List.mem_append_right _ List.mem_cons_self)).valid
  rw [runInRange_iff requested orders positive sendable]
  cases sobol : options.sobolOp with
  | false =>
      apply iff_of_true _ (Or.inl rfl)
      intro front m back split
      have before := earlier front m back split
      have fits := messages_le sendable once m.timeStamp.toNat
      simp only [quantileUpdates, sobol, Bool.false_eq_true, if_false, false_implies, and_true]
      omega
  | true =>
      rw [or_iff_right (by decide)]
      simp only [quantileUpdates, sobol, if_true, forall_const]
      constructor
      · intro inRange t
        by_cases silent : messages.filter (atStep t) = []
        · rw [silent, List.length_nil]
          omega
        · obtain ⟨front, m, back, split, stamp, number⟩ := exists_last silent
          have second := (inRange front m back split).2
          have same : m.timeStamp.toNat = t := by omega
          rw [same] at second
          omega
      · intro half front m back split
        have before := earlier front m back split
        have fits := half m.timeStamp.toNat
        omega

end Steps

section Example

private def twoGroups : Options ℚ :=
  { twoByTwo with quantileOp := true, quantileOrder := [1 / 2], sobolOp := true, nbParameters := 2 }

private def bothGroups : List (SimuData ℚ) :=
  [⟨0, 0, 0, 1, "heat", [1, 2, 3, 4]⟩, ⟨0, 1, 0, 1, "heat", [5, 6, 7, 8]⟩]

private theorem bothGroups_sendable :
    ∀ m ∈ bothGroups, Sendable twoGroups twoGroups.samplingSize.toNat 1 m := by
  intro m member
  simp only [bothGroups, List.mem_cons, List.not_mem_nil, or_false] at member
  rcases member with rfl | rfl
  · exact ⟨by decide, by decide, by decide, rfl, by decide, rfl⟩
  · exact ⟨by decide, by decide, by decide, rfl, by decide, rfl⟩

theorem quantileSteps_iff_bothGroups :
    melissaCheckOptions twoGroups = some twoGroups ∧
      (QuantileStepsInRange twoGroups 1 bothGroups ↔
        twoGroups.sobolOp = false ∨ ∀ t : Nat,
          2 * ((bothGroups.filter (atStep t)).length : Int) ≤ twoGroups.samplingSize) :=
  have passed : melissaCheckOptions twoGroups = some twoGroups := by decide +kernel
  ⟨passed, quantileSteps_iff passed rfl Nat.one_pos bothGroups_sendable (by decide)⟩

/-- Two groups of a Sobol study with the sampling size 2: the third update has the exponent
19/10. -/
theorem not_quantileSteps_bothGroups :
    ¬ ∀ (given options : Options ℚ) (vectSize : Nat) (messages : List (SimuData ℚ)),
      melissaCheckOptions given = some options → options.quantileOp = true → 0 < vectSize →
      (∀ m ∈ messages, Sendable options options.samplingSize.toNat vectSize m) →
      (messages.map fun m => (m.simuId, m.timeStamp)).Nodup →
      QuantileStepsInRange options vectSize messages := by
  intro always
  have inRange := always twoGroups twoGroups 1 bothGroups (by decide +kernel) rfl Nat.one_pos
    bothGroups_sendable (by decide)
  have calls := (runInRange_iff rfl (by decide +kernel) Nat.one_pos bothGroups_sendable).mp inRange
  have third := (calls [bothGroups.get ⟨0, by decide⟩] (bothGroups.get ⟨1, by decide⟩) [] rfl).1
  exact absurd (third (by decide)) (by decide)

end Example

end Melissa
