import Melissa.Io.Sized
import Melissa.Server.EntryHistory
import Melissa.Stats.MomentsRun

/-! The moments written at the end of a study, with and without a restart in between. -/

namespace Melissa

open Arrays CentralMoments Files

section Written

/-- The moments `melissa_write_stats_seq` writes for one structure and one time step, each if it
is requested. -/
@[ext] structure WrittenStats (D : Type) where
  mean : Option (List (Extended D))
  variance : Option (List (Extended D))
  skewness : Option (List (Extended D))
  kurtosis : Option (List (Extended D))
  deriving DecidableEq, Repr

variable {D : Type} [Zero D] [Div D] [NatCast D] [Pow D ℕ] [LT D] [DecidableEq D] [DecidableLT D]
  [Libm D]

/-- The memory copied for the mean and the variance, and the values computed for the others. -/
def writtenStats (options : Options D) (vectSize : Nat) (moments : Moments D) : WrittenStats D :=
  { mean := if options.meanOp then some ((moments.m1.take vectSize).map .finite) else none
    variance := if options.varianceOp
      then some ((moments.theta2.take vectSize).map .finite) else none
    skewness := if options.skewnessOp then some (computeSkewness moments vectSize) else none
    kurtosis := if options.kurtosisOp then some (computeKurtosis moments vectSize) else none }

def writtenAt (options : Options D) (data : MelissaData D) (timeStep : Nat) :
    Option (WrittenStats D) :=
  data.moments[timeStep]?.map (writtenStats options data.vectSize)

end Written

section Samples

variable {D : Type}

/-- The vectors of a message that enter the moments: A, and B in a Sobol study. -/
def samplesOf (options : Options D) (m : SimuData D) : List (List D) :=
  if options.sobolOp then [(inVectTab options m).getD 0 [], (inVectTab options m).getD 1 []]
  else [(inVectTab options m).getD 0 []]

/-- The samples of one time step. -/
def samplesAt (options : Options D) (messages : List (SimuData D)) (timeStep : Nat) :
    List (List D) :=
  (messages.filter (atStep timeStep)).flatMap (samplesOf options)

theorem samplesAt_eq_nil {options : Options D} {messages : List (SimuData D)}
    {t : Nat} :
    samplesAt options messages t = [] ↔ ¬ ∃ m ∈ messages, m.timeStamp = (t : Int) := by
  have some_sample (m : SimuData D) : samplesOf options m ≠ [] := by
    unfold samplesOf
    split <;> simp
  simp only [samplesAt, List.flatMap_eq_nil_iff, some_sample, imp_false, List.mem_filter, atStep,
    beq_iff_eq, not_and, not_exists]

end Samples

section Resume

variable {D : Type} [Zero D] [Add D] [Sub D] [Mul D] [Div D] [NatCast D] [IntCast D]
  [Pow D ℕ] [LT D] [DecidableLT D] [LE D] [DecidableLE D] [Libm D]

/-- `compute_stats` on the messages `xs`, a checkpoint, a restart that reads it, and
`compute_stats` on the messages `ys`. -/
def resumeAll (options : Options D) (vectSize tempSize : Nat) (xs ys : List (SimuData D)) :
    Option (MelissaData D) := do
  let saved ← computeAll options (melissaInitData options emptyData vectSize) xs
  let (back, _) ← readData (exactCodec D) tempSize options.restarted
    (melissaInitData options.restarted emptyData vectSize)
    (saveData (exactCodec D) options saved).flatten
  computeAll options.restarted back ys

theorem contribute_moments (options : Options D) (vectSize : Nat) (stats : StepStats D)
    (m : SimuData D) :
    (contribute options vectSize stats m).moments =
      stats.moments.map fun moments => incrementAll vectSize moments (samplesOf options m) := by
  unfold contribute updateStep samplesOf
  cases options.sobolOp with
  | false => rfl
  | true =>
      simp only [if_true, updateVector, updateSobol, Option.map_map]
      rfl

theorem contributeAll_moments (options : Options D) (vectSize : Nat)
    (messages : List (SimuData D)) (stats : StepStats D) :
    (messages.foldl (contribute options vectSize) stats).moments =
      stats.moments.map fun moments =>
        incrementAll vectSize moments (messages.flatMap (samplesOf options)) :=
  Runs.foldl_part (contribute_moments options vectSize) messages stats

theorem wellSized_computeAll {options : Options D} {messages : List (SimuData D)}
    {data data' : MelissaData D} (sized : WellSized (exactCodec D) options data)
    (computed : computeAll options data messages = some data') :
    WellSized (exactCodec D) options data' := by
  induction messages generalizing data with
  | nil =>
      cases computed
      exact sized
  | cons m rest ih =>
      rw [computeAll, List.foldlM_cons, Option.bind_eq_bind, Option.bind_eq_some_iff] at computed
      obtain ⟨next, done, onward⟩ := computed
      exact ih (wellSized_computeStats (fun _ => trivial) sized done) onward

/-- The statistics after a list of messages, time step by time step. -/
theorem computeAll_steps {options : Options D} {nbSimu vectSize : Nat}
    {messages : List (SimuData D)} (sendable : ∀ m ∈ messages, Sendable options nbSimu vectSize m)
    (data : MelissaData D) (valid : data.isValid = true) (size : data.vectSize = vectSize)
    (sized : WellSized (exactCodec D) options data) :
    ∃ data', computeAll options data messages = some data' ∧ data'.vectSize = vectSize ∧
      WellSized (exactCodec D) options data' ∧
      ∀ t, data'.moments[t]? = data.moments[t]?.map fun moments =>
        incrementAll vectSize moments (samplesAt options messages t) := by
  obtain ⟨data', computed, size', stats⟩ := computeAll_eachStep sendable data valid size
  refine ⟨data', computed, size', wellSized_computeAll sized computed, ?_⟩
  intro t
  have here := congrArg StepStats.moments (stats t)
  rw [contributeAll_moments] at here
  exact here

theorem computeAll_firstStart {options : Options D} {nbSimu vectSize : Nat}
    {messages : List (SimuData D)} (positive : 0 < vectSize)
    (sendable : ∀ m ∈ messages, Sendable options nbSimu vectSize m) :
    ∃ data, computeAll options (melissaInitData options emptyData vectSize) messages =
        some data ∧ data.vectSize = vectSize ∧ WellSized (exactCodec D) options data ∧
      ∀ t < options.nbTimeSteps, data.moments[t]? =
        some (incrementAll vectSize (initMoments vectSize options.maxOrder)
          (samplesAt options messages t)) := by
  have start := melissaInitData_eq options positive
  obtain ⟨data, computed, size, sized, moments⟩ := computeAll_steps sendable
    (melissaInitData options emptyData vectSize) (by rw [start]) (by rw [start])
    (wellSized_melissaInitData (fun _ => trivial) options positive)
  refine ⟨data, computed, size, sized, ?_⟩
  intro t below
  rw [moments, start, List.getElem?_replicate, if_pos below, Option.map_some]

/-- After a restart the samples of `ys` enter the moments that the file of `xs` has kept. -/
theorem resumeAll_steps {options : Options D} {nbSimu vectSize : Nat} {xs ys : List (SimuData D)}
    (positive : 0 < vectSize)
    (sendable : ∀ m ∈ xs ++ ys, Sendable options nbSimu vectSize m) (tempSize : Nat) :
    ∃ resumed, resumeAll options vectSize tempSize xs ys = some resumed ∧
      resumed.vectSize = vectSize ∧
      ∀ t < options.nbTimeSteps, resumed.moments[t]? =
        some (incrementAll vectSize ((incrementAll vectSize (initMoments vectSize options.maxOrder)
          (samplesAt options xs t)).saved vectSize) (samplesAt options ys t)) := by
  obtain ⟨saved, computed, size, sized, moments⟩ := computeAll_firstStart positive
    fun m member => sendable m (List.mem_append_left _ member)
  have sized' := wellSized_restarted sized
  have read := readsAll_saveData sized' (by rw [size]; exact positive) rfl tempSize
  rw [size] at read
  have sendable' : ∀ m ∈ ys, Sendable options.restarted nbSimu vectSize m := by
    intro m member
    obtain ⟨valid, below, inside, size, positive, values⟩ :=
      sendable m (List.mem_append_right _ member)
    exact ⟨valid, below, inside, size, positive, values⟩
  obtain ⟨resumed, onward, size', _, moments'⟩ := computeAll_steps sendable'
    (restored options.restarted saved) rfl size
    (wellSized_restored (fun _ => trivial) sized')
  refine ⟨resumed, ?_, size', ?_⟩
  · simp only [resumeAll, computed, Option.bind_eq_bind, Option.bind_some]
    exact (congrArg (Option.bind · _) read).trans onward
  · intro t below
    rw [moments', restored, List.getElem?_map, moments t below, Option.map_some, Option.map_some,
      size]
    rfl

end Resume

section Summary

variable {K : Type} [Field K]

/-- The moments in terms of the samples: means of powers, and central moments as soon as there
are two samples. -/
structure Summary (vectSize maxOrder : Nat) (samples : List (List K)) (moments : Moments K) :
    Prop where
  increment : moments.increment = samples.length
  order : moments.maxOrder = maxOrder
  mean1 : maxOrder ≥ 1 → ∀ i < vectSize, IsMean (column samples i) 1 (moments.m1.getD i 0)
  mean2 : maxOrder ≥ 2 → ∀ i < vectSize, IsMean (column samples i) 2 (moments.m2.getD i 0)
  mean3 : maxOrder ≥ 3 → ∀ i < vectSize, IsMean (column samples i) 3 (moments.m3.getD i 0)
  mean4 : maxOrder ≥ 4 → ∀ i < vectSize, IsMean (column samples i) 4 (moments.m4.getD i 0)
  theta2 : samples.length > 1 ∧ maxOrder ≥ 2 → ∀ i < vectSize,
    moments.theta2.getD i 0 = thetaTwo (moments.m1.getD i 0) (moments.m2.getD i 0)
  theta3 : samples.length > 1 ∧ maxOrder ≥ 3 → ∀ i < vectSize,
    moments.theta3.getD i 0 =
      thetaThree (moments.m1.getD i 0) (moments.m2.getD i 0) (moments.m3.getD i 0)
  theta4 : samples.length > 1 ∧ maxOrder ≥ 4 → ∀ i < vectSize,
    moments.theta4.getD i 0 = thetaFour (moments.m1.getD i 0) (moments.m2.getD i 0)
      (moments.m3.getD i 0) (moments.m4.getD i 0)
  size2 : moments.theta2.length = if maxOrder > 1 then vectSize else 0
  size3 : moments.theta3.length = if maxOrder > 2 then vectSize else 0
  size4 : moments.theta4.length = if maxOrder > 3 then vectSize else 0

/-- After one more sample it makes no difference that the central moments were not saved. -/
theorem incrementMoments_saved {vectSize maxOrder : Nat} {samples : List (List K)}
    {moments : Moments K} (summary : Summary vectSize maxOrder samples moments)
    (some_samples : samples ≠ []) (vect : List K) :
    incrementMoments (moments.saved vectSize) vect vectSize =
      incrementMoments moments vect vectSize := by
  obtain ⟨increment, rfl, _, _, _, _, _, _, _, size2, size3, size4⟩ := summary
  have positive := List.length_pos_iff.mpr some_samples
  have more : moments.increment + 1 > 1 := by omega
  have theta (least order : Nat) (next : order = least + 1) (old : List K) (value : Nat → K)
      (size : old.length = if moments.maxOrder > least then vectSize else 0) :
      (if moments.increment + 1 > 1 ∧ moments.maxOrder ≥ order then overwrite vectSize value
          (if moments.maxOrder > least then List.replicate vectSize 0 else [])
        else (if moments.maxOrder > least then List.replicate vectSize 0 else [])) =
      if moments.increment + 1 > 1 ∧ moments.maxOrder ≥ order
        then overwrite vectSize value old else old := by
    by_cases enough : moments.maxOrder > least
    · have both : moments.increment + 1 > 1 ∧ moments.maxOrder ≥ order := ⟨more, by omega⟩
      rw [if_pos enough] at size
      rw [if_pos both, if_pos both, if_pos enough, overwrite_full (by simp), overwrite_full size]
    · have neither : ¬ (moments.increment + 1 > 1 ∧ moments.maxOrder ≥ order) := by omega
      rw [if_neg enough] at size
      rw [if_neg neither, if_neg neither, if_neg enough]
      exact (List.eq_nil_of_length_eq_zero size).symm
  unfold incrementMoments
  by_cases none_kept : moments.maxOrder < 1
  · have none_kept' : (moments.saved vectSize).maxOrder < 1 := none_kept
    have absent (order : Nat) : ¬ moments.maxOrder > order := by omega
    rw [if_neg (absent _)] at size2 size3 size4
    rw [if_pos none_kept', if_pos none_kept]
    simp only [Moments.saved, initMoments, if_neg (absent _),
      List.eq_nil_of_length_eq_zero size2, List.eq_nil_of_length_eq_zero size3,
      List.eq_nil_of_length_eq_zero size4]
  · have kept' : ¬ (moments.saved vectSize).maxOrder < 1 := none_kept
    rw [if_neg kept', if_neg none_kept]
    simp only [Moments.saved, initMoments]
    congr 1
    · exact theta 1 2 rfl moments.theta2 _ size2
    · exact theta 2 3 rfl moments.theta3 _ size3
    · exact theta 3 4 rfl moments.theta4 _ size4

theorem incrementAll_saved {vectSize maxOrder : Nat} {samples samples' : List (List K)}
    {moments : Moments K} (summary : Summary vectSize maxOrder samples moments)
    (some_samples : samples ≠ []) (more : samples' ≠ []) :
    incrementAll vectSize (moments.saved vectSize) samples' =
      incrementAll vectSize moments samples' := by
  cases samples' with
  | nil => exact absurd rfl more
  | cons vect rest =>
      rw [incrementAll, List.foldl_cons, incrementMoments_saved summary some_samples]
      rfl

variable [CharZero K]

theorem summary_momentsOf (vectSize maxOrder : Nat) (samples : List (List K)) :
    Summary vectSize maxOrder samples (momentsOf vectSize maxOrder samples) := by
  have mean {order : Nat} (reached : maxOrder ≥ order) (i : Nat) (inside : i < vectSize) :
      IsMean (column samples i) order ((momentArray vectSize maxOrder order
        fun i => powerMean (column samples i) order).getD i 0) := by
    rw [getD_momentArray reached inside]
    exact isMean_powerMean _ _
  have size (order : Nat) (value : Nat → K) :
      (momentArray vectSize maxOrder (order + 1) value).length =
        if maxOrder > order then vectSize else 0 := by
    unfold momentArray
    split
    · rw [if_pos (by omega), List.length_map, List.length_range]
    · rw [if_neg (by omega), List.length_nil]
  constructor
  · rfl
  · rfl
  · exact mean
  · exact mean
  · exact mean
  · exact mean
  · intro enough i inside
    simp only [momentsOf, getD_momentArray enough.2 inside,
      getD_momentArray (show maxOrder ≥ 1 by omega) inside, thetaTwo_eq]
  · intro enough i inside
    simp only [momentsOf, getD_momentArray enough.2 inside,
      getD_momentArray (show maxOrder ≥ 1 by omega) inside,
      getD_momentArray (show maxOrder ≥ 2 by omega) inside, thetaThree_eq]
  · intro enough i inside
    simp only [momentsOf, getD_momentArray enough.2 inside,
      getD_momentArray (show maxOrder ≥ 1 by omega) inside,
      getD_momentArray (show maxOrder ≥ 2 by omega) inside,
      getD_momentArray (show maxOrder ≥ 3 by omega) inside, thetaFour_eq]
  · exact size 1 _
  · exact size 2 _
  · exact size 3 _

theorem summary_incrementAll (vectSize maxOrder : Nat) (samples : List (List K)) :
    Summary vectSize maxOrder samples
      (incrementAll vectSize (initMoments vectSize maxOrder) samples) := by
  rw [incrementAll_initMoments]
  exact summary_momentsOf vectSize maxOrder samples

end Summary

section Components

/-- What is used of `pow`, for exponents from 1 on. -/
class LawfulPow (K : Type) [Field K] [LinearOrder K] [Libm K] : Prop where
  pow_zero : ∀ y : K, 1 ≤ y → Libm.pow 0 y = 0
  pow_pos : ∀ x y : K, 0 < x → 1 ≤ y → 0 < Libm.pow x y

instance : LawfulPow ℚ where
  pow_zero y large := by
    have whole : 1 ≤ ⌊y⌋ := Int.le_floor.mpr (by exact_mod_cast large)
    exact zero_pow (by omega)
  pow_pos x y positive _ := pow_pos positive _

variable {K : Type} [Field K]

theorem column_ne_nil {samples : List (List K)} {i : Nat} (two : samples.length > 1) :
    column samples i ≠ [] := by
  intro none_left
  have length := congrArg List.length none_left
  simp only [column, List.length_map, List.length_nil] at length
  omega

variable [LinearOrder K]

theorem quotient_eq_nan_iff {numerator denominator : K} :
    quotient numerator denominator = .nan ↔ denominator = 0 ∧ numerator = 0 := by
  unfold quotient
  split
  · rename_i zero
    split
    · rename_i zero'
      simp [zero, zero']
    · rename_i other
      simp [other]
  · rename_i other
    simp [other]

variable [IsStrictOrderedRing K]

variable {vectSize maxOrder i : Nat} {samples : List (List K)} {moments : Moments K}

theorem theta2_eq_zero_iff (summary : Summary vectSize maxOrder samples moments)
    (two : samples.length > 1) (order : maxOrder ≥ 2) (inside : i < vectSize) :
    moments.theta2.getD i 0 = 0 ↔ Constant samples i := by
  rw [summary.theta2 ⟨two, order⟩ i inside, ← constant_column]
  exact variance_eq_zero_iff (column_ne_nil two) (summary.mean1 (by omega) i inside)
    (summary.mean2 order i inside)

theorem theta2_nonneg (summary : Summary vectSize maxOrder samples moments)
    (two : samples.length > 1) (order : maxOrder ≥ 2) (inside : i < vectSize) :
    0 ≤ moments.theta2.getD i 0 := by
  rw [summary.theta2 ⟨two, order⟩ i inside]
  exact variance_nonneg (column_ne_nil two) (summary.mean1 (by omega) i inside)
    (summary.mean2 order i inside)

theorem theta3_of_constant (summary : Summary vectSize maxOrder samples moments)
    (two : samples.length > 1) (order : maxOrder ≥ 3) (inside : i < vectSize)
    (constant : Constant samples i) : moments.theta3.getD i 0 = 0 := by
  rw [summary.theta3 ⟨two, order⟩ i inside, thetaThree]
  push_cast
  exact third_of_constant (column_ne_nil two) (summary.mean1 (by omega) i inside)
    (summary.mean2 (by omega) i inside) (summary.mean3 order i inside)
    (constant_column.mpr constant)

theorem theta4_eq_zero_iff (summary : Summary vectSize maxOrder samples moments)
    (two : samples.length > 1) (order : maxOrder ≥ 4) (inside : i < vectSize) :
    moments.theta4.getD i 0 = 0 ↔ Constant samples i := by
  rw [summary.theta4 ⟨two, order⟩ i inside, thetaFour, ← constant_column]
  push_cast
  exact fourth_eq_zero_iff (column_ne_nil two) (summary.mean1 (by omega) i inside)
    (summary.mean2 (by omega) i inside) (summary.mean3 (by omega) i inside)
    (summary.mean4 order i inside)

theorem kurtosis_eq_nan_iff (summary : Summary vectSize maxOrder samples moments)
    (two : samples.length > 1) (order : maxOrder ≥ 4) (inside : i < vectSize) :
    quotient (moments.theta4.getD i 0) (moments.theta3.getD i 0 ^ 2) = .nan ↔
      Constant samples i := by
  rw [quotient_eq_nan_iff, ← theta4_eq_zero_iff summary two order inside]
  constructor
  · exact fun both => both.2
  · intro zero
    have constant := (theta4_eq_zero_iff summary two order inside).mp zero
    rw [theta3_of_constant summary two (by omega) inside constant]
    exact ⟨by simp, zero⟩

/-- A skewness that was not recomputed is not a number; the one of the samples is one unless
they agree. -/
theorem skewness_eq_nan_iff [Libm K] [LawfulPow K]
    (summary : Summary vectSize maxOrder samples moments)
    (two : samples.length > 1) (order : maxOrder ≥ 3) (inside : i < vectSize) :
    quotient (moments.theta3.getD i 0)
        (Libm.pow (moments.theta2.getD i 0) (((3 : ℕ) : K) / ((2 : ℕ) : K))) = .nan ↔
      Constant samples i := by
  have large : (1 : K) ≤ ((3 : ℕ) : K) / ((2 : ℕ) : K) := by
    push_cast
    norm_num
  rw [quotient_eq_nan_iff, ← theta2_eq_zero_iff summary two (by omega) inside]
  constructor
  · intro both
    by_contra other
    have positive := lt_of_le_of_ne (theta2_nonneg summary two (by omega) inside) (Ne.symm other)
    exact absurd both.1 (ne_of_gt (LawfulPow.pow_pos _ _ positive large))
  · intro zero
    have constant := (theta2_eq_zero_iff summary two (by omega) inside).mp zero
    rw [zero]
    exact ⟨LawfulPow.pow_zero _ large, theta3_of_constant summary two order inside constant⟩

end Components

section Invisible

/-- Some written value depends on the central moments. -/
def Options.centralOp {D : Type} (options : Options D) : Bool :=
  options.varianceOp || options.skewnessOp || options.kurtosisOp

theorem maxOrder_of_requested {D : Type} (options : Options D) :
    (options.varianceOp = true → options.maxOrder ≥ 2) ∧
      (options.skewnessOp = true → options.maxOrder ≥ 3) ∧
      (options.kurtosisOp = true → options.maxOrder ≥ 4) := by
  unfold Options.maxOrder
  cases options.kurtosisOp <;> cases options.skewnessOp <;> cases options.varianceOp <;> simp

theorem some_list_eq_iff {α : Type} {op : Bool} {n : Nat} {f g : Nat → α} :
    (if op then some ((List.range n).map f) else none) =
        (if op then some ((List.range n).map g) else none) ↔
      (op = true → ∀ i < n, f i = g i) := by
  cases op with
  | false => simp
  | true => simp [List.map_inj_left]

theorem take_eq_map_range {D : Type} [Zero D] {vectSize : Nat} {values : List D}
    (size : values.length = vectSize) :
    values.take vectSize = (List.range vectSize).map fun i => values.getD i 0 := by
  rw [← overwrite_full size, overwrite_self size, ← size, List.take_length]

theorem getD_calloc {D : Type} [Zero D] {vectSize least maxOrder i : Nat} :
    (if maxOrder > least then List.replicate vectSize (0 : D) else []).getD i 0 = 0 := by
  split
  · rw [List.getD_eq_getElem?_getD, List.getElem?_replicate]
    split <;> rfl
  · rfl

variable {K : Type} [Field K] [LinearOrder K] [IsStrictOrderedRing K] [Libm K]
  {options : Options K} {vectSize : Nat} {samples : List (List K)} {moments : Moments K}

theorem variance_saved_iff
    (summary : Summary vectSize options.maxOrder samples moments) (two : samples.length > 1) :
    (writtenStats options vectSize (moments.saved vectSize)).variance =
        (writtenStats options vectSize moments).variance ↔
      (options.varianceOp = true → ∀ i < vectSize, Constant samples i) := by
  cases requested : options.varianceOp with
  | false => simp [writtenStats, requested]
  | true =>
      have order := (maxOrder_of_requested options).1 requested
      have size : moments.theta2.length = vectSize := by
        rw [summary.size2, if_pos (by omega)]
      have size' : (moments.saved vectSize).theta2.length = vectSize := by
        simp only [Moments.saved, initMoments, summary.order]
        rw [if_pos (by omega), List.length_replicate]
      simp only [writtenStats, requested, if_true, forall_const, take_eq_map_range size,
        take_eq_map_range size', List.map_map, Option.some.injEq, List.map_inj_left,
        List.mem_range, Function.comp_apply, Extended.finite.injEq]
      refine forall₂_congr fun i inside => ?_
      rw [← theta2_eq_zero_iff summary two order inside, Moments.saved, initMoments, getD_calloc]
      exact eq_comm

theorem kurtosis_saved_iff
    (summary : Summary vectSize options.maxOrder samples moments) (two : samples.length > 1) :
    (writtenStats options vectSize (moments.saved vectSize)).kurtosis =
        (writtenStats options vectSize moments).kurtosis ↔
      (options.kurtosisOp = true → ∀ i < vectSize, Constant samples i) := by
  simp only [writtenStats, computeKurtosis, some_list_eq_iff]
  refine forall_congr' fun requested => forall₂_congr fun i inside => ?_
  have order := (maxOrder_of_requested options).2.2 requested
  have saved : quotient ((moments.saved vectSize).theta4.getD i 0)
      ((moments.saved vectSize).theta3.getD i 0 ^ 2) = .nan := by
    rw [Moments.saved, initMoments, getD_calloc, getD_calloc, quotient_eq_nan_iff]
    exact ⟨by simp, rfl⟩
  rw [saved, ← kurtosis_eq_nan_iff summary two order inside]
  exact eq_comm

variable [LawfulPow K]

theorem skewness_saved_iff
    (summary : Summary vectSize options.maxOrder samples moments) (two : samples.length > 1) :
    (writtenStats options vectSize (moments.saved vectSize)).skewness =
        (writtenStats options vectSize moments).skewness ↔
      (options.skewnessOp = true → ∀ i < vectSize, Constant samples i) := by
  have large : (1 : K) ≤ ((3 : ℕ) : K) / ((2 : ℕ) : K) := by
    push_cast
    norm_num
  simp only [writtenStats, computeSkewness, some_list_eq_iff]
  refine forall_congr' fun requested => forall₂_congr fun i inside => ?_
  have order := (maxOrder_of_requested options).2.1 requested
  have saved : quotient ((moments.saved vectSize).theta3.getD i 0)
      (Libm.pow ((moments.saved vectSize).theta2.getD i 0) (((3 : ℕ) : K) / ((2 : ℕ) : K))) =
        .nan := by
    rw [Moments.saved, initMoments, getD_calloc, getD_calloc, LawfulPow.pow_zero _ large,
      quotient_eq_nan_iff]
    exact ⟨rfl, rfl⟩
  rw [saved, ← skewness_eq_nan_iff summary two order inside]
  exact eq_comm

/-- Without a new sample, what is written after the restart is what was there before exactly
when no central moment is requested or all of them vanish. -/
theorem writtenStats_saved_iff
    (summary : Summary vectSize options.maxOrder samples moments) (two : samples.length > 1) :
    writtenStats options vectSize (moments.saved vectSize) =
        writtenStats options vectSize moments ↔
      (options.centralOp = true → ∀ i < vectSize, Constant samples i) := by
  have mean : (writtenStats options vectSize (moments.saved vectSize)).mean =
      (writtenStats options vectSize moments).mean := rfl
  have split : writtenStats options vectSize (moments.saved vectSize) =
      writtenStats options vectSize moments ↔ _ := WrittenStats.ext_iff
  rw [split, variance_saved_iff summary two, skewness_saved_iff summary two,
    kurtosis_saved_iff summary two]
  simp only [mean, true_and, Options.centralOp, Bool.or_eq_true]
  constructor
  · rintro ⟨variance, skewness, kurtosis⟩ ((requested | requested) | requested)
    · exact variance requested
    · exact skewness requested
    · exact kurtosis requested
  · intro all
    exact ⟨fun requested => all (Or.inl (Or.inl requested)),
      fun requested => all (Or.inl (Or.inr requested)), fun requested => all (Or.inr requested)⟩

/-- When a restart shows: the central moments are written without a new sample. -/
theorem restartInvisible_iff (options : Options K) (nbSimu vectSize tempSize t : Nat)
    (xs ys : List (SimuData K)) (positive : 0 < vectSize) (below : t < options.nbTimeSteps)
    (sendable : ∀ m ∈ xs ++ ys, Sendable options nbSimu vectSize m)
    (two : (samplesAt options xs t).length > 1) :
    ∃ direct resumed,
      computeAll options (melissaInitData options emptyData vectSize) (xs ++ ys) = some direct ∧
      resumeAll options vectSize tempSize xs ys = some resumed ∧
      (writtenAt options resumed t = writtenAt options direct t ↔
        (∃ m ∈ ys, m.timeStamp = (t : Int)) ∨ options.centralOp = false ∨
          ∀ i < vectSize, Constant (samplesAt options xs t) i) := by
  obtain ⟨direct, computed, size, _, moments⟩ := computeAll_firstStart positive sendable
  obtain ⟨resumed, again, size', moments'⟩ := resumeAll_steps positive sendable tempSize
  refine ⟨direct, resumed, computed, again, ?_⟩
  have summary := summary_incrementAll (K := K) vectSize options.maxOrder (samplesAt options xs t)
  have some_samples : samplesAt options xs t ≠ [] := List.ne_nil_of_length_pos (by omega)
  have both : samplesAt options (xs ++ ys) t =
      samplesAt options xs t ++ samplesAt options ys t := by
    simp [samplesAt]
  have here : direct.moments[t]? = some (incrementAll vectSize (incrementAll vectSize
      (initMoments vectSize options.maxOrder) (samplesAt options xs t))
        (samplesAt options ys t)) := by
    rw [moments t below, both]
    exact congrArg some List.foldl_append
  rw [writtenAt, writtenAt, here, moments' t below, size, size', Option.map_some, Option.map_some,
    Option.some.injEq]
  by_cases none_later : samplesAt options ys t = []
  · have silent := samplesAt_eq_nil.mp none_later
    have unchanged (moments : Moments K) : incrementAll vectSize moments [] = moments := rfl
    rw [none_later, unchanged, unchanged, writtenStats_saved_iff summary two, or_iff_right silent]
    cases options.centralOp with
    | false => simp
    | true => simp
  · have spoken := not_not.mp (mt samplesAt_eq_nil.mpr none_later)
    rw [incrementAll_saved summary some_samples none_later]
    exact iff_of_true rfl (Or.inl spoken)

section Example

private def twoSamples : List (SimuData ℚ) :=
  [⟨0, 0, 0, 1, "heat", [1]⟩, ⟨0, 1, 0, 1, "heat", [3]⟩]

private theorem twoSamples_sendable : ∀ m ∈ twoSamples ++ [], Sendable twoByTwo 2 1 m := by
  intro m member
  simp only [twoSamples, List.append_nil, List.mem_cons, List.not_mem_nil, or_false] at member
  rcases member with rfl | rfl
  · exact ⟨by decide, by decide, by decide, rfl, by decide, rfl⟩
  · exact ⟨by decide, by decide, by decide, rfl, by decide, rfl⟩

theorem restartInvisible_iff_twoSamples :
    ∃ direct resumed,
      computeAll twoByTwo (melissaInitData twoByTwo emptyData 1) (twoSamples ++ []) =
        some direct ∧
      resumeAll twoByTwo 1 0 twoSamples [] = some resumed ∧
      (writtenAt twoByTwo resumed 0 = writtenAt twoByTwo direct 0 ↔
        (∃ m ∈ ([] : List (SimuData ℚ)), m.timeStamp = ((0 : Nat) : Int)) ∨
          twoByTwo.centralOp = false ∨ ∀ i < 1, Constant (samplesAt twoByTwo twoSamples 0) i) :=
  restartInvisible_iff twoByTwo 2 1 0 0 twoSamples [] (by decide) (by decide) twoSamples_sendable
    (by decide)

/-- Two samples, a checkpoint and a restart after which no message of the time step arrives: the
variance written is 0 instead of 1. -/
theorem not_restartInvisible_twoSamples :
    ¬ ∀ (options : Options ℚ) (nbSimu vectSize tempSize t : Nat) (xs ys : List (SimuData ℚ)),
      0 < vectSize → t < options.nbTimeSteps →
      (∀ m ∈ xs ++ ys, Sendable options nbSimu vectSize m) →
      (samplesAt options xs t).length > 1 →
      ∃ direct resumed,
        computeAll options (melissaInitData options emptyData vectSize) (xs ++ ys) =
          some direct ∧
        resumeAll options vectSize tempSize xs ys = some resumed ∧
        writtenAt options resumed t = writtenAt options direct t := by
  intro invisible
  obtain ⟨direct, resumed, computed, again, same⟩ := invisible twoByTwo 2 1 0 0 twoSamples []
    (by decide) (by decide) twoSamples_sendable (by decide)
  have shown : (computeAll twoByTwo (melissaInitData twoByTwo emptyData 1)
        (twoSamples ++ [])).map (writtenAt twoByTwo · 0) ≠
      (resumeAll twoByTwo 1 0 twoSamples []).map (writtenAt twoByTwo · 0) := by
    decide +kernel
  rw [computed, again, Option.map_some, Option.map_some, same] at shown
  exact shown rfl

end Example

end Invisible

end Melissa
