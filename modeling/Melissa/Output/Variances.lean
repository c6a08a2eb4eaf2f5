import Melissa.Output.Gather
import Melissa.Output.Resume
import Melissa.Stats.MergeVariance

/-! The three variances of the program: the one in the result files, the one `compute_variance`
takes from the moments, and the one `increment_variance` accumulates. -/

namespace Melissa

open Arrays Comoment CentralMoments

section Written

variable {D : Type} [Zero D] [Add D] [Sub D] [Mul D] [Div D] [NatCast D] [IntCast D] [Pow D ℕ]
  [LT D] [DecidableEq D] [DecidableLT D]

/-- The divisor is an `int`. -/
def computeVariance (moments : Moments D) (vectSize : Nat) : List (Extended D) :=
  (List.range vectSize).map fun i =>
    quotient (moments.theta2.getD i 0 * (moments.increment : D))
      (((moments.increment : Int) - 1 : Int) : D)

/-- The vectors that one structure of a field has received for a time step. -/
structure FieldPart (D : Type) where
  vectSize : Nat
  samples : List (List D)

def FieldPart.moments (options : Options D) (part : FieldPart D) : Moments D :=
  incrementAll part.vectSize (initMoments part.vectSize options.maxOrder) part.samples

/-- What `write_output_d` gets as "variance": the client ranks of each server rank. -/
def writtenVariance [Libm D] (options : Options D) (fresh : Nat → Nat → Extended D)
    (parts : List (List (FieldPart D))) : List (Extended D) :=
  writtenBuffer fresh (parts.map fun clients => clients.map fun part =>
    (writtenStats options part.vectSize (part.moments options)).variance.getD [])

end Written

section Agree

variable {K : Type} [Field K] [LinearOrder K] [IsStrictOrderedRing K]

/-- The three vectors are equal, and they are the unbiased variances of the components. -/
structure VariancesAgree [Libm K] (options : Options K) (fresh : Nat → Nat → Extended K)
    (parts : List (List (FieldPart K))) : Prop where
  computed : writtenVariance options fresh parts =
    parts.flatten.flatMap fun part => computeVariance (part.moments options) part.vectSize
  incremented : writtenVariance options fresh parts =
    parts.flatten.flatMap fun part =>
      (varianceRun part.vectSize part.samples).variance.map .finite
  unbiased : writtenVariance options fresh parts =
    parts.flatten.flatMap fun part =>
      (List.range part.vectSize).map fun i => .finite (variance (column part.samples i))

theorem moments_theta2 {options : Options K} (requested : options.varianceOp = true)
    (part : FieldPart K) : (part.moments options).theta2 =
      (List.range part.vectSize).map fun i => centralMoment (column part.samples i) 2 := by
  have order : options.maxOrder ≥ 2 := by
    rw [Options.maxOrder, if_pos requested]
    split
    · decide
    · split
      · decide
      · decide
  rw [FieldPart.moments, incrementAll_initMoments]
  exact if_pos order

theorem moments_increment (options : Options K) (part : FieldPart K) :
    (part.moments options).increment = part.samples.length := by
  rw [FieldPart.moments, incrementAll_initMoments]
  rfl

/-- The file holds the second central moments. -/
theorem writtenVariance_eq [Libm K] {options : Options K} (requested : options.varianceOp = true)
    (fresh : Nat → Nat → Extended K) (parts : List (List (FieldPart K))) :
    writtenVariance options fresh parts =
      parts.flatten.flatMap fun part =>
        (List.range part.vectSize).map fun i =>
          .finite (centralMoment (column part.samples i) 2) := by
  have written (part : FieldPart K) :
      (writtenStats options part.vectSize (part.moments options)).variance.getD [] =
        (List.range part.vectSize).map fun i =>
          .finite (centralMoment (column part.samples i) 2) := by
    simp only [writtenStats, requested, if_true, Option.getD_some, moments_theta2 requested,
      List.take_of_length_le (List.length_map .. ▸ Nat.le_of_eq List.length_range), List.map_map]
    rfl
  rw [writtenVariance, writtenBuffer_eq, List.flatMap_def, List.map_flatten, List.map_map]
  simp only [written]
  rw [List.flatten_flatten, List.map_map]

theorem computeVariance_eq {options : Options K} (requested : options.varianceOp = true)
    {part : FieldPart K} (several : 2 ≤ part.samples.length) :
    computeVariance (part.moments options) part.vectSize =
      (List.range part.vectSize).map fun i => .finite (variance (column part.samples i)) := by
  apply List.map_congr_left
  intro i member
  have inside := List.mem_range.mp member
  have two : (2 : K) ≤ (part.samples.length : K) := by exact_mod_cast several
  have number : (part.samples.length : K) ≠ 0 := by linarith
  have divisor : ((((part.samples.length : ℕ) : Int) - 1 : Int) : K) =
      (part.samples.length : K) - 1 := by push_cast; rfl
  have positive : (part.samples.length : K) - 1 ≠ 0 := by linarith
  rw [moments_theta2 requested, moments_increment, getD_map_range inside, divisor, quotient,
    if_neg positive, centralMoment_eq_squares, variance_eq_squares, column_length,
    div_mul_cancel₀ _ number]

theorem varianceRun_variance (vectSize : Nat) (samples : List (List K)) :
    (varianceRun vectSize samples).variance.map Extended.finite =
      (List.range vectSize).map fun i => .finite (variance (column samples i)) := by
  rw [varianceRun_eq, varianceOf, List.map_map]
  rfl

/-- The two divisors are seen as soon as there is anything to divide. -/
theorem centralMoment_eq_variance_iff {xs : List K} (several : 2 ≤ xs.length) :
    centralMoment xs 2 = variance xs ↔ ∃ c, ∀ x ∈ xs, x = c := by
  have two : (2 : K) ≤ (xs.length : K) := by exact_mod_cast several
  have number : (xs.length : K) ≠ 0 := by linarith
  have positive : (xs.length : K) - 1 ≠ 0 := by linarith
  rw [centralMoment_eq_squares, variance_eq_squares, div_eq_div_iff number positive,
    ← squares_eq_zero_iff]
  constructor
  · intro equal
    linarith
  · intro zero
    rw [zero, zero_mul, zero_mul]

/-- The file and the two functions agree only on components that never vary. -/
theorem variancesAgree_iff [Libm K] {options : Options K} (requested : options.varianceOp = true)
    (fresh : Nat → Nat → Extended K) {parts : List (List (FieldPart K))}
    (several : ∀ part ∈ parts.flatten, 2 ≤ part.samples.length) :
    VariancesAgree options fresh parts ↔
      ∀ part ∈ parts.flatten, ∀ i < part.vectSize, Constant part.samples i := by
  have component {part : FieldPart K} (member : part ∈ parts.flatten) (i : Nat) :
      Extended.finite (centralMoment (column part.samples i) 2) =
        .finite (variance (column part.samples i)) ↔ Constant part.samples i := by
    have enough : 2 ≤ (column part.samples i).length := by
      rw [column_length]
      exact several part member
    rw [Extended.finite.injEq, centralMoment_eq_variance_iff enough, constant_column]
  have unbiased : writtenVariance options fresh parts =
      (parts.flatten.flatMap fun part =>
        (List.range part.vectSize).map fun i => .finite (variance (column part.samples i))) ↔
      ∀ part ∈ parts.flatten, ∀ i < part.vectSize, Constant part.samples i := by
    rw [writtenVariance_eq requested, flatMap_range_eq_iff]
    exact forall₂_congr fun part member => forall₂_congr fun i _ => component member i
  have computed : (parts.flatten.flatMap fun part =>
      computeVariance (part.moments options) part.vectSize) =
      parts.flatten.flatMap fun part =>
        (List.range part.vectSize).map fun i => .finite (variance (column part.samples i)) :=
    List.flatMap_congr fun part member => computeVariance_eq requested (several part member)
  rw [← unbiased]
  constructor
  · exact VariancesAgree.unbiased
  · intro equal
    constructor
    · rw [equal, computed]
    · simp only [equal, varianceRun_variance]
    · exact equal

end Agree

section Example

private def twoClients : List (List (FieldPart ℚ)) :=
  [[⟨2, [[1, 5], [1, 5]]⟩, ⟨0, [[], []]⟩], [⟨1, [[0], [2]]⟩]]

private theorem twoClients_several : ∀ part ∈ twoClients.flatten, 2 ≤ part.samples.length := by
  simp [twoClients]

theorem variancesAgree_iff_twoClients :
    twoByTwo.varianceOp = true ∧ (∀ part ∈ twoClients.flatten, 2 ≤ part.samples.length) ∧
      (VariancesAgree twoByTwo (fun _ _ => .nan) twoClients ↔
        ∀ part ∈ twoClients.flatten, ∀ i < part.vectSize, Constant part.samples i) :=
  ⟨rfl, twoClients_several, variancesAgree_iff rfl (fun _ _ => .nan) twoClients_several⟩

/-- The samples 0 and 2: the file has 1, and both functions have 2. -/
theorem not_variancesAgree_twoSamples :
    ¬ ∀ (options : Options ℚ) (fresh : Nat → Nat → Extended ℚ)
        (parts : List (List (FieldPart ℚ))), options.varianceOp = true →
      (∀ part ∈ parts.flatten, 2 ≤ part.samples.length) → VariancesAgree options fresh parts := by
  intro agree
  have equal := (agree twoByTwo (fun _ _ => .nan) [[⟨1, [[0], [2]]⟩]] rfl (by simp)).computed
  have different : writtenVariance twoByTwo (fun _ _ => .nan) [[⟨1, [[0], [2]]⟩]] ≠
      ([[⟨1, [[0], [2]]⟩]] : List (List (FieldPart ℚ))).flatten.flatMap fun part =>
        computeVariance (part.moments twoByTwo) part.vectSize := by
    decide +kernel
  exact different equal

end Example

end Melissa
