import Melissa.Stats.Moments

/-! `mean.c`, `variance.c` and the Martinez estimator of `sobol.c`. The Jansen estimator is
never selected by the server and is not part of its state. -/

namespace Melissa

open Arrays

/-- `mean_t`. -/
structure Mean (D : Type) where
  mean : List D
  increment : Nat
  deriving DecidableEq, Repr

/-- `variance_t`. -/
structure Variance (D : Type) where
  variance : List D
  meanStructure : Mean D
  deriving DecidableEq, Repr

/-- `sobol_martinez_t`. -/
structure SobolMartinez (D : Type) where
  firstOrderCovariance : List D
  totalOrderCovariance : List D
  varianceK : Variance D
  firstOrderValues : List D
  totalOrderValues : List D
  confidenceInterval : D × D
  deriving DecidableEq, Repr

/-- `sobol_array_t`. -/
structure SobolArray (D : Type) where
  sobolMartinez : List (SobolMartinez D)
  varianceA : Variance D
  varianceB : Variance D
  iteration : Nat
  deriving DecidableEq, Repr

section Init

variable {D : Type} [Zero D]

def initMean (vectSize : Nat) : Mean D :=
  { mean := List.replicate vectSize 0, increment := 0 }

def initVariance (vectSize : Nat) : Variance D :=
  { variance := List.replicate vectSize 0, meanStructure := initMean vectSize }

def initSobolMartinez [NatCast D] (nbParameters vectSize : Nat) : SobolArray D :=
  { sobolMartinez := List.replicate nbParameters
      { firstOrderCovariance := List.replicate vectSize 0
        totalOrderCovariance := List.replicate vectSize 0
        varianceK := initVariance vectSize
        firstOrderValues := List.replicate vectSize 0
        totalOrderValues := List.replicate vectSize 0
        confidenceInterval := (((1 : ℕ) : D), ((1 : ℕ) : D)) }
    varianceA := initVariance vectSize
    varianceB := initVariance vectSize
    iteration := 0 }

end Init

section Increment

variable {D : Type} [Zero D] [Add D] [Sub D] [Mul D] [Div D] [NatCast D]

def incrementMean (mean : Mean D) (inVect : List D) (vectSize : Nat) : Mean D :=
  let increment := mean.increment + 1
  { increment := increment
    mean := overwrite vectSize (fun i =>
      let temp := mean.mean.getD i 0
      temp + (inVect.getD i 0 - temp) / (increment : D)) mean.mean }

def incrementMeanAndVariance (partialVariance : Variance D) (inVect : List D)
    (vectSize : Nat) : Variance D :=
  let mean := incrementMean partialVariance.meanStructure inVect vectSize
  let incr : D := (mean.increment : D)
  if mean.increment > 1 then
    { meanStructure := mean
      variance := overwrite vectSize (fun i =>
        let deviation := inVect.getD i 0 - mean.mean.getD i 0
        (partialVariance.variance.getD i 0 * (incr - ((2 : ℕ) : D)) +
          deviation * deviation * (incr / (incr - ((1 : ℕ) : D)))) / (incr - ((1 : ℕ) : D)))
        partialVariance.variance }
  else { partialVariance with meanStructure := mean }

def incrementVariance (partialVariance : Variance D) (inVect : List D) (vectSize : Nat) :
    Variance D :=
  incrementMeanAndVariance partialVariance inVect vectSize

def incrementSobolCovariance (covariance inVect1 inVect2 mean1 mean2 : List D)
    (vectSize increment : Nat) : List D :=
  let incr : D := (increment : D)
  if increment > 1 then
    overwrite vectSize (fun i =>
      (covariance.getD i 0 * (incr - ((2 : ℕ) : D)) +
        (inVect1.getD i 0 - mean1.getD i 0) * (inVect2.getD i 0 - mean2.getD i 0) *
          (incr / (incr - ((1 : ℕ) : D)))) / (incr - ((1 : ℕ) : D)))
      covariance
  else covariance

variable [LT D] [DecidableLT D] [Libm D]

/-- `epsylon`, the variance below which an index is reported as zero. -/
def epsylon : D := ((1 : ℕ) : D) / ((1000000000000 : ℕ) : D)

/-- The body of the loop over the parameters in `increment_sobol_martinez`. `variance_a` and
`variance_b` are already updated, `iteration` is not. -/
def incrementMartinezParameter (vectA vectB vectK : List D) (varianceA varianceB : Variance D)
    (vectSize iteration : Nat) (martinez : SobolMartinez D) : SobolMartinez D :=
  let varianceK := incrementVariance martinez.varianceK vectK vectSize
  let firstOrderCovariance := incrementSobolCovariance martinez.firstOrderCovariance vectB vectK
    varianceB.meanStructure.mean varianceK.meanStructure.mean vectSize iteration
  let totalOrderCovariance := incrementSobolCovariance martinez.totalOrderCovariance vectA vectK
    varianceA.meanStructure.mean varianceK.meanStructure.mean vectSize iteration
  let deviation (variance : Variance D) (i : Nat) : D := Libm.sqrt (variance.variance.getD i 0)
  { martinez with
    varianceK := varianceK
    firstOrderCovariance := firstOrderCovariance
    totalOrderCovariance := totalOrderCovariance
    firstOrderValues := overwrite vectSize (fun i =>
      if varianceK.variance.getD i 0 > epsylon ∧ varianceB.variance.getD i 0 > epsylon then
        firstOrderCovariance.getD i 0 / (deviation varianceB i * deviation varianceK i)
      else 0) martinez.firstOrderValues
    totalOrderValues := overwrite vectSize (fun i =>
      if varianceK.variance.getD i 0 > epsylon ∧ varianceA.variance.getD i 0 > epsylon then
        ((1 : ℕ) : D) -
          totalOrderCovariance.getD i 0 / (deviation varianceA i * deviation varianceK i)
      else 0) martinez.totalOrderValues }

def incrementSobolMartinez (sobolArray : SobolArray D) (inVectTab : List (List D))
    (vectSize : Nat) : SobolArray D :=
  let vect (i : Nat) := inVectTab.getD i []
  let varianceA := incrementVariance sobolArray.varianceA (vect 0) vectSize
  let varianceB := incrementVariance sobolArray.varianceB (vect 1) vectSize
  { sobolMartinez := sobolArray.sobolMartinez.mapIdx fun i =>
      incrementMartinezParameter (vect 0) (vect 1) (vect (i + 2)) varianceA varianceB vectSize
        sobolArray.iteration
    varianceA := varianceA
    varianceB := varianceB
    iteration := sobolArray.iteration + 1 }

end Increment

section Congr

variable {D : Type} [Zero D] [Add D] [Sub D] [Div D] [NatCast D]

/-- Two vectors with the same first `vectSize` elements. -/
def SameVector (vectSize : Nat) (left right : List D) : Prop :=
  ∀ i < vectSize, left.getD i 0 = right.getD i 0

theorem incrementMean_congr {vectSize : Nat} {left right : List D}
    (same : SameVector vectSize left right) (mean : Mean D) :
    incrementMean mean left vectSize = incrementMean mean right vectSize := by
  unfold incrementMean
  simp only [Mean.mk.injEq, and_true]
  apply overwrite_congr
  intro i inside
  rw [same i inside]

variable [Mul D]

theorem incrementVariance_congr {vectSize : Nat} {left right : List D}
    (same : SameVector vectSize left right) (variance : Variance D) :
    incrementVariance variance left vectSize = incrementVariance variance right vectSize := by
  unfold incrementVariance incrementMeanAndVariance
  simp only [incrementMean_congr same]
  split
  · simp only [Variance.mk.injEq, and_true]
    apply overwrite_congr
    intro i inside
    rw [same i inside]
  · rfl

theorem incrementSobolCovariance_congr {vectSize increment : Nat}
    {left right left' right' mean mean' covariance : List D}
    (same : SameVector vectSize left right) (same' : SameVector vectSize left' right') :
    incrementSobolCovariance covariance left left' mean mean' vectSize increment =
      incrementSobolCovariance covariance right right' mean mean' vectSize increment := by
  unfold incrementSobolCovariance
  simp only
  split
  · apply overwrite_congr
    intro i inside
    rw [same i inside, same' i inside]
  · rfl

variable [LT D] [DecidableLT D] [Libm D]

/-- The estimator reads the first `vectSize` elements of each vector, by its role. -/
theorem incrementSobolMartinez_congr {vectSize : Nat} {left right : List (List D)}
    (same : ∀ k, SameVector vectSize (left.getD k []) (right.getD k []))
    (sobolArray : SobolArray D) :
    incrementSobolMartinez sobolArray left vectSize =
      incrementSobolMartinez sobolArray right vectSize := by
  unfold incrementSobolMartinez incrementMartinezParameter
  simp only [incrementVariance_congr (same _), incrementSobolCovariance_congr (same _) (same _)]

end Congr

end Melissa
