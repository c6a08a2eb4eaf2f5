import Melissa.Stats.Moments

/-! `min_max.c`, `threshold.c` and `quantile.c`. -/

namespace Melissa

open Arrays

/-- `min_max_t`. -/
structure MinMax (D : Type) where
  min : List D
  max : List D
  minId : List Nat
  maxId : List Nat
  isInit : Bool
  deriving DecidableEq, Repr

/-- `threshold_t`. -/
structure Threshold (D : Type) where
  thresholdExceedance : List Nat
  value : D
  deriving DecidableEq, Repr

/-- `quantile_t`. -/
structure Quantile (D : Type) where
  quantile : List D
  increment : Nat
  alpha : D
  deriving DecidableEq, Repr

section MinMax

variable {D : Type} [Zero D]

/-- `min` and `max` come from `malloc`; nothing reads them before `isInit` is set, and the
model fills them with zeros. -/
def initMinMax (vectSize : Nat) : MinMax D :=
  { min := List.replicate vectSize 0, max := List.replicate vectSize 0
    minId := List.replicate vectSize 0, maxId := List.replicate vectSize 0, isInit := false }

def minAndMax [LT D] [DecidableLT D] (minMax : MinMax D) (inVect : List D)
    (simuId vectSize : Nat) : MinMax D :=
  if minMax.isInit = false then
    { minMax with
      min := overwrite vectSize (fun i => inVect.getD i 0) minMax.min
      max := overwrite vectSize (fun i => inVect.getD i 0) minMax.max
      isInit := true }
  else
    let lower (i : Nat) : Prop := minMax.min.getD i 0 > inVect.getD i 0
    let higher (i : Nat) : Prop := minMax.max.getD i 0 < inVect.getD i 0
    { minMax with
      min := overwrite vectSize
        (fun i => if lower i then inVect.getD i 0 else minMax.min.getD i 0) minMax.min
      minId := overwrite vectSize
        (fun i => if lower i then simuId else minMax.minId.getD i 0) minMax.minId
      max := overwrite vectSize
        (fun i => if higher i then inVect.getD i 0 else minMax.max.getD i 0) minMax.max
      maxId := overwrite vectSize
        (fun i => if higher i then simuId else minMax.maxId.getD i 0) minMax.maxId }

end MinMax

section Threshold

variable {D : Type} [Zero D]

def initThreshold (vectSize : Nat) (value : D) : Threshold D :=
  { thresholdExceedance := List.replicate vectSize 0, value := value }

def updateThresholdExceedance [LT D] [DecidableLT D] (threshold : Threshold D)
    (inVect : List D) (vectSize : Nat) : Threshold D :=
  { threshold with
    thresholdExceedance := overwrite vectSize
      (fun i =>
        let count := threshold.thresholdExceedance.getD i 0
        if inVect.getD i 0 > threshold.value then count + 1 else count)
      threshold.thresholdExceedance }

end Threshold

section Quantile

variable {D : Type} [Zero D]

def initQuantile (vectSize : Nat) (alpha : D) : Quantile D :=
  { quantile := List.replicate vectSize 0, increment := 0, alpha := alpha }

variable [Add D] [Sub D] [Mul D] [Div D] [NatCast D] [IntCast D] [LE D] [DecidableLE D] [Libm D]

def incrementQuantile (quantile : Quantile D) (nmax : Int) (inVect : List D)
    (vectSize : Nat) : Quantile D :=
  let increment := quantile.increment + 1
  if increment > 1 then
    -- 0.9 and 0.1 are the correctly rounded quotients 9 / 10 and 1 / 10
    let gamma : D := ((increment - 1 : ℕ) : D) * (((9 : ℕ) : D) / ((10 : ℕ) : D)) /
      ((nmax - 1 : ℤ) : D) + ((1 : ℕ) : D) / ((10 : ℕ) : D)
    { quantile with
      increment := increment
      quantile := overwrite vectSize
        (fun i =>
          let old := quantile.quantile.getD i 0
          let temp := if old ≥ inVect.getD i 0 then ((1 : ℕ) : D) - quantile.alpha
            else 0 - quantile.alpha
          old - temp / Libm.pow (increment : D) gamma)
        quantile.quantile }
  else
    { quantile with
      increment := increment
      quantile := overwrite vectSize (fun i => inVect.getD i 0) quantile.quantile }

end Quantile

end Melissa
