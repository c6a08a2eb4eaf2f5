import Melissa.Base.Arrays
import Mathlib.Algebra.Group.Defs
import Mathlib.Data.Nat.Cast.Defs
import Mathlib.Data.Rat.Floor
import Mathlib.Data.Rat.Sqrt
import Mathlib.Tactic.Common

/-! `general_moments.c`: incremental raw moments and the central moments `theta` derived from
them. The arithmetic of `double` is left open: every definition works over a type with the C
operators, and the theorems about exact arithmetic take it to be an ordered field. -/

namespace Melissa

open Arrays

/-- `moments_t`. An array that `init_moments` does not allocate is empty. -/
structure Moments (D : Type) where
  m1 : List D
  m2 : List D
  m3 : List D
  m4 : List D
  theta2 : List D
  theta3 : List D
  theta4 : List D
  increment : Nat
  maxOrder : Nat
  deriving DecidableEq, Repr

/-- The value a C division leaves in a `double`: outside exact arithmetic, a division by zero
is an infinity or `nan`. -/
inductive Extended (D : Type) where
  | finite (value : D)
  | infinite (negative : Bool)
  | nan
  deriving DecidableEq, Repr

/-- The functions of `math.h` on `double`; the theorems hold for every implementation. -/
class Libm (D : Type) where
  pow : D → D → D
  sqrt : D → D

/-- On rational numbers: exact for whole exponents and for squares. -/
instance : Libm ℚ where
  pow x y := x ^ ⌊y⌋.toNat
  sqrt x := Rat.sqrt x

section Init

variable {D : Type} [Zero D]

def initMoments (vectSize maxOrder : Nat) : Moments D :=
  let calloc (least : Nat) : List D := if maxOrder > least then List.replicate vectSize 0 else []
  { m1 := calloc 0, m2 := calloc 1, theta2 := calloc 1, m3 := calloc 2, theta3 := calloc 2,
    m4 := calloc 3, theta4 := calloc 3, increment := 0, maxOrder := maxOrder }

end Init

section Increment

variable {D : Type} [Zero D] [Add D] [Sub D] [Mul D] [Div D] [NatCast D] [Pow D ℕ]

def incrementMomentsMean (mean inVect : List D) (vectSize increment power : Nat) : List D :=
  overwrite vectSize (fun i =>
    let temp := mean.getD i 0
    temp + (inVect.getD i 0 ^ power - temp) / (increment : D)) mean

def thetaTwo (m1 m2 : D) : D := m2 - m1 ^ 2

def thetaThree (m1 m2 m3 : D) : D :=
  m3 - ((3 : ℕ) : D) * m1 * m2 + ((2 : ℕ) : D) * m1 ^ 3

def thetaFour (m1 m2 m3 m4 : D) : D :=
  m4 - ((4 : ℕ) : D) * m1 * m3 + ((6 : ℕ) : D) * m1 ^ 2 * m2 - ((3 : ℕ) : D) * m1 ^ 4

def incrementMoments (moments : Moments D) (inVect : List D) (vectSize : Nat) : Moments D :=
  let increment := moments.increment + 1
  if moments.maxOrder < 1 then { moments with increment := increment } else
  let mean (old : List D) (power : Nat) :=
    if moments.maxOrder ≥ power then
      incrementMomentsMean old inVect vectSize increment power else old
  let m1 := mean moments.m1 1
  let m2 := mean moments.m2 2
  let m3 := mean moments.m3 3
  let m4 := mean moments.m4 4
  let theta (old : List D) (order : Nat) (value : Nat → D) :=
    if increment > 1 ∧ moments.maxOrder ≥ order then overwrite vectSize value old else old
  { m1 := m1, m2 := m2, m3 := m3, m4 := m4
    theta2 := theta moments.theta2 2 fun i => thetaTwo (m1.getD i 0) (m2.getD i 0)
    theta3 := theta moments.theta3 3 fun i =>
      thetaThree (m1.getD i 0) (m2.getD i 0) (m3.getD i 0)
    theta4 := theta moments.theta4 4 fun i =>
      thetaFour (m1.getD i 0) (m2.getD i 0) (m3.getD i 0) (m4.getD i 0)
    increment := increment, maxOrder := moments.maxOrder }

end Increment

section Output

variable {D : Type} [Zero D] [Div D] [LT D] [DecidableEq D] [DecidableLT D]

/-- A C division of two finite values. -/
def quotient (numerator denominator : D) : Extended D :=
  if denominator = 0 then
    if numerator = 0 then .nan else .infinite (decide (numerator < 0))
  else .finite (numerator / denominator)

def computeSkewness [NatCast D] [Libm D] (moments : Moments D) (vectSize : Nat) :
    List (Extended D) :=
  (List.range vectSize).map fun i =>
    quotient (moments.theta3.getD i 0)
      (Libm.pow (moments.theta2.getD i 0) (((3 : ℕ) : D) / ((2 : ℕ) : D)))

def computeKurtosis [Pow D ℕ] (moments : Moments D) (vectSize : Nat) : List (Extended D) :=
  (List.range vectSize).map fun i =>
    quotient (moments.theta4.getD i 0) (moments.theta3.getD i 0 ^ 2)

end Output

end Melissa
