import Mathlib.Algebra.Group.Int.Defs
import Mathlib.Algebra.Group.Nat.Defs
import Mathlib.Tactic.Common

/-! Sums and products of `int`, which have no value where they overflow. -/

namespace Melissa

/-- The sum of two `int`; none if it overflows. -/
def addInt (i j : Int) : Option Int :=
  if -2 ^ 31 ≤ i + j ∧ i + j < 2 ^ 31 then some (i + j) else none

/-- The product of two `int`; none if it overflows. -/
def mulInt (i j : Int) : Option Int :=
  if -2 ^ 31 ≤ i * j ∧ i * j < 2 ^ 31 then some (i * j) else none

theorem addInt_eq_some {i j k : Int} :
    addInt i j = some k ↔ (-2 ^ 31 ≤ i + j ∧ i + j < 2 ^ 31) ∧ i + j = k := by
  rw [addInt]
  split
  · rename_i bounds
    simp only [Option.some.injEq, bounds, and_self, true_and]
  · rename_i bounds
    simp only [reduceCtorEq, bounds, false_and]

theorem mulInt_eq_some {i j k : Int} :
    mulInt i j = some k ↔ (-2 ^ 31 ≤ i * j ∧ i * j < 2 ^ 31) ∧ i * j = k := by
  rw [mulInt]
  split
  · rename_i bounds
    simp only [Option.some.injEq, bounds, and_self, true_and]
  · rename_i bounds
    simp only [reduceCtorEq, bounds, false_and]

theorem addInt_natCast {n m : Nat} (small : n + m < 2 ^ 31) :
    addInt n m = some ((n + m : ℕ) : Int) := by
  rw [addInt, if_pos (by omega), Int.natCast_add]

theorem mulInt_natCast {n m : Nat} (small : n * m < 2 ^ 31) :
    mulInt n m = some ((n * m : ℕ) : Int) := by
  rw [mulInt, if_pos]
  · push_cast
    rfl
  · constructor
    · have := Int.natCast_nonneg (n * m)
      push_cast at this
      omega
    · exact_mod_cast small

theorem lt_of_mulInt {n m : Nat} {k : Int} (product : mulInt n m = some k) : n * m < 2 ^ 31 := by
  exact_mod_cast (mulInt_eq_some.mp product).1.2

end Melissa
