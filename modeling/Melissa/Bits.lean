import Mathlib.Data.BitVec
import Mathlib.Data.List.GetD
import Mathlib.Tactic.Common

/-! `set_bit` and `test_bit` of `melissa_utils.c`: arrays of 32-bit words as sets of positions. -/

namespace Melissa

abbrev Word := BitVec 32

/-- Number of words that hold one bit per time step. -/
def nbWords (nbTimeSteps : Nat) : Nat := (nbTimeSteps + 31) / 32

def setBit (vect : List Word) (pos : Nat) : List Word :=
  vect.modify (pos / 32) fun word => word ||| 1#32 <<< (pos % 32)

def testBit (vect : List Word) (pos : Nat) : Bool :=
  vect.getD (pos / 32) 0#32 &&& 1#32 <<< (pos % 32) != 0#32

theorem word_inside {pos nbTimeSteps : Nat} (inside : pos < nbTimeSteps) :
    pos / 32 < nbWords nbTimeSteps := by
  unfold nbWords
  omega

theorem mask_getLsbD (shift i : Nat) (hi : i < 32) :
    (1#32 <<< shift).getLsbD i = decide (i = shift) := by
  simp only [BitVec.getLsbD_shiftLeft, hi, decide_true, Bool.true_and, BitVec.getLsbD_one]
  by_cases h : i = shift
  · subst h
    simp
  · simp only [h, decide_false, Bool.and_eq_false_imp]
    intro below
    have : ¬ i - shift = 0 := by
      simp at below
      omega
    simpa using this

theorem testBit_eq_getLsbD (vect : List Word) (pos : Nat) :
    testBit vect pos = (vect.getD (pos / 32) 0#32).getLsbD (pos % 32) := by
  have shift : pos % 32 < 32 := Nat.mod_lt _ (by decide)
  unfold testBit
  generalize vect.getD (pos / 32) 0#32 = word
  have masked (i : Nat) (hi : i < 32) : (word &&& 1#32 <<< (pos % 32)).getLsbD i =
      (word.getLsbD i && decide (i = pos % 32)) := by
    rw [BitVec.getLsbD_and, mask_getLsbD _ _ hi]
  cases value : word.getLsbD (pos % 32) with
  | true =>
      rw [bne_iff_ne]
      intro cleared
      have here := masked _ shift
      rw [cleared, value] at here
      simp at here
  | false =>
      have cleared : word &&& 1#32 <<< (pos % 32) = 0#32 := by
        apply BitVec.eq_of_getLsbD_eq
        intro i hi
        rw [masked i hi]
        by_cases here : i = pos % 32
        · simp [here, value]
        · simp [here]
      simp [cleared]

@[simp] theorem setBit_length (vect : List Word) (pos : Nat) :
    (setBit vect pos).length = vect.length := by
  simp [setBit]

theorem testBit_setBit {vect : List Word} {pos : Nat} (allocated : pos / 32 < vect.length)
    (q : Nat) : testBit (setBit vect pos) q = (decide (q = pos) || testBit vect q) := by
  have shift : q % 32 < 32 := Nat.mod_lt _ (by decide)
  rw [testBit_eq_getLsbD, testBit_eq_getLsbD, setBit]
  by_cases same : pos / 32 = q / 32
  · have here : (vect.modify (pos / 32) fun word => word ||| 1#32 <<< (pos % 32)).getD (q / 32) 0#32
        = vect.getD (q / 32) 0#32 ||| 1#32 <<< (pos % 32) := by
      rw [← same]
      simp [List.getD_eq_getElem?_getD, allocated]
    rw [here, BitVec.getLsbD_or, mask_getLsbD _ _ shift, Bool.or_comm]
    have position : q % 32 = pos % 32 ↔ q = pos := by omega
    simp only [position]
  · have there :
      (vect.modify (pos / 32) fun word => word ||| 1#32 <<< (pos % 32)).getD (q / 32) 0#32
        = vect.getD (q / 32) 0#32 := by
      simp [List.getD_eq_getElem?_getD, same]
    have apart : q ≠ pos := by
      rintro rfl
      exact same rfl
    rw [there]
    simp [apart]

/-- Setting a bit that is set changes nothing. -/
theorem setBit_of_testBit {vect : List Word} {pos : Nat} (present : testBit vect pos = true) :
    setBit vect pos = vect := by
  apply List.ext_getElem?
  intro i
  rw [setBit, List.getElem?_modify]
  by_cases here : pos / 32 = i
  · subst here
    cases found : vect[pos / 32]? with
    | none => simp
    | some word =>
        rw [testBit_eq_getLsbD, List.getD_eq_getElem?_getD, found, Option.getD_some] at present
        have unchanged : word ||| 1#32 <<< (pos % 32) = word := by
          apply BitVec.eq_of_getLsbD_eq
          intro bit inside
          rw [BitVec.getLsbD_or, mask_getLsbD _ _ inside]
          by_cases same : bit = pos % 32
          · simp [same, present]
          · simp [same]
        simp [unchanged]
  · simp [here]

@[simp] theorem testBit_zeros (n q : Nat) :
    testBit (List.replicate n 0#32) q = false := by
  simp [testBit_eq_getLsbD]

@[simp] theorem testBit_nil (q : Nat) : testBit [] q = false := by
  simp [testBit]

end Melissa
