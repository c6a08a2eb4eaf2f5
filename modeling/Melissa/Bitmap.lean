import Melissa.Base.Runs
import Melissa.Data

/-! Arrays of bits as sets: what `test_bit` finds after calls of `set_bit` and `clear_bit`. -/

namespace Melissa

open Runs

section Calls

/-- `clear_bit`. -/
def clearBit (vect : List Word) (pos : Nat) : List Word :=
  vect.modify (pos / 32) fun word => word &&& ~~~(1#32 <<< (pos % 32))

inductive BitCall where
  | set (pos : Nat)
  | clear (pos : Nat)
  deriving DecidableEq, Repr

def BitCall.pos : BitCall → Nat
  | .set pos => pos
  | .clear pos => pos

/-- A call on an array; none if the word it uses lies outside of it. -/
def callBit (vect : List Word) (call : BitCall) : Option (List Word) :=
  if call.pos / 32 < vect.length then
    match call with
    | .set pos => some (setBit vect pos)
    | .clear pos => some (clearBit vect pos)
  else none

/-- The last call at a position. -/
def lastCall (calls : List BitCall) (pos : Nat) : Option BitCall :=
  calls.reverse.find? fun call => call.pos == pos

/-- What a call does to the set of positions. -/
def BitCall.onSet (members : Set Nat) : BitCall → Set Nat
  | .set pos => insert pos members
  | .clear pos => members \ {pos}

/-- The first `n` bits of an array are those of a set. -/
structure Represents (n : Nat) (vect : List Word) (members : Set Nat) : Prop where
  length : vect.length = nbWords n
  bits : ∀ p < n, testBit vect p = true ↔ p ∈ members

end Calls

section Bits

@[simp] theorem clearBit_length (vect : List Word) (pos : Nat) :
    (clearBit vect pos).length = vect.length := by
  simp [clearBit]

theorem testBit_clearBit {vect : List Word} {pos : Nat} (allocated : pos / 32 < vect.length)
    (q : Nat) : testBit (clearBit vect pos) q = (decide (q ≠ pos) && testBit vect q) := by
  have shift : q % 32 < 32 := Nat.mod_lt _ (by decide)
  rw [testBit_eq_getLsbD, testBit_eq_getLsbD, clearBit]
  by_cases same : pos / 32 = q / 32
  · have here : (vect.modify (pos / 32) fun word => word &&& ~~~(1#32 <<< (pos % 32))).getD
        (q / 32) 0#32 = vect.getD (q / 32) 0#32 &&& ~~~(1#32 <<< (pos % 32)) := by
      rw [← same]
      simp [List.getD_eq_getElem?_getD, allocated]
    have position : q % 32 = pos % 32 ↔ q = pos := by omega
    rw [here, BitVec.getLsbD_and, BitVec.getLsbD_not, mask_getLsbD _ _ shift, Bool.and_comm]
    simp only [shift, decide_true, Bool.true_and, position, ne_eq, decide_not]
  · have there :
      (vect.modify (pos / 32) fun word => word &&& ~~~(1#32 <<< (pos % 32))).getD (q / 32) 0#32
        = vect.getD (q / 32) 0#32 := by
      simp [List.getD_eq_getElem?_getD, same]
    have apart : q ≠ pos := by
      rintro rfl
      exact same rfl
    rw [there]
    simp [apart]

end Bits

section Sets

variable {n : Nat} {vect : List Word} {members : Set Nat}

/-- A freshly allocated array is the empty set. -/
theorem represents_zeros (n : Nat) : Represents n (List.replicate (nbWords n) 0#32) ∅ := by
  refine ⟨List.length_replicate, ?_⟩
  intro p _
  simp

/-- Every array that `melissa_init_steps` allocates is one of zeros. -/
theorem melissaInitSteps_zeros {D : Type} {options : Options D} {data : MelissaData D}
    (fresh : data.stepsInit = false) :
    ∀ steps ∈ (melissaInitSteps options data).stepSimu,
      steps = List.replicate (nbWords options.nbTimeSteps) 0#32 := by
  intro steps member
  rw [melissaInitSteps, if_pos fresh] at member
  exact List.eq_of_mem_replicate member

theorem Represents.word_inside (represents : Represents n vect members) {p : Nat}
    (inside : p < n) : p / 32 < vect.length := by
  rw [represents.length]
  exact Melissa.word_inside inside

/-- One call keeps array and set together. -/
theorem represents_callBit (represents : Represents n vect members) {call : BitCall}
    (inside : call.pos < n) :
    ∃ vect', callBit vect call = some vect' ∧ Represents n vect' (call.onSet members) := by
  have allocated := represents.word_inside inside
  unfold callBit
  rw [if_pos allocated]
  cases call with
  | set pos =>
      refine ⟨_, rfl, by rw [setBit_length, represents.length], ?_⟩
      intro p known
      have bit := testBit_setBit (show pos / 32 < vect.length from allocated) p
      rw [bit, Bool.or_eq_true, decide_eq_true_eq, represents.bits p known]
      exact Set.mem_insert_iff.symm
  | clear pos =>
      refine ⟨_, rfl, by rw [clearBit_length, represents.length], ?_⟩
      intro p known
      have bit := testBit_clearBit (show pos / 32 < vect.length from allocated) p
      rw [bit, Bool.and_eq_true, decide_eq_true_eq, represents.bits p known]
      exact and_comm

/-- A run of calls keeps array and set together. -/
theorem represents_run (represents : Represents n vect members) {calls : List BitCall}
    (inside : ∀ call ∈ calls, call.pos < n) :
    ∃ vect', run callBit vect calls = some vect' ∧
      Represents n vect' (calls.foldl BitCall.onSet members) := by
  induction calls generalizing vect members with
  | nil => exact ⟨vect, rfl, represents⟩
  | cons call rest ih =>
      rw [List.forall_mem_cons] at inside
      obtain ⟨next, taken, step⟩ := represents_callBit represents inside.1
      obtain ⟨vect', onward, final⟩ := ih step inside.2
      exact ⟨vect', by rw [run_cons, taken, Option.bind_some, onward], final⟩

/-- The set holds the positions whose last call was a `set_bit`. -/
theorem mem_foldl_onSet (calls : List BitCall) (p : Nat) :
    p ∈ calls.foldl BitCall.onSet ∅ ↔ lastCall calls p = some (.set p) := by
  induction calls using List.reverseRecOn with
  | nil => simp [lastCall]
  | append_singleton front call ih =>
      rw [List.foldl_append, List.foldl_cons, List.foldl_nil, lastCall, List.reverse_append,
        List.reverse_singleton, List.singleton_append, List.find?_cons, ← lastCall]
      cases call with
      | set pos =>
          by_cases here : pos = p
          · simp [BitCall.onSet, BitCall.pos, here]
          · have apart : (pos == p) = false := beq_eq_false_iff_ne.mpr here
            simp [BitCall.onSet, BitCall.pos, apart, Ne.symm here, ih]
      | clear pos =>
          by_cases here : pos = p
          · simp [BitCall.onSet, BitCall.pos, here]
          · have apart : (pos == p) = false := beq_eq_false_iff_ne.mpr here
            simp [BitCall.onSet, BitCall.pos, apart, Ne.symm here, ih]

/-- Bitmaps are sets: no call leaves the array, and a bit is set exactly when the last call at its
position was a `set_bit`. -/
theorem bitmaps_areSets (n : Nat) (calls : List BitCall) (inside : ∀ call ∈ calls, call.pos < n) :
    ∃ vect, run callBit (List.replicate (nbWords n) 0#32) calls = some vect ∧
      ∀ p < n, p / 32 < vect.length ∧
        (testBit vect p = true ↔ lastCall calls p = some (.set p)) := by
  obtain ⟨vect, reached, represents⟩ := represents_run (represents_zeros n) inside
  refine ⟨vect, reached, ?_⟩
  intro p known
  exact ⟨represents.word_inside known, (represents.bits p known).trans (mem_foldl_onSet calls p)⟩

/-- The sign bit of the first word, set and cleared next to its neighbours. -/
theorem bitmaps_areSets_signBit :
    ∃ vect, run callBit (List.replicate (nbWords 40) 0#32)
        [.set 30, .set 31, .set 32, .clear 31, .set 31, .clear 30] = some vect ∧
      ∀ p < 40, p / 32 < vect.length ∧ (testBit vect p = true ↔
        lastCall [.set 30, .set 31, .set 32, .clear 31, .set 31, .clear 30] p = some (.set p)) :=
  bitmaps_areSets 40 _ (by decide)

end Sets

end Melissa
