import Mathlib.Data.Int.Interval
import Mathlib.Tactic.Common

/-! Numbers taken one after the other below a limit, with a list of numbers that are passed over. -/

namespace NextFree

variable (forbidden : List Int) (limit : Int)

theorem fewer_ahead {m : Int} (here : m ∈ forbidden) :
    forbidden.countP (fun p => decide (m + 1 ≤ p)) <
      forbidden.countP (fun p => decide (m ≤ p)) := by
  have split : forbidden.countP (fun p => decide (m ≤ p)) =
      forbidden.countP (fun p => decide (m + 1 ≤ p)) +
        forbidden.countP (fun p => decide (p = m)) := by
    clear here
    induction forbidden with
    | nil => rfl
    | cons p rest ih =>
        simp only [List.countP_cons, ih, decide_eq_true_eq]
        split_ifs <;> omega
  have found : 0 < forbidden.countP fun p => decide (p = m) :=
    List.countP_pos_iff.mpr ⟨m, here, decide_eq_true rfl⟩
  omega

/-- The loop that steps over forbidden numbers. It ends because there are only so many of them;
none if it gets to the limit. -/
def skip (m : Int) : Option Int :=
  if m ∈ forbidden then
    if m + 1 < limit then skip (m + 1) else none
  else some m
termination_by forbidden.countP fun p => decide (m ≤ p)
decreasing_by exact fewer_ahead forbidden ‹_›

/-- One step, and the loop. -/
def next (m : Int) : Option Int :=
  if m + 1 < limit then skip forbidden limit (m + 1) else none

/-- The `k`-th number taken after a first one. -/
def take (start : Int) : Nat → Option Int
  | 0 => some start
  | k + 1 => (next forbidden limit start).bind fun m => take m k

/-- What can be taken after a number. -/
def free (start : Int) : Finset Int :=
  (@Finset.Ioo Int _ Int.instLocallyFiniteOrder start limit).filter fun m => m ∉ forbidden

variable {forbidden limit}

theorem mem_free {start m : Int} :
    m ∈ free forbidden limit start ↔ (start < m ∧ m < limit) ∧ m ∉ forbidden := by
  rw [free, Finset.mem_filter, Finset.mem_Ioo]

/-- The loop stops at the first number that is not forbidden. -/
theorem skip_eq_some {m q : Int} (found : skip forbidden limit m = some q)
    (below : m < limit) :
    m ≤ q ∧ q < limit ∧ q ∉ forbidden ∧ ∀ p, m ≤ p → p < q → p ∈ forbidden := by
  fun_induction skip forbidden limit m with
  | case1 m here room ih =>
      obtain ⟨above, inside, allowed, passed⟩ := ih found room
      refine ⟨by omega, inside, allowed, ?_⟩
      intro p low high
      rcases eq_or_lt_of_le low with same | later
      · exact same ▸ here
      · exact passed p later high
  | case2 m here full => cases found
  | case3 m allowed =>
      cases found
      exact ⟨le_refl _, below, allowed, fun p low high => absurd low (by omega)⟩

theorem skip_eq_none {m : Int} (found : skip forbidden limit m = none) :
    ∀ p, m ≤ p → p < limit → p ∈ forbidden := by
  fun_induction skip forbidden limit m with
  | case1 m here room ih =>
      intro p low high
      rcases eq_or_lt_of_le low with same | later
      · exact same ▸ here
      · exact ih found p later high
  | case2 m here full =>
      intro p low high
      have same : p = m := by omega
      exact same ▸ here
  | case3 m allowed => cases found

/-- The next number is the first one that can be taken. -/
theorem free_next {start m : Int} (found : next forbidden limit start = some m) :
    free forbidden limit start = insert m (free forbidden limit m) ∧
      m ∉ free forbidden limit m ∧ start < m ∧ m ∉ forbidden := by
  rw [next] at found
  split at found
  · rename_i room
    obtain ⟨above, inside, allowed, passed⟩ := skip_eq_some found room
    refine ⟨?_, fun member => absurd (mem_free.mp member).1.1 (lt_irrefl _), by omega, allowed⟩
    ext p
    rw [Finset.mem_insert, mem_free, mem_free]
    constructor
    · rintro ⟨⟨low, high⟩, good⟩
      rcases lt_trichotomy p m with before | same | after
      · exact absurd (passed p low before) good
      · exact Or.inl same
      · exact Or.inr ⟨⟨after, high⟩, good⟩
    · rintro (rfl | ⟨⟨low, high⟩, good⟩)
      · exact ⟨⟨by omega, inside⟩, allowed⟩
      · exact ⟨⟨by omega, high⟩, good⟩
  · cases found

theorem free_of_next_none {start : Int} (found : next forbidden limit start = none) :
    free forbidden limit start = ∅ := by
  rw [Finset.eq_empty_iff_forall_notMem]
  intro p member
  obtain ⟨⟨low, high⟩, good⟩ := mem_free.mp member
  rw [next] at found
  split at found
  · exact good (skip_eq_none found p low high)
  · omega

/-- As many numbers can be taken as there are free ones. -/
theorem take_isSome_iff {start : Int} {k : Nat} :
    (take forbidden limit start k).isSome = true ↔ k ≤ (free forbidden limit start).card := by
  induction k generalizing start with
  | zero => simp [take]
  | succ k ih =>
      rw [take]
      cases found : next forbidden limit start with
      | none => simp [free_of_next_none found]
      | some m =>
          obtain ⟨whole, fresh, _⟩ := free_next found
          rw [Option.bind_some, ih, whole, Finset.card_insert_of_notMem fresh]
          exact Nat.add_le_add_iff_right.symm

theorem take_allowed {start m : Int} {k : Nat} (first : start ∉ forbidden)
    (taken : take forbidden limit start k = some m) : m ∉ forbidden := by
  induction k generalizing start with
  | zero =>
      cases taken
      exact first
  | succ k ih =>
      obtain ⟨_, found, onward⟩ := Option.bind_eq_some_iff.mp taken
      exact ih (free_next found).2.2.2 onward

theorem take_add {start : Int} (j k : Nat) :
    take forbidden limit start (j + k) =
      (take forbidden limit start j).bind fun m => take forbidden limit m k := by
  induction j generalizing start with
  | zero => rw [Nat.zero_add, take, Option.bind_some]
  | succ j ih =>
      rw [Nat.add_right_comm, take, take, Option.bind_assoc]
      exact Option.bind_congr fun m _ => ih

theorem le_of_take {start m : Int} {k : Nat} (taken : take forbidden limit start k = some m) :
    start ≤ m := by
  induction k generalizing start with
  | zero =>
      cases taken
      exact le_refl _
  | succ k ih =>
      obtain ⟨first, found, onward⟩ := Option.bind_eq_some_iff.mp taken
      exact le_of_lt (lt_of_lt_of_le (free_next found).2.2.1 (ih onward))

/-- A number that is taken later is larger. -/
theorem take_lt {start m m' : Int} {j k : Nat} (earlier : j < k)
    (taken : take forbidden limit start j = some m)
    (taken' : take forbidden limit start k = some m') : m < m' := by
  obtain ⟨d, rfl⟩ := Nat.exists_eq_add_of_lt earlier
  rw [Nat.add_assoc, take_add, taken, Option.bind_some, take] at taken'
  obtain ⟨first, found, onward⟩ := Option.bind_eq_some_iff.mp taken'
  exact lt_of_lt_of_le (free_next found).2.2.1 (le_of_take onward)

end NextFree
