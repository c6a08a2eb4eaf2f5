import Mathlib.Algebra.BigOperators.Group.List.Basic
import Mathlib.Algebra.GroupWithZero.Nat
import Mathlib.Algebra.Order.BigOperators.Group.List
import Mathlib.Data.List.GetD
import Mathlib.Data.Nat.Find
import Mathlib.Tactic.Common

/-! Consecutive blocks of given sizes, a cursor that walks through them element by element, and
the distinct values a monotone sequence runs through. -/

namespace Blocks

section Offsets

/-- Where block `r` starts. -/
def offset (sizes : List Nat) (r : Nat) : Nat := (sizes.take r).sum

/-- Index `i` lies in block `r`. -/
def Owns (sizes : List Nat) (r i : Nat) : Prop := offset sizes r ≤ i ∧ i < offset sizes (r + 1)

@[simp] theorem offset_zero (sizes : List Nat) : offset sizes 0 = 0 := by simp [offset]

theorem offset_succ (sizes : List Nat) (r : Nat) :
    offset sizes (r + 1) = offset sizes r + sizes.getD r 0 := by
  unfold offset
  by_cases inside : r < sizes.length
  · rw [List.take_succ_eq_append_getElem inside, List.sum_append, List.getD_eq_getElem _ _ inside]
    simp
  · rw [List.take_of_length_le (by omega), List.take_of_length_le (by omega),
      List.getD_eq_default _ _ (by omega)]
    simp

theorem offset_mono (sizes : List Nat) {r s : Nat} (below : r ≤ s) :
    offset sizes r ≤ offset sizes s := by
  induction s, below using Nat.le_induction with
  | base => exact le_refl _
  | succ s _ ih =>
      rw [offset_succ]
      omega

theorem offset_of_length_le {sizes : List Nat} {r : Nat} (past : sizes.length ≤ r) :
    offset sizes r = sizes.sum := by
  rw [offset, List.take_of_length_le past]

theorem offset_le_sum (sizes : List Nat) (r : Nat) : offset sizes r ≤ sizes.sum := by
  have bound := offset_mono sizes (Nat.le_max_left r sizes.length)
  rwa [offset_of_length_le (Nat.le_max_right r sizes.length)] at bound

theorem offset_map_length {α : Type} (parts : List (List α)) (r : Nat) :
    offset (parts.map List.length) r = (parts.take r).flatten.length := by
  rw [offset, ← List.map_take, List.length_flatten]

theorem offset_uniform {sizes : List Nat} {n k : Nat} (uniform : ∀ size ∈ sizes, size = n)
    (known : k ≤ sizes.length) : offset sizes k = k * n := by
  rw [offset, List.eq_replicate_of_mem uniform, List.take_replicate, List.sum_replicate,
    Nat.min_eq_left known]
  rfl

/-- The blocks one after the other are all indices in order. -/
theorem flatMap_blocks (sizes : List Nat) (n : Nat) :
    (List.range n).flatMap (fun r => List.range' (offset sizes r) (sizes.getD r 0)) =
      List.range (offset sizes n) := by
  induction n with
  | zero => simp
  | succ n ih =>
      rw [List.range_succ, List.flatMap_append, ih, offset_succ, List.range_eq_range',
        List.range_eq_range', List.flatMap_singleton, ← List.range'_append_1, Nat.zero_add]

theorem owns_unique {sizes : List Nat} {r s i : Nat} (left : Owns sizes r i)
    (right : Owns sizes s i) : r = s := by
  obtain ⟨fromLeft, toLeft⟩ := left
  obtain ⟨fromRight, toRight⟩ := right
  rcases Nat.lt_trichotomy r s with below | same | above
  · have : offset sizes (r + 1) ≤ offset sizes s := offset_mono sizes below
    omega
  · exact same
  · have : offset sizes (s + 1) ≤ offset sizes r := offset_mono sizes above
    omega

theorem owns_exists {sizes : List Nat} {i : Nat} (inside : i < sizes.sum) :
    ∃ r, r < sizes.length ∧ Owns sizes r i := by
  have reach (n : Nat) : i < offset sizes n → ∃ r, r < n ∧ Owns sizes r i := by
    induction n with
    | zero =>
        intro below
        simp at below
    | succ n ih =>
        intro below
        by_cases earlier : i < offset sizes n
        · obtain ⟨r, small, owns⟩ := ih earlier
          exact ⟨r, by omega, owns⟩
        · exact ⟨n, by omega, by omega, below⟩
  exact reach sizes.length (by rwa [offset_of_length_le (le_refl _)])

theorem owns_zero_iff {sizes : List Nat} : Owns sizes 0 0 ↔ 0 < sizes.getD 0 0 := by
  rw [Owns, offset_succ, offset_zero]
  omega

theorem owns_lt_sum {sizes : List Nat} {r i : Nat} (owns : Owns sizes r i) : i < sizes.sum :=
  Nat.lt_of_lt_of_le owns.2 (offset_le_sum sizes (r + 1))

theorem owns_length {sizes : List Nat} {r i : Nat} (owns : Owns sizes r i) :
    r < sizes.length := by
  by_contra past
  have start := offset_of_length_le (Nat.not_lt.mp past)
  have inside := owns_lt_sum owns
  have := owns.1
  omega

end Offsets

section Cursor

/-- The block of the last element walked over and the number of its elements walked over. -/
structure Cursor where
  rank : Nat
  count : Nat
  deriving DecidableEq, Repr

/-- One element further. The flag says that a new block begins. -/
def Cursor.advance (sizes : List Nat) (cursor : Cursor) : Cursor × Bool :=
  if cursor.count < sizes.getD cursor.rank 0 then (⟨cursor.rank, cursor.count + 1⟩, false)
  else (⟨cursor.rank + 1, 1⟩, true)

/-- The cursor after `n` elements. -/
def walk (sizes : List Nat) : Nat → Cursor
  | 0 => ⟨0, 0⟩
  | n + 1 => ((walk sizes n).advance sizes).1

/-- The cursor spends at least one element in each block after the first one. -/
def padded : List Nat → List Nat
  | [] => []
  | first :: rest => first :: rest.map fun size => max 1 size

theorem padded_getD_zero (sizes : List Nat) : (padded sizes).getD 0 0 = sizes.getD 0 0 := by
  cases sizes with
  | nil => rfl
  | cons first rest => rfl

theorem padded_getD_succ (sizes : List Nat) (r : Nat) (inside : r + 1 < sizes.length) :
    (padded sizes).getD (r + 1) 0 = max 1 (sizes.getD (r + 1) 0) := by
  cases sizes with
  | nil => simp at inside
  | cons first rest =>
      have bound : r < rest.length := by simpa using inside
      simp [padded, List.getD_eq_getElem?_getD, bound]

@[simp] theorem padded_length (sizes : List Nat) : (padded sizes).length = sizes.length := by
  cases sizes with
  | nil => rfl
  | cons first rest => simp [padded]

theorem le_padded_getD (sizes : List Nat) (r : Nat) :
    sizes.getD r 0 ≤ (padded sizes).getD r 0 := by
  cases r with
  | zero => rw [padded_getD_zero]
  | succ r =>
      by_cases inside : r + 1 < sizes.length
      · rw [padded_getD_succ sizes r inside]
        exact Nat.le_max_right _ _
      · rw [List.getD_eq_default _ _ (by omega)]
        exact Nat.zero_le _

theorem one_le_padded_getD {sizes : List Nat} {r : Nat}
    (short : offset (padded sizes) (r + 1) < (padded sizes).sum) :
    1 ≤ (padded sizes).getD (r + 1) 0 := by
  have known : r + 1 < (padded sizes).length := by
    by_contra past
    have := offset_of_length_le (Nat.not_lt.mp past)
    omega
  rw [padded_getD_succ sizes r (by simpa using known)]
  exact Nat.le_max_left _ _

/-- What the cursor says after `n` elements. -/
structure Stands (sizes : List Nat) (n : Nat) (cursor : Cursor) : Prop where
  position : offset (padded sizes) cursor.rank + cursor.count = n
  within : cursor.count ≤ (padded sizes).getD cursor.rank 0
  started : cursor.rank = 0 ∨ 1 ≤ cursor.count

theorem stands_advance {sizes : List Nat} {n : Nat} {cursor : Cursor}
    (stands : Stands sizes n cursor) (inside : n < (padded sizes).sum) :
    Stands sizes (n + 1) (cursor.advance sizes).1 ∧
      Owns (padded sizes) (cursor.advance sizes).1.rank n := by
  obtain ⟨position, within, started⟩ := stands
  have last := offset_succ (padded sizes) cursor.rank
  have least := le_padded_getD sizes cursor.rank
  by_cases more : cursor.count < sizes.getD cursor.rank 0
  · rw [Cursor.advance, if_pos more]
    exact ⟨⟨by simp only; omega, by simp only; omega, Or.inr (by simp only; omega)⟩,
      by simp only; omega, by simp only; omega⟩
  · rw [Cursor.advance, if_neg more]
    have exhausted : cursor.count = (padded sizes).getD cursor.rank 0 := by
      cases rank : cursor.rank with
      | zero =>
          rw [rank, padded_getD_zero] at within
          rw [rank] at more
          rw [padded_getD_zero]
          omega
      | succ r =>
          rw [rank] at more within started
          have known : r + 1 < sizes.length := by
            by_contra past
            rw [List.getD_eq_default _ _ (by simpa using past)] at within
            omega
          rw [padded_getD_succ sizes r known] at within ⊢
          omega
    have next := offset_succ (padded sizes) (cursor.rank + 1)
    have room : 1 ≤ (padded sizes).getD (cursor.rank + 1) 0 := one_le_padded_getD (by omega)
    exact ⟨⟨by simp only; omega, room, Or.inr (le_refl _)⟩, by simp only; omega,
      by simp only; omega⟩

theorem stands_walk {sizes : List Nat} {n : Nat} (inside : n ≤ (padded sizes).sum) :
    Stands sizes n (walk sizes n) := by
  induction n with
  | zero => exact ⟨by simp [walk], by simp [walk], Or.inl rfl⟩
  | succ n ih => exact (stands_advance (ih (by omega)) inside).1

/-- After element `i` the cursor stands in the padded block that owns it. -/
theorem owns_walk {sizes : List Nat} {i : Nat} (inside : i < (padded sizes).sum) :
    Owns (padded sizes) (walk sizes (i + 1)).rank i :=
  (stands_advance (stands_walk (Nat.le_of_lt inside)) inside).2

/-- No block after the first is empty before the last element. -/
def Steady (sizes : List Nat) : Prop :=
  ∀ r, offset sizes (r + 1) < sizes.sum → 0 < sizes.getD (r + 1) 0

theorem sum_le_padded_sum (sizes : List Nat) : sizes.sum ≤ (padded sizes).sum := by
  cases sizes with
  | nil => simp
  | cons first rest =>
      have grown : rest.sum ≤ (rest.map fun size => max 1 size).sum := by
        induction rest with
        | nil => simp
        | cons size rest ih =>
            simp only [List.map_cons, List.sum_cons]
            have := Nat.le_max_right 1 size
            omega
      simp only [padded, List.sum_cons]
      omega

theorem padded_getD_of_pos {sizes : List Nat} {r : Nat} (positive : r = 0 ∨ 0 < sizes.getD r 0) :
    (padded sizes).getD r 0 = sizes.getD r 0 := by
  cases r with
  | zero => exact padded_getD_zero sizes
  | succ r =>
      have some_elements : 0 < sizes.getD (r + 1) 0 := by
        rcases positive with zero | positive
        · cases zero
        · exact positive
      have known : r + 1 < sizes.length := by
        by_contra past
        rw [List.getD_eq_default _ _ (by omega)] at some_elements
        omega
      rw [padded_getD_succ sizes r known]
      omega

theorem offset_padded {sizes : List Nat} {s : Nat}
    (positive : ∀ r < s, r = 0 ∨ 0 < sizes.getD r 0) :
    offset (padded sizes) s = offset sizes s := by
  induction s with
  | zero => simp
  | succ s ih =>
      rw [offset_succ, offset_succ, ih fun r below => positive r (by omega),
        padded_getD_of_pos (positive s (by omega))]

/-- In steady blocks padding moves no element. -/
theorem owns_padded_of_steady {sizes : List Nat} (steady : Steady sizes) {r i : Nat}
    (owns : Owns sizes r i) : Owns (padded sizes) r i := by
  have inside := owns_lt_sum owns
  obtain ⟨starts, ends⟩ := owns
  have positive (s : Nat) (below : s < r + 1) : s = 0 ∨ 0 < sizes.getD s 0 := by
    cases s with
    | zero => exact Or.inl rfl
    | succ s =>
        have early := offset_mono sizes (Nat.le_of_lt_succ below)
        exact Or.inr (steady s (by omega))
  constructor
  · rw [offset_padded fun s below => positive s (by omega)]
    exact starts
  · rw [offset_padded positive]
    exact ends

theorem owns_walk_of_steady {sizes : List Nat} (steady : Steady sizes) {i : Nat}
    (inside : i < sizes.sum) : Owns sizes (walk sizes (i + 1)).rank i := by
  obtain ⟨r, _, owns⟩ := owns_exists inside
  have reached := owns_walk (Nat.lt_of_lt_of_le inside (sum_le_padded_sum sizes))
  rw [owns_unique reached (owns_padded_of_steady steady owns)]
  exact owns

theorem steady_of_pos {sizes : List Nat} (positive : ∀ size ∈ sizes, 0 < size) :
    Steady sizes := by
  intro r short
  have known : r + 1 < sizes.length := by
    by_contra past
    rw [offset_of_length_le (Nat.not_lt.mp past)] at short
    omega
  rw [List.getD_eq_getElem _ _ known]
  exact positive _ (List.getElem_mem known)

/-- The first empty block that has a later element. -/
theorem exists_first_gap {sizes : List Nat} (gap : ¬ Steady sizes) :
    ∃ r, offset sizes (r + 1) < sizes.sum ∧ sizes.getD (r + 1) 0 = 0 ∧
      ∀ s < r + 1, s = 0 ∨ 0 < sizes.getD s 0 := by
  classical
  have some_gap : ∃ r, offset sizes (r + 1) < sizes.sum ∧ sizes.getD (r + 1) 0 = 0 := by
    by_contra no_gap
    apply gap
    intro r short
    by_contra empty
    exact no_gap ⟨r, short, Nat.le_zero.mp (Nat.not_lt.mp empty)⟩
  have least := Nat.find_spec some_gap
  refine ⟨Nat.find some_gap, least.1, least.2, ?_⟩
  intro s below
  cases s with
  | zero => exact Or.inl rfl
  | succ s =>
      right
      by_contra empty
      have earlier := offset_mono sizes (Nat.le_of_lt below)
      exact Nat.find_min some_gap (Nat.lt_of_succ_lt_succ below) ⟨by omega, by omega⟩

/-- If the blocks are not steady, the cursor stands in an empty block after some element. -/
theorem exists_walk_gap {sizes : List Nat} (gap : ¬ Steady sizes) :
    ∃ r < sizes.length, ∃ i < sizes.sum,
      (walk sizes (i + 1)).rank = r ∧ sizes.getD r 0 = 0 := by
  obtain ⟨r, short, empty, first⟩ := exists_first_gap gap
  have known : r + 1 < sizes.length := by
    by_contra past
    rw [offset_of_length_le (Nat.not_lt.mp past)] at short
    omega
  have owned : Owns (padded sizes) (r + 1) (offset sizes (r + 1)) := by
    have start := offset_padded first
    have size := padded_getD_succ sizes r known
    rw [Owns, offset_succ (padded sizes) (r + 1), start, size]
    omega
  have reached := owns_walk (owns_lt_sum owned)
  exact ⟨r + 1, known, offset sizes (r + 1), short, owns_unique reached owned, empty⟩

/-- A block begins where the rank of the cursor changes, and it never goes back. -/
theorem walk_step (sizes : List Nat) (n : Nat) :
    ((walk sizes n).advance sizes).2 = true ∧
        (walk sizes (n + 1)).rank = (walk sizes n).rank + 1 ∨
      ((walk sizes n).advance sizes).2 = false ∧
        (walk sizes (n + 1)).rank = (walk sizes n).rank := by
  rw [walk, Cursor.advance]
  split
  · exact Or.inr ⟨rfl, rfl⟩
  · exact Or.inl ⟨rfl, rfl⟩

end Cursor

section Even

/-- Sizes of `parts` blocks that differ by one at most, the larger ones first. -/
def evenSizes (total parts : Nat) : List Nat :=
  (List.range parts).map fun i =>
    if i < total % parts then total / parts + 1 else total / parts

@[simp] theorem evenSizes_length (total parts : Nat) :
    (evenSizes total parts).length = parts := by
  simp [evenSizes]

theorem evenSizes_getD {total parts i : Nat} (inside : i < parts) :
    (evenSizes total parts).getD i 0 =
      total / parts + if i < total % parts then 1 else 0 := by
  rw [List.getD_eq_getElem _ _ (by simpa using inside)]
  simp only [evenSizes, List.getElem_map, List.getElem_range]
  split
  · rfl
  · rfl

theorem offset_evenSizes (total : Nat) {parts s : Nat} (known : s ≤ parts) :
    offset (evenSizes total parts) s = s * (total / parts) + min s (total % parts) := by
  induction s with
  | zero => simp
  | succ s ih =>
      rw [offset_succ, ih (by omega), evenSizes_getD (by omega), Nat.succ_mul]
      split
      · omega
      · omega

theorem evenSizes_sum (total : Nat) {parts : Nat} (some_parts : 0 < parts) :
    (evenSizes total parts).sum = total := by
  have last := offset_evenSizes total (le_refl parts)
  rw [offset_of_length_le (by simp)] at last
  have rest := Nat.mod_lt total some_parts
  rw [last, Nat.min_eq_right (Nat.le_of_lt rest)]
  exact Nat.div_add_mod total parts

theorem steady_evenSizes (total : Nat) {parts : Nat} (some_parts : 0 < parts) :
    Steady (evenSizes total parts) := by
  intro r short
  rw [evenSizes_sum total some_parts] at short
  have known : r + 1 < parts := by
    by_contra past
    rw [offset_of_length_le (by simpa using past), evenSizes_sum total some_parts] at short
    omega
  rw [offset_evenSizes total (Nat.le_of_lt known)] at short
  rw [evenSizes_getD known]
  by_cases small : total / parts = 0
  · have rest := Nat.div_add_mod total parts
    rw [small] at short rest ⊢
    simp only [Nat.mul_zero, Nat.zero_add] at short rest ⊢
    rw [if_pos (by omega)]
    decide
  · exact Nat.lt_of_lt_of_le (Nat.pos_of_ne_zero small) (Nat.le_add_right _ _)

theorem evenSizes_first {total parts : Nat} (filled : 0 < total) (some_parts : 0 < parts) :
    0 < (evenSizes total parts).getD 0 0 := by
  rw [evenSizes_getD some_parts]
  have rest := Nat.div_add_mod total parts
  by_cases small : total / parts = 0
  · rw [small, Nat.mul_zero, Nat.zero_add] at rest
    rw [if_pos (by omega)]
    omega
  · have := Nat.pos_of_ne_zero small
    omega

end Even

section Changes

variable {α : Type} [DecidableEq α]

/-- The values `f 0, ..., f (n - 1)` with repetitions in a row left out. -/
def changes (f : Nat → α) : Nat → List α
  | 0 => []
  | 1 => [f 0]
  | n + 2 =>
      if f (n + 1) = f n then changes f (n + 1) else changes f (n + 1) ++ [f (n + 1)]

/-- Consecutive values are equal or related. -/
def Climbs (related : α → α → Prop) (f : Nat → α) (n : Nat) : Prop :=
  ∀ i, i + 1 < n → f (i + 1) = f i ∨ related (f i) (f (i + 1))

theorem mem_changes {f : Nat → α} {n : Nat} {x : α} :
    x ∈ changes f n ↔ ∃ i < n, f i = x := by
  induction n using changes.induct f with
  | case1 => simp [changes]
  | case2 => simp [changes, eq_comm]
  | case3 n same ih =>
      rw [changes, if_pos same, ih]
      constructor
      · intro earlier
        obtain ⟨i, below, here⟩ := earlier
        exact ⟨i, by omega, here⟩
      · intro earlier
        obtain ⟨i, below, here⟩ := earlier
        by_cases last : i = n + 1
        · exact ⟨n, by omega, by rw [← same, ← last, here]⟩
        · exact ⟨i, by omega, here⟩
  | case4 n new ih =>
      rw [changes, if_neg new, List.mem_append, ih, List.mem_singleton]
      constructor
      · intro either
        rcases either with ⟨i, below, here⟩ | last
        · exact ⟨i, by omega, here⟩
        · exact ⟨n + 1, by omega, last.symm⟩
      · intro earlier
        obtain ⟨i, below, here⟩ := earlier
        by_cases last : i = n + 1
        · exact Or.inr (by rw [← last, here])
        · exact Or.inl ⟨i, by omega, here⟩

variable {related : α → α → Prop}

/-- The last value comes last, and all values before it are related to it. -/
theorem changes_last (trans : ∀ a b c, related a b → related b c → related a c)
    {f : Nat → α} {n : Nat} (climbs : Climbs related f (n + 1)) :
    ∃ front, changes f (n + 1) = front ++ [f n] ∧ front.Pairwise related ∧
      ∀ x ∈ front, related x (f n) := by
  induction n with
  | zero => exact ⟨[], rfl, List.Pairwise.nil, by simp⟩
  | succ n ih =>
      obtain ⟨front, shape, ordered, below⟩ := ih fun i inside => climbs i (by omega)
      rw [changes]
      by_cases same : f (n + 1) = f n
      · rw [if_pos same, same]
        exact ⟨front, shape, ordered, below⟩
      · have up : related (f n) (f (n + 1)) := by
          rcases climbs n (by omega) with equal | up
          · exact absurd equal same
          · exact up
        rw [if_neg same]
        refine ⟨front ++ [f n], by rw [shape], ?_, ?_⟩
        · rw [List.pairwise_append]
          refine ⟨ordered, List.pairwise_singleton _ _, ?_⟩
          intro x early y last
          rw [List.mem_singleton] at last
          rw [last]
          exact below x early
        · intro x member
          rcases List.mem_append.mp member with early | last
          · exact trans _ _ _ (below x early) up
          · rw [List.mem_singleton] at last
            rw [last]
            exact up

theorem changes_pairwise (trans : ∀ a b c, related a b → related b c → related a c)
    {f : Nat → α} {n : Nat} (climbs : Climbs related f n) : (changes f n).Pairwise related := by
  cases n with
  | zero => exact List.Pairwise.nil
  | succ n =>
      obtain ⟨front, shape, ordered, below⟩ := changes_last trans climbs
      rw [shape, List.pairwise_append]
      refine ⟨ordered, List.pairwise_singleton _ _, ?_⟩
      intro x early y last
      rw [List.mem_singleton] at last
      rw [last]
      exact below x early

/-- The indices at which `f` takes the value `x`. -/
def indicesOf (f : Nat → α) (n : Nat) (x : α) : List Nat :=
  (List.range n).filter fun i => f i == x

theorem mem_indicesOf {f : Nat → α} {n i : Nat} {x : α} :
    i ∈ indicesOf f n x ↔ i < n ∧ f i = x := by
  rw [indicesOf, List.mem_filter, List.mem_range, beq_iff_eq]

theorem indicesOf_succ (f : Nat → α) (n : Nat) (x : α) :
    indicesOf f (n + 1) x = if f n = x then indicesOf f n x ++ [n] else indicesOf f n x := by
  unfold indicesOf
  rw [List.range_succ, List.filter_append]
  split
  · rename_i here
    simp [here]
  · rename_i there
    simp [there]

private theorem flatMap_indicesOf_succ {f : Nat → α} {n : Nat} {front : List α}
    (absent : f n ∉ front) :
    front.flatMap (indicesOf f (n + 1)) = front.flatMap (indicesOf f n) := by
  apply List.flatMap_congr
  intro x member
  rw [indicesOf_succ, if_neg]
  intro here
  exact absent (by rw [here]; exact member)

/-- Value after value, the indices of a climbing sequence are all its indices in order. -/
theorem flatMap_indicesOf (trans : ∀ a b c, related a b → related b c → related a c)
    (irrefl : ∀ a, ¬ related a a) {f : Nat → α} {n : Nat} (climbs : Climbs related f n) :
    (changes f n).flatMap (indicesOf f n) = List.range n := by
  induction n with
  | zero => rfl
  | succ n ih =>
      have before := ih fun i inside => climbs i (by omega)
      rw [List.range_succ, ← before]
      cases n with
      | zero => simp [changes, indicesOf]
      | succ n =>
          have climbs' : Climbs related f (n + 1) := fun i inside => climbs i (by omega)
          obtain ⟨front, shape, _, below⟩ := changes_last trans climbs'
          rw [changes]
          by_cases same : f (n + 1) = f n
          · have absent : f (n + 1) ∉ front := by
              intro member
              rw [same] at member
              exact irrefl _ (below _ member)
            rw [if_pos same, shape, List.flatMap_append, List.flatMap_append,
              flatMap_indicesOf_succ absent, List.append_assoc]
            congr 1
            simp [indicesOf_succ f (n + 1), same]
          · have up : related (f n) (f (n + 1)) := by
              rcases climbs n (by omega) with equal | up
              · exact absurd equal same
              · exact up
            have absent : f (n + 1) ∉ changes f (n + 1) := by
              intro member
              rw [shape, List.mem_append, List.mem_singleton] at member
              rcases member with early | last
              · exact irrefl _ (trans _ _ _ (below _ early) up)
              · exact same last
            have fresh : indicesOf f (n + 1) (f (n + 1)) = [] := by
              rw [indicesOf, List.filter_eq_nil_iff]
              intro i inside taken
              rw [List.mem_range] at inside
              exact absent (mem_changes.mpr ⟨i, inside, by simpa using taken⟩)
            rw [if_neg same, List.flatMap_append, flatMap_indicesOf_succ absent]
            congr 1
            simp [indicesOf_succ f (n + 1), fresh]

/-- The same for the indices one further, when the first value only stands for the start. -/
theorem flatMap_indicesOf_next (trans : ∀ a b c, related a b → related b c → related a c)
    (irrefl : ∀ a, ¬ related a a) {f : Nat → α} {n : Nat} (climbs : Climbs related f (n + 1)) :
    (changes f (n + 1)).flatMap (indicesOf (fun i => f (i + 1)) n) = List.range n := by
  let before : Nat → Option Nat := fun i => if i = 0 then none else some (i - 1)
  have shifted (p : Nat → Bool) :
      ((List.range (n + 1)).filter p).filterMap before =
        (List.range n).filter fun i => p (i + 1) := by
    rw [List.range_succ_eq_map, List.filter_cons, List.filter_map]
    have steps (items : List Nat) : (items.map Nat.succ).filterMap before = items := by
      rw [List.filterMap_map]
      exact List.filterMap_some
    split
    · rw [List.filterMap_cons_none rfl, steps]
      rfl
    · rw [steps]
      rfl
  have pieces (x : α) : (indicesOf f (n + 1) x).filterMap before =
      indicesOf (fun i => f (i + 1)) n x := shifted _
  calc
    _ = (changes f (n + 1)).flatMap fun x => (indicesOf f (n + 1) x).filterMap before :=
      List.flatMap_congr fun x _ => (pieces x).symm
    _ = ((changes f (n + 1)).flatMap (indicesOf f (n + 1))).filterMap before :=
      List.filterMap_flatMap.symm
    _ = ((List.range (n + 1)).filter fun _ => true).filterMap before := by
      rw [flatMap_indicesOf trans irrefl climbs, List.filter_true]
    _ = List.range n := by
      rw [shifted, List.filter_true]

end Changes

section Sorted

/-- The indices between two bounds, in order. -/
theorem filter_range_between {n low high : Nat} (inside : high ≤ n) :
    (List.range n).filter (fun i => decide (low ≤ i ∧ i < high)) =
      List.range' low (high - low) := by
  induction n generalizing high with
  | zero =>
      have empty : high - low = 0 := by omega
      simp [empty]
  | succ n ih =>
      rw [List.range_succ, List.filter_append]
      by_cases last : high = n + 1
      · subst last
        have earlier : (List.range n).filter (fun i => decide (low ≤ i ∧ i < n + 1)) =
            (List.range n).filter fun i => decide (low ≤ i ∧ i < n) := by
          apply List.filter_congr
          intro i member
          rw [List.mem_range] at member
          simp [member, Nat.lt_succ_of_lt member]
        rw [earlier, ih (le_refl n)]
        by_cases reached : low ≤ n
        · have size : n + 1 - low = n - low + 1 := by omega
          have next : low + (n - low) = n := by omega
          rw [size, List.range'_1_concat, next]
          simp [reached]
        · have none_left : n + 1 - low = 0 := by omega
          have none_before : n - low = 0 := by omega
          rw [none_left, none_before]
          simp [reached]
      · have dropped : [n].filter (fun i => decide (low ≤ i ∧ i < high)) = [] := by
          have beyond : ¬ (low ≤ n ∧ n < high) := by omega
          simp [beyond]
        rw [dropped, List.append_nil, ih (by omega)]

variable {α : Type}

private theorem filter_lt_succ {key : α → Nat} {items : List α}
    (sorted : items.Pairwise fun a b => key a ≤ key b) (n : Nat) :
    items.filter (fun a => decide (key a < n + 1)) =
      items.filter (fun a => decide (key a < n)) ++ items.filter fun a => key a == n := by
  induction items with
  | nil => rfl
  | cons a rest ih =>
      obtain ⟨least, ordered⟩ := List.pairwise_cons.mp sorted
      rcases Nat.lt_trichotomy (key a) n with below | here | above
      · have other : ¬ key a = n := by omega
        have next : key a < n + 1 := by omega
        simp only [List.filter_cons, below, next, other, decide_true, beq_iff_eq, if_true, if_false,
          ih ordered, List.cons_append]
      · have none_below : rest.filter (fun a => decide (key a < n)) = [] := by
          rw [List.filter_eq_nil_iff]
          intro b member taken
          have := least b member
          simp only [decide_eq_true_eq] at taken
          omega
        have own : (key a == n) = true := beq_iff_eq.mpr here
        have late : ¬ key a < n := by omega
        have next : key a < n + 1 := by omega
        simp only [List.filter_cons, late, next, own, decide_true, decide_false, if_true, if_false,
          Bool.false_eq_true, ih ordered, none_below, List.nil_append]
      · have none_below : rest.filter (fun a => decide (key a < n + 1)) = [] := by
          rw [List.filter_eq_nil_iff]
          intro b member taken
          have := least b member
          simp only [decide_eq_true_eq] at taken
          omega
        have split := ih ordered
        rw [none_below] at split
        have apart := List.append_eq_nil_iff.mp split.symm
        have other : ¬ key a = n := by omega
        have late : ¬ key a < n := by omega
        have later : ¬ key a < n + 1 := by omega
        simp only [List.filter_cons, late, later, other, decide_false, beq_iff_eq, if_false,
          Bool.false_eq_true, none_below, apart.1, apart.2, List.append_nil]

/-- Items sorted by their key are the items of each key in turn. -/
theorem flatMap_filter_of_sorted {key : α → Nat} {items : List α}
    (sorted : items.Pairwise fun a b => key a ≤ key b) (n : Nat) :
    (List.range n).flatMap (fun k => items.filter fun a => key a == k) =
      items.filter fun a => decide (key a < n) := by
  induction n with
  | zero => simp
  | succ n ih =>
      rw [List.range_succ, List.flatMap_append, ih, filter_lt_succ sorted]
      simp

end Sorted

end Blocks
