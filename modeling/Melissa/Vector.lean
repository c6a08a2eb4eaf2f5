import Melissa.Base.Gaps
import Melissa.Data
import Melissa.Ints

/-! `vector_t`, the growing array that holds the simulations and the bitmaps of the server, as a
list of pointers. -/

namespace Melissa

open Runs

section Code

variable {Item : Type}

/-- `vector_t`; a null pointer is `none`. -/
structure VectorT (Item : Type) where
  items : List (Option Item)
  capacity : Int
  size : Int
  deriving DecidableEq, Repr

def allocVector (capacity : Int) : VectorT Item :=
  { items := List.replicate capacity.toNat none, capacity := capacity, size := 0 }

/-- `realloc` on arrays of pointers, with the size in bytes. -/
abbrev Realloc (Item : Type) := List (Option Item) → Nat → Option (List (Option Item))

variable (realloc : Realloc Item)

/-- `sizeof(void *) * capacity` is a `size_t`. -/
def resizeVector (v : VectorT Item) (capacity : Int) : VectorT Item :=
  match realloc v.items (8 * capacity % 2 ^ 64).toNat with
  | some items => { v with items := items, capacity := capacity }
  | none => v

/-- `items[size++] = item`; none outside of the array. -/
def putItem (v : VectorT Item) (item : Option Item) : Option (VectorT Item) :=
  if 0 ≤ v.size then do
    let items ← Gaps.write v.items v.size.toNat item
    let size ← addInt v.size 1
    some { v with items := items, size := size }
  else none

/-- None if the doubled capacity overflows, too. -/
def vectorAdd (v : VectorT Item) (item : Option Item) : Option (VectorT Item) :=
  if v.capacity = v.size then do
    let capacity ← mulInt v.capacity 2
    putItem (resizeVector realloc v capacity) item
  else putItem v item

/-- None if the read is outside of the array. -/
def vectorGet (v : VectorT Item) (index : Int) : Option (Option Item) :=
  if 0 ≤ index ∧ index < v.size then v.items[index.toNat]? else some none

def vectorDelete (v : VectorT Item) (index : Int) : Option (VectorT Item) :=
  if index < 0 ∨ v.size ≤ index then some v
  else do
    -- `items[index] = NULL` and the loop from `index` to `size - 1`.
    let items ← Gaps.close none v.items index.toNat (v.size - 1 - index).toNat
    let v := { v with items := items, size := v.size - 1 }
    some (if 0 < v.size ∧ v.size = v.capacity.tdiv 4 then
      resizeVector realloc v (v.capacity.tdiv 2) else v)

inductive VectorCall (Item : Type) where
  | add (item : Option Item)
  | get (index : Int)
  | delete (index : Int)
  deriving DecidableEq, Repr

def callVector (v : VectorT Item) : VectorCall Item → Option (VectorT Item)
  | .add item => vectorAdd realloc v item
  | .get index => (vectorGet v index).map fun _ => v
  | .delete index => vectorDelete realloc v index

/-- The vector after a sequence of calls on a new one. -/
def runVector (capacity : Int) (calls : List (VectorCall Item)) : Option (VectorT Item) :=
  run (callVector realloc) (allocVector capacity) calls

end Code

section Lists

variable {Item : Type}

/-- The first `size` items. -/
def VectorT.contents (v : VectorT Item) : List (Option Item) := v.items.take v.size.toNat

/-- What a call does to the list. -/
def VectorCall.onList (list : List (Option Item)) : VectorCall Item → List (Option Item)
  | .add item => list ++ [item]
  | .get _ => list
  | .delete index => if 0 ≤ index then list.eraseIdx index.toNat else list

/-- The item of a list at an index; null where there is none. -/
def listGet (list : List (Option Item)) (index : Int) : Option Item :=
  if 0 ≤ index then list[index.toNat]?.join else none

/-- A positive size succeeds and keeps the leading items. -/
def Reallocates (realloc : Realloc Item) : Prop :=
  ∀ (items : List (Option Item)) (n : Nat), 0 < n → n < 2 ^ 31 →
    ∃ items', realloc items (8 * n) = some items' ∧ items'.length = n ∧
      items'.take items.length = items.take n

/-- A vector stands for a list. -/
structure StandsFor (realloc : Realloc Item) (v : VectorT Item) (list : List (Option Item)) :
    Prop where
  size_le : v.size ≤ v.capacity
  capacity_pos : 1 ≤ v.capacity
  size_eq : v.size = list.length
  contents_eq : v.contents = list
  get_eq : ∀ index, vectorGet v index = some (listGet list index)
  null_iff : ∀ index, vectorGet v index = some none ↔
    index < 0 ∨ v.size ≤ index ∨ v.items[index.toNat]? = some none
  shrunk : ∀ index v', vectorDelete realloc v index = some v' → v'.capacity < v.capacity →
    v'.contents = list.eraseIdx index.toNat

/-- After every call the vector stands for the list to which the same calls were made. -/
def RefinesList (realloc : Realloc Item) (capacity : Int) (calls : List (VectorCall Item)) : Prop :=
  ∀ front, front <+: calls → ∃ v, runVector realloc capacity front = some v ∧
    StandsFor realloc v (front.foldl VectorCall.onList [])

/-- The call does not double a capacity that is too large for it. -/
def CallInRange (v : VectorT Item) : VectorCall Item → Prop
  | .add _ => v.size = v.capacity → v.capacity < 2 ^ 30
  | _ => True

/-- No call doubles a capacity that is too large for it. -/
def GrowsInRange (realloc : Realloc Item) (capacity : Int) (calls : List (VectorCall Item)) :
    Prop :=
  ∀ front call v, front ++ [call] <+: calls → runVector realloc capacity front = some v →
    CallInRange v call

/-- A `realloc` that puts null pointers into new cells. -/
def reallocNull (items : List (Option Item)) (bytes : Nat) : Option (List (Option Item)) :=
  if bytes = 0 ∨ 2 ^ 63 ≤ bytes then none
  else some (items.take (bytes / 8) ++ List.replicate (bytes / 8 - items.length) none)

theorem reallocates_reallocNull : Reallocates (@reallocNull Item) := by
  intro items n positive small
  refine ⟨items.take n ++ List.replicate (n - items.length) none, ?_, ?_, ?_⟩
  · rw [reallocNull, if_neg (by omega), Nat.mul_div_cancel_left n (by decide)]
  · rw [List.length_append, List.length_take, List.length_replicate]
    omega
  · rcases Nat.le_total n items.length with fewer | more
    · rw [Nat.sub_eq_zero_of_le fewer, List.replicate_zero, List.append_nil, List.take_take,
        Nat.min_eq_right fewer]
    · rw [List.take_of_length_le more, List.take_left]

end Lists

section Cells

variable {Item : Type} {realloc : Realloc Item} {v : VectorT Item} {list : List (Option Item)}
  {capacity : Int}

/-- The list is at the beginning of an array with `capacity` cells. -/
structure Stores (v : VectorT Item) (list : List (Option Item)) : Prop where
  items : list <+: v.items
  size : v.size = list.length
  allocated : v.capacity = v.items.length
  positive : 1 ≤ v.capacity
  int : v.capacity < 2 ^ 31

theorem stores_allocVector (positive : 1 ≤ capacity) (int : capacity < 2 ^ 31) :
    Stores (allocVector capacity) ([] : List (Option Item)) := by
  refine ⟨List.nil_prefix, rfl, ?_, positive, int⟩
  rw [allocVector, List.length_replicate]
  exact (Int.toNat_of_nonneg (Int.le_of_lt positive)).symm

theorem Stores.size_le (stores : Stores v list) : v.size ≤ v.capacity := by
  rw [stores.size, stores.allocated]
  exact Int.ofNat_le.mpr stores.items.length_le

theorem Stores.contents (stores : Stores v list) : v.contents = list := by
  rw [VectorT.contents, stores.size, Int.toNat_natCast]
  exact (List.prefix_iff_eq_take.mp stores.items).symm

theorem Stores.get (stores : Stores v list) (index : Int) :
    vectorGet v index = some (listGet list index) := by
  rw [vectorGet, listGet, stores.size]
  by_cases natural : 0 ≤ index
  · by_cases inside : index < list.length
    · obtain ⟨spare, whole⟩ := stores.items
      have here : index.toNat < list.length := by omega
      rw [if_pos ⟨natural, inside⟩, if_pos natural, ← whole, List.getElem?_append_left here,
        List.getElem?_eq_getElem here]
      rfl
    · have outside : list.length ≤ index.toNat := by omega
      rw [if_neg (fun both => inside both.2), if_pos natural, List.getElem?_eq_none outside]
      rfl
  · rw [if_neg (fun both => natural both.1), if_neg natural]

theorem vectorGet_null_iff (v : VectorT Item) (index : Int) : vectorGet v index = some none ↔
    index < 0 ∨ v.size ≤ index ∨ v.items[index.toNat]? = some none := by
  rw [vectorGet]
  by_cases inside : 0 ≤ index ∧ index < v.size
  · rw [if_pos inside]
    constructor
    · exact fun stored => Or.inr (Or.inr stored)
    · rintro (negative | beyond | stored)
      · omega
      · omega
      · exact stored
  · rw [if_neg inside]
    refine iff_of_true rfl ?_
    omega

/-- `realloc` keeps a list that the new array has room for. -/
theorem stores_resizeVector (reallocates : Reallocates realloc) (items : list <+: v.items)
    (size : v.size = list.length) (room : list.length ≤ capacity) (positive : 1 ≤ capacity)
    (int : capacity < 2 ^ 31) : Stores (resizeVector realloc v capacity) list ∧
      (resizeVector realloc v capacity).capacity = capacity := by
  obtain ⟨n, rfl⟩ := Int.eq_ofNat_of_zero_le (Int.le_of_lt positive)
  have bytes : (8 * (n : Int) % 2 ^ 64).toNat = 8 * n := by omega
  obtain ⟨items', found, length, kept⟩ := reallocates v.items n (by omega) (by omega)
  have resized : resizeVector realloc v n = { v with items := items', capacity := n } := by
    rw [resizeVector, bytes, found]
  have leading : list = items'.take list.length :=
    calc list = v.items.take list.length := List.prefix_iff_eq_take.mp items
      _ = (v.items.take n).take list.length := by
        rw [List.take_take, Nat.min_eq_left (Int.ofNat_le.mp room)]
      _ = items'.take list.length := by
        rw [← kept, List.take_take, Nat.min_eq_left items.length_le]
  rw [resized]
  exact ⟨⟨List.prefix_iff_eq_take.mpr leading, size, by rw [length], positive, int⟩, rfl⟩

/-- The item goes behind the last one, when there is room. -/
theorem Stores.put (stores : Stores v list) (room : v.size < v.capacity) (item : Option Item) :
    ∃ v', putItem v item = some v' ∧ Stores v' (list ++ [item]) ∧ v'.capacity = v.capacity := by
  obtain ⟨spare, whole⟩ := stores.items
  have size := stores.size
  have counted : addInt v.size 1 = some (v.size + 1) := by
    have small := stores.int
    exact addInt_eq_some.mpr ⟨by omega, rfl⟩
  cases spare with
  | nil =>
      rw [List.append_nil] at whole
      rw [size, stores.allocated, whole] at room
      exact absurd room (Int.lt_irrefl _)
  | cons old spare =>
      refine ⟨{ v with items := list ++ item :: spare, size := v.size + 1 }, ?_,
        ⟨⟨spare, ?_⟩, ?_, ?_, stores.positive, stores.int⟩, rfl⟩
      · rw [putItem, if_pos (by omega), counted, size, Int.toNat_natCast, ← whole,
          Gaps.write_append]
        rfl
      · rw [List.append_assoc, List.singleton_append]
      · rw [size, List.length_append, List.length_singleton, Nat.cast_add, Nat.cast_one]
      · rw [stores.allocated, ← whole, List.length_append, List.length_append, List.length_cons,
          List.length_cons]

end Cells

section Calls

variable {Item : Type} {realloc : Realloc Item} {v v' : VectorT Item}
  {list : List (Option Item)} {capacity : Int}

theorem vectorAdd_of_room (room : v.size < v.capacity) (item : Option Item) :
    vectorAdd realloc v item = putItem v item := by
  rw [vectorAdd, if_neg (Ne.symm (Int.ne_of_lt room))]

theorem Stores.add (reallocates : Reallocates realloc) (stores : Stores v list)
    (inRange : v.size = v.capacity → v.capacity < 2 ^ 30) (item : Option Item) :
    ∃ v', vectorAdd realloc v item = some v' ∧ Stores v' (list ++ [item]) := by
  have positive := stores.positive
  have size := stores.size
  by_cases full : v.size = v.capacity
  · have small := inRange full
    have doubled : mulInt v.capacity 2 = some (v.capacity * 2) :=
      mulInt_eq_some.mpr ⟨by omega, rfl⟩
    obtain ⟨grown, capacity⟩ : Stores (resizeVector realloc v (v.capacity * 2)) list ∧ _ :=
      stores_resizeVector reallocates stores.items size (by omega) (by omega) (by omega)
    have room : (resizeVector realloc v (v.capacity * 2)).size <
        (resizeVector realloc v (v.capacity * 2)).capacity := by
      rw [capacity, grown.size]
      omega
    obtain ⟨v', put, stores', _⟩ := grown.put room item
    refine ⟨v', ?_, stores'⟩
    rw [vectorAdd, if_pos full.symm, doubled, Option.bind_eq_bind, Option.bind_some, put]
  · have bound := stores.size_le
    have room : v.size < v.capacity := Int.lt_iff_le_and_ne.mpr ⟨bound, full⟩
    obtain ⟨v', put, stores', _⟩ := stores.put room item
    exact ⟨v', by rw [vectorAdd_of_room room, put], stores'⟩

theorem onList_delete_outside {index : Int} (outside : index < 0 ∨ (list.length : Int) ≤ index) :
    (VectorCall.delete index).onList list = list := by
  rw [VectorCall.onList]
  split
  · exact List.eraseIdx_of_length_le (by omega)
  · rfl

/-- The loop takes the item at the index out of the list and leaves one more cell behind it. -/
theorem Stores.close (stores : Stores v list) {i : Nat} (inside : i < list.length) :
    ∃ items, Gaps.close none v.items i (v.size - 1 - i).toNat = some items ∧
      Stores { v with items := items, size := v.size - 1 } (list.eraseIdx i) := by
  obtain ⟨spare, whole⟩ := stores.items
  have size := stores.size
  have shorter : (list.eraseIdx i).length = list.length - 1 := List.length_eraseIdx_of_lt inside
  have count : (v.size - 1 - (i : Int)).toNat = list.length - 1 - i := by omega
  have remaining : v.size - 1 = (list.eraseIdx i).length := by
    rw [shorter]
    omega
  refine ⟨list.eraseIdx i ++ none :: spare, ?_, List.prefix_append _ _, remaining, ?_,
    stores.positive, stores.int⟩
  · rw [count, ← whole]
    exact Gaps.close_eraseIdx none inside spare
  · rw [stores.allocated, ← whole, List.length_append, List.length_append, shorter,
      List.length_cons]
    omega

/-- A quarter of the capacity fits into half of it. -/
theorem Stores.shrink (reallocates : Reallocates realloc) (stores : Stores v list) :
    Stores (if 0 < v.size ∧ v.size = v.capacity.tdiv 4 then
      resizeVector realloc v (v.capacity.tdiv 2) else v) list := by
  have positive := stores.positive
  have int := stores.int
  have size := stores.size
  rw [Int.tdiv_eq_ediv_of_nonneg (Int.le_of_lt positive),
    Int.tdiv_eq_ediv_of_nonneg (Int.le_of_lt positive)]
  split
  · exact (stores_resizeVector reallocates stores.items size (by omega) (by omega) (by omega)).1
  · exact stores

theorem Stores.delete (reallocates : Reallocates realloc) (stores : Stores v list) (index : Int) :
    ∃ v', vectorDelete realloc v index = some v' ∧
      Stores v' ((VectorCall.delete index).onList list) := by
  by_cases outside : index < 0 ∨ v.size ≤ index
  · refine ⟨v, by rw [vectorDelete, if_pos outside], ?_⟩
    rw [stores.size] at outside
    rwa [onList_delete_outside outside]
  · have size := stores.size
    obtain ⟨i, rfl⟩ := Int.eq_ofNat_of_zero_le (show 0 ≤ index by omega)
    obtain ⟨items, closed, remains⟩ := stores.close (show i < list.length by omega)
    rw [vectorDelete, if_neg outside, VectorCall.onList, if_pos (Int.natCast_nonneg i),
      Int.toNat_natCast, closed]
    exact ⟨_, rfl, remains.shrink reallocates⟩

end Calls

section Sequences

variable {Item : Type} {realloc : Realloc Item} {v v' : VectorT Item}
  {list : List (Option Item)} {capacity : Int} {calls : List (VectorCall Item)}

theorem Stores.call (reallocates : Reallocates realloc) (stores : Stores v list)
    {call : VectorCall Item} (inRange : CallInRange v call) :
    ∃ v', callVector realloc v call = some v' ∧ Stores v' (call.onList list) := by
  cases call with
  | add item => exact stores.add reallocates inRange item
  | get index => exact ⟨v, by rw [callVector, stores.get, Option.map_some], stores⟩
  | delete index => exact stores.delete reallocates index

/-- A call succeeds only if the doubled capacity is an `int`. -/
theorem inRange_of_call {call : VectorCall Item} (called : callVector realloc v call = some v') :
    CallInRange v call := by
  cases call with
  | add item =>
      intro full
      rw [callVector, vectorAdd, if_pos full.symm, Option.bind_eq_bind,
        Option.bind_eq_some_iff] at called
      obtain ⟨doubled, product, _⟩ := called
      have bounds := (mulInt_eq_some.mp product).1
      omega
  | get index => trivial
  | delete index => trivial

theorem Stores.of_call (reallocates : Reallocates realloc) (stores : Stores v list)
    {call : VectorCall Item} (called : callVector realloc v call = some v') :
    Stores v' (call.onList list) := by
  obtain ⟨after, called', stores'⟩ := stores.call reallocates (inRange_of_call called)
  rw [called] at called'
  cases called'
  exact stores'

theorem stores_runVector (reallocates : Reallocates realloc) (positive : 1 ≤ capacity)
    (int : capacity < 2 ^ 31) (reached : runVector realloc capacity calls = some v) :
    Stores v (calls.foldl VectorCall.onList []) := by
  have preserved : ∀ (past : List (VectorCall Item)) v call v',
      Stores v (past.foldl VectorCall.onList []) → callVector realloc v call = some v' →
        Stores v' ((past ++ [call]).foldl VectorCall.onList []) := by
    intro past v call v' stores called
    rw [List.foldl_append]
    exact stores.of_call reallocates called
  have start : Stores (allocVector capacity)
      (([] : List (VectorCall Item)).foldl VectorCall.onList []) := stores_allocVector positive int
  exact run_history_invariant preserved start reached

theorem callInRange_of_small (small : v.size < 2 ^ 30) (call : VectorCall Item) :
    CallInRange v call := by
  cases call with
  | add item =>
      intro full
      rwa [full] at small
  | get index => trivial
  | delete index => trivial

theorem length_foldl_onList_le (calls : List (VectorCall Item)) (list : List (Option Item)) :
    (calls.foldl VectorCall.onList list).length ≤ list.length + calls.length := by
  induction calls generalizing list with
  | nil => exact Nat.le_refl _
  | cons call calls ih =>
      have step : (call.onList list).length ≤ list.length + 1 := by
        cases call with
        | add item => rw [VectorCall.onList, List.length_append, List.length_singleton]
        | get index => exact Nat.le_succ _
        | delete index =>
            rw [VectorCall.onList]
            split
            · exact Nat.le_trans (List.length_eraseIdx_le _ _) (Nat.le_succ _)
            · exact Nat.le_succ _
      have rest := ih (call.onList list)
      rw [List.foldl_cons, List.length_cons]
      omega

/-- A sequence that is not longer than `2 ^ 30` calls never overflows the capacity. -/
theorem growsInRange_of_short (reallocates : Reallocates realloc) (positive : 1 ≤ capacity)
    (int : capacity < 2 ^ 31) (short : calls.length ≤ 2 ^ 30) :
    GrowsInRange realloc capacity calls := by
  intro front call v begins reached
  have stores := stores_runVector reallocates positive int reached
  have held := length_foldl_onList_le front []
  have fewer := begins.length_le
  rw [List.length_append, List.length_singleton] at fewer
  rw [List.length_nil] at held
  have size := stores.size
  exact callInRange_of_small (by omega) call

end Sequences

section Filling

variable {Item : Type} {realloc : Realloc Item} {v : VectorT Item} {list : List (Option Item)}
  {capacity : Int}

/-- Items that a vector has room for leave its capacity as it is. -/
theorem Stores.add_all (realloc : Realloc Item) (stores : Stores v list)
    (items : List (Option Item))
    (room : ((list.length + items.length : ℕ) : Int) ≤ v.capacity) :
    ∃ v', run (callVector realloc) v (items.map VectorCall.add) = some v' ∧
      Stores v' (list ++ items) ∧ v'.capacity = v.capacity := by
  induction items generalizing v list with
  | nil => exact ⟨v, rfl, by rwa [List.append_nil], rfl⟩
  | cons item items ih =>
      have size := stores.size
      rw [List.length_cons] at room
      have behind : v.size < v.capacity := by omega
      obtain ⟨next, put, held, same⟩ := stores.put behind item
      obtain ⟨v', reached, stores', capacity⟩ := ih held (by
        rw [List.length_append, List.length_singleton, same]
        omega)
      refine ⟨v', ?_, ?_, capacity.trans same⟩
      · rw [List.map_cons, run_cons, callVector, vectorAdd_of_room behind, put, Option.bind_some,
          reached]
      · rwa [List.append_assoc, List.singleton_append] at stores'

theorem runVector_addAll (realloc : Realloc Item) (positive : 1 ≤ capacity)
    (int : capacity < 2 ^ 31) (items : List (Option Item))
    (room : (items.length : Int) ≤ capacity) :
    ∃ v, runVector realloc capacity (items.map VectorCall.add) = some v ∧
      v.contents = items ∧ v.size = items.length ∧ v.capacity = capacity := by
  have start : Stores (allocVector capacity) ([] : List (Option Item)) :=
    stores_allocVector positive int
  obtain ⟨v, reached, stores, same⟩ := start.add_all realloc items (by
    rw [List.length_nil, Nat.zero_add]
    exact room)
  rw [List.nil_append] at stores
  exact ⟨v, reached, stores.contents, stores.size, same⟩

/-- The vector that `melissa_init_steps` fills holds the bitmaps, and is full. -/
theorem melissaInitSteps_vector {D : Type} {options : Options D} {data : MelissaData D}
    (fresh : data.stepsInit = false) (positive : 1 ≤ options.samplingSize)
    (int : options.samplingSize < 2 ^ 31) (realloc : Realloc (List Word)) :
    ∃ v, runVector realloc options.samplingSize
        ((melissaInitSteps options data).stepSimu.map fun steps => .add (some steps)) = some v ∧
      v.contents = (melissaInitSteps options data).stepSimu.map some ∧ v.size = v.capacity := by
  have count : (melissaInitSteps options data).stepSimu.length = options.samplingSize.toNat := by
    rw [melissaInitSteps, if_pos fresh, List.length_replicate]
  obtain ⟨v, reached, contents, size, same⟩ := runVector_addAll realloc positive int
    ((melissaInitSteps options data).stepSimu.map some) (by
      rw [List.length_map, count]
      omega)
  rw [List.map_map] at reached
  refine ⟨v, reached, contents, ?_⟩
  rw [size, same, List.length_map, count]
  exact Int.toNat_of_nonneg (Int.le_of_lt positive)

end Filling

section Refinement

variable {Item : Type} {realloc : Realloc Item} {v : VectorT Item} {list : List (Option Item)}
  {capacity : Int} {calls : List (VectorCall Item)}

theorem Stores.standsFor (reallocates : Reallocates realloc) (stores : Stores v list) :
    StandsFor realloc v list where
  size_le := stores.size_le
  capacity_pos := stores.positive
  size_eq := stores.size
  contents_eq := stores.contents
  get_eq := stores.get
  null_iff := vectorGet_null_iff v
  shrunk := by
    intro index v' deleted smaller
    have called : callVector realloc v (.delete index) = some v' := deleted
    have stores' := stores.of_call reallocates called
    have natural : 0 ≤ index := by
      by_contra negative
      rw [vectorDelete, if_pos (Or.inl (Int.not_le.mp negative))] at deleted
      cases deleted
      exact Int.lt_irrefl _ smaller
    rw [stores'.contents, VectorCall.onList, if_pos natural]

/-- While the capacity stays an `int` every call succeeds. -/
theorem runVector_of_growsInRange (reallocates : Reallocates realloc) (positive : 1 ≤ capacity)
    (int : capacity < 2 ^ 31) (inRange : GrowsInRange realloc capacity calls)
    {front : List (VectorCall Item)} (begins : front <+: calls) :
    ∃ v, runVector realloc capacity front = some v := by
  induction front using List.reverseRecOn with
  | nil => exact ⟨_, rfl⟩
  | append_singleton front call ih =>
      obtain ⟨v, reached⟩ := ih ((List.prefix_append front [call]).trans begins)
      have stores := stores_runVector reallocates positive int reached
      obtain ⟨v', called, _⟩ := stores.call reallocates (inRange front call v begins reached)
      exact ⟨v', run_concat_eq_some.mpr ⟨v, reached, called⟩⟩

/-- `vector_t` is a list exactly as long as no full vector of `2 ^ 30` cells or more is added to:
the doubled capacity overflows there. -/
theorem refinesList_iff (reallocates : Reallocates realloc) (positive : 1 ≤ capacity)
    (int : capacity < 2 ^ 31) (calls : List (VectorCall Item)) :
    RefinesList realloc capacity calls ↔ GrowsInRange realloc capacity calls := by
  constructor
  · intro refines front call v begins reached
    obtain ⟨v', reached', _⟩ := refines _ begins
    obtain ⟨mid, before, called⟩ := run_concat_eq_some.mp reached'
    rw [runVector, before] at reached
    cases reached
    exact inRange_of_call called
  · intro inRange front begins
    obtain ⟨v, reached⟩ := runVector_of_growsInRange reallocates positive int inRange begins
    have stores := stores_runVector reallocates positive int reached
    exact ⟨v, reached, stores.standsFor reallocates⟩

/-- A vector that grows three times and shrinks once. -/
theorem refinesList_iff_shrinks :
    RefinesList (@reallocNull Nat) 1
      [.add (some 1), .add (some 2), .add none, .add (some 4), .add (some 5), .delete 0,
        .delete 9, .get 1, .delete 1, .delete 2] :=
  (refinesList_iff reallocates_reallocNull (by decide) (by decide) _).mpr
    (growsInRange_of_short reallocates_reallocNull (by decide) (by decide) (by decide))

/-- After as many additions as a large vector has cells, the next one overflows. -/
theorem not_refinesList_of_large (realloc : Realloc Item) {n : Nat} (large : 2 ^ 30 ≤ n)
    (int : n < 2 ^ 31) (item : Option Item) :
    ¬ RefinesList realloc n (List.replicate (n + 1) (VectorCall.add item)) := by
  intro refines
  have positive : 1 ≤ (n : Int) := by omega
  obtain ⟨v, reached, _, size, same⟩ := runVector_addAll realloc positive (by omega)
    (List.replicate n item) (by rw [List.length_replicate])
  obtain ⟨v', reached', _⟩ := refines _ (List.prefix_refl _)
  rw [List.replicate_succ'] at reached'
  obtain ⟨mid, before, added⟩ := run_concat_eq_some.mp reached'
  rw [List.map_replicate, runVector, before] at reached
  cases reached
  rw [List.length_replicate] at size
  have inRange := inRange_of_call added (size.trans same.symm)
  omega

/-- A vector of `2 ^ 30` cells is full after as many additions, and its doubled capacity
overflows. -/
theorem not_refinesList_full :
    ¬ RefinesList (@reallocNull Nat) (2 ^ 30)
      (List.replicate (2 ^ 30 + 1) (VectorCall.add (some 0))) :=
  @not_refinesList_of_large _ reallocNull (2 ^ 30) (Nat.le_refl _) (by decide) (some 0)

end Refinement

end Melissa
