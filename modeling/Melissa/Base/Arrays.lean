import Mathlib.Data.List.GetD
import Mathlib.Data.List.Range
import Mathlib.Tactic.Common

/-! Arrays that loops of the form `for (i = 0; i < n; i++) dst[i] = f(i)` overwrite. -/

namespace Arrays

variable {α : Type}

/-- The array after the loop: the first `n` cells are written, the others are kept. -/
def overwrite (n : Nat) (f : Nat → α) (dst : List α) : List α :=
  (List.range n).map f ++ dst.drop n

theorem overwrite_length {n : Nat} {dst : List α} (allocated : dst.length = n) (f : Nat → α) :
    (overwrite n f dst).length = n := by
  simp [overwrite, allocated]

theorem getD_overwrite {n i : Nat} (inside : i < n) (f : Nat → α) (dst : List α) (d : α) :
    (overwrite n f dst).getD i d = f i := by
  rw [overwrite, List.getD_append _ _ _ _ (by simpa using inside)]
  simp [inside]

theorem getD_map_range {n i : Nat} (inside : i < n) (f : Nat → α) (d : α) :
    ((List.range n).map f).getD i d = f i := by
  simp [List.getD_eq_getElem?_getD, inside]

/-- Of two such loops in a row only the second leaves a trace. -/
theorem overwrite_overwrite (n : Nat) (f g : Nat → α) (dst : List α) :
    overwrite n f (overwrite n g dst) = overwrite n f dst := by
  simp only [overwrite, List.drop_append, List.length_map, List.length_range, Nat.sub_self,
    List.drop_zero, List.append_cancel_left_eq]
  simp

theorem overwrite_congr {n : Nat} {f g : Nat → α} (same : ∀ i < n, f i = g i) (dst : List α) :
    overwrite n f dst = overwrite n g dst := by
  have cells : (List.range n).map f = (List.range n).map g :=
    List.map_congr_left fun i member => same i (List.mem_range.mp member)
  rw [overwrite, cells, overwrite]

theorem overwrite_full {n : Nat} {dst : List α} (allocated : dst.length = n) (f : Nat → α) :
    overwrite n f dst = (List.range n).map f := by
  simp [overwrite, allocated]

theorem overwrite_self {n : Nat} {dst : List α} (allocated : dst.length = n) (d : α) :
    overwrite n (fun i => dst.getD i d) dst = dst := by
  rw [overwrite_full allocated]
  apply List.ext_getElem
  · simp [allocated]
  · intro i _ inside
    simp [List.getD_eq_getElem?_getD, inside]

theorem eq_map_range {n : Nat} {f : Nat → α} {values : List α} (length : values.length = n) (d : α)
    (each : ∀ i < n, values.getD i d = f i) : values = (List.range n).map f := by
  apply List.ext_getElem
  · simp [length]
  · intro i inside _
    rw [List.getElem_map, List.getElem_range, ← each i (length ▸ inside),
      List.getD_eq_getElem _ _ inside]

/-- A fold over the parts of a list, when putting two parts together is what a step does. -/
theorem foldl_map_flatten {β σ : Type} {f : List β → σ} {step : σ → σ → σ}
    (together : ∀ xs ys, step (f xs) (f ys) = f (xs ++ ys)) (first : List β)
    (parts : List (List β)) : (parts.map f).foldl step (f first) = f (first ++ parts.flatten) := by
  induction parts generalizing first with
  | nil => simp
  | cons part parts ih =>
      rw [List.map_cons, List.foldl_cons, together, ih, List.flatten_cons, List.append_assoc]

/-- What holds of every element survives an update that keeps it. -/
theorem forall_modify {P : α → Prop} {items : List α} {f : α → α} (all : ∀ item ∈ items, P item)
    (keeps : ∀ item, P item → P (f item)) (i : Nat) : ∀ item ∈ items.modify i f, P item := by
  intro item member
  obtain ⟨j, inside, rfl⟩ := List.mem_iff_getElem.mp member
  have bound : j < items.length := by simpa using inside
  rw [List.getElem_modify]
  split
  · exact keeps _ (all _ (List.getElem_mem bound))
  · exact all _ (List.getElem_mem bound)

/-- `memcpy(&buffer[offset], values, ...)`. -/
def copyAt (buffer : List α) (offset : Nat) (values : List α) : List α :=
  buffer.take offset ++ values ++ buffer.drop (offset + values.length)

/-- A buffer whose first cells are `front`. -/
structure Filled (total : Nat) (front buffer : List α) : Prop where
  length : buffer.length = total
  starts : buffer.take front.length = front

theorem filled_nil {total : Nat} {buffer : List α} (length : buffer.length = total) :
    Filled total [] buffer :=
  ⟨length, by simp⟩

theorem filled_copyAt {total : Nat} {front buffer : List α} (filled : Filled total front buffer)
    {values : List α} (room : front.length + values.length ≤ total) :
    Filled total (front ++ values) (copyAt buffer front.length values) := by
  obtain ⟨length, starts⟩ := filled
  constructor
  · simp only [copyAt, List.length_append, List.length_take, List.length_drop]
    omega
  · rw [copyAt, starts]
    exact List.take_left

theorem Filled.eq_of_full {total : Nat} {front buffer : List α} (filled : Filled total front buffer)
    (full : front.length = total) : buffer = front := by
  rw [← filled.starts, full, ← filled.length, List.take_length]

/-- The cells of `values` at the given indices. -/
def pick (values : List α) (indices : List Nat) : List α := indices.filterMap fun i => values[i]?

theorem pick_range' (values : List α) {start count : Nat} (inside : start + count ≤ values.length) :
    pick values (List.range' start count) = (values.drop start).take count := by
  induction count generalizing start with
  | zero => simp [pick]
  | succ count ih =>
      have known : start < values.length := by omega
      have cell : values[start]? = some (values.get ⟨start, known⟩) := by simp [known]
      have rest := @ih (start + 1) (by omega)
      rw [pick] at rest ⊢
      rw [List.range'_succ, List.filterMap_cons_some cell, rest, List.drop_eq_getElem_cons known]
      rfl

theorem pick_range (values : List α) : pick values (List.range values.length) = values := by
  rw [List.range_eq_range', pick_range' values (by omega)]
  simp

theorem pick_flatMap {β : Type} (values : List α) (items : List β) (indices : β → List Nat) :
    items.flatMap (fun item => pick values (indices item)) = pick values (items.flatMap indices) :=
  List.filterMap_flatMap.symm

theorem flatMap_length_eq {β : Type} {items : List α} {f : α → List β} {size : Nat}
    (each : ∀ item ∈ items, (f item).length = size) :
    (items.flatMap f).length = items.length * size := by
  induction items with
  | nil => simp
  | cons item rest ih =>
      rw [List.forall_mem_cons] at each
      rw [List.flatMap_cons, List.length_append, List.length_cons, Nat.succ_mul, each.1,
        ih each.2, Nat.add_comm]

/-- Blocks of fixed sizes put one after the other are equal only block by block. -/
theorem mapIdx_map_range {β : Type} (count : Nat) (f : Nat → α) (g : Nat → α → β) :
    ((List.range count).map f).mapIdx g = (List.range count).map fun i => g i (f i) := by
  apply List.ext_getElem
  · simp
  · intro i _ _
    simp

theorem flatMap_range_eq_iff {β : Type} {items : List α} {size : α → Nat} {f g : α → Nat → β} :
    (items.flatMap fun item => (List.range (size item)).map (f item)) =
        (items.flatMap fun item => (List.range (size item)).map (g item)) ↔
      ∀ item ∈ items, ∀ i < size item, f item i = g item i := by
  induction items with
  | nil => simp
  | cons item rest ih =>
      have block : (List.range (size item)).map (f item) = (List.range (size item)).map (g item) ↔
          ∀ i < size item, f item i = g item i := by
        simp only [List.map_inj_left, List.mem_range]
      rw [List.flatMap_cons, List.flatMap_cons, List.forall_mem_cons, ← block, ← ih]
      constructor
      · intro equal
        exact List.append_inj equal (by simp)
      · intro both
        rw [both.1, both.2]

theorem mapM_eq_some {β : Type} {f : α → Option β} {g : α → β} {items : List α}
    (total : ∀ item ∈ items, f item = some (g item)) : items.mapM f = some (items.map g) := by
  induction items with
  | nil => rfl
  | cons item rest ih =>
      rw [List.mapM_cons, total item List.mem_cons_self,
        ih fun other member => total other (List.mem_cons_of_mem _ member)]
      rfl

theorem mapM_total {β : Type} {f : α → Option β} {items : List α} {P : β → Prop}
    (each : ∀ item ∈ items, ∃ result, f item = some result ∧ P result) :
    ∃ results, items.mapM f = some results ∧ results.length = items.length ∧
      ∀ result ∈ results, P result := by
  induction items with
  | nil => exact ⟨[], rfl, rfl, by simp⟩
  | cons item items ih =>
      rw [List.forall_mem_cons] at each
      obtain ⟨⟨result, found, holds⟩, later⟩ := each
      obtain ⟨results, all, length, each'⟩ := ih later
      refine ⟨result :: results, ?_, by rw [List.length_cons, length, List.length_cons], ?_⟩
      · simp [found, all]
      · exact List.forall_mem_cons.mpr ⟨holds, each'⟩

theorem mapM_getElem? {β : Type} {f : α → Option β} {items : List α} {results : List β}
    (all : items.mapM f = some results) (i : Nat) : results[i]? = items[i]?.bind f := by
  induction items generalizing results i with
  | nil =>
      cases all
      rfl
  | cons item items ih =>
      rw [List.mapM_cons, Option.bind_eq_bind, Option.bind_eq_some_iff] at all
      obtain ⟨first, found, all⟩ := all
      rw [Option.bind_eq_bind, Option.bind_eq_some_iff] at all
      obtain ⟨rest, later, all⟩ := all
      cases all
      cases i with
      | zero => exact found.symm
      | succ i => exact ih later i

theorem mapM_length {β : Type} {f : α → Option β} {items : List α} {results : List β}
    (all : items.mapM f = some results) : results.length = items.length := by
  induction items generalizing results with
  | nil =>
      cases all
      rfl
  | cons item items ih =>
      rw [List.mapM_cons, Option.bind_eq_bind, Option.bind_eq_some_iff] at all
      obtain ⟨first, _, all⟩ := all
      rw [Option.bind_eq_bind, Option.bind_eq_some_iff] at all
      obtain ⟨rest, later, all⟩ := all
      cases all
      rw [List.length_cons, ih later, List.length_cons]

theorem mapM_getElem?_range (values : List α) :
    (List.range values.length).mapM (fun i => values[i]?) = some values := by
  induction values with
  | nil => rfl
  | cons value rest ih =>
      rw [List.length_cons, List.range_succ_eq_map, List.mapM_cons, List.mapM_map]
      simp only [List.getElem?_cons_zero, Function.comp_def, List.getElem?_cons_succ, ih]
      rfl

theorem map_getD_range (values : List α) (default : α) :
    (List.range values.length).map (fun i => values.getD i default) = values := by
  apply List.ext_getElem
  · simp
  · intro i _ inside
    rw [List.getElem_map, List.getElem_range, List.getD_eq_getElem _ _ inside]

theorem mapM_eq_none {β : Type} {f : α → Option β} {items : List α} {item : α}
    (member : item ∈ items) (undefined : f item = none) : items.mapM f = none := by
  induction items with
  | nil => cases member
  | cons first rest ih =>
      rw [List.mapM_cons]
      rcases List.mem_cons.mp member with here | later
      · rw [← here, undefined]
        rfl
      · rw [ih later]
        cases f first with
        | none => rfl
        | some value => rfl

section Collect

variable {β : Type} (p : α → Bool) {f : Nat → β}

/-- What a loop over an array puts together that takes `f i` where the `i`-th element is
picked. -/
def collect (f : Nat → β) (items : List α) : List β :=
  items.zipIdx.filterMap fun (item, i) => if p item then some (f i) else none

theorem mem_collect (apart : Function.Injective f) {items : List α} {i : Nat} :
    f i ∈ collect p f items ↔ ∃ item, items[i]? = some item ∧ p item = true := by
  simp only [collect, List.mem_filterMap, Prod.exists, Option.ite_none_right_eq_some,
    Option.some.injEq]
  constructor
  · intro taken
    obtain ⟨item, j, place, picked, same⟩ := taken
    obtain rfl := apart same
    exact ⟨item, List.mem_zipIdx_iff_getElem?.mp place, picked⟩
  · intro picked
    obtain ⟨item, place, picked⟩ := picked
    exact ⟨item, i, List.mem_zipIdx_iff_getElem?.mpr place, picked, rfl⟩

/-- Nothing is taken twice, because the positions of an array are all different. -/
theorem nodup_collect (apart : Function.Injective f) (items : List α) :
    (collect p f items).Nodup := by
  have positions : items.zipIdx.Pairwise fun a b => a.2 ≠ b.2 := by
    apply List.pairwise_map.mp
    change (items.zipIdx.map Prod.snd).Nodup
    rw [List.zipIdx_map_snd]
    exact List.nodup_range'
  apply List.pairwise_filterMap.mpr
  refine positions.imp ?_
  intro (item, i) (item', i') different taken picked taken' picked'
  simp only [Option.ite_none_right_eq_some, Option.some.injEq] at picked picked'
  rw [← picked.2, ← picked'.2]
  intro same
  exact different (apart same)

theorem length_collect (f : Nat → β) (items : List α) :
    (collect p f items).length = items.countP p := by
  rw [collect, List.length_filterMap_eq_countP]
  calc
    _ = items.zipIdx.countP (p ∘ Prod.fst) := by
      apply List.countP_congr
      intro (item, i) _
      simp
    _ = (items.zipIdx.map Prod.fst).countP p := List.countP_map.symm
    _ = items.countP p := by rw [List.zipIdx_map_fst]

end Collect

end Arrays
