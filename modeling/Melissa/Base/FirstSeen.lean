import Mathlib.Data.List.Perm.Basic
import Mathlib.Data.List.Induction
import Mathlib.Data.List.Nodup
import Mathlib.Data.List.Perm.Subperm
import Mathlib.Tactic.Common

/-! Keeping the first item of each key. A consumer that remembers the keys it has seen and
ignores repetitions processes exactly the items `firsts` keeps, in their order of arrival. -/

namespace FirstSeen

variable {κ μ σ : Type} [DecidableEq κ] (key : μ → κ)

def insertFirst (kept : List μ) (m : μ) : List μ :=
  if key m ∈ kept.map key then kept else kept ++ [m]

/-- The items whose key no earlier item has, in order. -/
def firsts (items : List μ) : List μ := items.foldl (insertFirst key) []

@[simp] theorem firsts_nil : firsts key ([] : List μ) = [] := rfl

theorem firsts_concat_insert (items : List μ) (m : μ) :
    firsts key (items ++ [m]) = insertFirst key (firsts key items) m := by
  simp [firsts, List.foldl_append]

theorem mem_keys_firsts (items : List μ) (k : κ) :
    k ∈ (firsts key items).map key ↔ k ∈ items.map key := by
  induction items using List.reverseRecOn with
  | nil => simp
  | append_singleton items m ih =>
      rw [firsts_concat_insert, insertFirst]
      by_cases seen : key m ∈ (firsts key items).map key
      · rw [if_pos seen, ih, List.map_append, List.mem_append]
        constructor
        · exact Or.inl
        · rintro (old | new)
          · exact old
          · simp only [List.map_cons, List.map_nil, List.mem_singleton] at new
            subst new
            exact ih.mp seen
      · rw [if_neg seen, List.map_append, List.map_append, List.mem_append, List.mem_append, ih]

theorem firsts_concat (items : List μ) (m : μ) :
    firsts key (items ++ [m]) =
      if key m ∈ items.map key then firsts key items else firsts key items ++ [m] := by
  rw [firsts_concat_insert, insertFirst]
  simp only [mem_keys_firsts]

theorem firsts_concat_old {items : List μ} {m : μ} (seen : key m ∈ items.map key) :
    firsts key (items ++ [m]) = firsts key items := by
  rw [firsts_concat, if_pos seen]

theorem firsts_concat_new {items : List μ} {m : μ} (fresh : key m ∉ items.map key) :
    firsts key (items ++ [m]) = firsts key items ++ [m] := by
  rw [firsts_concat, if_neg fresh]

theorem nodup_keys_firsts (items : List μ) : ((firsts key items).map key).Nodup := by
  induction items using List.reverseRecOn with
  | nil => simp
  | append_singleton items m ih =>
      rw [firsts_concat]
      split
      · exact ih
      · rename_i fresh
        rw [← mem_keys_firsts key items] at fresh
        rw [List.map_append, List.map_singleton]
        exact List.nodup_append.mpr ⟨ih, List.nodup_singleton _, by
          intro a left b right
          rw [List.mem_singleton] at right
          subst right
          rintro rfl
          exact fresh left⟩

theorem nodup_firsts (items : List μ) : (firsts key items).Nodup :=
  List.Nodup.of_map key (nodup_keys_firsts key items)

theorem mem_of_mem_firsts {items : List μ} {m : μ} (kept : m ∈ firsts key items) :
    m ∈ items := by
  induction items using List.reverseRecOn with
  | nil => simp at kept
  | append_singleton items last ih =>
      rw [firsts_concat] at kept
      split at kept
      · exact List.mem_append_left _ (ih kept)
      · rcases List.mem_append.mp kept with old | new
        · exact List.mem_append_left _ (ih old)
        · exact List.mem_append_right _ new

/-- When items of one key are equal, nothing but repetitions is lost. -/
theorem mem_firsts_iff {items : List μ}
    (consistent : ∀ a ∈ items, ∀ b ∈ items, key a = key b → a = b) (m : μ) :
    m ∈ firsts key items ↔ m ∈ items := by
  constructor
  · exact mem_of_mem_firsts key
  · intro member
    have present : key m ∈ (firsts key items).map key :=
      (mem_keys_firsts key items _).mpr (List.mem_map_of_mem member)
    obtain ⟨other, kept, same⟩ := List.mem_map.mp present
    rwa [← consistent other (mem_of_mem_firsts key kept) m member same]

/-- The kept items of two arrival orders of one set are rearrangements of each other. -/
theorem firsts_perm {items items' : List μ}
    (consistent : ∀ a ∈ items, ∀ b ∈ items, key a = key b → a = b)
    (same : ∀ m, m ∈ items ↔ m ∈ items') : (firsts key items).Perm (firsts key items') := by
  have consistent' : ∀ a ∈ items', ∀ b ∈ items', key a = key b → a = b := by
    intro a left b right
    exact consistent a ((same a).mpr left) b ((same b).mpr right)
  rw [List.perm_ext_iff_of_nodup (nodup_firsts key items) (nodup_firsts key items')]
  intro m
  rw [mem_firsts_iff key consistent, mem_firsts_iff key consistent', same]

end FirstSeen
