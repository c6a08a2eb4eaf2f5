import Mathlib.Data.List.Basic
import Mathlib.Tactic.Common

/-! Writing into an allocated block through a pointer that the writer moves on by itself. -/

namespace Writes

variable {α : Type}

/-- The size of the block, where the pointer stands, and the pieces that were written with the
positions they went to. -/
structure Block (α : Type) where
  size : Nat
  pointer : Nat
  written : List (Nat × List α)

namespace Block

def allocate (size : Nat) : Block α := { size := size, pointer := 0, written := [] }

/-- A write leaves the pointer where it is. -/
def write (block : Block α) (piece : List α) : Block α :=
  { block with written := block.written ++ [(block.pointer, piece)] }

def advance (block : Block α) (count : Nat) : Block α :=
  { block with pointer := block.pointer + count }

/-- Nothing is written outside of the block, and every cell of it is written. -/
structure Exact (block : Block α) : Prop where
  inside : ∀ piece ∈ block.written, piece.1 + piece.2.length ≤ block.size
  filled : ∀ i < block.size, ∃ piece ∈ block.written, piece.1 ≤ i ∧ i < piece.1 + piece.2.length

def contents (block : Block α) : List α := block.written.flatMap Prod.snd

@[simp] theorem contents_allocate (size : Nat) :
    (allocate size : Block α).contents = [] := rfl

@[simp] theorem contents_write (block : Block α) (piece : List α) :
    (block.write piece).contents = block.contents ++ piece := by
  rw [contents, write, List.flatMap_append, contents, List.flatMap_singleton]

@[simp] theorem contents_advance (block : Block α) (count : Nat) :
    (block.advance count).contents = block.contents := rfl

end Block

/-- Every piece begins where the one before it ends. -/
inductive Packed : List (Nat × List α) → Nat → Prop where
  | nil : Packed [] 0
  | concat {written : List (Nat × List α)} {total : Nat} (piece : List α) :
      Packed written total → Packed (written ++ [(total, piece)]) (total + piece.length)

variable {block : Block α} {written : List (Nat × List α)} {total : Nat}

theorem Packed.covers (packed : Packed written total) {i : Nat} (below : i < total) :
    ∃ piece ∈ written, piece.1 ≤ i ∧ i < piece.1 + piece.2.length := by
  induction packed with
  | nil => cases below
  | @concat written total piece _ ih =>
      by_cases before : i < total
      · obtain ⟨other, member, here⟩ := ih before
        exact ⟨other, List.mem_append_left _ member, here⟩
      · exact ⟨(total, piece), List.mem_append_right _ List.mem_cons_self, by omega, below⟩

theorem Packed.bounded (packed : Packed written total) :
    ∀ piece ∈ written, piece.1 + piece.2.length ≤ total := by
  induction packed with
  | nil =>
      intro piece member
      cases member
  | @concat written total last _ ih =>
      intro piece member
      rcases List.mem_append.mp member with earlier | here
      · have := ih piece earlier
        omega
      · cases List.mem_singleton.mp here
        exact Nat.le_refl _

theorem Packed.length_flatMap (packed : Packed written total) :
    (written.flatMap Prod.snd).length = total := by
  induction packed with
  | nil => rfl
  | concat piece _ ih =>
      rw [List.flatMap_append, List.flatMap_singleton, List.length_append, ih]

/-- Packed pieces fill a block exactly when their total is its size. -/
theorem Packed.exact_iff (packed : Packed block.written total) :
    block.Exact ↔ block.size = total := by
  constructor
  · rintro ⟨inside, filled⟩
    have large : total ≤ block.size := by
      by_contra small
      obtain ⟨piece, member, here⟩ := packed.covers (Nat.lt_of_not_le small)
      have := inside piece member
      omega
    have small : block.size ≤ total := by
      by_contra large
      obtain ⟨piece, member, here⟩ := filled total (Nat.lt_of_not_le large)
      have := packed.bounded piece member
      omega
    exact Nat.le_antisymm small large
  · rintro rfl
    exact ⟨packed.bounded, fun i below => packed.covers below⟩

/-- The pointer stands behind the last piece. -/
def Block.Aligned (block : Block α) : Prop := Packed block.written block.pointer

theorem aligned_allocate (size : Nat) : (Block.allocate size : Block α).Aligned := .nil

theorem Block.Aligned.write (aligned : block.Aligned) (piece : List α) :
    Packed (block.write piece).written (block.pointer + piece.length) :=
  .concat piece aligned

theorem Block.Aligned.next (aligned : block.Aligned) {piece : List α} {count : Nat}
    (moved : piece.length = count) : ((block.write piece).advance count).Aligned :=
  moved ▸ aligned.write piece

end Writes
