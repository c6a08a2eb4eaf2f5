import Melissa.Base.Runs

/-! Taking an element out of an array: the later ones move down by one cell, and the gap moves up
through them. -/

namespace Gaps

open Runs

variable {α : Type}

/-- A write to a cell; none outside of the array. -/
def write (cells : List α) (i : Nat) (item : α) : Option (List α) :=
  if i < cells.length then some (cells.set i item) else none

/-- Cell `i` takes what is in the next cell, which is blanked. -/
def moveDown (blank : α) (cells : List α) (i : Nat) : Option (List α) := do
  let next ← cells[i + 1]?
  let cells ← write cells i next
  write cells (i + 1) blank

/-- The cells from `index` on move down, `count` of them, after `index` was blanked. -/
def close (blank : α) (cells : List α) (index count : Nat) : Option (List α) := do
  let cells ← write cells index blank
  run (moveDown blank) cells (List.range' index count)

theorem write_append (front : List α) (old item : α) (back : List α) :
    write (front ++ old :: back) front.length item = some (front ++ item :: back) := by
  rw [write, if_pos, List.set_append_right _ _ (Nat.le_refl _), Nat.sub_self, List.set_cons_zero]
  rw [List.length_append, List.length_cons]
  exact Nat.lt_add_of_pos_right (Nat.succ_pos _)

/-- One turn moves the gap up by one element. -/
theorem moveDown_append (blank : α) (front : List α) (next : α) (back : List α) :
    moveDown blank (front ++ blank :: next :: back) front.length =
      some (front ++ next :: blank :: back) := by
  have read : (front ++ blank :: next :: back)[front.length + 1]? = some next := by
    rw [List.getElem?_append_right (Nat.le_add_right _ 1), Nat.add_sub_cancel_left]
    rfl
  have gap := write_append (front ++ [next]) next blank back
  rw [List.length_append, List.length_singleton, List.append_assoc, List.append_assoc] at gap
  rw [moveDown, read, Option.bind_eq_bind, Option.bind_some, write_append, Option.bind_eq_bind,
    Option.bind_some]
  exact gap

/-- The loop moves the gap up through the elements above it. -/
theorem run_moveDown (blank : α) (front moved back : List α) :
    run (moveDown blank) (front ++ blank :: (moved ++ back))
        (List.range' front.length moved.length) =
      some (front ++ (moved ++ blank :: back)) := by
  induction moved generalizing front with
  | nil => rfl
  | cons next moved ih =>
      have onward := ih (front ++ [next])
      rw [List.length_append, List.length_singleton, List.append_assoc, List.append_assoc] at onward
      rw [List.cons_append, List.length_cons, List.range'_succ, run_cons, moveDown_append,
        Option.bind_some]
      exact onward

/-- Closing the gap takes one element out and keeps the others in their order. -/
theorem close_append (blank : α) (front : List α) (old : α) (moved back : List α) :
    close blank (front ++ old :: (moved ++ back)) front.length moved.length =
      some (front ++ (moved ++ blank :: back)) := by
  rw [close, write_append, Option.bind_eq_bind, Option.bind_some, run_moveDown]

/-- A list at the beginning of the array, without its element at an index. -/
theorem close_eraseIdx (blank : α) {items : List α} {index : Nat} (inside : index < items.length)
    (spare : List α) :
    close blank (items ++ spare) index (items.length - 1 - index) =
      some (items.eraseIdx index ++ blank :: spare) := by
  have front : (items.take index).length = index :=
    List.length_take_of_le (Nat.le_of_lt inside)
  have moved : (items.drop (index + 1)).length = items.length - 1 - index := by
    rw [List.length_drop, Nat.sub_sub, Nat.add_comm]
  have parts : items.take index ++ items[index] :: items.drop (index + 1) = items := by
    rw [List.getElem_cons_drop inside, List.take_append_drop]
  have closed := close_append blank (items.take index) items[index] (items.drop (index + 1)) spare
  rw [front, moved, ← List.cons_append, ← List.append_assoc, parts, ← List.append_assoc] at closed
  rw [closed, List.eraseIdx_eq_take_drop_succ]

end Gaps
