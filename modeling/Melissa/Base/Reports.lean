import Mathlib.Data.List.Induction

/-! Reports on their way from one process to another. The receiver ends up with the last value that
is reported of a key, or with its own one if none is on the way. -/

namespace Reports

variable {κ σ : Type} [DecidableEq κ]

/-- The last value reported of a key. -/
def last : List (κ × σ) → κ → Option σ
  | [], _ => none
  | (key', value) :: rest, key => (last rest key).or (if key' = key then some value else none)

@[simp] theorem last_nil (key : κ) : last ([] : List (κ × σ)) key = none := rfl

theorem last_append (front back : List (κ × σ)) (key : κ) :
    last (front ++ back) key = (last back key).or (last front key) := by
  induction front with
  | nil => simp
  | cons report front ih => rw [List.cons_append, last, last, ih, Option.or_assoc]

theorem last_concat (queue : List (κ × σ)) (key' : κ) (value : σ) (key : κ) :
    last (queue ++ [(key', value)]) key = if key' = key then some value else last queue key := by
  rw [last_append, last, last_nil, Option.none_or]
  split
  · rfl
  · rfl

/-- A report of every index. -/
theorem last_mapIdx (values : List σ) (key : Nat) :
    last (values.mapIdx fun i value => (i, value)) key = values[key]? := by
  induction values using List.reverseRecOn with
  | nil => rfl
  | append_singleton values value ih =>
      rw [List.mapIdx_concat, last_concat, ih]
      rcases Nat.lt_trichotomy key values.length with inside | here | behind
      · rw [if_neg (by omega), List.getElem?_append_left inside]
      · rw [if_pos here.symm, here, List.getElem?_concat_length]
      · have past : (values ++ [value]).length ≤ key := by
          rw [List.length_append]
          exact behind
        rw [if_neg (by omega), List.getElem?_eq_none (by omega), List.getElem?_eq_none past]

/-- What the receiver will believe of every key is justified. -/
def Justified (P : κ → σ → Prop) (queue : List (κ × σ)) (belief : κ → σ) : Prop :=
  ∀ key, P key ((last queue key).getD (belief key))

variable {P Q : κ → σ → Prop} {queue : List (κ × σ)} {belief belief' : κ → σ}

theorem Justified.mono (justified : Justified P queue belief)
    (weaker : ∀ key value, P key value → Q key value) : Justified Q queue belief :=
  fun key => weaker key _ (justified key)

/-- The first report arrives. -/
theorem Justified.deliver {key' : κ} {value : σ}
    (justified : Justified P ((key', value) :: queue) belief)
    (taken : ∀ key, last queue key = none →
      P key (if key' = key then value else belief key) → P key (belief' key)) :
    Justified P queue belief' := by
  intro key
  have here := justified key
  rw [last] at here
  cases waiting : last queue key with
  | some newer =>
      rw [waiting, Option.some_or] at here
      exact here
  | none =>
      rw [waiting, Option.none_or] at here
      apply taken key waiting
      split at here
      · rename_i same
        rw [if_pos same]
        exact here
      · rename_i other
        rw [if_neg other]
        exact here

/-- The sender reports a key; what it says of the others stays justified. -/
theorem Justified.report {key' : κ} {value : σ} (justified : Justified P queue belief)
    (others : ∀ key held, key ≠ key' → P key held → Q key held) (own : Q key' value) :
    Justified Q (queue ++ [(key', value)]) belief := by
  intro key
  rw [last_concat]
  by_cases same : key' = key
  · subst same
    rw [if_pos rfl]
    exact own
  · rw [if_neg same]
    exact others key _ (Ne.symm same) (justified key)

/-- The receiver changes its mind. -/
theorem Justified.change (justified : Justified P queue belief)
    (changed : ∀ key, last queue key = none → P key (belief key) → P key (belief' key)) :
    Justified P queue belief' := by
  intro key
  have here := justified key
  cases waiting : last queue key with
  | some newer =>
      rw [waiting] at here
      exact here
  | none =>
      rw [waiting] at here
      exact changed key waiting here

/-- After a report of every key nothing else counts. -/
theorem justified_of_all {front back : List (κ × σ)} {state : κ → Option σ}
    (all : ∀ key, last back key = state key)
    (reported : ∀ key value, state key = some value → P key value)
    (unknown : ∀ key, state key = none → P key ((last front key).getD (belief key))) :
    Justified P (front ++ back) belief := by
  intro key
  rw [last_append, all]
  cases known : state key with
  | some value => exact reported key value known
  | none => exact unknown key known

end Reports
