import Mathlib.Data.List.Basic
import Mathlib.Data.List.Induction
import Mathlib.Tactic.Common

/-! Finite runs of a partial step function. `none` stands for a step with undefined
behaviour or one that ends the process, so a run is a list of steps that all succeed. -/

namespace Runs

variable {σ ε : Type}

def run (step : σ → ε → Option σ) : σ → List ε → Option σ
  | s, [] => some s
  | s, e :: rest => (step s e).bind fun next => run step next rest

@[simp] theorem run_nil (step : σ → ε → Option σ) (s : σ) : run step s [] = some s := rfl

@[simp] theorem run_cons (step : σ → ε → Option σ) (s : σ) (e : ε) (rest : List ε) :
    run step s (e :: rest) = (step s e).bind fun next => run step next rest := rfl

theorem run_append (step : σ → ε → Option σ) (s : σ) (front back : List ε) :
    run step s (front ++ back) = (run step s front).bind fun mid => run step mid back := by
  induction front generalizing s with
  | nil => simp
  | cons e rest ih =>
      simp only [List.cons_append, run_cons, Option.bind_assoc]
      exact Option.bind_congr fun next _ => ih next

theorem run_concat (step : σ → ε → Option σ) (s : σ) (front : List ε) (e : ε) :
    run step s (front ++ [e]) = (run step s front).bind fun mid => step mid e := by
  rw [run_append]
  exact Option.bind_congr fun next _ => by simp

theorem run_concat_eq_some {step : σ → ε → Option σ} {s s' : σ} {front : List ε} {e : ε} :
    run step s (front ++ [e]) = some s' ↔
      ∃ mid, run step s front = some mid ∧ step mid e = some s' := by
  rw [run_concat, Option.bind_eq_some_iff]

/-- What holds at the start and survives every step of a run holds where the run gets to. -/
theorem run_invariant_of_mem {step : σ → ε → Option σ} {Inv : σ → Prop} {s s' : σ}
    {events : List ε}
    (preserved : ∀ s, ∀ e ∈ events, ∀ s', Inv s → step s e = some s' → Inv s')
    (start : Inv s) (reached : run step s events = some s') : Inv s' := by
  induction events generalizing s with
  | nil =>
      cases reached
      exact start
  | cons e rest ih =>
      obtain ⟨next, taken, onward⟩ := Option.bind_eq_some_iff.mp reached
      exact ih (fun s e' member => preserved s e' (List.mem_cons_of_mem _ member))
        (preserved s e List.mem_cons_self next start taken) onward

theorem run_invariant {step : σ → ε → Option σ} {Inv : σ → Prop}
    (preserved : ∀ s e s', Inv s → step s e = some s' → Inv s')
    {s s' : σ} {events : List ε} (start : Inv s) (reached : run step s events = some s') :
    Inv s' :=
  run_invariant_of_mem (fun s e _ => preserved s e) start reached

/-- An invariant that also sees the events consumed so far. -/
theorem run_history_invariant {step : σ → ε → Option σ} {Inv : List ε → σ → Prop}
    (preserved : ∀ past s e s', Inv past s → step s e = some s' → Inv (past ++ [e]) s')
    {s s' : σ} {past events : List ε} (start : Inv past s)
    (reached : run step s events = some s') : Inv (past ++ events) s' := by
  induction events generalizing s past with
  | nil =>
      cases reached
      simpa using start
  | cons e rest ih =>
      obtain ⟨next, taken, onward⟩ := Option.bind_eq_some_iff.mp reached
      simpa using ih (preserved past s e next start taken) onward

/-- `P` holds of every step a run takes: before it, of its event and after it. -/
def Along (step : σ → ε → Option σ) (P : σ → ε → σ → Prop) : σ → List ε → Prop
  | _, [] => True
  | s, e :: rest => ∀ next, step s e = some next → P s e next ∧ Along step P next rest

/-- Two step properties that agree wherever an invariant holds agree along whole runs, as
soon as the first of them carries the invariant from one state to the next. -/
theorem along_congr {step : σ → ε → Option σ} (Inv : σ → Prop) {P Q : σ → ε → σ → Prop}
    {s : σ} {events : List ε}
    (agree : ∀ s, ∀ e ∈ events, ∀ s', Inv s → step s e = some s' → (P s e s' ↔ Q s e s'))
    (carry : ∀ s, ∀ e ∈ events, ∀ s', Inv s → step s e = some s' → P s e s' → Inv s')
    (start : Inv s) : Along step P s events ↔ Along step Q s events := by
  induction events generalizing s with
  | nil => exact Iff.rfl
  | cons e rest ih =>
      have onward (next : σ) (inv : Inv next) := ih
        (fun s e' member => agree s e' (List.mem_cons_of_mem _ member))
        (fun s e' member => carry s e' (List.mem_cons_of_mem _ member)) inv
      have first : e ∈ e :: rest := List.mem_cons_self
      refine forall₂_congr fun next taken => ?_
      have here := agree s e first next start taken
      constructor
      · rintro ⟨holds, later⟩
        exact ⟨here.mp holds, (onward next (carry s e first next start taken holds)).mp later⟩
      · rintro ⟨holds, later⟩
        have holds' := here.mpr holds
        exact ⟨holds', (onward next (carry s e first next start taken holds')).mpr later⟩

theorem along_mono {step : σ → ε → Option σ} {P Q : σ → ε → σ → Prop}
    (weaker : ∀ s e s', step s e = some s' → P s e s' → Q s e s') {s : σ} {events : List ε}
    (along : Along step P s events) : Along step Q s events := by
  induction events generalizing s with
  | nil => trivial
  | cons e rest ih =>
      intro next taken
      obtain ⟨here, later⟩ := along next taken
      exact ⟨weaker s e next taken here, ih later⟩

/-- `Along` speaks about every step of the run, wherever the run is cut. -/
theorem along_iff {step : σ → ε → Option σ} {P : σ → ε → σ → Prop} {s : σ} {events : List ε} :
    Along step P s events ↔ ∀ front e back mid next, events = front ++ e :: back →
      run step s front = some mid → step mid e = some next → P mid e next := by
  induction events generalizing s with
  | nil =>
      constructor
      · intro _ front e back mid next cut
        simp at cut
      · intro _
        trivial
  | cons first rest ih =>
      constructor
      · intro along front e back mid next cut reached taken
        cases front with
        | nil =>
            cases cut
            cases reached
            exact (along next taken).1
        | cons head front =>
            cases cut
            obtain ⟨between, begun, onward⟩ := Option.bind_eq_some_iff.mp reached
            exact ih.mp (along between begun).2 front e back mid next rfl onward taken
      · intro everywhere next taken
        refine ⟨everywhere [] first rest s next rfl rfl taken, ?_⟩
        apply ih.mpr
        intro front e back mid after cut reached step
        refine everywhere (first :: front) e back mid after (by rw [cut]; rfl) ?_ step
        rw [run_cons, taken, Option.bind_some, reached]

theorem along_append {step : σ → ε → Option σ} {P : σ → ε → σ → Prop} {s mid : σ}
    {front back : List ε} (along : Along step P s (front ++ back))
    (reached : run step s front = some mid) : Along step P s front ∧ Along step P mid back := by
  induction front generalizing s with
  | nil =>
      cases reached
      exact ⟨trivial, along⟩
  | cons e rest ih =>
      obtain ⟨next, taken, onward⟩ := Option.bind_eq_some_iff.mp reached
      obtain ⟨_, after⟩ := ih (along next taken).2 onward
      refine ⟨?_, after⟩
      intro other taken'
      obtain ⟨here, rest'⟩ := along other taken'
      have same : other = next := by
        rw [taken] at taken'
        exact (Option.some.inj taken').symm
      subst same
      exact ⟨here, (ih rest' onward).1⟩

/-- `P` holds of every event in the state that it meets, also of the one that fails there. -/
def Meets (step : σ → ε → Option σ) (P : σ → ε → Prop) (s : σ) (events : List ε) : Prop :=
  ∀ front e back mid, events = front ++ e :: back → run step s front = some mid → P mid e

theorem meets_concat {step : σ → ε → Option σ} {P : σ → ε → Prop} {s : σ} {front : List ε} {e : ε} :
    Meets step P s (front ++ [e]) ↔
      Meets step P s front ∧ ∀ mid, run step s front = some mid → P mid e := by
  constructor
  · intro meets
    constructor
    · intro earlier e' back mid cut
      exact meets earlier e' (back ++ [e]) mid (by rw [cut, List.append_assoc, List.cons_append])
    · intro mid
      exact meets front e [] mid rfl
  · intro meets earlier e' back mid cut reached
    rcases List.eq_nil_or_concat back with rfl | ⟨middle, last, rfl⟩
    · obtain ⟨rfl, same⟩ := List.append_inj' cut rfl
      cases same
      exact meets.2 mid reached
    · rw [List.concat_eq_append, ← List.cons_append, ← List.append_assoc] at cut
      obtain ⟨rfl, _⟩ := List.append_inj' cut rfl
      exact meets.1 earlier e' middle mid rfl reached

/-- What every event that `P` holds of preserves holds at the end of a run that meets only such
events. -/
theorem meets_invariant {step : σ → ε → Option σ} {P : σ → ε → Prop} {Inv : σ → Prop}
    (preserved : ∀ s e s', Inv s → P s e → step s e = some s' → Inv s') {s s' : σ} {events : List ε}
    (meets : Meets step P s events) (start : Inv s) (reached : run step s events = some s') :
    Inv s' := by
  induction events using List.reverseRecOn generalizing s' with
  | nil =>
      cases reached
      exact start
  | append_singleton front e ih =>
      obtain ⟨earlier, here⟩ := meets_concat.mp meets
      obtain ⟨mid, before, taken⟩ := run_concat_eq_some.mp reached
      exact preserved mid e s' (ih earlier before) (here mid before) taken

/-- What `P` carries over every step holds at the end of a run along which `P` holds. -/
theorem along_run {step : σ → ε → Option σ} {P : σ → ε → σ → Prop} (Inv : σ → Prop)
    (carry : ∀ s e s', P s e s' → Inv s → Inv s') {s s' : σ} {events : List ε}
    (along : Along step P s events) (start : Inv s) (reached : run step s events = some s') :
    Inv s' := by
  induction events generalizing s with
  | nil =>
      cases reached
      exact start
  | cons e rest ih =>
      obtain ⟨next, taken, onward⟩ := Option.bind_eq_some_iff.mp reached
      obtain ⟨here, after⟩ := along next taken
      exact ih after (carry s e next here start) onward

/-- A part of the state that each event updates by a fold over its own items is updated by the
fold over all of them. -/
theorem foldl_part {α β : Type} {step : σ → ε → σ} {part : σ → Option α} {items : ε → List β}
    {update : α → β → α}
    (each : ∀ s e, part (step s e) = (part s).map fun held => (items e).foldl update held)
    (events : List ε) (s : σ) :
    part (events.foldl step s) =
      (part s).map fun held => (events.flatMap items).foldl update held := by
  induction events generalizing s with
  | nil => simp
  | cons e rest ih =>
      rw [List.foldl_cons, ih, each, Option.map_map, List.flatMap_cons]
      congr 1
      funext held
      exact List.foldl_append.symm

end Runs
