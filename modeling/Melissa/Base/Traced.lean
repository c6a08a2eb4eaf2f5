import Melissa.Base.Runs

/-! Computations that log what they touch. A computation without a result has ended, and its
log says what it touched until then. -/

structure Traced (α β : Type) where
  log : List α
  result : Option β

namespace Traced

variable {α β γ σ ε : Type}

def ofOption (result : Option β) : Traced α β := { log := [], result := result }

def touch (entries : List α) : Traced α Unit := { log := entries, result := some () }

def andThen (first : Traced α β) (next : β → Traced α γ) : Traced α γ :=
  match first.result with
  | none => { log := first.log, result := none }
  | some value =>
      { log := first.log ++ (next value).log, result := (next value).result }

instance : Monad (Traced α) where
  pure value := { log := [], result := some value }
  bind := andThen

@[simp] theorem log_pure (value : β) : (pure value : Traced α β).log = [] := rfl

@[simp] theorem result_pure (value : β) : (pure value : Traced α β).result = some value := rfl

@[simp] theorem log_ofOption (result : Option β) : (ofOption result : Traced α β).log = [] := rfl

@[simp] theorem result_ofOption (result : Option β) :
    (ofOption result : Traced α β).result = result := rfl

@[simp] theorem log_touch (entries : List α) : (touch entries).log = entries := rfl

@[simp] theorem result_touch (entries : List α) : (touch entries).result = some () := rfl

theorem bind_of_none {first : Traced α β} (next : β → Traced α γ) (ended : first.result = none) :
    first >>= next = { log := first.log, result := none } := by
  change andThen first next = _
  rw [andThen, ended]

theorem bind_of_some {first : Traced α β} (next : β → Traced α γ) {value : β}
    (returned : first.result = some value) :
    first >>= next =
      { log := first.log ++ (next value).log, result := (next value).result } := by
  change andThen first next = _
  rw [andThen, returned]

theorem result_bind (first : Traced α β) (next : β → Traced α γ) :
    (first >>= next).result = first.result.bind fun value => (next value).result := by
  cases returned : first.result with
  | none => rw [bind_of_none next returned, Option.bind_none]
  | some value => rw [bind_of_some next returned, Option.bind_some]

/-- A computation that touches nothing and returns leaves no mark on what follows. -/
theorem bind_silent {first : Traced α β} (next : β → Traced α γ) {value : β}
    (silent : first.log = []) (returned : first.result = some value) :
    first >>= next = next value := by
  rw [bind_of_some next returned, silent, List.nil_append]

theorem head_log_bind {first : Traced α β} (next : β → Traced α γ) {entry : α}
    (head : first.log.head? = some entry) : (first >>= next).log.head? = some entry := by
  cases returned : first.result with
  | none => rwa [bind_of_none next returned]
  | some value =>
      rw [bind_of_some next returned]
      rw [List.head?_append, head, Option.some_or]

section Runs

def run (step : σ → ε → Traced α σ) : σ → List ε → Traced α σ
  | s, [] => pure s
  | s, e :: rest => step s e >>= fun next => run step next rest

end Runs

section Preceded

/-- Every entry of a log comes after one that opens. -/
def Preceded (opens : α → Prop) (log : List α) : Prop :=
  ∀ front entry back, log = front ++ entry :: back → ¬ opens entry → ∃ other ∈ front, opens other

theorem preceded_iff_head {opens : α → Prop} {log : List α} :
    Preceded opens log ↔ ∀ entry, log.head? = some entry → opens entry := by
  constructor
  · intro preceded entry head
    obtain ⟨back, rfl⟩ := List.head?_eq_some_iff.mp head
    by_contra closed
    obtain ⟨other, member, _⟩ := preceded [] entry back rfl closed
    exact List.not_mem_nil member
  · intro first front entry back split closed
    cases front with
    | nil => exact absurd (first entry (by rw [split, List.nil_append, List.head?_cons])) closed
    | cons other front =>
        refine ⟨other, List.mem_cons_self, first other ?_⟩
        rw [split, List.cons_append, List.head?_cons]

theorem preceded_nil (opens : α → Prop) : Preceded opens [] :=
  preceded_iff_head.mpr fun _ head => by cases head

/-- A step of a waiting machine opens, or is quiet and leaves the machine waiting, or touches
something first. -/
structure Waits (step : σ → ε → Traced α σ) (opens : α → Prop) (Opening : ε → Prop)
    (Quiet : σ → ε → Prop) (Waiting : σ → Prop) : Prop where
  opening : ∀ s e, Waiting s → Opening e →
    ((step s e).log = [] ∧ (step s e).result = none) ∨
      ∃ entry, (step s e).log.head? = some entry ∧ opens entry
  quiet : ∀ s e, Waiting s → ¬ Opening e → Quiet s e →
    (step s e).log = [] ∧ ∀ next, (step s e).result = some next → Waiting next
  loud : ∀ s e, Waiting s → ¬ Opening e → ¬ Quiet s e →
    ∃ entry, (step s e).log.head? = some entry ∧ ¬ opens entry

/-- Until the first event that opens, every step that the run starts is quiet. -/
def QuietUntil (step : σ → ε → Traced α σ) (Opening : ε → Prop) (Quiet : σ → ε → Prop) (s : σ)
    (events : List ε) : Prop :=
  ∀ before e after mid, events = before ++ e :: after →
    (run step s before).result = some mid →
      (∀ earlier ∈ before, ¬ Opening earlier) → ¬ Opening e → Quiet mid e

variable {step : σ → ε → Traced α σ} {opens : α → Prop} {Opening : ε → Prop}
  {Quiet : σ → ε → Prop} {Waiting : σ → Prop}

theorem quietUntil_opening {s : σ} {e : ε} {rest : List ε} (opening : Opening e) :
    QuietUntil step Opening Quiet s (e :: rest) := by
  intro before other after mid split _ closed notOpening
  cases before with
  | nil =>
      rw [List.nil_append, List.cons.injEq] at split
      exact absurd (split.1 ▸ opening) notOpening
  | cons earlier before =>
      rw [List.cons_append, List.cons.injEq] at split
      exact absurd (split.1 ▸ opening) (closed earlier List.mem_cons_self)

theorem quietUntil_cons {s : σ} {e : ε} {rest : List ε} (closed : ¬ Opening e) :
    QuietUntil step Opening Quiet s (e :: rest) ↔
      Quiet s e ∧ ∀ next, (step s e).result = some next →
        QuietUntil step Opening Quiet next rest := by
  constructor
  · intro quiet
    refine ⟨quiet [] e rest s rfl rfl (fun _ member => absurd member List.not_mem_nil) closed, ?_⟩
    intro next taken before other after mid split reached earlier
    refine quiet (e :: before) other after mid (by rw [split, List.cons_append]) ?_ ?_
    · rw [run, result_bind, taken, Option.bind_some, reached]
    · intro first member
      rcases List.mem_cons.mp member with rfl | member
      · exact closed
      · exact earlier first member
  · rintro ⟨quiet, onward⟩ before other after mid split reached earlier notOpening
    cases before with
    | nil =>
        rw [List.nil_append, List.cons.injEq] at split
        cases reached
        exact split.1 ▸ quiet
    | cons first before =>
        rw [List.cons_append, List.cons.injEq] at split
        obtain ⟨rfl, split⟩ := split
        rw [run, result_bind] at reached
        obtain ⟨next, taken, reached⟩ := Option.bind_eq_some_iff.mp reached
        exact onward next taken before other after mid split reached
          (fun other member => earlier other (List.mem_cons_of_mem _ member)) notOpening

/-- In the log of a run every entry comes after one that opens, exactly when the run is quiet
until its first event that opens. -/
theorem preceded_run_iff (waits : Waits step opens Opening Quiet Waiting) {s : σ}
    (waiting : Waiting s) (events : List ε) :
    Preceded opens (run step s events).log ↔ QuietUntil step Opening Quiet s events := by
  induction events generalizing s with
  | nil =>
      refine ⟨fun _ before e after mid split => ?_, fun _ => preceded_nil opens⟩
      exact absurd split (List.append_ne_nil_of_right_ne_nil before (List.cons_ne_nil e after)).symm
  | cons e rest ih =>
      by_cases opening : Opening e
      · refine ⟨fun _ => quietUntil_opening opening, fun _ => preceded_iff_head.mpr ?_⟩
        intro entry head
        rw [run] at head
        rcases waits.opening s e waiting opening with ⟨silent, ended⟩ | ⟨first, firstHead, opened⟩
        · rw [bind_of_none _ ended, silent] at head
          cases head
        · rw [head_log_bind _ firstHead] at head
          exact Option.some.inj head ▸ opened
      · rw [quietUntil_cons opening]
        by_cases quiet : Quiet s e
        · obtain ⟨silent, kept⟩ := waits.quiet s e waiting opening quiet
          cases taken : (step s e).result with
          | none =>
              rw [run, bind_of_none _ taken, silent]
              exact ⟨fun _ => ⟨quiet, fun next reached => by cases reached⟩,
                fun _ => preceded_nil opens⟩
          | some next =>
              rw [run, bind_silent _ silent taken, ih (kept next taken)]
              constructor
              · intro onward
                refine ⟨quiet, fun other same => ?_⟩
                cases same
                exact onward
              · exact fun both => both.2 next rfl
        · obtain ⟨entry, head, closed⟩ := waits.loud s e waiting opening quiet
          refine ⟨fun preceded => ?_, fun both => absurd both.1 quiet⟩
          rw [run] at preceded
          exact absurd (preceded_iff_head.mp preceded entry (head_log_bind _ head)) closed

end Preceded

end Traced
