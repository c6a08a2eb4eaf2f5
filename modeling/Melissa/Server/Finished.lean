import Melissa.Server.Ready

/-! The counter of finished simulations against their states, over runs with data messages,
launcher messages and timeouts. -/

namespace Melissa

open Runs

section Count

variable {D : Type}

def simuStatus (server : Server D) (simuId : Nat) : Nat := (statuses server).getD simuId 0

/-- Number of simulations whose status says that they are finished or dropped. -/
def nbFinished (server : Server D) : Nat :=
  (statuses server).countP fun status => decide (2 ≤ status)

theorem simuStatus_of_present {server : Server D} {simuId : Nat} {simu : Simulation D}
    (present : server.simulations[simuId]? = some simu) :
    simuStatus server simuId = simu.status := by
  simp [simuStatus, statuses, List.getD_eq_getElem?_getD, present]

theorem countP_set_add {α : Type} (p : α → Bool) {items : List α} {i : Nat} {old : α}
    (present : items[i]? = some old) (new : α) :
    (items.set i new).countP p + (if p old then 1 else 0) =
      items.countP p + (if p new then 1 else 0) := by
  obtain ⟨inside, rfl⟩ := List.getElem?_eq_some_iff.mp present
  rw [List.countP_set inside]
  have positive : p items[i] = true → 0 < items.countP p := by
    intro chosen
    exact List.countP_pos_iff.mpr ⟨items[i], List.getElem_mem inside, chosen⟩
  split
  · rename_i chosen
    have := positive chosen
    omega
  · omega

/-- The count after the status of one simulation has changed. -/
theorem nbFinished_set {server server' : Server D} {simuId status : Nat} {simu : Simulation D}
    (present : server.simulations[simuId]? = some simu)
    (set : statuses server' = (statuses server).set simuId status) :
    nbFinished server' + (if 2 ≤ simu.status then 1 else 0) =
      nbFinished server + (if 2 ≤ status then 1 else 0) := by
  have here : (statuses server)[simuId]? = some simu.status := by simp [statuses, present]
  have count := countP_set_add (fun status => decide (2 ≤ status)) here status
  simpa [nbFinished, set] using count

theorem simuStatus_set {server server' : Server D} {simuId status : Nat} {simu : Simulation D}
    (present : server.simulations[simuId]? = some simu)
    (set : statuses server' = (statuses server).set simuId status) (i : Nat) :
    simuStatus server' i = if i = simuId then status else simuStatus server i := by
  obtain ⟨inside, _⟩ := List.getElem?_eq_some_iff.mp present
  have bound : simuId < (statuses server).length := by simpa [statuses] using inside
  unfold simuStatus
  rw [set, List.getD_eq_getElem?_getD, List.getD_eq_getElem?_getD, List.getElem?_set]
  by_cases here : simuId = i
  · subst here
    simp [bound]
  · simp [here, Ne.symm here]

end Count

section Steps

variable {D : Type}

/-- What a step must leave intact. -/
def FinishedKept (server : Server D) (_ : Event D) (server' : Server D) : Prop :=
  server'.nbFinishedSimulations = nbFinished server' ∧
    ∀ simuId, 2 ≤ simuStatus server simuId → 2 ≤ simuStatus server' simuId

/-- The steps that do: data of a finished simulation only while nothing of it is missing in any
structure that has received something. -/
def FinishSafe (server : Server D) : Event D → Prop
  | .data _ m _ => ∀ fieldId, Admitted server m fieldId →
      simuStatus server m.simuId < 2 ∨
        (simuStatus server m.simuId = 2 ∧ completeWith server m fieldId)
  | .launcher _ => True
  | .timeouts _ => True

private theorem kept_of_statuses {server server' : Server D} {event : Event D}
    (counted : server.nbFinishedSimulations = nbFinished server)
    (finished : server'.nbFinishedSimulations = server.nbFinishedSimulations)
    (same : statuses server' = statuses server) : FinishedKept server event server' := by
  refine ⟨by rw [finished, counted, nbFinished, nbFinished, same], ?_⟩
  intro simuId
  rw [simuStatus, simuStatus, same]
  exact id

/-- Setting one status and perhaps counting it keeps the finished simulations exactly when an
old status of 2 or more was 2 and stays 2. -/
private theorem kept_set_iff {server server' : Server D} {event : Event D} {simuId status : Nat}
    {simu : Simulation D} (counted : server.nbFinishedSimulations = nbFinished server)
    (present : server.simulations[simuId]? = some simu)
    (set : statuses server' = (statuses server).set simuId status)
    (small : status = 1 ∨ status = 2)
    (finished : server'.nbFinishedSimulations =
      if status = 2 ∧ simu.status ≠ 2 then server.nbFinishedSimulations + 1
      else server.nbFinishedSimulations) :
    FinishedKept server event server' ↔
      simuStatus server simuId < 2 ∨ (simuStatus server simuId = 2 ∧ status = 2) := by
  have count := nbFinished_set present set
  rw [simuStatus_of_present present]
  unfold FinishedKept
  constructor
  · intro kept
    obtain ⟨equal, stay⟩ := kept
    have own := stay simuId
    rw [simuStatus_of_present present, simuStatus_set present set, if_pos rfl] at own
    rw [equal] at finished
    by_cases below : simu.status < 2
    · exact Or.inl below
    · rw [if_pos (by omega)] at count
      have status : status = 2 := by omega
      rw [if_pos (by omega)] at count
      refine Or.inr ⟨?_, status⟩
      by_contra other
      rw [if_pos ⟨status, other⟩] at finished
      omega
  · intro safe
    constructor
    · rw [finished]
      split at finished
      · rename_i fresh
        rw [if_pos fresh]
        rw [if_neg (by omega), if_pos (by omega)] at count
        omega
      · rename_i old
        rw [if_neg old]
        split at count
        · split at count
          · omega
          · omega
        · split at count
          · omega
          · omega
    · intro i large
      rw [simuStatus_set present set]
      split
      · rename_i here
        subst here
        rw [simuStatus_of_present present] at large
        omega
      · exact large

private theorem kept_timeouts {server : Server D} {event : Event D} (now : ℚ)
    (counted : server.nbFinishedSimulations = nbFinished server) :
    FinishedKept server event (timeoutRound server now) := by
  obtain ⟨_, _, _, finished, _, reset, running, after⟩ := timeoutRound_parts server now
  constructor
  · rw [finished, counted, nbFinished, nbFinished, after, statuses, List.countP_map,
      List.countP_map]
    apply List.countP_congr
    intro simu _
    by_cases fired : reset simu = true
    · simp [fired, running simu fired]
    · simp [fired]
  · intro simuId large
    cases found : server.simulations[simuId]? with
    | none => simp [simuStatus, statuses, found] at large
    | some simu =>
        rw [simuStatus_of_present found] at large
        have kept : ¬ reset simu = true := by
          intro fired
          have := running simu fired
          omega
        have here : (statuses (timeoutRound server now))[simuId]? = some simu.status := by
          simp [after, found, kept]
        rw [simuStatus, List.getD_eq_getElem?_getD, here]
        exact large

theorem counted_freshServer (options : Options D) (commData : CommData) (names : List String) :
    (freshServer options commData names).nbFinishedSimulations =
      nbFinished (freshServer options commData names) := by
  have none_finished : List.countP (fun status => decide (2 ≤ status))
      (statuses (freshServer options commData names)) = 0 := by
    rw [List.countP_eq_zero]
    intro status member
    simp only [statuses, freshServer, startServer, List.map_replicate] at member
    rw [List.eq_of_mem_replicate member]
    simp [addSimulation]
  rw [nbFinished, none_finished]
  rfl

variable [Zero D] [Add D] [Sub D] [Mul D] [Div D] [NatCast D] [IntCast D]
  [Pow D ℕ] [LT D] [DecidableLT D] [LE D] [DecidableLE D] [Libm D]

theorem finished_step_iff {restore : Restore D} {nbSimu : Nat} {server server' : Server D}
    {event : Event D} (ready : Ready nbSimu server)
    (counted : server.nbFinishedSimulations = nbFinished server)
    (taken : step restore server event = some server') :
    FinishedKept server event server' ↔ FinishSafe server event := by
  cases event with
  | data now m reply =>
      rcases dataMessage_cases taken with ⟨rfl, skipped⟩ | ⟨fieldId, admitted, simu, data, loaded,
        updated, status, accepted⟩
      · have safe : FinishSafe server' (.data now m reply) :=
          fun fieldId admitted => absurd admitted (skipped fieldId)
        exact iff_of_true (kept_of_statuses counted rfl rfl) safe
      · obtain ⟨complete, small⟩ := accepted_complete_iff ready admitted accepted
        rw [kept_set_iff counted accepted.simulation accepted.statuses small accepted.finished,
          complete]
        constructor
        · intro kept other admitted'
          have same : other = fieldId := by
            have known := admitted'.2.2
            rw [admitted.2.2] at known
            exact (Option.some.inj known).symm
          rw [same]
          exact kept
        · intro safe
          exact safe fieldId admitted
  | launcher msg =>
      obtain ⟨handled, processed, rfl⟩ := Option.map_eq_some_iff.mp taken
      cases launcherEffect processed with
      | job present enough =>
          exact iff_of_true (kept_of_statuses counted rfl (map_set_of_same present rfl)) trivial
      | nothing noJob noDrop => exact iff_of_true (kept_of_statuses counted rfl rfl) trivial
  | timeouts now =>
      cases taken
      exact iff_of_true (kept_timeouts now counted) trivial

/-- In every state of the run the counter is the number of finished simulations, and between
any two states of it no simulation stops being finished. -/
def FinishedStay (start : Server D) (events : List (Event D)) : Prop :=
  ∀ front middle back mid last, events = front ++ middle ++ back →
    run (step noRestore) start front = some mid → run (step noRestore) mid middle = some last →
      last.nbFinishedSimulations = nbFinished last ∧
        ∀ simuId, 2 ≤ simuStatus mid simuId → 2 ≤ simuStatus last simuId

theorem finishedStay_iff_along {start : Server D} {events : List (Event D)}
    (counted : start.nbFinishedSimulations = nbFinished start) :
    FinishedStay start events ↔ Along (step noRestore) FinishedKept start events := by
  constructor
  · intro stay
    rw [along_iff]
    intro front e back mid next cut reached taken
    refine stay front [e] back mid next (by simpa using cut) reached ?_
    simp [taken]
  · intro along front middle back mid last cut reached onward
    rw [cut, List.append_assoc] at along
    obtain ⟨before, after⟩ := along_append along reached
    have between : Along (step noRestore) FinishedKept mid middle := (along_append after onward).1
    have count (s : Server D) (e : Event D) (s' : Server D) (kept : FinishedKept s e s')
        (_ : s.nbFinishedSimulations = nbFinished s) :
        s'.nbFinishedSimulations = nbFinished s' := kept.1
    constructor
    · exact along_run _ count between (along_run _ count before counted reached) onward
    · intro simuId finished
      refine along_run (fun server => 2 ≤ simuStatus server simuId) ?_ between finished onward
      intro s e s' kept large
      exact kept.2 simuId large

/-- Finished simulations are counted once and stay finished exactly in the runs whose steps are
all safe. -/
theorem finishedStay_iff (options : Options D) (commData : CommData) (names : List String)
    (events : List (Event D)) :
    FinishedStay (freshServer options commData names) events ↔
      ∀ front e back mid next, events = front ++ e :: back →
        run (step noRestore) (freshServer options commData names) front = some mid →
        step noRestore mid e = some next → FinishSafe mid e := by
  rw [finishedStay_iff_along (counted_freshServer options commData names)]
  rw [← along_iff]
  have start := And.intro (ready_freshServer options commData names)
    (counted_freshServer options commData names)
  refine along_congr (fun server => Ready options.samplingSize.toNat server ∧
    server.nbFinishedSimulations = nbFinished server) ?_ ?_ start
  · intro s e _ s' inv taken
    exact finished_step_iff inv.1 inv.2 taken
  · intro s e _ s' inv taken kept
    exact ⟨ready_step inv.1 taken, kept.1⟩

end Steps

section LateRank

/-- Client rank 1 sends its first message when client rank 0 has sent everything. -/
private def lateClient : List (Event ℚ) :=
  [.data 1 ⟨0, 0, 0, 1, "heat", [3]⟩ ⟨0, "job0", [1]⟩,
    .data 2 ⟨1, 0, 0, 1, "heat", [4]⟩ ⟨0, "job0", [1]⟩,
    .data 3 ⟨0, 0, 1, 1, "heat", [5]⟩ ⟨0, "job0", [1]⟩]

/-- The first message of client rank 1 brings a finished simulation back to status 1, while it
stays counted. -/
theorem not_finishedStay_lateRank :
    ¬ FinishedStay (freshServer twoByTwo ⟨0, 1, 2⟩ ["heat"]) lateClient := by
  intro stay
  have outcome : (run (step noRestore) (freshServer twoByTwo ⟨0, 1, 2⟩ ["heat"]) lateClient).map
      (fun last => (last.nbFinishedSimulations, nbFinished last)) = some (1, 0) := by
    decide +kernel
  obtain ⟨last, reached, numbers⟩ := Option.map_eq_some_iff.mp outcome
  obtain ⟨counter, finished⟩ := Prod.mk.inj numbers
  have counted := (stay [] lateClient [] _ last (by simp) rfl reached).1
  rw [counter, finished] at counted
  exact absurd counted (by decide)

end LateRank

end Melissa
