import Melissa.Base.Runs
import Melissa.Launcher.State

/-! When a batch of simulations is finished: the `group_state` messages of its simulations. -/

namespace Melissa

open Runs

section Group

variable {D : Type}

/-- What a simulation of the batch has reported: its position and its status. -/
abbrev Report := Nat × Int

/-- The first report of a status that is not below 2. -/
def firstEnd (reports : List Report) : Option Report :=
  reports.find? fun report => decide (2 ≤ report.2)

/-- The state of a batch after some reports. -/
structure BatchState (size : Nat) (past : List Report) (group : Group D) : Prop where
  jobType : group.jobType = 3
  length : group.simuStatus.length = size
  heard : ∀ k, group.simuStatus[k]? = some 2 → (k, 2) ∈ past
  running : firstEnd past = none → group.status < 2
  ended : ∀ report, firstEnd past = some report →
    group.status = report.2 ∨ (group.status = 2 ∧ ∀ k < size, (k, 2) ∈ past)

theorem batchState_fresh {size : Nat} {group : Group D} (jobType : group.jobType = 3)
    (fresh : group.simuStatus = List.replicate size 0) (waiting : group.status < 2) :
    BatchState size [] group where
  jobType := jobType
  length := by rw [fresh, List.length_replicate]
  heard := by
    intro k two
    rw [fresh, List.getElem?_replicate] at two
    split at two
    · cases two
    · cases two
  running := fun _ => waiting
  ended := by
    intro report found
    cases found

/-- All positions hold 2 only after every simulation has reported it. -/
private theorem all_heard {size : Nat} {past : List Report} {simuStatus : List Int}
    (length : simuStatus.length = size)
    (heard : ∀ k, simuStatus[k]? = some 2 → (k, 2) ∈ past)
    (all : simuStatus.all (· == 2) = true) : ∀ k < size, (k, 2) ∈ past := by
  intro k inside
  have bound : k < simuStatus.length := by rw [length]; exact inside
  have two := List.all_eq_true.mp all simuStatus[k] (List.getElem_mem bound)
  rw [beq_iff_eq] at two
  exact heard k (by rw [List.getElem?_eq_getElem bound, two])

/-- The two guards of the handler put together. -/
private theorem groupState_multi {group : Group D} {k : Nat} (jobType : group.jobType = 3)
    (bound : k < group.simuStatus.length) (status : Int) :
    groupState k status group =
      ({ group with
          status := if (group.simuStatus.set k status).all (· == 2) then 2
            else if group.status < 2 then status else group.status
          simuStatus := group.simuStatus.set k status }, false) := by
  rw [groupState, if_pos jobType]
  by_cases early : group.status < 2
  · simp only [if_pos early, if_pos bound]
    split
    · rfl
    · rfl
  · simp only [if_neg early, if_pos bound]
    split
    · rfl
    · rfl

/-- A report at a position of the batch is heard there, and the others stay as they are. -/
private theorem heard_set {past : List Report} {simuStatus : List Int} {k : Nat}
    (bound : k < simuStatus.length) (heard : ∀ k, simuStatus[k]? = some 2 → (k, 2) ∈ past)
    (status : Int) {k' : Nat} (two : (simuStatus.set k status)[k']? = some 2) :
    (k', (2 : Int)) ∈ past ++ [(k, status)] := by
  by_cases same : k = k'
  · subst same
    rw [List.getElem?_set_self bound] at two
    cases two
    exact List.mem_append_right _ List.mem_cons_self
  · rw [List.getElem?_set_ne same] at two
    exact List.mem_append_left _ (heard k' two)

theorem groupState_batch {size : Nat} {past : List Report} {group : Group D} {k : Nat}
    (state : BatchState size past group) (inside : k < size) (status : Int) :
    (groupState k status group).2 = false ∧
      BatchState size (past ++ [(k, status)]) (groupState k status group).1 := by
  have bound : k < group.simuStatus.length := by rw [state.length]; exact inside
  rw [groupState_multi state.jobType bound]
  have length : (group.simuStatus.set k status).length = size := by
    rw [List.length_set, state.length]
  have heard : ∀ k', (group.simuStatus.set k status)[k']? = some 2 →
      (k', (2 : Int)) ∈ past ++ [(k, status)] :=
    fun _ two => heard_set bound state.heard status two
  have everyone (all : (group.simuStatus.set k status).all (· == 2) = true) :
      ∀ k' < size, (k', (2 : Int)) ∈ past ++ [(k, status)] := all_heard length heard all
  have first : firstEnd (past ++ [(k, status)]) =
      (firstEnd past).or (firstEnd [(k, status)]) := List.find?_append
  refine ⟨rfl, ⟨state.jobType, length, heard, ?_, ?_⟩⟩
  · intro none_ended
    rw [none_ended, eq_comm, Option.or_eq_none_iff] at first
    have early := state.running first.1
    have low : ¬ (2 : Int) ≤ status := by
      intro high
      simp [firstEnd, high] at first
    have some_open : (group.simuStatus.set k status).all (· == 2) = false := by
      rw [List.all_eq_false]
      refine ⟨status, List.mem_set bound status, ?_⟩
      simp only [beq_iff_eq]
      omega
    simp only [some_open, Bool.false_eq_true, if_false, if_pos early]
    omega
  · intro report found
    by_cases all : (group.simuStatus.set k status).all (· == 2) = true
    · refine Or.inr ⟨?_, everyone all⟩
      simp only [all, if_true]
    · simp only [all, Bool.false_eq_true, if_false]
      rw [first] at found
      cases before : firstEnd past with
      | none =>
          rw [before, Option.none_or] at found
          have here : report = (k, status) := by
            simpa [firstEnd] using List.mem_of_find?_eq_some found
          left
          rw [if_pos (state.running before), here]
      | some earlier =>
          rw [before, Option.some_or, Option.some.injEq] at found
          subst found
          have ended : 2 ≤ earlier.2 := by simpa using List.find?_some before
          rcases state.ended earlier before with same | ⟨two, told⟩
          · left
            rw [if_neg (by omega), same]
          · right
            rw [if_neg (by omega)]
            exact ⟨two, fun k' inside' => List.mem_append_left _ (told k' inside')⟩

/-- A finished batch has heard of all its simulations, if it is the only one of them that ends
or the first that ends does not finish. -/
theorem BatchState.told {size : Nat} {past : List Report} {group : Group D}
    (state : BatchState size past group) (inside : ∀ report ∈ past, report.1 < size)
    (ended : group.status = finished)
    (condition : size = 1 ∨ (firstEnd past).map Prod.snd ≠ some finished) :
    ∀ k < size, (k, finished) ∈ past := by
  cases first : firstEnd past with
  | none =>
      have low := state.running first
      rw [ended] at low
      exact absurd low (by decide)
  | some report =>
      rcases state.ended report first with same | ⟨_, told⟩
      · have two : report.2 = finished := by rw [← same, ended]
        rcases condition with one | other
        · intro k below
          have member := List.mem_of_find?_eq_some first
          have position := inside report member
          have here : (k, finished) = report := by
            apply Prod.ext
            · change k = report.1
              omega
            · exact two.symm
          rw [here]
          exact member
        · rw [first, Option.map_some, two] at other
          exact absurd rfl other
      · exact told

/-- When the first simulation ends as finished, so does the batch, and another one has not. -/
theorem BatchState.early {size : Nat} {front : List Report} {report : Report} {group : Group D}
    (state : BatchState size (front ++ [report]) group) (someSimulation : 1 ≤ size)
    (several : size ≠ 1) (two : report.2 = finished)
    (before : ∀ other ∈ front, (!decide (2 ≤ other.2)) = true) :
    group.status = finished ∧ ∃ k < size, (k, finished) ∉ front ++ [report] := by
  have first : firstEnd (front ++ [report]) = some report :=
    List.find?_eq_some_iff_append.mpr
      ⟨by rw [two]; decide, front, [], rfl, before⟩
  constructor
  · rcases state.ended report first with same | ⟨same, _⟩
    · rw [same, two]
    · exact same
  · obtain ⟨k, below, other⟩ : ∃ k < size, k ≠ report.1 := by
      by_cases zero : report.1 = 0
      · exact ⟨1, by omega, by omega⟩
      · exact ⟨0, by omega, by omega⟩
    refine ⟨k, below, fun member => ?_⟩
    rcases List.mem_append.mp member with earlier | here
    · exact absurd (before _ earlier) (by simp [finished])
    · rw [List.mem_singleton] at here
      exact other (by rw [← here])

end Group

section Messages

variable {D : Type}

/-- The `group_state` message by which the server passes on a report of the batch `g`. -/
def reportMessage (batchSize g : Nat) (report : Report) : LauncherEvent :=
  .message (.groupState (g * batchSize + report.1 : Nat) report.2)

/-- The batch after its reports. -/
def afterReports (group : Group D) (reports : List Report) : Group D :=
  reports.foldl (fun group report => (groupState report.1 report.2 group).1) group

theorem batchState_afterReports {size : Nat} {past reports : List Report} {group : Group D}
    (state : BatchState size past group) (inside : ∀ report ∈ reports, report.1 < size) :
    BatchState size (past ++ reports) (afterReports group reports) := by
  induction reports generalizing past group with
  | nil => rwa [List.append_nil]
  | cons report reports ih =>
      rw [List.forall_mem_cons] at inside
      have next := (groupState_batch state inside.1 report.2).2
      have rest := ih next inside.2
      rwa [List.append_assoc, List.singleton_append] at rest

private theorem pyIndex_batch {length batchSize g k : Nat} (created : g < length)
    (inside : k < batchSize) :
    pyIndex length (((g * batchSize + k : Nat) : Int) / batchSize) = some g ∧
      (((g * batchSize + k : Nat) : Int) % batchSize).toNat = k := by
  have positive : 0 < batchSize := by omega
  have quotient : (g * batchSize + k) / batchSize = g := by
    rw [Nat.add_comm, Nat.add_mul_div_right k g positive, Nat.div_eq_of_lt inside, Nat.zero_add]
  have remainder : (g * batchSize + k) % batchSize = k := by
    rw [Nat.add_comm, Nat.add_mul_mod_self_right, Nat.mod_eq_of_lt inside]
  rw [← Int.natCast_ediv, ← Int.natCast_emod, quotient, remainder]
  refine ⟨?_, rfl⟩
  rw [pyIndex, if_pos (Int.natCast_nonneg g)]
  exact if_pos created

/-- The messages of a batch change the batch only. -/
theorem run_reports {config : StudyConfig} {launcher : Launcher D} {batchSize g : Nat}
    {group : Group D} {past reports : List Report} (sized : config.batchSize = batchSize)
    (idle : launcher.messenger = .idle) (present : launcher.groups[g]? = some group)
    (state : BatchState batchSize past group)
    (inside : ∀ report ∈ reports, report.1 < batchSize) :
    run (launcherStep config) launcher (reports.map (reportMessage batchSize g)) =
      some { launcher with groups := launcher.groups.set g (afterReports group reports) } := by
  induction reports generalizing launcher group past with
  | nil =>
      obtain ⟨created, here⟩ := List.getElem?_eq_some_iff.mp present
      rw [List.map_nil, run_nil, afterReports, List.foldl_nil, ← here, List.set_getElem_self]
  | cons report reports ih =>
      rw [List.forall_mem_cons] at inside
      obtain ⟨created, _⟩ := List.getElem?_eq_some_iff.mp present
      obtain ⟨unraised, next⟩ := groupState_batch state inside.1 report.2
      obtain ⟨index, position⟩ := pyIndex_batch created inside.1
      have handled : launcherStep config launcher (reportMessage batchSize g report) =
          some { launcher with
            groups := launcher.groups.set g (groupState report.1 report.2 group).1 } := by
        rw [reportMessage, launcherStep, if_pos idle, handleMessage, sized, index, position]
        simp only [Option.bind_some, present, Option.map_some, unraised, Bool.false_eq_true,
          if_false]
      have rest : run (launcherStep config) { launcher with
            groups := launcher.groups.set g (groupState report.1 report.2 group).1 }
          (reports.map (reportMessage batchSize g)) = some _ :=
        ih idle (List.getElem?_set_self created) next inside.2
      rw [List.map_cons, run_cons, handled, Option.bind_some, rest]
      simp only [List.set_set]
      rfl

/-- A batch is never finished before all its simulations exactly if it has one simulation, or
if the first status from 2 on that is reported is not 2 itself. -/
theorem batchFinishes_iff {config : StudyConfig} {launcher : Launcher D} {batchSize g : Nat}
    {group : Group D} {reports : List Report} (sized : config.batchSize = batchSize)
    (some_simulation : 1 ≤ batchSize) (idle : launcher.messenger = .idle)
    (present : launcher.groups[g]? = some group) (jobType : group.jobType = 3)
    (fresh : group.simuStatus = List.replicate batchSize 0) (open_ : group.status < finished)
    (inside : ∀ report ∈ reports, report.1 < batchSize) :
    (∀ front back, reports = front ++ back → ∀ after,
        run (launcherStep config) launcher (front.map (reportMessage batchSize g)) = some after →
        ∀ group', after.groups[g]? = some group' → group'.status = finished →
        ∀ k < batchSize, (k, finished) ∈ front) ↔
      batchSize = 1 ∨ (firstEnd reports).map Prod.snd ≠ some finished := by
  have start := batchState_fresh jobType fresh open_
  obtain ⟨created, _⟩ := List.getElem?_eq_some_iff.mp present
  constructor
  · intro together
    by_contra several
    rw [not_or, not_not, Option.map_eq_some_iff] at several
    obtain ⟨several, report, first, two⟩ := several
    obtain ⟨_, front, back, rfl, before⟩ := List.find?_eq_some_iff_append.mp first
    have upTo : ∀ report' ∈ front ++ [report], report'.1 < batchSize := by
      intro report' member
      apply inside
      rw [← List.singleton_append, ← List.append_assoc]
      exact List.mem_append_left back member
    have state : BatchState batchSize (front ++ [report])
        (afterReports group (front ++ [report])) := batchState_afterReports start upTo
    obtain ⟨ended, k, below, untold⟩ := state.early some_simulation several two before
    exact untold (together (front ++ [report]) back (by simp) _
      (run_reports sized idle present start upTo) _ (List.getElem?_set_self created) ended k below)
  · intro condition front back cut after reached group' there ended
    have early : ∀ report ∈ front, report.1 < batchSize := by
      intro report member
      exact inside report (by rw [cut]; exact List.mem_append_left _ member)
    rw [run_reports sized idle present start early] at reached
    cases reached
    rw [List.getElem?_set_self created, Option.some.injEq] at there
    subst there
    have state : BatchState batchSize front (afterReports group front) :=
      batchState_afterReports start early
    refine state.told early ended (condition.imp id fun other same => other ?_)
    obtain ⟨report, first, two⟩ := Option.map_eq_some_iff.mp same
    rw [cut, firstEnd, List.find?_append]
    rw [firstEnd] at first
    rw [first, Option.some_or, Option.map_some, two]

end Messages

section Example

private def twoInOne : StudyConfig :=
  { batchSize := 2, disableFaultTolerance := false, simulationTimeout := true }

/-- Two simulations of one batch that are running. -/
private def launchedBatch : Group Int :=
  { batchGroup (fun k => [(k : Int)]) 2 0 with status := waiting, jobStatus := running }

/-- Simulation 0 ends first. -/
private def oneAfterTheOther : List Report := [(0, 1), (1, 1), (0, 2), (1, 2)]

theorem batchFinishes_iff_oneAfterTheOther :
    (∀ front back, oneAfterTheOther = front ++ back → ∀ after,
        run (launcherStep twoInOne) (startLauncher [launchedBatch])
          (front.map (reportMessage 2 0)) = some after →
        ∀ group', after.groups[0]? = some group' → group'.status = finished →
        ∀ k < 2, (k, finished) ∈ front) ↔
      2 = 1 ∨ (firstEnd oneAfterTheOther).map Prod.snd ≠ some finished :=
  batchFinishes_iff rfl (by decide) rfl rfl rfl rfl (by decide) (by decide)

/-- The batch is finished when simulation 0 is, while simulation 1 is still running. -/
theorem not_batchFinishes_oneAfterTheOther :
    ¬ ∀ (config : StudyConfig) (launcher : Launcher Int) (batchSize g : Nat) (group : Group Int)
      (reports : List Report), config.batchSize = batchSize → 1 ≤ batchSize →
      launcher.messenger = .idle → launcher.groups[g]? = some group → group.jobType = 3 →
      group.simuStatus = List.replicate batchSize 0 → group.status < finished →
      (∀ report ∈ reports, report.1 < batchSize) →
      ∀ front back, reports = front ++ back → ∀ after,
        run (launcherStep config) launcher (front.map (reportMessage batchSize g)) = some after →
        ∀ group', after.groups[g]? = some group' → group'.status = finished →
        ∀ k < batchSize, (k, finished) ∈ front := by
  intro always
  have ended : (run (launcherStep twoInOne) (startLauncher [launchedBatch])
      ([(0, 1), (1, 1), (0, 2)].map (reportMessage 2 0))).map (fun after =>
        after.groups.map Group.status) = some [finished] := by decide +kernel
  obtain ⟨after, reached, statuses⟩ := Option.map_eq_some_iff.mp ended
  obtain ⟨group, groups, status⟩ := List.map_eq_singleton_iff.mp statuses
  have heard := always twoInOne (startLauncher [launchedBatch]) 2 0 launchedBatch
    oneAfterTheOther rfl (by decide) rfl rfl rfl rfl (by decide) (by decide)
    [(0, 1), (1, 1), (0, 2)] [(1, 2)] rfl after reached group (by rw [groups]; rfl) status 1
    (by decide)
  exact absurd heard (by decide)

end Example

end Melissa
