import Melissa.Protocol.Groups

/-! How often the launcher drops the simulations of a group. -/

namespace Melissa

open Runs

section Drops

variable {D : Type}

/-- Up to the third restart of a group nothing is dropped; every later one drops its simulations. -/
structure DropsCounted (launcher : Launcher D) : Prop where
  distinct : (launcher.groups.flatMap dropIds).Nodup
  counted : ∀ (g : Nat) (group : Group D), launcher.groups[g]? = some group →
    ∀ id ∈ dropIds group, launcher.drops.count id = group.nbRestarts - 3
  own : ∀ id ∈ launcher.drops, id ∈ launcher.groups.flatMap dropIds

theorem restart_counts (outcome : UserOutcome) (group : Group D) :
    (restart outcome group).2.1 = [] ∧
        (restart outcome group).1.nbRestarts - 3 = group.nbRestarts - 3 ∨
      (restart outcome group).2.1 = dropIds group ∧
        (restart outcome group).1.nbRestarts - 3 = group.nbRestarts - 3 + 1 := by
  unfold restart
  split
  · exact Or.inl ⟨rfl, rfl⟩
  · dsimp only
    split
    · refine Or.inr ⟨rfl, ?_⟩
      dsimp only at *
      omega
    · split
      · refine Or.inl ⟨rfl, ?_⟩
        dsimp only
        omega
      · refine Or.inl ⟨rfl, ?_⟩
        dsimp only
        omega

theorem mem_restart_drops {outcome : UserOutcome} {group : Group D} {id : Nat}
    (sent : id ∈ (restart outcome group).2.1) : id ∈ dropIds group := by
  rcases restart_drops outcome group with silent | ⟨all, _⟩
  · rw [silent] at sent
    cases sent
  · rw [← all]
    exact sent

/-- A restart drops a simulation of the group as often as it raises the count above three. -/
theorem count_restart_drops (outcome : UserOutcome) {group : Group D} {id : Nat}
    (distinct : (dropIds group).Nodup) (member : id ∈ dropIds group) :
    group.nbRestarts - 3 + (restart outcome group).2.1.count id =
      (restart outcome group).1.nbRestarts - 3 := by
  rcases restart_counts outcome group with ⟨silent, same⟩ | ⟨all, more⟩
  · rw [silent, same, List.count_nil, Nat.add_zero]
  · rw [all, more, List.count_eq_one_of_mem distinct member]

theorem dropIds_of_identity {group group' : Group D} (same : group'.identity = group.identity) :
    dropIds group' = dropIds group := by
  have through (group : Group D) : dropIds group = dropIds group.identity := rfl
  rw [through, same, ← through]

theorem flatMap_dropIds {groups groups' : List (Group D)}
    (same : groups'.map Group.identity = groups.map Group.identity) :
    groups'.flatMap dropIds = groups.flatMap dropIds := by
  have through (groups : List (Group D)) :
      groups.flatMap dropIds = (groups.map Group.identity).flatMap dropIds := by
    rw [List.flatMap_map]
    rfl
  rw [through, same, ← through]

/-- The restart of a batch group raises before it is counted. -/
theorem restart_batch {group : Group D} (batch : group.jobType = 3) (outcome : UserOutcome) :
    (restart outcome group).1 = group := by
  rw [restart, if_pos (Or.inr batch)]

/-- No batch group has a restart that was counted. -/
def BatchesUncounted (launcher : Launcher D) : Prop :=
  ∀ (g : Nat) (group : Group D), launcher.groups[g]? = some group → group.jobType = 3 →
    group.nbRestarts = 0

theorem batchesUncounted_step {config : StudyConfig} {launcher launcher' : Launcher D}
    {event : LauncherEvent} (batches : BatchesUncounted launcher)
    (taken : launcherStep config launcher event = some launcher') :
    BatchesUncounted launcher' := by
  have hasEffect := launcherStep_effect taken
  generalize found : effect config launcher event = done at hasEffect
  intro g group' present' batch
  cases hasEffect with
  | nothing groups drops restarts =>
      rw [groups] at present'
      exact batches g group' present' batch
  | write i change groups drops restarts =>
      rw [groups, List.getElem?_modify] at present'
      obtain ⟨group, present, made⟩ := Option.map_eq_some_iff.mp present'
      obtain ⟨same, number⟩ := keepsIdentity_write found group
      have kind : (change group).jobType = group.jobType := (congrArg Group.jobType same :)
      split at made
      · rw [← made] at batch ⊢
        rw [number]
        exact batches g group present (kind.symm.trans batch)
      · rw [← made] at batch ⊢
        exact batches g group present batch
  | restart i outcome old present groups drops restarts =>
      rw [groups, List.getElem?_set] at present'
      split at present'
      · split at present'
        · have made := Option.some.inj present'
          have kind : (restart outcome old).1.jobType = old.jobType :=
            (congrArg Group.jobType (identity_restart outcome old) :)
          rw [← made] at batch ⊢
          have own : old.jobType = 3 := kind.symm.trans batch
          rw [restart_batch own]
          exact batches i old present own
        · cases present'
      · exact batches g group' present' batch

theorem dropsCounted_step {config : StudyConfig} {launcher launcher' : Launcher D}
    {event : LauncherEvent} (dropped : DropsCounted launcher)
    (taken : launcherStep config launcher event = some launcher') : DropsCounted launcher' := by
  have identity := map_identity_step taken
  have ids := flatMap_dropIds identity
  have distinct : (launcher'.groups.flatMap dropIds).Nodup := by
    rw [ids]
    exact dropped.distinct
  have hasEffect := launcherStep_effect taken
  generalize found : effect config launcher event = done at hasEffect
  cases hasEffect with
  | nothing groups drops restarts =>
      refine ⟨distinct, ?_, ?_⟩
      · rw [groups, drops]
        exact dropped.counted
      · rw [ids, drops]
        exact dropped.own
  | write i change groups drops restarts =>
      refine ⟨distinct, ?_, ?_⟩
      · intro g group' present' id member
        rw [groups, List.getElem?_modify] at present'
        obtain ⟨group, present, made⟩ := Option.map_eq_some_iff.mp present'
        rw [drops]
        split at made
        · obtain ⟨same, number⟩ := keepsIdentity_write found group
          rw [← made] at member ⊢
          rw [dropIds_of_identity same] at member
          rw [number]
          exact dropped.counted g group present id member
        · rw [← made] at member ⊢
          exact dropped.counted g group present id member
      · rw [ids, drops]
        exact dropped.own
  | restart i outcome old present groups drops restarts =>
      obtain ⟨inside, _⟩ := List.getElem?_eq_some_iff.mp present
      refine ⟨distinct, ?_, ?_⟩
      · intro g group' present' id member
        rw [groups, List.getElem?_set] at present'
        rw [drops, List.count_append]
        split at present'
        · rename_i here
          subst here
          rw [← Option.some.inj present'] at member ⊢
          rw [dropIds_restart] at member
          have once := (List.nodup_flatMap.mp dropped.distinct).1 old (List.mem_of_getElem? present)
          rw [dropped.counted i old present id member]
          exact count_restart_drops outcome once member
        · rename_i other
          have elsewhere : id ∉ (restart outcome old).2.1 := fun sent => other
            (disjoint_dropIds dropped.distinct present present' (mem_restart_drops sent) member)
          rw [List.count_eq_zero_of_not_mem elsewhere, Nat.add_zero]
          exact dropped.counted g group' present' id member
      · intro id member
        rw [ids]
        rw [drops] at member
        rcases List.mem_append.mp member with earlier | now
        · exact dropped.own id earlier
        · apply List.mem_flatMap.mpr
          exact ⟨old, List.mem_of_getElem? present, mem_restart_drops now⟩

theorem nbRestarts_created {sobol : Bool} {draw : Nat → List D} {samplingSize batchSize : Int}
    {groups : List (Group D)}
    (created : createGroupList sobol draw samplingSize batchSize = some groups)
    {group : Group D} (member : group ∈ groups) : group.nbRestarts = 0 := by
  cases sobol with
  | false =>
      rw [createGroupList, if_neg Bool.false_ne_true, Option.some.injEq,
        foldl_createMultiSimuGroup] at created
      subst created
      obtain ⟨i, _, rfl⟩ := List.mem_map.mp member
      rfl
  | true =>
      obtain ⟨state, done, rfl, _⟩ := sobolCreated created
      obtain ⟨g, present⟩ := List.mem_iff_getElem?.mp member
      exact (done.new g group present).2.2.2.2

/-- In every run of the launcher's threads each simulation has been dropped once for every restart
of its group after the third, which only a Sobol group gets to, and nothing else is ever dropped. -/
theorem drops_counted {config : StudyConfig} {sobol : Bool} {draw : Nat → List D}
    {samplingSize : Int} {groups : List (Group D)} {events : List LauncherEvent}
    {launcher : Launcher D}
    (created : createGroupList sobol draw samplingSize config.batchSize = some groups)
    (reached : run (launcherStep config) (startLauncher groups) events = some launcher) :
    (∀ (g : Nat) (group : Group D), launcher.groups[g]? = some group →
      ∀ id ∈ dropIds group, launcher.drops.count id = group.nbRestarts - 3) ∧
    (∀ (g : Nat) (group : Group D), launcher.groups[g]? = some group → group.jobType = 3 →
      group.nbRestarts = 0) ∧
    ∀ id ∈ launcher.drops, id ∈ groups.flatMap dropIds := by
  have start : DropsCounted (startLauncher groups) := by
    refine ⟨distinct_created created, ?_, fun id none_yet => absurd none_yet List.not_mem_nil⟩
    intro g group present id _
    rw [nbRestarts_created created (List.mem_of_getElem? present)]
    rfl
  have dropped : DropsCounted launcher :=
    run_invariant (fun _ _ _ inv taken => dropsCounted_step inv taken) start reached
  have batches : BatchesUncounted launcher :=
    run_invariant (fun _ _ _ inv taken => batchesUncounted_step inv taken)
      (fun _ _ present _ => nbRestarts_created created (List.mem_of_getElem? present)) reached
  refine ⟨dropped.counted, batches, ?_⟩
  intro id member
  have own := dropped.own id member
  rw [flatMap_dropIds (map_identity_run reached)] at own
  exact own

end Drops

section Example

private def patient : StudyConfig :=
  { batchSize := 1, disableFaultTolerance := false, simulationTimeout := false }

/-- The group of a Sobol study with one parameter and one group. -/
private def loneGroup : List (Group Int) :=
  (createGroupList true (fun k => [(k : Int)]) 1 1).getD []

/-- A timeout of the group and the pass of the main thread that restarts it. -/
private def timedOutPass : List LauncherEvent :=
  .message (.timeout 0) :: List.replicate 7 (.main .returns false)

private def fiveTimeouts : List LauncherEvent :=
  (List.replicate 5 timedOutPass).flatten

/-- After the fourth restart the group counts as finished, but a timeout opens it again. -/
theorem drops_counted_fiveTimeouts :
    ∃ launcher, run (launcherStep patient) (startLauncher loneGroup) fiveTimeouts =
        some launcher ∧
      launcher.drops = [0, 0] ∧
      ((∀ (g : Nat) (group : Group Int), launcher.groups[g]? = some group →
        ∀ id ∈ dropIds group, launcher.drops.count id = group.nbRestarts - 3) ∧
      (∀ (g : Nat) (group : Group Int), launcher.groups[g]? = some group → group.jobType = 3 →
        group.nbRestarts = 0) ∧
      ∀ id ∈ launcher.drops, id ∈ loneGroup.flatMap dropIds) := by
  have reached : ((run (launcherStep patient) (startLauncher loneGroup) fiveTimeouts).map
      fun launcher => launcher.drops) = some [0, 0] := by decide
  obtain ⟨launcher, taken, twice⟩ := Option.map_eq_some_iff.mp reached
  have created : createGroupList true (fun k => [(k : Int)]) 1 patient.batchSize =
      some loneGroup := by decide
  exact ⟨launcher, taken, twice, drops_counted created taken⟩

end Example

end Melissa
