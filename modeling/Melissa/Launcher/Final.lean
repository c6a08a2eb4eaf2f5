import Melissa.Base.Runs
import Melissa.Launcher.State
import Mathlib.Data.List.Nodup

/-! Finished groups stay finished in the launcher. Every step of a thread writes at most one
group, or restarts it; what the step means for a finished group is read off from that. -/

namespace Melissa

open Runs

section Effect

variable {D : Type}

/-- What a step does to the groups. -/
inductive Effect (D : Type) where
  | nothing
  | write (g : Nat) (change : Group D → Group D)
  | restart (g : Nat) (outcome : UserOutcome)

def messageEffect (batchSize : Int) (launcher : Launcher D) : ServerMessage → Effect D
  | .timeout simuId =>
      if simuId = -1 then .nothing
      else
        match pyIndex launcher.groups.length (simuId / batchSize) with
        | none => .nothing
        | some g => .write g fun group => { group with status := timedOutStatus }
  | .groupState simuId status =>
      match pyIndex launcher.groups.length (simuId / batchSize) with
      | none => .nothing
      | some g => .write g fun group => (groupState (simuId % batchSize).toNat status group).1
  | _ => .nothing

/-- A restart of the group `g`, if the condition holds of it. -/
def restartIf (launcher : Launcher D) (g : Nat) (outcome : UserOutcome)
    (condition : Group D → Bool) : Effect D :=
  if (launcher.groups[g]?.any condition) = true then .restart g outcome else .nothing

def mainEffect (config : StudyConfig) (outcome : UserOutcome) (late : Bool)
    (launcher : Launcher D) : Effect D :=
  match launcher.phase with
  | .submitted => .write launcher.launched fun group => { group with status := waiting }
  | .restartLocked i => restartIf launcher i outcome fun _ => true
  | .asleep i => restartIf launcher i outcome fun group => decide (group.status ≤ running)
  | .timeouts i => restartIf launcher i outcome fun group =>
      decide (group.status = waiting ∧ group.jobStatus = running ∧
        config.simulationTimeout = true ∧ late = true ∨ group.status = timedOutStatus)
  | _ => .nothing

def effect (config : StudyConfig) (launcher : Launcher D) : LauncherEvent → Effect D
  | .message msg => messageEffect config.batchSize launcher msg
  | .stopNext =>
      match launcher.messenger with
      | .stopping next => .write next fun group => { group with status := finished }
      | _ => .nothing
  | .serverTimeout => .nothing
  | .checkServerJob _ => .nothing
  | .checkGroupJob i jobStatus => .write i fun group => checkGroupJob group jobStatus
  | .launch outcome =>
      if outcome = .launchRaises then .nothing
      else .write launcher.launched fun group => { group with jobStatus := waiting }
  | .main outcome late => mainEffect config outcome late launcher

/-- The launcher after an effect, as far as the groups and the calls are concerned. -/
inductive HasEffect (launcher launcher' : Launcher D) : Effect D → Prop where
  | nothing (groups : launcher'.groups = launcher.groups) (drops : launcher'.drops = launcher.drops)
      (restarts : launcher'.restarts = launcher.restarts) :
      HasEffect launcher launcher' .nothing
  | write (g : Nat) (change : Group D → Group D)
      (groups : launcher'.groups = launcher.groups.modify g change)
      (drops : launcher'.drops = launcher.drops)
      (restarts : launcher'.restarts = launcher.restarts) :
      HasEffect launcher launcher' (.write g change)
  | restart (g : Nat) (outcome : UserOutcome) (group : Group D)
      (present : launcher.groups[g]? = some group)
      (groups : launcher'.groups = launcher.groups.set g (restart outcome group).1)
      (drops : launcher'.drops = launcher.drops ++ (Melissa.restart outcome group).2.1)
      (restarts : launcher'.restarts = launcher.restarts ++ [g]) :
      HasEffect launcher launcher' (.restart g outcome)

private theorem handleMessage_effect (batchSize : Int) (launcher : Launcher D)
    (msg : ServerMessage) :
    HasEffect launcher (handleMessage batchSize launcher msg)
      (messageEffect batchSize launcher msg) := by
  cases msg with
  | stop => exact .nothing rfl rfl rfl
  | timeout simuId =>
      simp only [handleMessage, messageEffect]
      split
      · exact .nothing rfl rfl rfl
      · cases pyIndex launcher.groups.length (simuId / batchSize) with
        | none => exact .nothing rfl rfl rfl
        | some g => exact .write g _ rfl rfl rfl
  | groupState simuId status =>
      simp only [handleMessage, messageEffect]
      cases pyIndex launcher.groups.length (simuId / batchSize) with
      | none => exact .nothing rfl rfl rfl
      | some g =>
          simp only [Option.bind_some]
          cases present : launcher.groups[g]? with
          | none =>
              refine .write g _ ?_ rfl rfl
              rw [List.modify_eq_set_getElem?, present]
              rfl
          | some group =>
              refine .write g _ ?_ rfl rfl
              rw [List.modify_eq_set_getElem?, present]
              rfl
  | server => exact .nothing rfl rfl rfl
  | other => exact .nothing rfl rfl rfl

private theorem restartAt_effect {launcher : Launcher D} (outcome : UserOutcome) {i : Nat}
    (next : Phase) {group : Group D} (present : launcher.groups[i]? = some group) :
    HasEffect launcher (restartAt outcome i next launcher) (.restart i outcome) := by
  refine .restart i outcome group present ?_ ?_ ?_
  · rw [restartAt, present]
  · rw [restartAt, present]
  · rw [restartAt, present]

private theorem restartIf_effect {launcher : Launcher D} (outcome : UserOutcome) {i : Nat}
    (next other : Phase) {group : Group D} (present : launcher.groups[i]? = some group)
    (condition : Group D → Prop) [DecidablePred condition] :
    HasEffect launcher
      (if condition group then restartAt outcome i next launcher
        else { launcher with phase := other })
      (restartIf launcher i outcome fun group => decide (condition group)) := by
  simp only [restartIf, present, Option.any_some, decide_eq_true_eq]
  split
  · exact restartAt_effect outcome next present
  · exact .nothing rfl rfl rfl

private theorem mainStep_effect {config : StudyConfig} {outcome : UserOutcome} {late : Bool}
    {launcher launcher' : Launcher D}
    (taken : mainStep config outcome late launcher = some launcher') :
    HasEffect launcher launcher' (mainEffect config outcome late launcher) := by
  cases phase : launcher.phase <;> simp only [mainStep, mainEffect, phase] at taken ⊢
  case outside | readStop | readJob | readFinished | scan | cancelTest | cancelLocked |
      restartTest | loopTest | loopLocked =>
    cases taken
    exact .nothing rfl rfl rfl
  case submitted =>
    cases taken
    exact .write _ _ rfl rfl rfl
  case readStatus wantStop =>
    cases wantStop with
    | true => cases taken; exact .nothing rfl rfl rfl
    | false => cases taken; exact .nothing rfl rfl rfl
  case restartServer =>
    cases taken
    split
    · exact .nothing rfl rfl rfl
    · exact .nothing rfl rfl rfl
  case waitStart =>
    split at taken
    · cases taken
    · cases taken
      exact .nothing rfl rfl rfl
  case restartLocked i =>
    cases taken
    cases present : launcher.groups[i]? with
    | none =>
        simp only [restartIf, present, Option.any_none, Bool.false_eq_true, if_false]
        exact .nothing (by rw [restartAt, present]) (by rw [restartAt, present])
          (by rw [restartAt, present])
    | some group =>
        simp only [restartIf, present, Option.any_some, if_true]
        exact restartAt_effect outcome _ present
  case asleep i =>
    obtain ⟨group, present, rfl⟩ := Option.map_eq_some_iff.mp taken
    exact restartIf_effect outcome _ _ present fun group => group.status ≤ running
  case timeouts i =>
    obtain ⟨group, present, rfl⟩ := Option.map_eq_some_iff.mp taken
    exact restartIf_effect outcome _ _ present fun group =>
      group.status = waiting ∧ group.jobStatus = running ∧ config.simulationTimeout = true ∧
        late = true ∨ group.status = timedOutStatus
  case ended => cases taken

/-- What a step does to the groups depends on the state before it and the event only. -/
theorem launcherStep_effect {config : StudyConfig} {launcher launcher' : Launcher D}
    {event : LauncherEvent} (taken : launcherStep config launcher event = some launcher') :
    HasEffect launcher launcher' (effect config launcher event) := by
  cases event with
  | message msg =>
      simp only [launcherStep] at taken
      split at taken
      · cases taken
        exact handleMessage_effect config.batchSize launcher msg
      · cases taken
  | stopNext =>
      cases messenger : launcher.messenger with
      | idle => simp [launcherStep, messenger] at taken
      | crashed => simp [launcherStep, messenger] at taken
      | stopping next =>
          simp only [launcherStep, messenger, Option.some.injEq] at taken
          simp only [effect, messenger]
          subst taken
          unfold stopNext
          split
          · exact .write next _ rfl rfl rfl
          · refine .write next _ ?_ rfl rfl
            rename_i behind
            rw [List.modify_eq_self (Nat.le_of_not_lt behind)]
  | serverTimeout =>
      simp only [launcherStep] at taken
      split at taken
      · cases taken
        exact .nothing rfl rfl rfl
      · cases taken
  | checkServerJob jobStatus =>
      cases taken
      exact .nothing rfl rfl rfl
  | checkGroupJob i jobStatus =>
      cases taken
      exact .write i _ rfl rfl rfl
  | launch outcome =>
      simp only [launcherStep, launchNext] at taken
      split at taken
      · cases taken
        simp only [effect]
        split
        · exact .nothing rfl rfl rfl
        · exact .write _ _ rfl rfl rfl
      · cases taken
  | main outcome late => exact mainStep_effect taken

end Effect

section Kept

variable {D : Type}

/-- A group with this number is there and finished. -/
def FinishedAt (launcher : Launcher D) (g : Nat) : Prop :=
  ∃ group, launcher.groups[g]? = some group ∧ group.status = finished

/-- Finished groups stay so and are not restarted. -/
def KeepsFinished (launcher launcher' : Launcher D) : Prop :=
  ∀ g, FinishedAt launcher g →
    FinishedAt launcher' g ∧ launcher'.restarts.count g = launcher.restarts.count g

/-- The condition on a message: a timeout does not name a finished group, and no other status
than FINISHED is reported of a finished Sobol group. -/
def MessageSafe (batchSize : Int) (launcher : Launcher D) : ServerMessage → Prop
  | .timeout simuId => simuId ≠ -1 →
      ∀ g, pyIndex launcher.groups.length (simuId / batchSize) = some g → ¬ FinishedAt launcher g
  | .groupState simuId status =>
      ∀ g group, pyIndex launcher.groups.length (simuId / batchSize) = some g →
        launcher.groups[g]? = some group → group.jobType ≠ 3 → group.status = finished →
        status = finished
  | _ => True

/-- The condition on a step of the main thread: the group whose launch it ends, or which it
restarts after a crash of the server, has not become finished in the meantime. -/
def PhaseSafe (launcher : Launcher D) : Phase → Prop
  | .submitted => ¬ FinishedAt launcher launcher.launched
  | .restartLocked i => ¬ FinishedAt launcher i
  | _ => True

def StepSafe (config : StudyConfig) (launcher : Launcher D) : LauncherEvent → Prop
  | .message msg => MessageSafe config.batchSize launcher msg
  | .main _ _ => PhaseSafe launcher launcher.phase
  | _ => True

private theorem keepsFinished_of_same {launcher launcher' : Launcher D}
    (groups : launcher'.groups = launcher.groups)
    (restarts : launcher'.restarts = launcher.restarts) : KeepsFinished launcher launcher' := by
  intro g ended
  rw [restarts]
  exact ⟨by rwa [FinishedAt, groups], rfl⟩

/-- A write keeps the finished groups exactly if it keeps its own group. -/
private theorem keepsFinished_write_iff {launcher launcher' : Launcher D} {g : Nat}
    {change : Group D → Group D} (groups : launcher'.groups = launcher.groups.modify g change)
    (restarts : launcher'.restarts = launcher.restarts) :
    KeepsFinished launcher launcher' ↔
      ∀ group, launcher.groups[g]? = some group → group.status = finished →
        (change group).status = finished := by
  have at_ (g' : Nat) : launcher'.groups[g']? =
      launcher.groups[g']?.map fun group => if g = g' then change group else group := by
    rw [groups, List.getElem?_modify]
    cases launcher.groups[g']? with
    | none => rfl
    | some group =>
        by_cases same : g = g'
        · simp [same]
        · simp [same]
  constructor
  · intro kept group present ended
    obtain ⟨⟨group', present', ended'⟩, _⟩ := kept g ⟨group, present, ended⟩
    rw [at_, present, Option.map_some, if_pos rfl, Option.some.injEq] at present'
    rw [present']
    exact ended'
  · intro own g' ended
    obtain ⟨group, present, status⟩ := ended
    rw [restarts]
    refine ⟨⟨_, by rw [at_, present, Option.map_some], ?_⟩, rfl⟩
    split
    · rename_i same
      subst same
      exact own group present status
    · exact status

/-- A restart keeps the finished groups exactly if its own group is not finished. -/
private theorem keepsFinished_restart_iff {launcher launcher' : Launcher D} {g : Nat}
    {group group' : Group D} (present : launcher.groups[g]? = some group)
    (groups : launcher'.groups = launcher.groups.set g group')
    (restarts : launcher'.restarts = launcher.restarts ++ [g]) :
    KeepsFinished launcher launcher' ↔ group.status ≠ finished := by
  constructor
  · intro kept ended
    have counted := (kept g ⟨group, present, ended⟩).2
    rw [restarts, List.count_append, List.count_singleton_self] at counted
    omega
  · intro unfinished g' ended
    obtain ⟨other, present', status⟩ := ended
    have apart : g ≠ g' := by
      rintro rfl
      rw [present, Option.some.injEq] at present'
      exact unfinished (by rw [present', status])
    refine ⟨⟨other, by rw [groups, List.getElem?_set_ne apart, present'], status⟩, ?_⟩
    rw [restarts, List.count_append, List.count_singleton, if_neg (by simpa using apart)]
    rfl

private theorem keepsFinished_nothing {launcher launcher' : Launcher D}
    (hasEffect : HasEffect launcher launcher' .nothing) : KeepsFinished launcher launcher' := by
  cases hasEffect with
  | nothing groups drops restarts => exact keepsFinished_of_same groups restarts

private theorem keepsFinished_write {launcher launcher' : Launcher D} {g : Nat}
    {change : Group D → Group D} (hasEffect : HasEffect launcher launcher' (.write g change)) :
    KeepsFinished launcher launcher' ↔
      ∀ group, launcher.groups[g]? = some group → group.status = finished →
        (change group).status = finished := by
  cases hasEffect with
  | write _ _ groups drops restarts => exact keepsFinished_write_iff groups restarts

/-- A write of another status. -/
private theorem keepsFinished_overwrite {launcher launcher' : Launcher D} {g : Nat}
    {change : Group D → Group D} (hasEffect : HasEffect launcher launcher' (.write g change))
    (other : ∀ group, (change group).status ≠ finished) :
    KeepsFinished launcher launcher' ↔ ¬ FinishedAt launcher g := by
  rw [keepsFinished_write hasEffect]
  constructor
  · rintro own ⟨group, present, ended⟩
    exact other group (own group present ended)
  · intro unfinished group present ended
    exact absurd ⟨group, present, ended⟩ unfinished

private theorem keepsFinished_restartIf {launcher launcher' : Launcher D} {g : Nat}
    {outcome : UserOutcome} {condition : Group D → Bool}
    (hasEffect : HasEffect launcher launcher' (restartIf launcher g outcome condition)) :
    KeepsFinished launcher launcher' ↔
      ∀ group, launcher.groups[g]? = some group → condition group = true →
        group.status ≠ finished := by
  unfold restartIf at hasEffect
  split at hasEffect
  · rename_i holds
    cases hasEffect with
    | restart _ _ group present groups drops restarts =>
        rw [keepsFinished_restart_iff present groups restarts]
        rw [present, Option.any_some] at holds
        constructor
        · intro unfinished group' present' _
          rw [present, Option.some.injEq] at present'
          rwa [← present']
        · intro unfinished
          exact unfinished group present holds
  · rename_i fails
    refine iff_of_true (keepsFinished_nothing hasEffect) ?_
    intro group present holds
    rw [present, Option.any_some] at fails
    exact absurd holds fails

/-- A finished batch stays so whatever is reported of it; a Sobol group takes every status. -/
private theorem groupState_finished (simuId : Nat) (status : Int) {group : Group D}
    (ended : group.status = finished) :
    (groupState simuId status group).1.status = finished ↔
      (group.jobType ≠ 3 → status = finished) := by
  unfold groupState
  by_cases batch : group.jobType = 3
  · have late : ¬ group.status < 2 := by
      rw [ended]
      decide
    rw [if_pos batch]
    simp only [if_neg late]
    refine iff_of_true ?_ fun other => absurd batch other
    split
    · split
      · rfl
      · exact ended
    · exact ended
  · rw [if_neg batch]
    exact ⟨fun same _ => same, fun same => same batch⟩

private theorem messageSafe_iff {batchSize : Int} {launcher launcher' : Launcher D}
    {msg : ServerMessage}
    (hasEffect : HasEffect launcher launcher' (messageEffect batchSize launcher msg)) :
    MessageSafe batchSize launcher msg ↔ KeepsFinished launcher launcher' := by
  cases msg with
  | stop => exact iff_of_true trivial (keepsFinished_nothing hasEffect)
  | timeout simuId =>
      simp only [messageEffect] at hasEffect
      simp only [MessageSafe]
      by_cases silent : simuId = -1
      · rw [if_pos silent] at hasEffect
        exact iff_of_true (fun other => absurd silent other) (keepsFinished_nothing hasEffect)
      · rw [if_neg silent] at hasEffect
        cases index : pyIndex launcher.groups.length (simuId / batchSize) with
        | none =>
            rw [index] at hasEffect
            refine iff_of_true (fun _ g found => ?_) (keepsFinished_nothing hasEffect)
            cases found
        | some g =>
            rw [index] at hasEffect
            rw [keepsFinished_overwrite hasEffect fun _ => (by decide : timedOutStatus ≠ finished)]
            constructor
            · intro safe
              exact safe silent g rfl
            · intro unfinished _ g' found
              cases found
              exact unfinished
  | groupState simuId status =>
      simp only [messageEffect] at hasEffect
      simp only [MessageSafe]
      cases index : pyIndex launcher.groups.length (simuId / batchSize) with
      | none =>
          rw [index] at hasEffect
          refine iff_of_true (fun g group found => ?_) (keepsFinished_nothing hasEffect)
          cases found
      | some g =>
          rw [index] at hasEffect
          rw [keepsFinished_write hasEffect]
          constructor
          · intro safe group present ended
            rw [groupState_finished _ _ ended]
            intro sobol
            exact safe g group rfl present sobol ended
          · intro own g' group found present sobol ended
            cases found
            exact (groupState_finished _ _ ended).mp (own group present ended) sobol
  | server => exact iff_of_true trivial (keepsFinished_nothing hasEffect)
  | other => exact iff_of_true trivial (keepsFinished_nothing hasEffect)

private theorem phaseSafe_iff {config : StudyConfig} {outcome : UserOutcome} {late : Bool}
    {launcher launcher' : Launcher D}
    (hasEffect : HasEffect launcher launcher' (mainEffect config outcome late launcher)) :
    PhaseSafe launcher launcher.phase ↔ KeepsFinished launcher launcher' := by
  unfold mainEffect at hasEffect
  cases phase : launcher.phase <;> simp only [phase] at hasEffect
  case submitted =>
    rw [keepsFinished_overwrite hasEffect fun _ => (by decide : waiting ≠ finished)]
    rfl
  case restartLocked i =>
    rw [keepsFinished_restartIf hasEffect]
    constructor
    · intro unfinished group present _ ended
      exact unfinished ⟨group, present, ended⟩
    · rintro open_ ⟨group, present, ended⟩
      exact open_ group present rfl ended
  case asleep i =>
    rw [keepsFinished_restartIf hasEffect]
    refine iff_of_true trivial ?_
    intro group _ low ended
    rw [ended] at low
    exact absurd low (by decide)
  case timeouts i =>
    rw [keepsFinished_restartIf hasEffect]
    refine iff_of_true trivial ?_
    intro group _ holds ended
    rw [decide_eq_true_eq] at holds
    rcases holds with ⟨idle, _⟩ | late
    · rw [ended] at idle
      exact absurd idle (by decide)
    · rw [ended] at late
      exact absurd late (by decide)
  all_goals exact iff_of_true trivial (keepsFinished_nothing hasEffect)

/-- A step keeps the finished groups exactly if it is safe. -/
theorem stepSafe_iff {config : StudyConfig} {launcher launcher' : Launcher D}
    {event : LauncherEvent} (taken : launcherStep config launcher event = some launcher') :
    StepSafe config launcher event ↔ KeepsFinished launcher launcher' := by
  have hasEffect := launcherStep_effect taken
  cases event with
  | message msg => exact messageSafe_iff hasEffect
  | stopNext =>
      simp only [effect] at hasEffect
      refine iff_of_true trivial ?_
      split at hasEffect
      · rw [keepsFinished_write hasEffect]
        intro group _ _
        rfl
      · exact keepsFinished_nothing hasEffect
  | serverTimeout => exact iff_of_true trivial (keepsFinished_nothing hasEffect)
  | checkServerJob jobStatus => exact iff_of_true trivial (keepsFinished_nothing hasEffect)
  | checkGroupJob i jobStatus =>
      refine iff_of_true trivial ((keepsFinished_write hasEffect).mpr ?_)
      intro group _ ended
      unfold checkGroupJob
      split
      · exact ended
      · exact ended
  | launch outcome =>
      simp only [effect] at hasEffect
      refine iff_of_true trivial ?_
      split at hasEffect
      · exact keepsFinished_nothing hasEffect
      · rw [keepsFinished_write hasEffect]
        intro group _ ended
        exact ended
  | main outcome late => exact phaseSafe_iff hasEffect

end Kept

section Drops

variable {D : Type}

/-- What was dropped belongs to finished groups, and nothing was dropped twice. -/
structure DroppedOnce (launcher : Launcher D) : Prop where
  distinct : (launcher.groups.flatMap dropIds).Nodup
  once : launcher.drops.Nodup
  ended : ∀ id ∈ launcher.drops, ∃ (g : Nat) (group : Group D),
    launcher.groups[g]? = some group ∧ group.status = finished ∧ id ∈ dropIds group

theorem dropIds_groupState (simuId : Nat) (status : Int) (group : Group D) :
    dropIds (groupState simuId status group).1 = dropIds group := by
  have same : (groupState simuId status group).1.jobType = group.jobType ∧
      (groupState simuId status group).1.simuId = group.simuId ∧
      (groupState simuId status group).1.groupId = group.groupId := by
    grind [groupState]
  rw [dropIds, same.1, same.2.1, same.2.2, dropIds]

theorem dropIds_restart (outcome : UserOutcome) (group : Group D) :
    dropIds (restart outcome group).1 = dropIds group := by
  unfold restart
  split
  · rfl
  · dsimp only
    split
    · rfl
    · split <;> rfl

/-- A restart that drops the simulations of its group finishes the group. -/
theorem restart_drops (outcome : UserOutcome) (group : Group D) :
    (restart outcome group).2.1 = [] ∨
      (restart outcome group).2.1 = dropIds group ∧
        (restart outcome group).1.status = finished := by
  unfold restart
  split
  · exact Or.inl rfl
  · dsimp only
    split
    · exact Or.inr ⟨rfl, rfl⟩
    · split
      · exact Or.inl rfl
      · exact Or.inl rfl

/-- No write changes the numbers of a group. -/
private theorem dropIds_messageEffect {batchSize : Int} {launcher : Launcher D}
    {msg : ServerMessage} {g : Nat} {change : Group D → Group D}
    (written : messageEffect batchSize launcher msg = .write g change) (group : Group D) :
    dropIds (change group) = dropIds group := by
  cases msg with
  | stop => cases written
  | timeout simuId =>
      simp only [messageEffect] at written
      split at written
      · cases written
      · split at written
        · cases written
        · cases written
          rfl
  | groupState simuId status =>
      simp only [messageEffect] at written
      split at written
      · cases written
      · cases written
        exact dropIds_groupState _ status group
  | server => cases written
  | other => cases written

private theorem dropIds_mainEffect {config : StudyConfig} {outcome : UserOutcome} {late : Bool}
    {launcher : Launcher D} {g : Nat} {change : Group D → Group D}
    (written : mainEffect config outcome late launcher = .write g change) (group : Group D) :
    dropIds (change group) = dropIds group := by
  have noRestart {i : Nat} {outcome : UserOutcome} {condition : Group D → Bool}
      (same : restartIf launcher i outcome condition = .write g change) : False := by
    unfold restartIf at same
    split at same
    · cases same
    · cases same
  unfold mainEffect at written
  split at written
  · cases written
    rfl
  · exact (noRestart written).elim
  · exact (noRestart written).elim
  · exact (noRestart written).elim
  · cases written

private theorem dropIds_write {config : StudyConfig} {launcher : Launcher D}
    {event : LauncherEvent} {g : Nat} {change : Group D → Group D}
    (written : effect config launcher event = .write g change) (group : Group D) :
    dropIds (change group) = dropIds group := by
  cases event with
  | message msg => exact dropIds_messageEffect written group
  | stopNext =>
      simp only [effect] at written
      split at written
      · cases written
        rfl
      · cases written
  | serverTimeout => cases written
  | checkServerJob jobStatus => cases written
  | checkGroupJob i jobStatus =>
      cases written
      change dropIds (checkGroupJob group jobStatus) = dropIds group
      unfold checkGroupJob
      split
      · rfl
      · rfl
  | launch outcome =>
      simp only [effect] at written
      split at written
      · cases written
      · cases written
        rfl
  | main outcome late => exact dropIds_mainEffect written group

private theorem map_dropIds_step {config : StudyConfig} {launcher launcher' : Launcher D}
    {event : LauncherEvent} (taken : launcherStep config launcher event = some launcher') :
    launcher'.groups.map dropIds = launcher.groups.map dropIds := by
  have hasEffect := launcherStep_effect taken
  generalize found : effect config launcher event = done at hasEffect
  cases hasEffect with
  | nothing groups drops restarts => rw [groups]
  | write g change groups drops restarts =>
      rw [groups]
      apply List.ext_getElem?
      intro i
      rw [List.getElem?_map, List.getElem?_map, List.getElem?_modify]
      cases launcher.groups[i]? with
      | none => rfl
      | some group =>
          by_cases same : g = i
          · simp [same, dropIds_write found]
          · simp [same]
  | restart g outcome group present groups drops restarts =>
      rw [groups]
      obtain ⟨inside, here⟩ := List.getElem?_eq_some_iff.mp present
      have bound : g < (launcher.groups.map dropIds).length := by simpa using inside
      have unchanged : dropIds (restart outcome group).1 = (launcher.groups.map dropIds)[g] := by
        rw [dropIds_restart, List.getElem_map, here]
      rw [List.map_set, unchanged, List.set_getElem_self]

/-- Different groups have different numbers. -/
theorem disjoint_dropIds {groups : List (Group D)}
    (distinct : (groups.flatMap dropIds).Nodup) {g g' : Nat} {group group' : Group D}
    (present : groups[g]? = some group) (present' : groups[g']? = some group') {id : Nat}
    (member : id ∈ dropIds group) (member' : id ∈ dropIds group') : g = g' := by
  obtain ⟨inside, here⟩ := List.getElem?_eq_some_iff.mp present
  obtain ⟨inside', here'⟩ := List.getElem?_eq_some_iff.mp present'
  obtain ⟨_, apart⟩ := List.nodup_flatMap.mp distinct
  rw [List.pairwise_iff_getElem] at apart
  by_contra different
  rcases Nat.lt_or_gt_of_ne different with before | behind
  · have disjoint := apart g g' inside inside' before
    rw [here, here'] at disjoint
    exact disjoint member member'
  · have disjoint := apart g' g inside' inside behind
    rw [here, here'] at disjoint
    exact disjoint member' member

theorem droppedOnce_step {config : StudyConfig} {launcher launcher' : Launcher D}
    {event : LauncherEvent} (taken : launcherStep config launcher event = some launcher')
    (kept : KeepsFinished launcher launcher') (dropped : DroppedOnce launcher) :
    DroppedOnce launcher' := by
  have ids := map_dropIds_step taken
  have distinct : (launcher'.groups.flatMap dropIds).Nodup := by
    rw [List.flatMap, ids]
    exact dropped.distinct
  have still (id : Nat) (member : id ∈ launcher.drops) : ∃ (g : Nat) (group : Group D),
      launcher'.groups[g]? = some group ∧ group.status = finished ∧ id ∈ dropIds group := by
    obtain ⟨g, group, present, ended, own⟩ := dropped.ended id member
    obtain ⟨⟨group', present', ended'⟩, _⟩ := kept g ⟨group, present, ended⟩
    have same : dropIds group' = dropIds group := by
      have here := congrArg (fun list => list[g]?) ids
      simpa [present, present'] using here
    exact ⟨g, group', present', ended', by rw [same]; exact own⟩
  have hasEffect := launcherStep_effect taken
  generalize effect config launcher event = done at hasEffect
  cases hasEffect with
  | nothing groups drops restarts =>
      rw [← drops] at still
      exact ⟨distinct, by rw [drops]; exact dropped.once, still⟩
  | write g change groups drops restarts =>
      rw [← drops] at still
      exact ⟨distinct, by rw [drops]; exact dropped.once, still⟩
  | restart g outcome group present groups drops restarts =>
      rcases restart_drops outcome group with silent | ⟨all, ended⟩
      · rw [silent, List.append_nil] at drops
        rw [← drops] at still
        exact ⟨distinct, by rw [drops]; exact dropped.once, still⟩
      · rw [all] at drops
        have unfinished := (keepsFinished_restart_iff present groups restarts).mp kept
        obtain ⟨inside, here⟩ := List.getElem?_eq_some_iff.mp present
        refine ⟨distinct, ?_, ?_⟩
        · rw [drops, List.nodup_append]
          refine ⟨dropped.once, ?_, ?_⟩
          · apply (List.nodup_flatMap.mp dropped.distinct).1
            rw [← here]
            exact List.getElem_mem inside
          · rintro id earlier _ own rfl
            obtain ⟨g', group', present', ended', member⟩ := dropped.ended id earlier
            have same := disjoint_dropIds dropped.distinct present present' own member
            subst same
            rw [present, Option.some.injEq] at present'
            exact unfinished (by rw [present', ended'])
        · intro id member
          rw [drops] at member
          rcases List.mem_append.mp member with earlier | own
          · exact still id earlier
          · refine ⟨g, (restart outcome group).1, ?_, ended, ?_⟩
            · rw [groups, List.getElem?_set_self inside]
            · rw [dropIds_restart]
              exact own

theorem distinct_created {sobol : Bool} {draw : Nat → List D} {samplingSize batchSize : Int}
    {groups : List (Group D)}
    (created : createGroupList sobol draw samplingSize batchSize = some groups) :
    (groups.flatMap dropIds).Nodup := by
  cases sobol with
  | false =>
      rw [createGroupList, if_neg Bool.false_ne_true, Option.some.injEq,
        foldl_createMultiSimuGroup] at created
      subst created
      have same : ((List.range (samplingSize / batchSize).toNat).map
          (batchGroup draw batchSize.toNat)).flatMap dropIds =
          List.range ((samplingSize / batchSize).toNat * batchSize.toNat) := by
        rw [← flatMap_simuId_batches draw, List.flatMap_map, List.flatMap_map]
        rfl
      rw [same]
      exact List.nodup_range
  | true =>
      rw [createGroupList, if_pos rfl, Option.map_eq_some_iff] at created
      obtain ⟨state, made, rfl⟩ := created
      have numbered : SobolNumbered state := sobolNumbered_foldlM ⟨rfl, by simp [noGroups]⟩ made
      have same : state.groups.flatMap dropIds = List.range state.counters.nbGroups := by
        rw [← numbered.groupIds, List.map_eq_flatMap]
        apply List.flatMap_congr
        intro group member
        rw [dropIds, numbered.jobType group member]
        rfl
      rw [same]
      exact List.nodup_range

end Drops

section Runs

variable {D : Type}

/-- Along a run no finished group changes its status or is restarted, and no simulation is
dropped twice. -/
def FinishedFinal (config : StudyConfig) (start : Launcher D) (events : List LauncherEvent) :
    Prop :=
  ∀ front middle back mid last, events = front ++ middle ++ back →
    run (launcherStep config) start front = some mid →
    run (launcherStep config) mid middle = some last →
    KeepsFinished mid last ∧ last.drops.Nodup

private theorem keepsFinished_trans {first second third : Launcher D}
    (left : KeepsFinished first second) (right : KeepsFinished second third) :
    KeepsFinished first third := by
  intro g ended
  obtain ⟨ended', same⟩ := left g ended
  obtain ⟨ended'', same'⟩ := right g ended'
  exact ⟨ended'', same'.trans same⟩

private theorem droppedOnce_run {config : StudyConfig} {start last : Launcher D}
    {events : List LauncherEvent} (dropped : DroppedOnce start)
    (along : Along (launcherStep config)
      (fun launcher _ launcher' => KeepsFinished launcher launcher') start events)
    (reached : run (launcherStep config) start events = some last) : DroppedOnce last := by
  induction events generalizing start with
  | nil =>
      cases reached
      exact dropped
  | cons event events ih =>
      obtain ⟨next, taken, onward⟩ := Option.bind_eq_some_iff.mp reached
      obtain ⟨kept, later⟩ := along next taken
      exact ih (droppedOnce_step taken kept dropped) later onward

theorem finishedFinal_iff_along {config : StudyConfig} {start : Launcher D}
    (dropped : DroppedOnce start) (events : List LauncherEvent) :
    FinishedFinal config start events ↔
      Along (launcherStep config) (fun launcher _ launcher' => KeepsFinished launcher launcher')
        start events := by
  constructor
  · intro final
    rw [along_iff]
    intro front e back mid next cut reached taken
    have one : run (launcherStep config) mid [e] = some next := by
      rw [run_cons, taken]
      rfl
    exact (final front [e] back mid next (by rw [cut]; simp) reached one).1
  · intro along front middle back mid last cut reached onward
    subst cut
    have whole : run (launcherStep config) start (front ++ middle) = some last := by
      rw [run_append, reached, Option.bind_some, onward]
    obtain ⟨upTo, _⟩ := along_append along whole
    obtain ⟨_, after⟩ := along_append upTo reached
    refine ⟨?_, (droppedOnce_run dropped upTo whole).once⟩
    exact along_run (KeepsFinished mid) (fun _ _ _ kept earlier =>
      keepsFinished_trans earlier kept) after (fun g ended => ⟨ended, rfl⟩) onward

/-- FINISHED is final in a run of the launcher exactly if every step of the run is safe. -/
theorem finishedFinal_iff {config : StudyConfig} {sobol : Bool} {draw : Nat → List D}
    {samplingSize : Int} {groups : List (Group D)}
    (created : createGroupList sobol draw samplingSize config.batchSize = some groups)
    (events : List LauncherEvent) :
    FinishedFinal config (startLauncher groups) events ↔
      ∀ front event back launcher launcher', events = front ++ event :: back →
        run (launcherStep config) (startLauncher groups) front = some launcher →
        launcherStep config launcher event = some launcher' →
        StepSafe config launcher event := by
  have dropped : DroppedOnce (startLauncher groups) :=
    ⟨distinct_created created, List.nodup_nil, by simp [startLauncher]⟩
  rw [finishedFinal_iff_along dropped, along_iff]
  constructor
  · intro kept front event back launcher launcher' cut reached taken
    exact (stepSafe_iff taken).mpr (kept front event back launcher launcher' cut reached taken)
  · intro safe front event back launcher launcher' cut reached taken
    exact (stepSafe_iff taken).mp (safe front event back launcher launcher' cut reached taken)

end Runs

section Example

private def oneByOne : StudyConfig :=
  { batchSize := 1, disableFaultTolerance := false, simulationTimeout := true }

/-- A pass, the launch of the only group, both reports of its simulation, and a timeout message of
the server that comes late. -/
private def lateTimeout : List LauncherEvent :=
  List.replicate 7 (.main .returns false) ++
    [.launch .returns, .main .returns false, .message (.groupState 0 1),
      .message (.groupState 0 2), .message (.timeout 0)]

private def oneGroup : List (Group Int) := [batchGroup (fun k => [(k : Int)]) 1 0]

theorem finishedFinal_iff_lateTimeout :
    FinishedFinal oneByOne (startLauncher oneGroup) lateTimeout ↔
      ∀ front event back launcher launcher', lateTimeout = front ++ event :: back →
        run (launcherStep oneByOne) (startLauncher oneGroup) front = some launcher →
        launcherStep oneByOne launcher event = some launcher' →
        StepSafe oneByOne launcher event := by
  have created : createGroupList false (fun k => [(k : Int)]) 1 oneByOne.batchSize =
      some oneGroup := rfl
  exact finishedFinal_iff created lateTimeout

/-- The finished group gets status TIMEOUT. -/
theorem not_finishedFinal_lateTimeout :
    ¬ FinishedFinal oneByOne (startLauncher oneGroup) lateTimeout := by
  intro final
  have before : (run (launcherStep oneByOne) (startLauncher oneGroup) (lateTimeout.take 11)).map
      (fun launcher => launcher.groups.map Group.status) = some [finished] := by decide +kernel
  have after : (run (launcherStep oneByOne) (startLauncher oneGroup) lateTimeout).map
      (fun launcher => launcher.groups.map Group.status) = some [timedOutStatus] := by
    decide +kernel
  obtain ⟨mid, reached, ended⟩ := Option.map_eq_some_iff.mp before
  obtain ⟨last, whole, shown⟩ := Option.map_eq_some_iff.mp after
  rw [← List.take_append_drop 11 lateTimeout, run_append, reached, Option.bind_some] at whole
  have kept := (final (lateTimeout.take 11) (lateTimeout.drop 11) [] mid last (by simp) reached
    whole).1
  obtain ⟨group, single, status⟩ := List.map_eq_singleton_iff.mp ended
  obtain ⟨⟨group', present', ended'⟩, _⟩ := kept 0 ⟨group, by rw [single]; rfl, status⟩
  obtain ⟨group'', single', status'⟩ := List.map_eq_singleton_iff.mp shown
  rw [single', List.getElem?_cons_zero, Option.some.injEq] at present'
  subst present'
  rw [ended'] at status'
  exact absurd status' (by decide)

end Example

end Melissa
