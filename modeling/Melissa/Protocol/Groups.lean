import Melissa.Launcher.Final

/-! What no step of the launcher changes of its groups, and what the restarts amount to. -/

namespace Melissa

open Runs

section Identity

variable {D : Type}

/-- The part of a group that its constructor fixes. -/
def Group.identity (group : Group D) : Group D :=
  { group with
    simuStatus := [], status := notSubmitted, jobStatus := notSubmitted, nbRestarts := 0 }

/-- A write of a thread leaves the identity and the number of restarts alone. -/
def KeepsIdentity (change : Group D → Group D) : Prop :=
  ∀ group, (change group).identity = group.identity ∧
    (change group).nbRestarts = group.nbRestarts

theorem keepsIdentity_status (status : Int) :
    KeepsIdentity fun group : Group D => { group with status := status } := fun _ => ⟨rfl, rfl⟩

theorem keepsIdentity_groupState (simuId : Nat) (status : Int) :
    KeepsIdentity fun group : Group D => (groupState simuId status group).1 := by
  intro group
  change (groupState simuId status group).1.identity = group.identity ∧
    (groupState simuId status group).1.nbRestarts = group.nbRestarts
  unfold groupState
  by_cases batch : group.jobType = 3
  · simp only [if_pos batch]
    split
    · split
      · split
        · exact ⟨rfl, rfl⟩
        · exact ⟨rfl, rfl⟩
      · exact ⟨rfl, rfl⟩
    · split
      · split
        · exact ⟨rfl, rfl⟩
        · exact ⟨rfl, rfl⟩
      · exact ⟨rfl, rfl⟩
  · rw [if_neg batch]
    exact ⟨rfl, rfl⟩

theorem keepsIdentity_checkGroupJob (jobStatus : Int) :
    KeepsIdentity fun group : Group D => checkGroupJob group jobStatus := by
  intro group
  change (checkGroupJob group jobStatus).identity = group.identity ∧
    (checkGroupJob group jobStatus).nbRestarts = group.nbRestarts
  unfold checkGroupJob
  split
  · exact ⟨rfl, rfl⟩
  · exact ⟨rfl, rfl⟩

theorem not_write_of_restartIf {launcher : Launcher D} {g g' : Nat} {outcome : UserOutcome}
    {condition : Group D → Bool} {change : Group D → Group D} :
    restartIf launcher g' outcome condition ≠ .write g change := by
  unfold restartIf
  split
  · intro same
    cases same
  · intro same
    cases same

theorem keepsIdentity_write {config : StudyConfig} {launcher : Launcher D}
    {event : LauncherEvent} {g : Nat} {change : Group D → Group D}
    (written : effect config launcher event = .write g change) : KeepsIdentity change := by
  cases event with
  | message msg =>
      cases msg with
      | timeout simuId =>
          simp only [effect, messageEffect] at written
          split at written
          · cases written
          · split at written
            · cases written
            · cases written
              exact keepsIdentity_status timedOutStatus
      | groupState simuId status =>
          simp only [effect, messageEffect] at written
          split at written
          · cases written
          · cases written
            exact keepsIdentity_groupState _ status
      | stop => cases written
      | server => cases written
      | other => cases written
  | stopNext =>
      simp only [effect] at written
      split at written
      · cases written
        exact keepsIdentity_status finished
      · cases written
  | serverTimeout => cases written
  | checkServerJob jobStatus => cases written
  | checkGroupJob i jobStatus =>
      cases written
      exact keepsIdentity_checkGroupJob jobStatus
  | launch outcome =>
      simp only [effect] at written
      split at written
      · cases written
      · cases written
        exact fun _ => ⟨rfl, rfl⟩
  | main outcome late =>
      simp only [effect, mainEffect] at written
      split at written
      · cases written
        exact keepsIdentity_status waiting
      · exact absurd written not_write_of_restartIf
      · exact absurd written not_write_of_restartIf
      · exact absurd written not_write_of_restartIf
      · cases written

theorem identity_restart (outcome : UserOutcome) (group : Group D) :
    (restart outcome group).1.identity = group.identity := by
  unfold restart
  split
  · rfl
  · dsimp only
    split
    · rfl
    · split
      · rfl
      · rfl

/-- No step changes what the constructors of the groups have fixed. -/
theorem map_identity_step {config : StudyConfig} {launcher launcher' : Launcher D}
    {event : LauncherEvent} (taken : launcherStep config launcher event = some launcher') :
    launcher'.groups.map Group.identity = launcher.groups.map Group.identity := by
  have hasEffect := launcherStep_effect taken
  generalize found : effect config launcher event = done at hasEffect
  cases hasEffect with
  | nothing groups drops restarts => rw [groups]
  | write g change groups drops restarts =>
      rw [groups]
      apply List.ext_getElem?
      intro i
      rw [List.getElem?_map, List.getElem?_map, List.getElem?_modify]
      cases launcher.groups[i]? with
      | none => rfl
      | some group =>
          by_cases same : g = i
          · simp [same, (keepsIdentity_write found group).1]
          · simp [same]
  | restart g outcome group present groups drops restarts =>
      rw [groups]
      apply List.ext_getElem?
      intro i
      rw [List.getElem?_map, List.getElem?_map, List.getElem?_set]
      obtain ⟨inside, _⟩ := List.getElem?_eq_some_iff.mp present
      by_cases same : g = i
      · subst same
        rw [if_pos rfl, if_pos inside, present, Option.map_some, Option.map_some,
          identity_restart]
      · rw [if_neg same]

theorem map_identity_run {config : StudyConfig} {start launcher : Launcher D}
    {events : List LauncherEvent}
    (reached : run (launcherStep config) start events = some launcher) :
    launcher.groups.map Group.identity = start.groups.map Group.identity := by
  induction events generalizing start with
  | nil =>
      cases reached
      rfl
  | cons event events ih =>
      obtain ⟨next, taken, onward⟩ := Option.bind_eq_some_iff.mp reached
      exact (ih onward).trans (map_identity_step taken)

theorem identity_getElem {launcher launcher' : Launcher D}
    (same : launcher'.groups.map Group.identity = launcher.groups.map Group.identity) {g : Nat}
    {group' : Group D} (present : launcher'.groups[g]? = some group') :
    ∃ group, launcher.groups[g]? = some group ∧ group'.identity = group.identity := by
  have here := congrArg (fun groups => groups[g]?) same
  simp only [List.getElem?_map, present, Option.map_some] at here
  obtain ⟨group, found, identity⟩ := Option.map_eq_some_iff.mp here.symm
  exact ⟨group, found, identity.symm⟩

end Identity

section SobolStudy

variable {D : Type}

/-- The groups of a Sobol study while they are created. -/
structure SobolCreated (draw : Nat → List D) (state : Creation D) : Prop where
  nbGroups : state.counters.nbGroups = state.groups.length
  nbDraws : state.nbDraws = 2 * state.groups.length
  new : ∀ (g : Nat) (group : Group D), state.groups[g]? = some group →
    group.jobType = 4 ∧ group.groupId = g ∧ group.paramSet.head? = some (draw (2 * g)) ∧
      group.status = notSubmitted ∧ group.nbRestarts = 0

theorem sobolCreated_createSobolGroup {draw : Nat → List D} {state state' : Creation D}
    (before : SobolCreated draw state) (created : createSobolGroup draw state = some state') :
    SobolCreated draw state' ∧ state'.groups.length = state.groups.length + 1 := by
  simp only [createSobolGroup, sobolGroup, newGroup, Option.bind_eq_bind,
    Option.bind_eq_some_iff, Option.some.injEq] at created
  obtain ⟨_, ⟨mixed, _, rfl⟩, rfl⟩ := created
  refine ⟨⟨?_, ?_, ?_⟩, List.length_append⟩
  · rw [List.length_append]
    exact congrArg (· + 1) before.nbGroups
  · rw [List.length_append]
    dsimp only
    rw [before.nbDraws, List.length_singleton, Nat.mul_add]
  · intro g group present
    dsimp only at present
    rw [List.getElem?_append] at present
    split at present
    · exact before.new g group present
    · rename_i behind
      rw [List.getElem?_singleton] at present
      split at present
      · have last : g = state.groups.length := by omega
        rw [last, ← Option.some.inj present, ← before.nbDraws]
        exact ⟨rfl, before.nbGroups, rfl, rfl, rfl⟩
      · cases present

theorem sobolCreated_foldlM {draw : Nat → List D} {items : List Nat} {state state' : Creation D}
    (before : SobolCreated draw state)
    (created : items.foldlM (fun state _ => createSobolGroup draw state) state = some state') :
    SobolCreated draw state' ∧ state'.groups.length = state.groups.length + items.length := by
  induction items generalizing state with
  | nil =>
      cases created
      exact ⟨before, rfl⟩
  | cons item items ih =>
      rw [List.foldlM_cons, Option.bind_eq_bind, Option.bind_eq_some_iff] at created
      obtain ⟨next, first, rest⟩ := created
      obtain ⟨grown, one⟩ := sobolCreated_createSobolGroup before first
      obtain ⟨done, number⟩ := ih grown rest
      refine ⟨done, ?_⟩
      rw [number, one, List.length_cons, Nat.add_assoc, Nat.add_comm 1]

/-- The groups of a Sobol study: group number `g` is simulation `g` of the server. -/
structure SobolGroups (nbGroups : Nat) (groups : List (Group D)) : Prop where
  number : groups.length = nbGroups
  jobType : ∀ (g : Nat) (group : Group D), groups[g]? = some group → group.jobType = 4
  groupId : ∀ (g : Nat) (group : Group D), groups[g]? = some group → group.groupId = g

theorem sobolCreated {draw : Nat → List D} {samplingSize batchSize : Int}
    {groups : List (Group D)}
    (created : createGroupList true draw samplingSize batchSize = some groups) :
    ∃ state, SobolCreated draw state ∧ state.groups = groups ∧
      groups.length = samplingSize.toNat := by
  rw [createGroupList, if_pos rfl] at created
  obtain ⟨state, looped, rfl⟩ := Option.map_eq_some_iff.mp created
  have start : SobolCreated draw noGroups := by
    refine ⟨rfl, rfl, ?_⟩
    intro g group present
    cases present
  obtain ⟨done, number⟩ := sobolCreated_foldlM start looped
  rw [List.length_range] at number
  exact ⟨state, done, rfl, number.trans (Nat.zero_add _)⟩

theorem sobolGroups_created {draw : Nat → List D} {samplingSize batchSize : Int}
    {groups : List (Group D)}
    (created : createGroupList true draw samplingSize batchSize = some groups) :
    SobolGroups samplingSize.toNat groups := by
  obtain ⟨state, done, rfl, number⟩ := sobolCreated created
  exact ⟨number, fun g group present => (done.new g group present).1,
    fun g group present => (done.new g group present).2.1⟩

theorem sobolGroups_step {config : StudyConfig} {launcher launcher' : Launcher D}
    {event : LauncherEvent} {nbGroups : Nat} (sobol : SobolGroups nbGroups launcher.groups)
    (taken : launcherStep config launcher event = some launcher') :
    SobolGroups nbGroups launcher'.groups := by
  have same := map_identity_step taken
  refine ⟨?_, ?_, ?_⟩
  · rw [← sobol.number, ← List.length_map (f := Group.identity), same, List.length_map]
  · intro g group' present
    obtain ⟨group, before, identity⟩ := identity_getElem same present
    have type := sobol.jobType g group before
    have sameType : group'.identity.jobType = group.identity.jobType := by rw [identity]
    exact sameType.trans type
  · intro g group' present
    obtain ⟨group, before, identity⟩ := identity_getElem same present
    have number := sobol.groupId g group before
    have sameNumber : group'.identity.groupId = group.identity.groupId := by rw [identity]
    exact sameNumber.trans number

end SobolStudy

section Belief

variable {D : Type}

/-- What the launcher holds of a group. -/
def belief (groups : List (Group D)) (g : Nat) : Int :=
  (groups[g]?.map Group.status).getD notSubmitted

theorem belief_of_present {groups : List (Group D)} {g : Nat} {group : Group D}
    (present : groups[g]? = some group) : belief groups g = group.status := by
  rw [belief, present]
  rfl

theorem belief_modify {groups : List (Group D)} {i : Nat} {change : Group D → Group D}
    {status : Int} (written : ∀ group, (change group).status = status) (g : Nat) :
    belief (groups.modify i change) g = belief groups g ∨
      belief (groups.modify i change) g = status := by
  rw [belief, belief, List.getElem?_modify]
  cases groups[g]? with
  | none => exact Or.inl rfl
  | some group =>
      by_cases here : i = g
      · exact Or.inr (by simp [here, written])
      · exact Or.inl (by simp [here])

theorem belief_modify_same {groups : List (Group D)} {i : Nat} {change : Group D → Group D}
    (kept : ∀ group, (change group).status = group.status) (g : Nat) :
    belief (groups.modify i change) g = belief groups g := by
  rw [belief, belief, List.getElem?_modify]
  cases groups[g]? with
  | none => rfl
  | some group =>
      by_cases here : i = g
      · simp [here, kept]
      · simp [here]

theorem belief_set {groups : List (Group D)} {i : Nat} {old group : Group D}
    (present : groups[i]? = some old) (g : Nat) :
    belief (groups.set i group) g = if i = g then group.status else belief groups g := by
  obtain ⟨inside, _⟩ := List.getElem?_eq_some_iff.mp present
  rw [belief, List.getElem?_set]
  split
  · rfl
  · rfl

/-- The messenger is in the loop of `stop` only after the server has said that it stops. -/
def StopSeen (launcher : Launcher D) : Prop :=
  ∀ next, launcher.messenger = .stopping next → launcher.server.wantStop = true

theorem mainStep_server {config : StudyConfig} {outcome : UserOutcome} {late : Bool}
    {launcher launcher' : Launcher D}
    (taken : mainStep config outcome late launcher = some launcher') :
    launcher'.server.wantStop = launcher.server.wantStop ∧
      launcher'.messenger = launcher.messenger := by
  have restarted (i : Nat) (next : Phase) :
      (restartAt outcome i next launcher).server = launcher.server ∧
        (restartAt outcome i next launcher).messenger = launcher.messenger := by
    unfold restartAt
    split
    · exact ⟨rfl, rfl⟩
    · exact ⟨rfl, rfl⟩
  cases phase : launcher.phase <;> simp only [mainStep, phase] at taken
  case outside | submitted | readStop | readJob | readFinished | scan | cancelTest | cancelLocked |
      restartTest | loopTest | loopLocked =>
    cases taken
    exact ⟨rfl, rfl⟩
  case readStatus wantStop =>
    cases wantStop with
    | true => cases taken; exact ⟨rfl, rfl⟩
    | false => cases taken; exact ⟨rfl, rfl⟩
  case restartServer =>
    cases taken
    split
    · split
      · exact ⟨rfl, rfl⟩
      · exact ⟨rfl, rfl⟩
    · exact ⟨rfl, rfl⟩
  case waitStart =>
    split at taken
    · cases taken
    · cases taken
      exact ⟨rfl, rfl⟩
  case restartLocked i =>
    cases taken
    rw [(restarted i _).1, (restarted i _).2]
    exact ⟨rfl, rfl⟩
  case asleep i | timeouts i =>
    obtain ⟨group, present, rfl⟩ := Option.map_eq_some_iff.mp taken
    split
    · rw [(restarted i _).1, (restarted i _).2]
      exact ⟨rfl, rfl⟩
    · exact ⟨rfl, rfl⟩
  case ended => cases taken

/-- Only the messenger sets `want_stop`, and it is never reset. -/
theorem wantStop_step {config : StudyConfig} {launcher launcher' : Launcher D}
    {event : LauncherEvent} (taken : launcherStep config launcher event = some launcher') :
    (launcher'.server.wantStop = false → launcher.server.wantStop = false) ∧
      (StopSeen launcher → StopSeen launcher') := by
  cases event with
  | message msg =>
      simp only [launcherStep] at taken
      split at taken
      · rename_i idle
        cases taken
        cases msg with
        | stop =>
            refine ⟨fun going => ?_, fun _ _ _ => rfl⟩
            cases going
        | timeout simuId =>
            simp only [handleMessage]
            split
            · exact ⟨id, id⟩
            · split
              · exact ⟨id, fun _ next stopping => by cases stopping⟩
              · exact ⟨id, id⟩
        | groupState simuId status =>
            simp only [handleMessage]
            split
            · exact ⟨id, fun _ next stopping => by cases stopping⟩
            · refine ⟨id, fun _ next stopping => ?_⟩
              dsimp only at stopping
              split at stopping
              · cases stopping
              · rw [idle] at stopping
                cases stopping
        | server => exact ⟨id, id⟩
        | other => exact ⟨id, id⟩
      · cases taken
  | stopNext =>
      simp only [launcherStep] at taken
      split at taken
      · rename_i next stopping
        cases taken
        unfold stopNext
        split
        · exact ⟨id, fun seen _ _ => seen next stopping⟩
        · refine ⟨id, fun _ next' again => ?_⟩
          cases again
      · cases taken
  | serverTimeout =>
      simp only [launcherStep] at taken
      split at taken
      · cases taken
        exact ⟨id, id⟩
      · cases taken
  | checkServerJob jobStatus =>
      cases taken
      exact ⟨id, id⟩
  | checkGroupJob i jobStatus =>
      cases taken
      exact ⟨id, id⟩
  | launch outcome =>
      simp only [launcherStep, launchNext] at taken
      split at taken
      · cases taken
        split
        · exact ⟨id, id⟩
        · exact ⟨id, id⟩
      · cases taken
  | main outcome late =>
      obtain ⟨same, messenger⟩ := mainStep_server taken
      refine ⟨fun going => same ▸ going, fun seen next stopping => ?_⟩
      rw [same]
      exact seen next (messenger ▸ stopping)

/-- The restart that ends the attempts. -/
theorem restart_status (outcome : UserOutcome) (group : Group D) :
    (restart outcome group).1.status = group.status ∨
      (restart outcome group).1.status ≠ finished ∨
      (restart outcome group).2.1 = dropIds group := by
  unfold restart
  split
  · exact Or.inl rfl
  · dsimp only
    split
    · exact Or.inr (Or.inr rfl)
    · split
      · exact Or.inl rfl
      · refine Or.inr (Or.inl ?_)
        change waiting ≠ finished
        decide

/-- A thread other than the messenger takes a group for finished only when it drops it. -/
theorem belief_thread {config : StudyConfig} {launcher launcher' : Launcher D}
    {event : LauncherEvent} {nbGroups : Nat} (sobol : SobolGroups nbGroups launcher.groups)
    (thread : ∀ msg, event ≠ .message msg) (seen : StopSeen launcher)
    (going : launcher.server.wantStop = false)
    (taken : launcherStep config launcher event = some launcher') (g : Nat) :
    belief launcher'.groups g = belief launcher.groups g ∨
      belief launcher'.groups g ≠ finished ∨
      g ∈ launcher'.drops.drop launcher.drops.length := by
  have hasEffect := launcherStep_effect taken
  generalize found : effect config launcher event = done at hasEffect
  cases hasEffect with
  | nothing groups drops restarts => exact Or.inl (by rw [groups])
  | write i change groups drops restarts =>
      rw [groups]
      cases event with
      | message msg => exact absurd rfl (thread msg)
      | stopNext =>
          simp only [effect] at found
          split at found
          · rename_i next stopping
            rw [seen next stopping] at going
            cases going
          · cases found
      | serverTimeout => cases found
      | checkServerJob jobStatus => cases found
      | checkGroupJob i jobStatus =>
          cases found
          refine Or.inl (belief_modify_same ?_ g)
          intro group
          unfold checkGroupJob
          split
          · rfl
          · rfl
      | launch outcome =>
          simp only [effect] at found
          split at found
          · cases found
          · cases found
            refine Or.inl (belief_modify_same ?_ g)
            intro group
            rfl
      | main outcome late =>
          simp only [effect, mainEffect] at found
          split at found
          · cases found
            have kept (group : Group D) : { group with status := waiting }.status = waiting := rfl
            rcases belief_modify kept g with same | written
            · exact Or.inl same
            · exact Or.inr (Or.inl (by rw [written]; decide))
          · exact absurd found not_write_of_restartIf
          · exact absurd found not_write_of_restartIf
          · exact absurd found not_write_of_restartIf
          · cases found
  | restart i outcome group present groups drops restarts =>
      rw [groups, belief_set present]
      split
      · rename_i here
        subst here
        rw [belief_of_present present]
        rcases restart_status outcome group with same | other | dropped
        · exact Or.inl same
        · exact Or.inr (Or.inl other)
        · refine Or.inr (Or.inr ?_)
          rw [drops, List.drop_left, dropped, dropIds, sobol.jobType i group present,
            sobol.groupId i group present]
          exact List.mem_singleton.mpr rfl
      · exact Or.inl rfl

end Belief

end Melissa
