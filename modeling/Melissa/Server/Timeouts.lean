import Melissa.Base.Arrays
import Melissa.Restart.Life
import Melissa.Server.Finished

/-! Detection and sending of simulation timeouts on rank 0, over whole runs of the server. -/

namespace Melissa

open Arrays Files Runs

section Flags

variable {D : Type}

/-- No simulation waits for its TIMEOUT message to be sent. -/
def Unflagged (simulations : List (Simulation D)) : Prop :=
  ∀ simu ∈ simulations, simu.timeout = false

theorem unflagged_set {simulations : List (Simulation D)} {simuId : Nat}
    {simu simu' : Simulation D} (unflagged : Unflagged simulations)
    (present : simulations[simuId]? = some simu) (same : simu'.timeout = simu.timeout) :
    Unflagged (simulations.set simuId simu') := by
  intro other member
  rcases List.mem_or_eq_of_mem_set member with old | rfl
  · exact unflagged other old
  · rw [same]
    exact unflagged simu (List.mem_of_getElem? present)

theorem unflagged_processLauncherMessage {server server' : Server D} {msg : LauncherMessage D}
    (unflagged : Unflagged server.simulations)
    (taken : processLauncherMessage server msg = some server') :
    Unflagged server'.simulations := by
  cases launcherEffect taken with
  | job present enough => exact unflagged_set unflagged present rfl
  | nothing noJob noDrop => exact unflagged

theorem unflagged_updateProgress {server server' : Server D} {simuId : Nat}
    (unflagged : Unflagged server.simulations)
    (taken : updateProgress server simuId = some server') : Unflagged server'.simulations := by
  simp only [updateProgress, Option.bind_eq_bind, Option.bind_eq_some_iff] at taken
  obtain ⟨simu, present, status, checked, done⟩ := taken
  cases done
  exact unflagged_set unflagged present rfl

end Flags

section Start

variable {D B : Type}

/-- The two ways in which a server rank of a study comes to its main loop. -/
inductive Started (codec : Codec D B) (tempSize : Nat) (study : Study D) : Server D → Prop where
  | first : Started codec tempSize study
      (freshServer study.options study.commData study.names)
  | again {others : List (List Nat)} {disk : Disk B} {server : Server D}
      (restarted : restartServer codec tempSize study others disk = some server) :
      Started codec tempSize study server

theorem unflagged_readSimuStates {codec : Codec D B} {tempSize rank : Nat}
    {others : List (List Nat)} {disk : Disk B} {simulations : List (Simulation D)}
    (read : readSimuStates codec tempSize others rank disk = some simulations) :
    Unflagged simulations := by
  simp only [readSimuStates, Option.bind_eq_bind, Option.bind_eq_some_iff,
    Option.some.injEq] at read
  obtain ⟨file, _, own, _, rfl⟩ := read
  intro simu member
  obtain ⟨status, _, rfl⟩ := List.mem_map.mp member
  rfl

theorem unflagged_resetRunning {simulations : List (Simulation D)}
    (unflagged : Unflagged simulations) : Unflagged (simulations.map resetRunning) := by
  intro simu member
  obtain ⟨old, before, rfl⟩ := List.mem_map.mp member
  unfold resetRunning
  split
  · exact unflagged old before
  · exact unflagged old before

theorem unflagged_of_started {codec : Codec D B} {tempSize : Nat} {study : Study D}
    {server : Server D} (started : Started codec tempSize study server) :
    Unflagged server.simulations := by
  cases started with
  | first =>
      intro simu member
      rw [List.eq_of_mem_replicate member]
      rfl
  | again restarted =>
      simp only [restartServer, Option.bind_eq_bind, Option.bind_eq_some_iff,
        Option.some.injEq] at restarted
      obtain ⟨simulations, read, rfl⟩ := restarted
      exact unflagged_resetRunning (unflagged_readSimuStates read)

theorem commData_of_started {codec : Codec D B} {tempSize : Nat} {study : Study D}
    {server : Server D} (started : Started codec tempSize study server) :
    server.commData = study.commData := by
  cases started with
  | first => rfl
  | again restarted =>
      simp only [restartServer, Option.bind_eq_bind, Option.bind_eq_some_iff,
        Option.some.injEq] at restarted
      obtain ⟨simulations, _, rfl⟩ := restarted
      rfl

end Start

section Rounds

variable {D : Type}

/-- The main loop checks the timeouts every 20 seconds. -/
def RoundDue (server : Server D) (now : ℚ) : Prop := server.lastTimeoutCheck + 20 < now

/-- The messages to the launcher that the timeout check of a pass sends. -/
def sentInRound (server : Server D) (now : ℚ) : List Notice :=
  (timeoutRound server now).outbox.drop server.outbox.length

/-- The simulation is running, and its last message is more than `timeout_simu` old. -/
def Overdue (server : Server D) (now : ℚ) (simuId : Nat) : Prop :=
  ∃ simu, server.simulations[simuId]? = some simu ∧ simu.status = 1 ∧ 0 < simu.jobStatus ∧
    server.options.timeoutSimu < now - simu.lastMessage

def timeoutNotice (simuId : Nat) : Notice := .timeout (simuId : Int)

def isTimeout : Notice → Bool
  | .timeout _ => true
  | _ => false

theorem timeoutNotice_injective : Function.Injective timeoutNotice := by
  intro i j same
  exact Int.ofNat.inj (Notice.timeout.inj same)

theorem timedOut_iff {now timeoutSimu : ℚ} {simu : Simulation D} :
    timedOut now timeoutSimu simu = true ↔
      simu.status = 1 ∧ 0 < simu.jobStatus ∧ timeoutSimu < now - simu.lastMessage := by
  simp only [timedOut, Bool.and_eq_true, beq_iff_eq, decide_eq_true_eq, gt_iff_lt, and_assoc,
    lt_sub_iff_add_lt']

theorem overdue_iff {server : Server D} {now : ℚ} {simuId : Nat} :
    Overdue server now simuId ↔ ∃ simu, server.simulations[simuId]? = some simu ∧
      timedOut now server.options.timeoutSimu simu = true := by
  simp only [Overdue, timedOut_iff]

/-- After the detection loop the flags mark the simulations it has found. -/
theorem timeout_checkTimeouts {now timeoutSimu : ℚ} {simu : Simulation D}
    (unflagged : simu.timeout = false) :
    (if timedOut now timeoutSimu simu then
        { simu with timeout := true, lastMessage := 0, status := 0 }
      else simu).timeout = timedOut now timeoutSimu simu := by
  cases fired : timedOut now timeoutSimu simu with
  | true => rfl
  | false => simpa using unflagged

theorem sendTimeouts_sent {now timeoutSimu : ℚ} {simulations : List (Simulation D)}
    (unflagged : Unflagged simulations)
    (detected : 0 < (checkTimeouts now timeoutSimu simulations).1) :
    (sendTimeouts (checkTimeouts now timeoutSimu simulations).1
        (checkTimeouts now timeoutSimu simulations).2).1 =
      collect (timedOut now timeoutSimu) timeoutNotice simulations := by
  unfold sendTimeouts
  rw [if_neg (by omega), checkTimeouts]
  simp only [collect, List.zipIdx_map, List.filterMap_map]
  apply List.filterMap_congr
  rintro ⟨simu, i⟩ member
  have own : simu.timeout = false := unflagged simu (List.fst_mem_of_mem_zipIdx member)
  simp only [Function.comp_apply, Prod.map_apply, timeout_checkTimeouts own]
  rfl

theorem unflagged_sendTimeouts {detected : Nat} (some_detected : 0 < detected)
    (simulations : List (Simulation D)) : Unflagged (sendTimeouts detected simulations).2 := by
  unfold sendTimeouts
  rw [if_neg (by omega)]
  intro simu member
  obtain ⟨old, _, rfl⟩ := List.mem_map.mp member
  cases flagged : old.timeout with
  | true => rfl
  | false => simpa using flagged

/-- Without a detection the detection loop has changed nothing. -/
theorem checkTimeouts_none {now timeoutSimu : ℚ} {simulations : List (Simulation D)}
    (undetected : (checkTimeouts now timeoutSimu simulations).1 = 0) :
    (checkTimeouts now timeoutSimu simulations).2 = simulations := by
  have quiet := List.countP_eq_zero.mp undetected
  calc
    (checkTimeouts now timeoutSimu simulations).2 = simulations.map id := by
      apply List.map_congr_left
      intro simu member
      rw [if_neg (quiet simu member)]
      rfl
    _ = simulations := List.map_id _

/-- What a round that is due sends and leaves behind. -/
theorem timeoutRound_due {server : Server D} {now : ℚ} (root : server.commData.rank = 0)
    (unflagged : Unflagged server.simulations) (due : RoundDue server now) :
    Unflagged (timeoutRound server now).simulations ∧
      (sentInRound server now = collect (timedOut now server.options.timeoutSimu) timeoutNotice
          server.simulations ∨
        (sentInRound server now = [.alive] ∧
          (checkTimeouts now server.options.timeoutSimu server.simulations).1 = 0)) := by
  have checked : server.commData.rank = 0 ∧ server.lastTimeoutCheck + 20 < now := ⟨root, due⟩
  unfold sentInRound timeoutRound
  rw [if_pos checked]
  dsimp only
  by_cases detected : (checkTimeouts now server.options.timeoutSimu server.simulations).1 > 0
  · rw [if_pos detected]
    constructor
    · exact unflagged_sendTimeouts detected _
    · exact Or.inl (by simpa using sendTimeouts_sent unflagged detected)
  · have undetected : (checkTimeouts now server.options.timeoutSimu server.simulations).1 = 0 := by
      omega
    rw [if_neg detected]
    constructor
    · simpa [checkTimeouts_none undetected] using unflagged
    · exact Or.inr ⟨by simp, undetected⟩

theorem timeoutRound_skipped {server : Server D} {now : ℚ} (skipped : ¬ RoundDue server now) :
    timeoutRound server now = server := by
  unfold timeoutRound
  rw [if_neg]
  intro checked
  exact skipped checked.2

theorem unflagged_timeoutRound {server : Server D} (root : server.commData.rank = 0)
    (unflagged : Unflagged server.simulations) (now : ℚ) :
    Unflagged (timeoutRound server now).simulations := by
  by_cases due : RoundDue server now
  · exact (timeoutRound_due root unflagged due).1
  · rw [timeoutRound_skipped due]
    exact unflagged

theorem mem_sentInRound {server : Server D} {now : ℚ} (root : server.commData.rank = 0)
    (unflagged : Unflagged server.simulations) (simuId : Nat) :
    timeoutNotice simuId ∈ sentInRound server now ↔
      RoundDue server now ∧ Overdue server now simuId := by
  by_cases due : RoundDue server now
  · rw [overdue_iff, and_iff_right due]
    rcases (timeoutRound_due root unflagged due).2 with sent | ⟨alive, undetected⟩
    · rw [sent, mem_collect _ timeoutNotice_injective]
    · have quiet := List.countP_eq_zero.mp undetected
      rw [alive]
      constructor
      · intro member
        cases List.mem_singleton.mp member
      · intro overdue
        obtain ⟨simu, present, fired⟩ := overdue
        exact absurd fired (quiet simu (List.mem_of_getElem? present))
  · simp [sentInRound, timeoutRound_skipped due, due]

theorem countP_sentInRound {server : Server D} {now : ℚ} (root : server.commData.rank = 0)
    (unflagged : Unflagged server.simulations) (due : RoundDue server now) :
    (sentInRound server now).countP isTimeout =
      (checkTimeouts now server.options.timeoutSimu server.simulations).1 := by
  rcases (timeoutRound_due root unflagged due).2 with sent | ⟨alive, undetected⟩
  · rw [sent]
    calc
      _ = (collect (timedOut now server.options.timeoutSimu) timeoutNotice
            server.simulations).length := by
        apply List.countP_eq_length.mpr
        intro notice member
        obtain ⟨_, _, taken⟩ := List.mem_filterMap.mp member
        obtain ⟨_, same⟩ := Option.ite_none_right_eq_some.mp taken
        cases same
        rfl
      _ = server.simulations.countP (timedOut now server.options.timeoutSimu) :=
        length_collect _ _ _
  · rw [alive, undetected]
    rfl

theorem nodup_sentInRound {server : Server D} {now : ℚ} (root : server.commData.rank = 0)
    (unflagged : Unflagged server.simulations) : (sentInRound server now).Nodup := by
  by_cases due : RoundDue server now
  · rcases (timeoutRound_due root unflagged due).2 with sent | ⟨alive, _⟩
    · rw [sent]
      exact nodup_collect _ timeoutNotice_injective _
    · rw [alive]
      exact List.nodup_singleton _
  · simp [sentInRound, timeoutRound_skipped due]

/-- A simulation whose TIMEOUT message has been sent is no longer running. -/
theorem simuStatus_timedOut {server : Server D} {now : ℚ} {simuId : Nat}
    (root : server.commData.rank = 0) (due : RoundDue server now)
    (overdue : Overdue server now simuId) : simuStatus (timeoutRound server now) simuId = 0 := by
  obtain ⟨simu, present, fired⟩ := overdue_iff.mp overdue
  have checked : server.commData.rank = 0 ∧ server.lastTimeoutCheck + 20 < now := ⟨root, due⟩
  have status := (checkTimeouts_map now server.options.timeoutSimu server.simulations).2
  have sent := (sendTimeouts_map (checkTimeouts now server.options.timeoutSimu
    server.simulations).1 (checkTimeouts now server.options.timeoutSimu server.simulations).2).2
  have after : statuses (timeoutRound server now) = server.simulations.map fun simu =>
      if timedOut now server.options.timeoutSimu simu then 0 else simu.status := by
    unfold timeoutRound statuses
    rw [if_pos checked]
    dsimp only
    split
    · exact sent.trans status
    · exact status
  rw [simuStatus, after, List.getD_eq_getElem?_getD, List.getElem?_map, present]
  simp [fired]

/-- A round never starts a simulation. -/
theorem simuStatus_timeoutRound (server : Server D) (now : ℚ) (simuId : Nat) :
    simuStatus (timeoutRound server now) simuId = 0 ∨
      simuStatus (timeoutRound server now) simuId = simuStatus server simuId := by
  obtain ⟨_, _, _, _, _, reset, _, after⟩ := timeoutRound_parts server now
  rw [simuStatus, simuStatus, after, statuses, List.getD_eq_getElem?_getD,
    List.getD_eq_getElem?_getD, List.getElem?_map, List.getElem?_map]
  cases server.simulations[simuId]? with
  | none => exact Or.inl rfl
  | some simu =>
      cases fired : reset simu with
      | true => exact Or.inl (by simp [fired])
      | false => exact Or.inr (by simp [fired])

end Rounds

section Steps

variable {D : Type} [Zero D] [Add D] [Sub D] [Mul D] [Div D] [NatCast D] [IntCast D]
  [Pow D ℕ] [LT D] [DecidableLT D] [LE D] [DecidableLE D] [Libm D]

theorem unflagged_acceptMessage {restore : Restore D} {server server' : Server D} {now : ℚ}
    {m : SimuData D} {reply : LauncherMessage D} {fieldId : Nat}
    (unflagged : Unflagged server.simulations)
    (taken : acceptMessage restore server now m reply fieldId = some server') :
    Unflagged server'.simulations := by
  obtain ⟨_, _, _, sameSimulations, _⟩ := countFirstSend_parts server fieldId m.clientRank
  obtain ⟨data, _, simu, updated, asked, _, _, simulation, _, replied, done⟩ :=
    acceptMessage_parts taken
  have stored : Unflagged (storeEntry (countFirstSend server fieldId m.clientRank) now m fieldId
      simu (needsInit data m.vectSize) updated).simulations := by
    unfold storeEntry
    rw [sameSimulations]
    exact unflagged_set unflagged simulation rfl
  have answered : Unflagged asked.simulations := by
    unfold awaitReply at replied
    split at replied
    · exact unflagged_processLauncherMessage stored replied
    · cases replied
      exact stored
  exact unflagged_updateProgress answered done

/-- On rank 0 no flag outlives the round that has set it. -/
def Settled (server : Server D) : Prop :=
  server.commData.rank = 0 ∧ Unflagged server.simulations

theorem settled_step {restore : Restore D} {server server' : Server D} {event : Event D}
    (settled : Settled server) (taken : step restore server event = some server') :
    Settled server' := by
  obtain ⟨root, unflagged⟩ := settled
  cases event with
  | data now m reply =>
      constructor
      · rcases dataMessage_cases taken with ⟨rfl, _⟩ | ⟨_, _, _, _, _, _, _, accepted⟩
        · exact root
        · rw [accepted.commData]
          exact root
      · simp only [step, dataMessage] at taken
        split at taken
        · cases taken
          exact unflagged
        · split at taken
          · cases taken
            exact unflagged
          · exact unflagged_acceptMessage unflagged taken
  | launcher msg =>
      constructor
      · obtain ⟨_, same, _⟩ := textMessage_parts taken
        rw [same]
        exact root
      · obtain ⟨handled, processed, rfl⟩ := Option.map_eq_some_iff.mp taken
        have kept := unflagged_processLauncherMessage unflagged processed
        exact kept
  | timeouts now =>
      cases taken
      constructor
      · obtain ⟨_, _, same, _⟩ := timeoutRound_parts server now
        rw [same]
        exact root
      · exact unflagged_timeoutRound root unflagged now

/-- The event is a data message of the simulation. -/
def IsDataOf (simuId : Nat) : Event D → Prop
  | .data _ m _ => m.simuId = simuId
  | _ => False

/-- The simulation cannot time out. -/
def Stopped (simuId : Nat) (server : Server D) : Prop := simuStatus server simuId ≠ 1

/-- Only its own data messages make a simulation run again. -/
theorem stopped_step {restore : Restore D} {server server' : Server D} {event : Event D}
    {simuId : Nat} (stopped : Stopped simuId server) (foreign : ¬ IsDataOf simuId event)
    (taken : step restore server event = some server') : Stopped simuId server' := by
  have unchanged (same : statuses server' = statuses server) : Stopped simuId server' := by
    rw [Stopped, simuStatus, same]
    exact stopped
  cases event with
  | data now m reply =>
      rcases dataMessage_cases taken with ⟨rfl, _⟩ | ⟨_, _, _, _, _, _, _, accepted⟩
      · exact stopped
      · rw [Stopped, simuStatus_set accepted.simulation accepted.statuses,
          if_neg (Ne.symm foreign)]
        exact stopped
  | launcher msg =>
      obtain ⟨handled, processed, rfl⟩ := Option.map_eq_some_iff.mp taken
      cases launcherEffect processed with
      | job present enough => exact unchanged (map_set_of_same present rfl)
      | nothing noJob noDrop => exact unchanged rfl
  | timeouts now =>
      cases taken
      rcases simuStatus_timeoutRound server now simuId with reset | same
      · rw [Stopped, reset]
        exact Nat.zero_ne_one
      · rw [Stopped, same]
        exact stopped

/-- The timeouts of a run are reported as the launcher expects them. -/
structure ReportsOnce (restore : Restore D) (start : Server D) (events : List (Event D)) :
    Prop where
  exactly : ∀ front now back before, events = front ++ .timeouts now :: back →
    run (step restore) start front = some before → ∀ simuId,
      (timeoutNotice simuId ∈ sentInRound before now ↔
        RoundDue before now ∧ Overdue before now simuId)
  single : ∀ front now back before, events = front ++ .timeouts now :: back →
    run (step restore) start front = some before → (sentInRound before now).Nodup
  counted : ∀ front now back before, events = front ++ .timeouts now :: back →
    run (step restore) start front = some before → RoundDue before now →
      (checkTimeouts now before.options.timeoutSimu before.simulations).1 =
        (sentInRound before now).countP isTimeout
  cleared : ∀ front now back after, events = front ++ .timeouts now :: back →
    run (step restore) start (front ++ [.timeouts now]) = some after →
      Unflagged after.simulations
  renewed : ∀ front now middle now' back before between,
    events = front ++ .timeouts now :: (middle ++ .timeouts now' :: back) →
    run (step restore) start front = some before →
    run (step restore) start (front ++ .timeouts now :: middle) = some between → ∀ simuId,
      timeoutNotice simuId ∈ sentInRound before now →
      timeoutNotice simuId ∈ sentInRound between now' → ∃ event ∈ middle, IsDataOf simuId event

theorem reportsOnce_of_settled {restore : Restore D} {start : Server D} (settled : Settled start)
    (events : List (Event D)) : ReportsOnce restore start events := by
  have along {front : List (Event D)} {server : Server D}
      (reached : run (step restore) start front = some server) : Settled server :=
    run_invariant (fun _ _ _ => settled_step) settled reached
  refine { exactly := ?_, single := ?_, counted := ?_, cleared := ?_, renewed := ?_ }
  · intro front now back before _ reached simuId
    obtain ⟨root, unflagged⟩ := along reached
    exact mem_sentInRound root unflagged simuId
  · intro front now back before _ reached
    obtain ⟨root, unflagged⟩ := along reached
    exact nodup_sentInRound root unflagged
  · intro front now back before _ reached due
    obtain ⟨root, unflagged⟩ := along reached
    exact (countP_sentInRound root unflagged due).symm
  · intro front now back after _ reached
    exact (along reached).2
  · intro front now middle now' back before between _ reached onward simuId sent again
    obtain ⟨root, unflagged⟩ := along reached
    obtain ⟨root', unflagged'⟩ := along onward
    obtain ⟨due, overdue⟩ := (mem_sentInRound root unflagged simuId).mp sent
    obtain ⟨_, simu, present, running, _⟩ := (mem_sentInRound root' unflagged' simuId).mp again
    rw [run_append, reached, Option.bind_some, run_cons] at onward
    have stopped : Stopped simuId (timeoutRound before now) := by
      rw [Stopped, simuStatus_timedOut root due overdue]
      exact Nat.zero_ne_one
    by_contra silent
    push Not at silent
    have still : Stopped simuId between :=
      run_invariant_of_mem
        (fun _ event member _ stopped => stopped_step stopped (silent event member)) stopped onward
    exact still ((simuStatus_of_present present).trans running)

/-- Rank 0 reports every timeout once, in every run from a first start or a restart. -/
theorem reportsOnce {B : Type} {codec : Codec D B} {tempSize : Nat} {study : Study D}
    {start : Server D} (started : Started codec tempSize study start)
    (root : study.commData.rank = 0) (restore : Restore D) (events : List (Event D)) :
    ReportsOnce restore start events := by
  have settled : Settled start := by
    constructor
    · rw [commData_of_started started]
      exact root
    · exact unflagged_of_started started
  exact reportsOnce_of_settled settled events

end Steps

section Silent

private def heatStart : Server ℚ := freshServer twoByTwo ⟨0, 1, 1⟩ ["heat"]

private def firstHeat (now : ℚ) : Event ℚ :=
  .data now ⟨0, 0, 0, 1, "heat", [3]⟩ ⟨0, "job0", [1]⟩

private def silentTwice : List (Event ℚ) :=
  [firstHeat 1, .timeouts 30, .timeouts 60, firstHeat 61, .timeouts 90]

/-- A simulation that falls silent, sends its first time step again and falls silent again. -/
theorem reportsOnce_silentTwice : ReportsOnce noRestore heatStart silentTwice ∧
    (run (step noRestore) heatStart silentTwice).map Server.outbox =
      some [.simuInfo 0, .simuStatus 0 1, timeoutNotice 0, .alive, .simuStatus 0 1,
        timeoutNotice 0] := by
  have started : Started (exactCodec ℚ) 0 ⟨twoByTwo, ⟨0, 1, 1⟩, ["heat"]⟩ heatStart := .first
  constructor
  · exact reportsOnce started rfl noRestore silentTwice
  · decide +kernel

end Silent

end Melissa
