import Melissa.Server.Finished

/-! What each pass of the main loop does to the statuses of the simulations and to their counter,
and what it tells the launcher of them. -/

namespace Melissa

section Statuses

variable {D : Type}

theorem nbFinished_timeouts (server : Server D) (now : ℚ) :
    nbFinished (timeoutRound server now) = nbFinished server := by
  obtain ⟨_, _, _, _, _, reset, running, after⟩ := timeoutRound_parts server now
  rw [nbFinished, nbFinished, after, statuses, List.countP_map, List.countP_map]
  apply List.countP_congr
  intro simu _
  by_cases fired : reset simu = true
  · simp [fired, running simu fired]
  · simp [fired]

/-- A timeout resets running simulations only. -/
theorem simuStatus_timeouts {server : Server D} {simuId : Nat} (now : ℚ)
    (finished : 2 ≤ simuStatus server simuId) :
    simuStatus (timeoutRound server now) simuId = simuStatus server simuId := by
  obtain ⟨_, _, _, _, _, reset, running, after⟩ := timeoutRound_parts server now
  cases found : server.simulations[simuId]? with
  | none => simp [simuStatus, statuses, found] at finished
  | some simu =>
      rw [simuStatus_of_present found] at finished ⊢
      have kept : ¬ reset simu = true := by
        intro fired
        have := running simu fired
        omega
      have here : (statuses (timeoutRound server now))[simuId]? = some simu.status := by
        simp [after, found, kept]
      rw [simuStatus, List.getD_eq_getElem?_getD, here]
      rfl

/-- A message of the launcher that the server survives is no DROP, and changes no status. -/
theorem textMessage_statuses {server server' : Server D} {msg : LauncherMessage D}
    (taken : textMessage server msg = some server') :
    (∀ simuId jobId, msg ≠ .drop simuId jobId) ∧ statuses server' = statuses server ∧
      server'.nbFinishedSimulations = server.nbFinishedSimulations := by
  obtain ⟨handled, processed, rfl⟩ := Option.map_eq_some_iff.mp taken
  cases launcherEffect processed with
  | job present enough =>
      refine ⟨?_, map_set_of_same present rfl, rfl⟩
      intro simuId jobId same
      cases same
  | nothing noJob noDrop => exact ⟨noDrop, rfl, rfl⟩

end Statuses

section Bounded

variable {D : Type}

/-- Statuses end at 2. -/
def StatusesBounded (server : Server D) : Prop := ∀ status ∈ statuses server, status ≤ 2

theorem statusesBounded_iff {server : Server D} :
    StatusesBounded server ↔ ∀ simu ∈ server.simulations, simu.status ≤ 2 := List.forall_mem_map

theorem statusesBounded_freshServer (options : Options D) (commData : CommData)
    (names : List String) : StatusesBounded (freshServer options commData names) := by
  intro status member
  simp only [statuses, freshServer, startServer, List.map_replicate] at member
  rw [List.eq_of_mem_replicate member]
  exact Nat.zero_le _

variable [Zero D] [Add D] [Sub D] [Mul D] [Div D] [NatCast D] [IntCast D]
  [Pow D ℕ] [LT D] [DecidableLT D] [LE D] [DecidableLE D] [Libm D]

theorem statusesBounded_step {restore : Restore D} {server server' : Server D} {event : Event D}
    (bounded : StatusesBounded server) (taken : step restore server event = some server') :
    StatusesBounded server' := by
  cases event with
  | data now m reply =>
      rcases dataMessage_cases taken with ⟨rfl, _⟩ | ⟨fieldId, _, simu, data, loaded, updated,
        status, accepted⟩
      · exact bounded
      · intro found member
        rw [accepted.statuses] at member
        rcases List.mem_or_eq_of_mem_set member with old | rfl
        · exact bounded found old
        · rcases checkEntries_cases accepted.progress with one | two
          · omega
          · omega
  | launcher msg =>
      obtain ⟨_, same, _⟩ := textMessage_statuses taken
      unfold StatusesBounded
      rw [same]
      exact bounded
  | timeouts now =>
      cases taken
      obtain ⟨_, _, _, _, _, reset, _, changed⟩ := timeoutRound_parts server now
      intro status member
      rw [changed] at member
      obtain ⟨simu, present, rfl⟩ := List.mem_map.mp member
      split
      · exact Nat.zero_le _
      · exact bounded simu.status (List.mem_map_of_mem present)

/-- The counter never falls behind the number of finished simulations. -/
theorem nbFinished_le_step {restore : Restore D} {server server' : Server D} {event : Event D}
    (counted : nbFinished server ≤ server.nbFinishedSimulations)
    (taken : step restore server event = some server') :
    nbFinished server' ≤ server'.nbFinishedSimulations := by
  cases event with
  | data now m reply =>
      rcases dataMessage_cases taken with ⟨rfl, _⟩ | ⟨fieldId, admitted, simu, data, loaded,
        updated, status, accepted⟩
      · exact counted
      · have count := nbFinished_set accepted.simulation accepted.statuses
        rw [accepted.finished]
        rcases checkEntries_cases accepted.progress with rfl | rfl
        · rw [if_neg (by omega : ¬ 2 ≤ 1)] at count
          rw [if_neg (by omega)]
          omega
        · rw [if_pos (le_refl 2)] at count
          by_cases already : simu.status = 2
          · rw [if_neg (by omega)]
            rw [if_pos (by omega)] at count
            omega
          · rw [if_pos ⟨rfl, already⟩]
            omega
  | launcher msg =>
      obtain ⟨_, same, finished⟩ := textMessage_statuses taken
      rw [nbFinished, same, finished]
      exact counted
  | timeouts now =>
      cases taken
      rw [nbFinished_timeouts, (timeoutRound_parts server now).2.2.2.1]
      exact counted

end Bounded

section Outbox

variable {D : Type}

theorem outbox_textMessage {server server' : Server D} {msg : LauncherMessage D}
    (taken : textMessage server msg = some server') : server'.outbox = server.outbox := by
  obtain ⟨handled, processed, rfl⟩ := Option.map_eq_some_iff.mp taken
  cases launcherEffect processed with
  | job present enough => rfl
  | nothing noJob noDrop => rfl

theorem sendTimeouts_notices {detected : Nat} {simulations : List (Simulation D)}
    {notice : Notice} (sent : notice ∈ (sendTimeouts detected simulations).1) :
    ∃ simuId, notice = .timeout simuId := by
  unfold sendTimeouts at sent
  split at sent
  · exact ⟨-1, List.mem_singleton.mp sent⟩
  · obtain ⟨⟨simu, i⟩, _, chosen⟩ := List.mem_filterMap.mp sent
    dsimp only at chosen
    split at chosen
    · exact ⟨i, (Option.some.inj chosen).symm⟩
    · cases chosen

/-- A timeout check tells the launcher nothing of a status. -/
theorem outbox_timeouts (server : Server D) (now : ℚ) :
    ∃ notices, (timeoutRound server now).outbox = server.outbox ++ notices ∧
      ∀ simuId status, .simuStatus simuId status ∉ notices := by
  unfold timeoutRound
  split
  · dsimp only
    split
    · refine ⟨_, rfl, ?_⟩
      intro simuId status sent
      obtain ⟨_, other⟩ := sendTimeouts_notices sent
      cases other
    · refine ⟨_, rfl, ?_⟩
      intro simuId status sent
      cases List.mem_singleton.mp sent
  · exact ⟨[], (List.append_nil _).symm, fun _ _ => List.not_mem_nil⟩

theorem outbox_countFirstSend (server : Server D) (fieldId clientRank : Nat) :
    (countFirstSend server fieldId clientRank).outbox = server.outbox := by
  simp only [countFirstSend]
  split
  · rfl
  · rfl

/-- Rank 0 asks for the parameters and tells of a status that has changed. -/
def accountOf (simu : Simulation D) (m : SimuData D) (status : Nat) : List Notice :=
  (if waitsForJob simu m.vectSize then [.simuInfo m.simuId] else []) ++
    if simu.status ≠ status then [.simuStatus m.simuId status] else []

variable [Zero D] [Add D] [Sub D] [Mul D] [Div D] [NatCast D] [IntCast D]
  [Pow D ℕ] [LT D] [DecidableLT D] [LE D] [DecidableLE D] [Libm D]

theorem outbox_acceptMessage {restore : Restore D} {server server' : Server D} {now : ℚ}
    {m : SimuData D} {reply : Job D} {fieldId status : Nat} {simu : Simulation D}
    {data loaded updated : MelissaData D} (rank : server.commData.rank = 0)
    (taken : acceptMessage restore server now m (.job reply) fieldId = some server')
    (accepted : Accepted restore server m reply fieldId server' simu data loaded updated status) :
    server'.outbox = server.outbox ++ accountOf simu m status := by
  obtain ⟨_, _, sameComm, sameSimulations, _⟩ := countFirstSend_parts server fieldId m.clientRank
  obtain ⟨data', loaded', simu', updated', asked, _, _, simulation, _, reply', done⟩ :=
    acceptMessage_parts taken
  cases Option.some.inj (accepted.simulation.symm.trans simulation)
  obtain ⟨rest, askedStatuses, _, _⟩ := awaitReply_cases reply'
  obtain ⟨storedStatuses, _, _⟩ := storeEntry_parts (countFirstSend server fieldId m.clientRank)
    (by rw [sameSimulations]; exact simulation) now fieldId (needsInit data' m.vectSize) updated'
  have unchanged : statuses asked = statuses server := by
    rw [askedStatuses, storedStatuses, statuses, sameSimulations, statuses]
  have askedRank : asked.commData.rank = 0 := by
    rw [rest]
    simp [storeEntry, rank]
  have askedOutbox : asked.outbox =
      server.outbox ++ if waitsForJob simu m.vectSize then [.simuInfo m.simuId] else [] := by
    rw [rest]
    simp only [storeEntry, outbox_countFirstSend]
    split
    · rfl
    · rw [List.append_nil]
  simp only [updateProgress, Option.bind_eq_bind, Option.bind_eq_some_iff] at done
  obtain ⟨present, found, reached, checked, finish⟩ := done
  have before : present.status = simu.status :=
    status_eq_of_statuses unchanged simulation found
  have same : reached = status := by
    have progress := accepted.progress
    have sameFields : server'.fields = asked.fields := by rw [← Option.some.inj finish]
    have sameOptions : asked.options = server.options := by
      rw [← accepted.options, ← Option.some.inj finish]
    rw [sameFields, ← sameOptions, checked] at progress
    exact Option.some.inj progress
  subst same
  rw [← Option.some.inj finish, accountOf, ← List.append_assoc, ← askedOutbox, ← before]
  by_cases changed : present.status = reached
  · simp [changed]
  · simp [changed, askedRank]

end Outbox

end Melissa
