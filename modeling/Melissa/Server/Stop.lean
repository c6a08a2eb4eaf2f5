import Melissa.Server.Finished
import Melissa.Server.History

/-! When `melissa_server_run` may report that the study is over. -/

namespace Melissa

open Runs

section Stop

variable {D : Type}

/-- All messages of a simulation that this rank expects, one for each sender and time step. -/
def AllReceived (start : Server D) (senders : List (Nat × Nat)) (past : List (Event D))
    (simuId : Nat) : Prop :=
  ∀ sender ∈ senders, ∀ t < start.options.nbTimeSteps,
    Received start past sender.1 sender.2 simuId t

/-- A message does not complete its simulation on all the structures that have received
something while another sender is still silent. -/
def NotAhead (senders : List (Nat × Nat)) (server : Server D) : Event D → Prop
  | .data _ m _ => ∀ fieldId, Admitted server m fieldId → completeWith server m fieldId →
      ∀ sender ∈ senders, sender = (fieldId, m.clientRank) ∨ Spoken server sender.1 sender.2
  | _ => True

/-- Events without DROP, whose data messages come from the senders. -/
def FromSenders (start : Server D) (senders : List (Nat × Nat)) : Event D → Prop
  | .data _ m _ => ∀ fieldId, getFieldId start.fields m.fieldName = some fieldId →
      (fieldId, m.clientRank) ∈ senders
  | .launcher (.drop _ _) => False
  | _ => True

/-- Part of the invariant of the runs in which no message is ahead: a simulation with status 2
has been received completely, and the counter does not exceed their number. -/
structure OnTime (start : Server D) (senders : List (Nat × Nat)) (past : List (Event D))
    (server : Server D) : Prop where
  spoken : ∀ fieldId clientRank, Spoken server fieldId clientRank →
    (fieldId, clientRank) ∈ senders
  complete : ∀ simuId, simuStatus server simuId = 2 → AllReceived start senders past simuId
  counter : server.nbFinishedSimulations ≤ (statuses server).countP fun status => status == 2

theorem onTime_freshServer (options : Options D) (commData : CommData) (names : List String)
    (senders : List (Nat × Nat)) :
    OnTime (freshServer options commData names) senders []
      (freshServer options commData names) := by
  refine ⟨?_, ?_, Nat.zero_le _⟩
  · intro fieldId clientRank spoken
    obtain ⟨data, present, initialised⟩ := spoken
    rw [entryOf_freshServer] at present
    split at present
    · cases present
      cases initialised
    · cases present
  · intro simuId finished
    have idle : simuStatus (freshServer options commData names) simuId = 0 := by
      simp only [simuStatus, statuses, freshServer, startServer, List.map_replicate]
      by_cases inside : simuId < options.samplingSize.toNat
      · simp [List.getD_eq_getElem?_getD, inside, addSimulation]
      · have beyond : (List.replicate options.samplingSize.toNat
            (addSimulation : Simulation D).status).length ≤ simuId := by simpa using inside
        simp [List.getD_eq_getElem?_getD, List.getElem?_eq_none beyond]
    omega

theorem allReceived_concat {start : Server D} {senders : List (Nat × Nat)}
    {past : List (Event D)} {simuId : Nat} (all : AllReceived start senders past simuId)
    (event : Event D) : AllReceived start senders (past ++ [event]) simuId := by
  intro sender member t valid
  exact received_concat.mpr (Or.inl (all sender member t valid))

/-- Statuses that can only leave 2 untouched keep the invariant. -/
theorem onTime_of_statuses {start server server' : Server D} {senders : List (Nat × Nat)}
    {past : List (Event D)} (event : Event D) (inv : OnTime start senders past server)
    (fields : server'.fields = server.fields)
    (finished : server'.nbFinishedSimulations = server.nbFinishedSimulations)
    (two : ∀ i, simuStatus server' i = 2 → simuStatus server i = 2)
    (count : (statuses server').countP (fun status => status == 2) =
      (statuses server).countP fun status => status == 2) :
    OnTime start senders (past ++ [event]) server' := by
  refine ⟨?_, ?_, by rw [finished, count]; exact inv.counter⟩
  · intro fieldId clientRank spoken
    unfold Spoken at spoken
    rw [fields] at spoken
    exact inv.spoken fieldId clientRank spoken
  · intro simuId done
    exact allReceived_concat (inv.complete simuId (two simuId done)) event

end Stop

section Steps

variable {D : Type}

/-- Once everything of a simulation has arrived, `check_simu_state` keeps answering 2. -/
theorem completeWith_of_allReceived {start server : Server D} {senders : List (Nat × Nat)}
    {past : List (Event D)} {m : SimuData D} {fieldId : Nat} (study : SameStudy start server)
    (bits : BitsReceived start past server) (inv : OnTime start senders past server)
    (all : AllReceived start senders past m.simuId) (own : (fieldId, m.clientRank) ∈ senders) :
    completeWith server m fieldId := by
  intro fieldId' clientRank' data present spoken t valid
  have member : (fieldId', clientRank') ∈ senders := by
    rcases spoken with initialised | here
    · exact inv.spoken _ _ ⟨data, present, initialised⟩
    · obtain ⟨rfl, rfl⟩ := here
      exact own
  rw [nbTimeSteps_eq study] at valid
  have received := all _ member t valid
  obtain ⟨data', present', set⟩ := (bits _ _ _ _ valid).mp received
  have same : data' = data := by
    rw [present] at present'
    exact (Option.some.inj present').symm
  rw [same] at set
  exact Or.inl set

/-- A message that is not ahead and completes its simulation is the last one of it. -/
theorem allReceived_of_complete {start server : Server D} {senders : List (Nat × Nat)}
    {past : List (Event D)} {m : SimuData D} {now : ℚ} {reply : Job D} {fieldId : Nat}
    {own : MelissaData D} (study : SameStudy start server)
    (bits : BitsReceived start past server) (admitted : Admitted server m fieldId)
    (entry : entryOf server.fields fieldId m.clientRank = some own)
    (complete : completeWith server m fieldId)
    (notAhead : NotAhead senders server (.data now m reply)) :
    AllReceived start senders (past ++ [.data now m reply]) m.simuId := by
  intro sender member t valid
  have valid' : t < server.options.nbTimeSteps := by
    rw [nbTimeSteps_eq study]
    exact valid
  have heard : ∃ data, entryOf server.fields sender.1 sender.2 = some data ∧
      (data.stepsInit = true ∨ (sender.1 = fieldId ∧ sender.2 = m.clientRank)) := by
    rcases notAhead fieldId admitted complete sender member with here | spoken
    · exact ⟨own, by rw [here]; exact entry, Or.inr (by simp [here])⟩
    · obtain ⟨data, present, initialised⟩ := spoken
      exact ⟨data, present, Or.inl initialised⟩
  obtain ⟨data, present, known⟩ := heard
  rw [received_concat, isMessage_admitted study admitted, bits _ _ _ _ valid]
  rcases complete _ _ data present known t valid' with set | last
  · exact Or.inl ⟨data, present, set⟩
  · exact Or.inr ⟨⟨last.1, last.2.1⟩, rfl, last.2.2⟩

/-- The converse: when nothing of the simulation is missing, every sender has spoken. -/
theorem notAhead_of_allReceived {nbSimu : Nat} {start server : Server D}
    {senders : List (Nat × Nat)} {past : List (Event D)} {m : SimuData D} {now : ℚ}
    {reply : Job D} {fieldId : Nat} (study : SameStudy start server) (ready : Ready nbSimu server)
    (bits : BitsReceived start past server) (admitted : Admitted server m fieldId)
    (all : AllReceived start senders (past ++ [.data now m reply]) m.simuId) :
    ∀ sender ∈ senders, sender = (fieldId, m.clientRank) ∨ Spoken server sender.1 sender.2 := by
  intro sender member
  have valid : m.timeStamp.toNat < start.options.nbTimeSteps := by
    rw [← nbTimeSteps_eq study]
    exact admitted.2.1
  have received := all sender member _ valid
  rw [received_concat, isMessage_admitted study admitted, bits _ _ _ _ valid] at received
  rcases received with before | now
  · obtain ⟨data, present, set⟩ := before
    exact Or.inr (spoken_of_bit ready present set)
  · exact Or.inl (Prod.ext now.1.1 now.1.2)

private theorem countP_two_set {server server' : Server D} {simuId status : Nat}
    {simu : Simulation D} (present : server.simulations[simuId]? = some simu)
    (set : statuses server' = (statuses server).set simuId status) :
    (statuses server').countP (fun status => status == 2) + (if simu.status = 2 then 1 else 0) =
      (statuses server).countP (fun status => status == 2) + (if status = 2 then 1 else 0) := by
  have here : (statuses server)[simuId]? = some simu.status := by simp [statuses, present]
  have count := countP_set_add (fun status => status == 2) here status
  simpa [set] using count

theorem onTime_timeouts {start server : Server D} {senders : List (Nat × Nat)}
    {past : List (Event D)} (inv : OnTime start senders past server) (now : ℚ) :
    OnTime start senders (past ++ [.timeouts now]) (timeoutRound server now) := by
  obtain ⟨fields, _, _, finished, _, reset, running, after⟩ := timeoutRound_parts server now
  refine onTime_of_statuses _ inv fields finished ?_ ?_
  · intro i done
    rw [simuStatus, after] at done
    cases found : server.simulations[i]? with
    | none => simp [found] at done
    | some simu =>
        by_cases fired : reset simu = true
        · simp [found, fired] at done
        · simpa [simuStatus, statuses, found, fired] using done
  · rw [after, statuses, List.countP_map, List.countP_map]
    apply List.countP_congr
    intro simu _
    by_cases fired : reset simu = true
    · simp [fired, running simu fired]
    · simp [fired]

variable [Zero D] [Add D] [Sub D] [Mul D] [Div D] [NatCast D] [IntCast D]
  [Pow D ℕ] [LT D] [DecidableLT D] [LE D] [DecidableLE D] [Libm D]

theorem spoken_accepted {restore : Restore D} {server server' : Server D} {m : SimuData D}
    {reply : Job D} {fieldId status : Nat} {simu : Simulation D}
    {data loaded updated : MelissaData D}
    (accepted : Accepted restore server m reply fieldId server' simu data loaded updated status)
    {fieldId' clientRank' : Nat} (spoken : Spoken server' fieldId' clientRank') :
    (fieldId' = fieldId ∧ clientRank' = m.clientRank) ∨ Spoken server fieldId' clientRank' := by
  obtain ⟨data', present, initialised⟩ := spoken
  rw [accepted.fields] at present
  rcases entryOf_setEntry_cases accepted.entry present with ⟨field, rank, _⟩ | ⟨_, present⟩
  · exact Or.inl ⟨field, rank⟩
  · exact Or.inr ⟨data', present, initialised⟩

theorem onTime_accepted {restore : Restore D} {nbSimu : Nat} {start server server' : Server D}
    {senders : List (Nat × Nat)} {past : List (Event D)} {now : ℚ} {m : SimuData D} {reply : Job D}
    {fieldId status : Nat} {simu : Simulation D} {data loaded updated : MelissaData D}
    (study : SameStudy start server) (ready : Ready nbSimu server)
    (bits : BitsReceived start past server) (inv : OnTime start senders past server)
    (own : (fieldId, m.clientRank) ∈ senders)
    (notAhead : NotAhead senders server (.data now m reply))
    (admitted : Admitted server m fieldId)
    (accepted : Accepted restore server m reply fieldId server' simu data loaded updated status) :
    OnTime start senders (past ++ [.data now m reply]) server' := by
  obtain ⟨checked, _⟩ := accepted_complete_iff ready admitted accepted
  have stays : simu.status = 2 → status = 2 := by
    intro done
    rw [← simuStatus_of_present accepted.simulation] at done
    exact checked.mpr
      (completeWith_of_allReceived study bits inv (inv.complete m.simuId done) own)
  refine ⟨?_, ?_, ?_⟩
  · intro fieldId' clientRank' spoken
    rcases spoken_accepted accepted spoken with here | before
    · rw [here.1, here.2]
      exact own
    · exact inv.spoken _ _ before
  · intro simuId done
    rw [simuStatus_set accepted.simulation accepted.statuses] at done
    split at done
    · rename_i here
      rw [here]
      exact allReceived_of_complete study bits admitted accepted.entry (checked.mp done) notAhead
    · exact allReceived_concat (inv.complete simuId done) _
  · have count := countP_two_set accepted.simulation accepted.statuses
    have before := inv.counter
    rw [accepted.finished]
    by_cases two : status = 2
    · rw [if_pos two] at count
      by_cases old : simu.status = 2
      · rw [if_pos old] at count
        rw [if_neg (by omega)]
        omega
      · rw [if_neg old] at count
        rw [if_pos ⟨two, old⟩]
        omega
    · have fresh : ¬ simu.status = 2 := fun old => two (stays old)
      rw [if_neg two, if_neg fresh] at count
      rw [if_neg (by omega)]
      omega

theorem onTime_step {restore : Restore D} {nbSimu : Nat} {start server server' : Server D}
    {senders : List (Nat × Nat)} {past : List (Event D)} {event : Event D}
    (study : SameStudy start server) (ready : Ready nbSimu server)
    (bits : BitsReceived start past server) (inv : OnTime start senders past server)
    (known : FromSenders start senders event) (notAhead : NotAhead senders server event)
    (taken : step restore server event = some server') :
    OnTime start senders (past ++ [event]) server' := by
  cases event with
  | data now m reply =>
      rcases dataMessage_cases taken with ⟨rfl, _⟩ | ⟨fieldId, admitted, simu, data, loaded,
        updated, status, accepted⟩
      · exact onTime_of_statuses _ inv rfl rfl (fun _ done => done) rfl
      · have own : (fieldId, m.clientRank) ∈ senders := by
          apply known fieldId
          rw [← getFieldId_sameStudy study]
          exact admitted.2.2
        exact onTime_accepted study ready bits inv own notAhead admitted accepted
  | launcher msg =>
      obtain ⟨handled, processed, rfl⟩ := Option.map_eq_some_iff.mp taken
      cases msg with
      | job job =>
          obtain ⟨_, _, same, _, rest⟩ := processLauncherMessage_job processed
          have same' : statuses { handled with options := { handled.options with
              samplingSize := (handled.simulations.length : Int) } } = statuses server := same
          refine onTime_of_statuses _ inv ?_ ?_ ?_ ?_
          · rw [rest]
          · rw [rest]
          · intro i done
            rw [simuStatus, same'] at done
            exact done
          · rw [same']
      | drop simuId jobId => exact absurd known id
      | hello => cases processed; exact onTime_of_statuses _ inv rfl rfl (fun _ done => done) rfl
      | alive => cases processed; exact onTime_of_statuses _ inv rfl rfl (fun _ done => done) rfl
      | options => cases processed; exact onTime_of_statuses _ inv rfl rfl (fun _ done => done) rfl
      | unknown messageType =>
          cases processed
          exact onTime_of_statuses _ inv rfl rfl (fun _ done => done) rfl
  | timeouts now =>
      cases taken
      exact onTime_timeouts inv now

/-- The server never stops early: when the stop test succeeds, every simulation has been
received, and `check_simu_state` answers 2 only for a simulation that has been received. -/
def NeverEarly (start : Server D) (senders : List (Nat × Nat)) (events : List (Event D)) :
    Prop :=
  ∀ front back server, events = front ++ back →
    run (step noRestore) start front = some server →
    (stopTest server = true →
      ∀ simuId < start.simulations.length, AllReceived start senders front simuId) ∧
    ∀ before now m reply fieldId, front = before ++ [.data now m reply] →
      Admitted start m fieldId →
      checkSimuState server.fields server.options.nbTimeSteps m.simuId = some 2 →
        AllReceived start senders front m.simuId

/-- What holds at every point of a run in which no message is ahead. -/
theorem onTime_run (options : Options D) (commData : CommData) (names : List String)
    (senders : List (Nat × Nat)) {events : List (Event D)}
    (known : ∀ event ∈ events, FromSenders (freshServer options commData names) senders event)
    (notAhead : ∀ front e back mid next, events = front ++ e :: back →
      run (step noRestore) (freshServer options commData names) front = some mid →
      step noRestore mid e = some next → NotAhead senders mid e)
    {server : Server D}
    (reached : run (step noRestore) (freshServer options commData names) events = some server) :
    OnTime (freshServer options commData names) senders events server := by
  induction events using List.reverseRecOn generalizing server with
  | nil =>
      cases reached
      exact onTime_freshServer options commData names senders
  | append_singleton events event ih =>
      obtain ⟨mid, before, taken⟩ := run_concat_eq_some.mp reached
      have inv := ih (fun e member => known e (List.mem_append_left _ member))
        (fun front e back s next cut => notAhead front e (back ++ [event]) s next
          (by rw [cut]; simp)) before
      exact onTime_step (run_sameStudy before) (ready_run (ready_freshServer _ _ _) before)
        (bitsReceived_run options commData names before) inv (known event (by simp))
        (notAhead events event [] mid server (by simp) before taken) taken

private theorem all_two {statuses : List Nat}
    (count : statuses.length ≤ statuses.countP fun status => status == 2) (i : Nat)
    (inside : i < statuses.length) : statuses.getD i 0 = 2 := by
  have exact : statuses.countP (fun status => status == 2) = statuses.length :=
    Nat.le_antisymm List.countP_le_length count
  have every := List.countP_eq_length.mp exact
  rw [List.getD_eq_getElem _ _ inside]
  simpa using every _ (List.getElem_mem inside)

theorem neverEarly_of_notAhead (options : Options D) (commData : CommData) (names : List String)
    (senders : List (Nat × Nat)) {events : List (Event D)}
    (known : ∀ event ∈ events, FromSenders (freshServer options commData names) senders event)
    (notAhead : ∀ front e back mid next, events = front ++ e :: back →
      run (step noRestore) (freshServer options commData names) front = some mid →
      step noRestore mid e = some next → NotAhead senders mid e) :
    NeverEarly (freshServer options commData names) senders events := by
  intro front back server cut reached
  have inv := onTime_run options commData names senders
    (fun e member => known e (by rw [cut]; exact List.mem_append_left _ member))
    (fun front' e back' mid next cut' => notAhead front' e (back' ++ back) mid next
      (by rw [cut, cut']; simp)) reached
  have ready := ready_run (ready_freshServer options commData names) reached
  constructor
  · intro stop simuId inside
    have length : (statuses server).length = options.samplingSize.toNat := by
      simp [statuses, ready.simulations]
    have enough : options.samplingSize.toNat ≤ server.nbFinishedSimulations := by
      simp only [stopTest, Bool.and_eq_true, decide_eq_true_eq] at stop
      have sample := ready.sample
      omega
    have inside : simuId < (statuses server).length := by
      simpa [length, freshServer, startServer] using inside
    refine inv.complete simuId (all_two ?_ simuId inside)
    calc (statuses server).length = options.samplingSize.toNat := length
      _ ≤ server.nbFinishedSimulations := enough
      _ ≤ _ := inv.counter
  · intro before now m reply fieldId last admitted checked
    subst last
    obtain ⟨mid, reached', taken⟩ := run_concat_eq_some.mp reached
    obtain ⟨simu, data, loaded, updated, status, accepted⟩ :=
      admitted_accepted ((admitted_sameStudy (run_sameStudy reached')).mpr admitted) taken
    have two : status = 2 := by
      have progress := accepted.progress
      rw [← accepted.options, checked] at progress
      exact (Option.some.inj progress).symm
    apply inv.complete
    rw [simuStatus_set accepted.simulation accepted.statuses, if_pos rfl, two]

/-- Where a message is ahead, `check_simu_state` answers 2 for a simulation of which nothing has
arrived from the silent sender. -/
theorem notAhead_of_neverEarly (options : Options D) (commData : CommData) (names : List String)
    (senders : List (Nat × Nat)) {events : List (Event D)}
    (never : NeverEarly (freshServer options commData names) senders events) :
    ∀ front e back mid next, events = front ++ e :: back →
      run (step noRestore) (freshServer options commData names) front = some mid →
      step noRestore mid e = some next → NotAhead senders mid e := by
  intro front e back mid next cut before taken
  cases e with
  | data now m reply =>
      intro fieldId admitted complete
      have study := run_sameStudy before
      have ready := ready_run (ready_freshServer options commData names) before
      obtain ⟨simu, data, loaded, updated, status, accepted⟩ := admitted_accepted admitted taken
      have two := (accepted_complete_iff ready admitted accepted).1.mpr complete
      have checked : checkSimuState next.fields next.options.nbTimeSteps m.simuId = some 2 := by
        rw [accepted.options, accepted.progress, two]
      have reached := run_concat_eq_some.mpr ⟨mid, before, taken⟩
      have all := (never (front ++ [.data now m reply]) back next (by rw [cut]; simp) reached).2
        front now m reply fieldId rfl ((admitted_sameStudy study).mp admitted) checked
      exact notAhead_of_allReceived study ready (bitsReceived_run options commData names before)
        admitted all
  | launcher msg => trivial
  | timeouts now => trivial

/-- The server never stops early exactly in the runs in which no message is ahead. -/
theorem neverEarly_iff (options : Options D) (commData : CommData) (names : List String)
    (senders : List (Nat × Nat)) (events : List (Event D))
    (known : ∀ event ∈ events, FromSenders (freshServer options commData names) senders event) :
    NeverEarly (freshServer options commData names) senders events ↔
      ∀ front e back mid next, events = front ++ e :: back →
        run (step noRestore) (freshServer options commData names) front = some mid →
        step noRestore mid e = some next → NotAhead senders mid e := by
  constructor
  · exact notAhead_of_neverEarly options commData names senders
  · exact neverEarly_of_notAhead options commData names senders known

end Steps

section SilentRank

/-- Client rank 0 sends all its messages before client rank 1 sends its first one. -/
private def silentRank : List (Event ℚ) :=
  [.data 1 ⟨0, 0, 0, 1, "heat", [3]⟩ ⟨0, "job0", [1]⟩,
    .data 2 ⟨1, 0, 0, 1, "heat", [4]⟩ ⟨0, "job0", [1]⟩,
    .data 3 ⟨0, 1, 0, 1, "heat", [5]⟩ ⟨1, "job1", [2]⟩,
    .data 4 ⟨1, 1, 0, 1, "heat", [6]⟩ ⟨1, "job1", [2]⟩]

theorem neverEarly_iff_silentRank :
    NeverEarly (freshServer twoByTwo ⟨0, 1, 2⟩ ["heat"]) [(0, 0), (0, 1)] silentRank ↔
      ∀ front e back mid next, silentRank = front ++ e :: back →
        run (step noRestore) (freshServer twoByTwo ⟨0, 1, 2⟩ ["heat"]) front = some mid →
        step noRestore mid e = some next → NotAhead [(0, 0), (0, 1)] mid e := by
  apply neverEarly_iff
  intro event member
  simp only [silentRank, List.mem_cons, List.not_mem_nil, or_false] at member
  have heat : getFieldId (freshServer twoByTwo ⟨0, 1, 2⟩ ["heat"]).fields "heat" = some 0 := rfl
  rcases member with rfl | rfl | rfl | rfl <;>
    · intro fieldId known
      rw [heat] at known
      cases known
      decide

theorem not_neverEarly_silentRank :
    ¬ NeverEarly (freshServer twoByTwo ⟨0, 1, 2⟩ ["heat"]) [(0, 0), (0, 1)] silentRank := by
  intro never
  have outcome : ∃ last, run (step noRestore) (freshServer twoByTwo ⟨0, 1, 2⟩ ["heat"]) silentRank =
      some last ∧ stopTest last = true := ⟨_, rfl, rfl⟩
  obtain ⟨last, reached, stop⟩ := outcome
  have all := (never silentRank [] last (by simp) reached).1 stop 0 (by decide)
  obtain ⟨event, member, message⟩ := all (0, 1) (by decide) 0 (by decide)
  simp only [silentRank, List.mem_cons, List.not_mem_nil, or_false] at member
  rcases member with rfl | rfl | rfl | rfl <;> exact absurd message.2.1 (by decide)

end SilentRank

end Melissa
