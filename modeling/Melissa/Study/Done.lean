import Melissa.Server.Statuses
import Melissa.Study.Written

/-! The end of a study: once every message has arrived, a server rank with an element of some field
stops. -/

namespace Melissa

open Arrays Blocks Runs

section Counter

variable {D : Type}

/-- With a smaller sample it stops as well. -/
theorem stopTest_sampleFree {server plain : Server D} (same : sampleFree server = sampleFree plain)
    (smaller : server.options.samplingSize ≤ plain.options.samplingSize)
    (stops : stopTest plain = true) : stopTest server = true := by
  have finished : server.nbFinishedSimulations = plain.nbFinishedSimulations :=
    (congrArg Server.nbFinishedSimulations same :)
  rw [stopTest, Bool.and_eq_true, decide_eq_true_eq, decide_eq_true_eq] at stops ⊢
  rw [finished]
  exact ⟨smaller.trans stops.1, stops.2⟩

variable [Zero D] [Add D] [Sub D] [Mul D] [Div D] [NatCast D] [IntCast D]
  [Pow D ℕ] [LT D] [DecidableLT D] [LE D] [DecidableLE D] [Libm D]

end Counter

section Progress

variable {D : Type} {ensemble : Ensemble D} {nbServers server nbTimeSteps : Nat}

/-- All messages of a simulation to the server rank have arrived. -/
def SimuArrived (ensemble : Ensemble D) (nbServers nbTimeSteps server : Nat)
    (arrivals : List (Arrival D)) (simuId : Nat) : Prop :=
  ∀ m, ensemble.Sends nbServers nbTimeSteps server m → m.simuId = simuId →
    m ∈ arrivals.map Arrival.m

theorem simuArrived_of_other {past : List (Arrival D)} {arrival : Arrival D} {simuId : Nat}
    (other : arrival.m.simuId ≠ simuId)
    (all : SimuArrived ensemble nbServers nbTimeSteps server (past ++ [arrival]) simuId) :
    SimuArrived ensemble nbServers nbTimeSteps server past simuId := by
  intro m sent own
  have member := all m sent own
  rw [List.map_append, List.mem_append] at member
  rcases member with before | last
  · exact before
  · have here : m = arrival.m := by simpa using last
    rw [here] at own
    exact absurd own other

/-- The server rank has an element of some field. -/
def HasElement (ensemble : Ensemble D) (nbServers server : Nat) : Prop :=
  ∃ name ∈ ensemble.names, ∃ rank < ensemble.nbClients,
    0 < (ensemble.piece nbServers name server rank).count

theorem hasElement_of_lt {name : String} (known : name ∈ ensemble.names)
    (inside : server < nbServers) (element : server < ensemble.vectSize name) :
    HasElement ensemble nbServers server := by
  have size : 0 < (ensemble.serverSizes nbServers name).getD server 0 := by
    rw [Ensemble.serverSizes, serverVectSize, evenSizes_getD inside]
    rcases Nat.eq_zero_or_pos (ensemble.vectSize name / nbServers) with small | large
    · have rest := Nat.div_add_mod (ensemble.vectSize name) nbServers
      rw [small, Nat.mul_zero, Nat.zero_add] at rest
      rw [if_pos (by omega)]
      omega
    · omega
  have next := offset_succ (ensemble.serverSizes nbServers name) server
  have last := offset_le_sum (ensemble.serverSizes nbServers name) (server + 1)
  have same : (ensemble.serverSizes nbServers name).sum =
      (ensemble.localVectSizes name).sum := evenSizes_sum _ (by omega)
  have owned : ∃ rank, rank < (ensemble.localVectSizes name).length ∧
      Owns (ensemble.localVectSizes name) rank
        (offset (ensemble.serverSizes nbServers name) server) := owns_exists (by omega)
  obtain ⟨rank, client, owns⟩ := owned
  rw [ensemble.ranks name known] at client
  refine ⟨name, known, rank, client, ?_⟩
  obtain ⟨starts, ends⟩ := owns
  change 0 < overlap (ensemble.localVectSizes name) (ensemble.serverSizes nbServers name)
    rank server
  unfold overlap overlapStart
  omega

variable [Zero D] [Add D] [Sub D] [Mul D] [Div D] [NatCast D] [IntCast D]
  [Pow D ℕ] [LT D] [DecidableLT D] [LE D] [DecidableLE D] [Libm D] {options : Options D}

/-- Once all messages of a simulation have arrived, `check_simu_state` answers 2. -/
theorem checkSimuState_arrived {commData : CommData} {arrivals : List (Arrival D)}
    {srv : Server D} {simuId : Nat}
    (study : SameStudy (freshServer options commData ensemble.names) srv)
    (clients : commData.clientCommSize = ensemble.nbClients)
    (inv : AllRecords options commData ensemble.names (ensemble.pieceSize nbServers server)
      arrivals srv)
    (only : ∀ m ∈ arrivals.map Arrival.m, ensemble.Sends nbServers options.nbTimeSteps server m)
    (simu : simuId < ensemble.nbSimu) (inside : simuId < options.samplingSize.toNat)
    (all : SimuArrived ensemble nbServers options.nbTimeSteps server arrivals simuId) :
    checkSimuState srv.fields options.nbTimeSteps simuId = some 2 := by
  rw [checkSimuState_eq_two]
  intro fieldId rank data present
  have place := study.entries fieldId rank
  rw [present, entryOf_freshServer] at place
  obtain ⟨known, client⟩ : fieldId < ensemble.names.length ∧ rank < commData.clientCommSize := by
    by_contra outside
    rw [if_neg outside] at place
    cases place
  obtain ⟨data', entry, history⟩ := inv.entries fieldId rank known client
  rw [present] at entry
  cases entry
  have ready := inv.ready.entries fieldId rank data present
  rw [inv.sameOptions] at ready
  rw [entryComplete_iff ready inside]
  intro initialised t step
  by_cases nothing : messagesOf ensemble.names fieldId rank arrivals = []
  · rw [if_pos nothing] at history
    rw [history] at initialised
    cases initialised
  · rw [if_neg nothing] at history
    have field := List.getElem?_eq_getElem known
    obtain ⟨m, member⟩ := List.exists_mem_of_ne_nil _ nothing
    obtain ⟨arrived, own⟩ := List.mem_filter.mp member
    have some_count := (Ensemble.sends_addressed field (only m arrived) own).2.1
    have sent : ensemble.Sends nbServers options.nbTimeSteps server
        (ensemble.message nbServers server simuId t ensemble.names[fieldId] rank) :=
      ⟨simuId, t, _, rank, simu, step, List.getElem_mem known, by omega, some_count, rfl⟩
    refine (history.bits simuId t step).mpr ⟨_, List.mem_filter.mpr ⟨all _ sent rfl, ?_⟩, rfl, rfl⟩
    exact (addressed_iff (Ensemble.findIdx_name field) fieldId rank).mpr ⟨rfl, rfl⟩

/-- A simulation whose messages have all arrived is finished, and stays so. -/
theorem finished_step {commData : CommData} {past : List (Arrival D)} {srv srv' : Server D}
    {event : Event D} (samples : options.samplingSize.toNat = ensemble.nbSimu)
    (clients : commData.clientCommSize = ensemble.nbClients)
    (study : SameStudy (freshServer options commData ensemble.names) srv')
    (inv : AllRecords options commData ensemble.names (ensemble.pieceSize nbServers server) past
      srv)
    (inv' : AllRecords options commData ensemble.names (ensemble.pieceSize nbServers server)
      (past ++ arrivalsOf [event]) srv')
    (only : ∀ m ∈ (past ++ arrivalsOf [event]).map Arrival.m,
      ensemble.Sends nbServers options.nbTimeSteps server m)
    (formed : EventFormed options commData ensemble.names (ensemble.pieceSize nbServers server)
      event)
    (taken : step noRestore srv event = some srv')
    (before : ∀ simuId < ensemble.nbSimu,
      SimuArrived ensemble nbServers options.nbTimeSteps server past simuId →
        2 ≤ simuStatus srv simuId) :
    ∀ simuId < ensemble.nbSimu,
      SimuArrived ensemble nbServers options.nbTimeSteps server (past ++ arrivalsOf [event])
        simuId → 2 ≤ simuStatus srv' simuId := by
  intro simuId simu all
  cases event with
  | data now m reply =>
      obtain ⟨fieldId, known, sendable⟩ := formed.field
      have admitted : Admitted srv m fieldId := by
        refine ⟨sendable.valid, by rw [inv.sameOptions]; exact sendable.below, ?_⟩
        rw [getFieldId_eq_findIdx, inv.sameNames]
        exact known
      obtain ⟨simulation, data, loaded, updated, status, accepted⟩ :=
        admitted_accepted admitted taken
      rw [simuStatus_set accepted.simulation accepted.statuses]
      split
      · rename_i here
        have checked := checkSimuState_arrived study clients inv' only simu
          (by rw [samples]; exact simu) all
        have progress := accepted.progress
        rw [inv.sameOptions, ← here, checked] at progress
        cases progress
        exact le_refl 2
      · rename_i other
        exact before simuId simu (simuArrived_of_other (Ne.symm other) all)
  | launcher msg =>
      rw [arrivalsOf, List.filterMap_cons_none rfl, List.filterMap_nil, List.append_nil] at all
      have finished := before simuId simu all
      obtain ⟨_, same, _⟩ := textMessage_statuses taken
      rw [simuStatus, same]
      exact finished
  | timeouts now =>
      rw [arrivalsOf, List.filterMap_cons_none rfl, List.filterMap_nil, List.append_nil] at all
      cases taken
      rw [simuStatus_timeouts now (before simuId simu all)]
      exact before simuId simu all

/-- Whole runs of a server rank that has an element. -/
theorem finished_run {events : List (Event D)} (accepted : rejected options = false)
    (vects : ensemble.nbVect = options.nbVect)
    (samples : options.samplingSize = (ensemble.nbSimu : Int)) (steps : 0 < options.nbTimeSteps)
    (element : HasElement ensemble nbServers server)
    (known : ∀ event ∈ events, Known (ensemble.Sends nbServers options.nbTimeSteps server)
      ensemble.nbSimu options.nbParameters event) :
    ∃ srv, run (step noRestore) (freshServer options ⟨server, nbServers, ensemble.nbClients⟩
        ensemble.names) events = some srv ∧
      AllRecords options.firstStart ⟨server, nbServers, ensemble.nbClients⟩ ensemble.names
        (ensemble.pieceSize nbServers server) (arrivalsOf events) srv ∧
      nbFinished srv ≤ srv.nbFinishedSimulations ∧
      ∀ simuId < ensemble.nbSimu,
        SimuArrived ensemble nbServers options.nbTimeSteps server (arrivalsOf events) simuId →
          2 ≤ simuStatus srv simuId := by
  have samples' : options.firstStart.samplingSize.toNat = ensemble.nbSimu := by
    change options.samplingSize.toNat = ensemble.nbSimu
    omega
  induction events using List.reverseRecOn with
  | nil =>
      refine ⟨_, rfl, allRecords_freshServer options _ ensemble.names _, ?_, ?_⟩
      · exact Nat.le_of_eq (counted_freshServer options _ ensemble.names).symm
      · intro simuId simu all
        obtain ⟨name, listed, rank, client, some_count⟩ := element
        have missing := all _ ⟨simuId, 0, name, rank, simu, steps, listed, client, some_count, rfl⟩
          rfl
        cases missing
  | append_singleton past event ih =>
      obtain ⟨mid, reached, inv, counted, before⟩ :=
        ih fun earlier member => known earlier (List.mem_append_left _ member)
      have formed := eventFormed_firstStart
        (eventFormed_of_known vects samples (known event (by simp)))
      have accepted' : rejected options.firstStart = false := accepted
      obtain ⟨srv, taken, inv'⟩ := allRecords_event accepted' inv formed
      have done := run_concat_eq_some.mpr ⟨mid, reached, taken⟩
      have only : ∀ m ∈ (arrivalsOf past ++ arrivalsOf [event]).map Arrival.m,
          ensemble.Sends nbServers options.nbTimeSteps server m := by
        intro m arrived
        rw [arrivalsOf, arrivalsOf, ← List.filterMap_append] at arrived
        obtain ⟨now, reply, member⟩ := mem_arrivalsOf.mp arrived
        exact (known _ member).1
      have finished := finished_step samples' rfl (run_sameStudy done) inv inv' only formed taken
        before
      rw [arrivalsOf, List.filterMap_append]
      exact ⟨srv, done, inv', nbFinished_le_step counted taken, finished⟩

/-- With every simulation finished the server rank stops. -/
theorem stopTest_of_finished {commData : CommData} {sizes : Nat → Nat → Nat}
    {arrivals : List (Arrival D)} {srv : Server D} (accepted : rejected options = false)
    (samples : options.samplingSize = (ensemble.nbSimu : Int))
    (inv : AllRecords options commData ensemble.names sizes arrivals srv)
    (counted : nbFinished srv ≤ srv.nbFinishedSimulations)
    (finished : ∀ simuId < ensemble.nbSimu, 2 ≤ simuStatus srv simuId) : stopTest srv = true := by
  have length : (statuses srv).length = ensemble.nbSimu := by
    rw [statuses, List.length_map, inv.ready.simulations, samples]
    rfl
  have everyone : nbFinished srv = ensemble.nbSimu := by
    rw [nbFinished, ← length, List.countP_eq_length]
    intro status member
    obtain ⟨i, inside, rfl⟩ := List.mem_iff_getElem.mp member
    have large := finished i (by omega)
    rw [simuStatus, List.getD_eq_getElem _ _ inside] at large
    exact decide_eq_true large
  rw [stopTest, Bool.and_eq_true, decide_eq_true_eq, decide_eq_true_eq, inv.sameOptions, samples]
  have positive := samplingSize_pos accepted
  omega

/-- When everything has arrived at a server rank with an element of some field, it stops. -/
theorem ensemble_stops {rounds : List (Round D)} (accepted : rejected options = false)
    (vects : ensemble.nbVect = options.nbVect)
    (samples : options.samplingSize = (ensemble.nbSimu : Int)) (inside : server < nbServers)
    (element : ∃ name ∈ ensemble.names, server < ensemble.vectSize name)
    (known : ∀ event ∈ eventsOf rounds, Known (ensemble.Sends nbServers options.nbTimeSteps server)
      ensemble.nbSimu options.nbParameters event)
    (complete : Meets (roundStep noRestore) CompleteSample
      (freshServer options ⟨server, nbServers, ensemble.nbClients⟩ ensemble.names) rounds)
    (all : Arrived (ensemble.Sends nbServers options.nbTimeSteps server) (eventsOf rounds)) :
    ∃ srv, run (roundStep noRestore) (freshServer options ⟨server, nbServers, ensemble.nbClients⟩
        ensemble.names) rounds = some srv ∧ stopTest srv = true := by
  obtain ⟨name, listed, element⟩ := element
  obtain ⟨plain, reached, inv, counted, finished⟩ := finished_run accepted vects samples
    (nbTimeSteps_pos accepted) (hasElement_of_lt listed inside element) known
  have accepted' : rejected options.firstStart = false := accepted
  have stops : stopTest plain = true :=
    stopTest_of_finished accepted' samples inv counted
      fun simuId simu => finished simuId simu fun m sent _ => mem_arrivalsOf.mpr (all m sent)
  have fresh := wholeSample_freshServer accepted ⟨server, nbServers, ensemble.nbClients⟩
    ensemble.names
  obtain ⟨whole, srv, done, same⟩ := run_sampleFree fresh complete reached
  have simulations : srv.simulations.length = plain.simulations.length :=
    (congrArg (fun server => server.simulations.length) same :)
  have sample : srv.options.samplingSize ≤ (srv.simulations.length : Int) :=
    run_invariant (fun _ _ _ => sample_le_roundStep) (le_of_eq fresh) done
  refine ⟨srv, done, stopTest_sampleFree same ?_ stops⟩
  rw [whole, ← simulations]
  exact sample

end Progress

end Melissa
