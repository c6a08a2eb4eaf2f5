import Melissa.Study.Done

/-! The study of simulations that send their own vectors: the messages of `melissa_send` on all
client ranks are those of an ensemble. -/

namespace Melissa

open Arrays Blocks Runs

/-- The local vectors of all simulations, time steps and fields, client rank after client rank. The
spread of a field over the ranks is one that `comm_n_to_m_init` handles: its size is an `int`
(`small`), rank 0 has an element (`first`), and no rank without an element stands before a rank with
one (`steady`). -/
structure Campaign (D : Type) where
  names : List String
  nbSimu : Nat
  nbClients : Nat
  localVectSizes : String → List Nat
  clients : Nat → Nat → String → List (List D)
  distinct : names.Nodup
  ranks : ∀ name ∈ names, (localVectSizes name).length = nbClients
  small : ∀ name ∈ names, (localVectSizes name).sum < 2 ^ 31
  first : ∀ name ∈ names, 0 < (localVectSizes name).getD 0 0
  steady : ∀ name ∈ names, Steady (localVectSizes name)
  sized : ∀ simuId timeStep name,
    (clients simuId timeStep name).map List.length = localVectSizes name

namespace Campaign

variable {D : Type} (campaign : Campaign D) (nbServers : Nat)

/-- One call of `melissa_send` on client rank `rank`: the messages, each with the server rank it
arrives at. -/
def melissaSend (simuId timeStep : Nat) (name : String) (rank : Nat) :
    Option (List (Nat × SimuData D)) :=
  let localVectSizes := campaign.localVectSizes name
  (globalVectSize localVectSizes).bind fun globalVectSize =>
    let plan := commNToMInit localVectSizes (serverVectSize globalVectSize nbServers) rank
    (sendRound plan rank ((campaign.clients simuId timeStep name).getD rank [])).map fun sent =>
      sent.map fun (server, data) =>
        (server, { timeStamp := timeStep, simuId := simuId, clientRank := rank
                   vectSize := data.length, fieldName := name, data := data })

/-- The messages to a server rank. -/
def Sends (nbTimeSteps server : Nat) (m : SimuData D) : Prop :=
  ∃ simuId timeStep name rank, simuId < campaign.nbSimu ∧ timeStep < nbTimeSteps ∧
    name ∈ campaign.names ∧ rank < campaign.nbClients ∧ ∃ messages,
      campaign.melissaSend nbServers simuId timeStep name rank = some messages ∧
        (server, m) ∈ messages

/-- The whole field of a simulation at a time step. -/
def whole (simuId timeStep : Nat) (name : String) : List D :=
  (campaign.clients simuId timeStep name).flatten

theorem length_whole (simuId timeStep : Nat) (name : String) :
    (campaign.whole simuId timeStep name).length = (campaign.localVectSizes name).sum := by
  rw [whole, List.length_flatten, campaign.sized]

def ensemble : Ensemble D where
  names := campaign.names
  nbSimu := campaign.nbSimu
  nbClients := campaign.nbClients
  nbVect := 1
  localVectSizes := campaign.localVectSizes
  vectors := fun simuId timeStep name => [campaign.whole simuId timeStep name]
  distinct := campaign.distinct
  ranks := campaign.ranks
  first := campaign.first
  steady := campaign.steady
  count := fun _ _ _ => rfl
  sized := by
    intro simuId timeStep name vector member
    rw [List.mem_singleton.mp member]
    exact campaign.length_whole simuId timeStep name

variable {campaign nbServers} {name : String}

/-- What a message carries is the piece of its two ranks. -/
theorem push_piece (servers : 0 < nbServers) (known : name ∈ campaign.names)
    (simuId timeStep : Nat) {rank : Nat} {push : Push}
    (sent : push ∈ Melissa.melissaSend (commNToMInit (campaign.localVectSizes name)
      (serverVectSize (campaign.localVectSizes name).sum nbServers) rank) rank) :
    (push.count = 0 ∨ push.start + push.count ≤
        ((campaign.clients simuId timeStep name).getD rank []).length) ∧
      (((campaign.clients simuId timeStep name).getD rank []).drop push.start).take push.count =
        (campaign.ensemble.piece nbServers name push.pullRank rank).take
          (campaign.whole simuId timeStep name) := by
  have aligned : Aligned (campaign.localVectSizes name)
      (serverVectSize (campaign.localVectSizes name).sum nbServers) :=
    campaign.ensemble.aligned servers known
  rw [← campaign.sized simuId timeStep name] at aligned sent
  have block := push_block aligned sent
  rw [campaign.sized] at block
  refine ⟨push_inside aligned sent, ?_⟩
  rw [block]
  exact (Piece.take_eq_pick (campaign.ensemble.piece nbServers name push.pullRank rank)
    (campaign.length_whole simuId timeStep name)).symm

theorem ensemble_message (nbServers server simuId timeStep : Nat) (name : String) (rank : Nat) :
    campaign.ensemble.message nbServers server simuId timeStep name rank =
      { timeStamp := timeStep, simuId := simuId, clientRank := rank
        vectSize := (campaign.ensemble.piece nbServers name server rank).count
        fieldName := name
        data := (campaign.ensemble.piece nbServers name server rank).take
          (campaign.whole simuId timeStep name) } := by
  have vectors : campaign.ensemble.vectors simuId timeStep name =
      [campaign.whole simuId timeStep name] := rfl
  simp only [Ensemble.message, vectors, List.map_cons, List.map_nil, List.flatten_cons,
    List.flatten_nil, List.append_nil]

/-- The messages of a call are those of the ensemble, to the server ranks of the plan. -/
theorem melissaSend_eq (servers : 0 < nbServers) (known : name ∈ campaign.names)
    (simuId timeStep rank : Nat) :
    campaign.melissaSend nbServers simuId timeStep name rank =
      some ((dataPushers (commNToMInit (campaign.localVectSizes name)
          (serverVectSize (campaign.localVectSizes name).sum nbServers) rank) rank).map
        fun server =>
          (server, campaign.ensemble.message nbServers server simuId timeStep name rank)) := by
  rw [melissaSend, globalVectSize_of_lt (campaign.small name known), Option.bind_some]
  simp only
  rw [sendRound_eq fun push sent => (push_piece servers known simuId timeStep sent).1,
    Option.map_some, List.map_map, ← melissaSend_pullRanks, List.map_map]
  congr 1
  apply List.map_congr_left
  intro push sent
  have carried := (push_piece servers known simuId timeStep sent).2
  have length := (campaign.ensemble.piece nbServers name push.pullRank rank).length_take
    (campaign.length_whole simuId timeStep name)
  simp only [Function.comp_apply, carried, length, ensemble_message]

/-- The messages of the ensemble are those that `melissa_send` sends. -/
theorem sends_eq (servers : 0 < nbServers) (nbTimeSteps server : Nat) :
    campaign.ensemble.Sends nbServers nbTimeSteps server =
      campaign.Sends nbServers nbTimeSteps server := by
  funext m
  apply propext
  constructor
  · intro sent
    obtain ⟨simuId, timeStep, name, rank, simu, step, known, client, some_count, rfl⟩ := sent
    refine ⟨simuId, timeStep, name, rank, simu, step, known, client, _,
      melissaSend_eq servers known simuId timeStep rank, ?_⟩
    exact List.mem_map.mpr
      ⟨server, (Ensemble.mem_dataPushers_iff servers known).mpr some_count, rfl⟩
  · intro sent
    obtain ⟨simuId, timeStep, name, rank, simu, step, known, client, messages, done, member⟩ :=
      sent
    rw [melissaSend_eq servers known] at done
    cases done
    obtain ⟨server', pushed, here⟩ := List.mem_map.mp member
    cases here
    exact ⟨simuId, timeStep, name, rank, simu, step, known, client,
      (Ensemble.mem_dataPushers_iff servers known).mp pushed, rfl⟩

end Campaign

theorem nbVect_classic {D : Type} {options : Options D} (classic : options.sobolOp = false) :
    1 = options.nbVect := by
  rw [Options.nbVect, classic]
  rfl

section Statement

variable {D : Type} [Zero D] [Add D] [Sub D] [Mul D] [Div D] [NatCast D] [IntCast D]
  [Pow D ℕ] [LT D] [DecidableLT D] [LE D] [DecidableLE D] [Libm D]

/-- When everything has arrived at a server rank with an element of some field, it stops: nothing
of its progress is lost to repetitions, to timeouts or to messages of the launcher. -/
theorem campaign_stops (options : Options D) (campaign : Campaign D) (nbServers server : Nat)
    (rounds : List (Round D)) (classic : options.sobolOp = false)
    (accepted : rejected options = false)
    (samples : options.samplingSize = (campaign.nbSimu : Int)) (inside : server < nbServers)
    (element : ∃ name ∈ campaign.names, server < (campaign.localVectSizes name).sum)
    (known : ∀ event ∈ eventsOf rounds,
      Known (campaign.Sends nbServers options.nbTimeSteps server) campaign.nbSimu
        options.nbParameters event)
    (complete : Meets (roundStep noRestore) CompleteSample
      (freshServer options ⟨server, nbServers, campaign.nbClients⟩ campaign.names) rounds)
    (all : Arrived (campaign.Sends nbServers options.nbTimeSteps server) (eventsOf rounds)) :
    ∃ srv, run (roundStep noRestore) (freshServer options ⟨server, nbServers, campaign.nbClients⟩
        campaign.names) rounds = some srv ∧ stopTest srv = true := by
  rw [← Campaign.sends_eq (by omega)] at known all
  exact ensemble_stops accepted (nbVect_classic classic) samples inside element known complete all

end Statement

/-- Two simulations on two client ranks with one and two elements, to evaluate the definitions
on. -/
def heatCampaign : Campaign ℚ where
  names := ["heat"]
  nbSimu := 2
  nbClients := 2
  localVectSizes := fun _ => [1, 2]
  clients := fun simuId timeStep _ => [[(simuId : ℚ)], [(timeStep : ℚ), 5]]
  distinct := by decide
  ranks := by
    intro _ _
    rfl
  small := by
    intro _ _
    decide
  first := by
    intro _ _
    decide
  steady := by
    intro _ _
    exact steady_of_pos (by decide)
  sized := by
    intro _ _ _
    rfl

/-- An answer of the launcher about simulation 0. -/
def heatReply : Job ℚ := ⟨0, "1", [7]⟩

/-- The messages to a server rank one after the other; then the launcher is silent. -/
def heatRounds (options : Options ℚ) (nbServers server : Nat) : List (Round ℚ) :=
  thenSilent (heatCampaign.ensemble.orderly nbServers options.nbTimeSteps heatReply server)

theorem heatRounds_known {options : Options ℚ} (parameters : options.nbParameters ≤ 1)
    {nbServers : Nat} (servers : 0 < nbServers) (server : Nat) :
    ∀ event ∈ eventsOf (heatRounds options nbServers server),
      Known (heatCampaign.Sends nbServers options.nbTimeSteps server) 2 options.nbParameters
        event := by
  rw [heatRounds, eventsOf_thenSilent, ← Campaign.sends_eq servers]
  exact Ensemble.orderly_known (by decide) parameters server

theorem heatRounds_arrived (options : Options ℚ) {nbServers : Nat} (servers : 0 < nbServers)
    (server : Nat) : Arrived (heatCampaign.Sends nbServers options.nbTimeSteps server)
      (eventsOf (heatRounds options nbServers server)) := by
  rw [heatRounds, eventsOf_thenSilent, ← Campaign.sends_eq servers]
  exact Ensemble.orderly_arrived heatReply server

theorem campaign_stops_heat :
    ∃ srv, run (roundStep noRestore) (freshServer twoByTwo ⟨1, 2, 2⟩ ["heat"])
        (heatRounds twoByTwo 2 1) = some srv ∧ stopTest srv = true :=
  campaign_stops twoByTwo heatCampaign 2 1 _ rfl (by decide) rfl (by decide)
    ⟨"heat", by decide, by decide⟩ (heatRounds_known (le_refl 1) (by decide) 1)
    (thenSilent_complete (wholeSample_freshServer (by decide) _ _) _)
    (heatRounds_arrived twoByTwo (by decide) 1)

section Exact

variable {K : Type} [Field K] [LinearOrder K] [IsStrictOrderedRing K] [Libm K]

end Exact

end Melissa
